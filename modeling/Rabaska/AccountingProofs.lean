import Rabaska.KeyProofs
import Rabaska.MixtureProofs

/-! What a receiver counts and keeps: how its counters and its packets hang together, where the packets
came from, and how many of them there are. -/

namespace Rabaska.Pipeline

open Call Wire Dedup

variable {crates : Crates}

namespace Receiver

theorem payloadId_eq_some {p : Bytes} {id : Octets 4} :
    payloadId p = some id ↔ 4 ≤ p.length ∧ p.take 4 = id.bytes := by
  unfold payloadId
  split
  · rename_i long
    rw [Option.some_inj]
    constructor
    · rintro rfl
      exact ⟨long, rfl⟩
    · rintro ⟨-, same⟩
      exact Octets.ext same
  · rename_i short
    simp [short]

structure Accounted (rx : Receiver crates) : Prop where
  received : rx.received = rx.ids.card ∧ rx.received = rx.seen.length
  identified : ∀ p ∈ rx.seen, 4 ≤ p.length
  distinct : (rx.seen.map (List.take 4)).Nodup
  ids : ∀ id, id ∈ rx.ids ↔ ∃ p ∈ rx.seen, p.take 4 = id.bytes
  unheard : rx.beacon = none → rx.received = 0 ∧ rx.ids = ∅ ∧ rx.seen = []

theorem Sane.identified {rx : Receiver crates} (sane : Sane rx) {p : Bytes} (member : p ∈ rx.seen) :
    ∃ id, payloadId p = some id := by
  rw [← sane.own] at member
  obtain ⟨-, id, found, -⟩ := mem_fresh member
  exact ⟨id, found⟩

theorem Sane.prefix_inj {rx : Receiver crates} (sane : Sane rx) {p q : Bytes} (first : p ∈ rx.seen)
    (second : q ∈ rx.seen) (same : p.take 4 = q.take 4) : p = q := by
  have keys : ((fresh payloadId ∅ rx.seen).map payloadId).Nodup := keys_fresh_nodup ∅ rx.seen
  rw [sane.own] at keys
  obtain ⟨id, found⟩ := sane.identified first
  obtain ⟨id', found'⟩ := sane.identified second
  have bytes := (payloadId_eq_some.mp found).2
  have bytes' := (payloadId_eq_some.mp found').2
  obtain rfl : id = id' := Octets.ext (bytes.symm.trans (same.trans bytes'))
  exact List.inj_on_of_nodup_map keys first second (found.trans found'.symm)

theorem Sane.accounted {rx : Receiver crates} (sane : Sane rx) : Accounted rx := by
  have nodup : rx.seen.Nodup := by
    rw [← sane.own]
    exact fresh_nodup ∅ rx.seen
  refine ⟨⟨?_, sane.received⟩, fun p member => ?_, ?_, fun id => ?_, fun unknown => ?_⟩
  · rw [sane.received, sane.ids, card_learn, sane.own, Finset.card_empty, Nat.zero_add]
  · obtain ⟨id, found⟩ := sane.identified member
    exact (payloadId_eq_some.mp found).1
  · exact nodup.map_on fun p first q second => sane.prefix_inj first second
  · rw [sane.ids, mem_learn]
    constructor
    · rintro (impossible | ⟨p, member, found⟩)
      · simp at impossible
      · exact ⟨p, member, (payloadId_eq_some.mp found).2⟩
    · rintro ⟨p, member, same⟩
      obtain ⟨other, found⟩ := sane.identified member
      have bytes := (payloadId_eq_some.mp found).2
      obtain rfl : other = id := Octets.ext (bytes.symm.trans same)
      exact .inr ⟨p, member, found⟩
  · obtain ⟨-, seen, -⟩ := sane.unheard unknown
    rw [sane.received, sane.ids, seen]
    exact ⟨rfl, learn_nil ∅, rfl⟩

/-! Where the packets came from. -/

structure Traced (past : List (Input × Option (Except Error Ingest))) (rx : Receiver crates) : Prop where
  parked : ∀ session p, (session, p) ∈ rx.pending → ∃ event ∈ past, Brings crates event.1 session p
  seen : ∀ p ∈ rx.seen, ∃ b, rx.beacon = some b ∧
    ∃ event ∈ past, Brings crates event.1 (sid4 b.sessionId) p

theorem Traced.steps {past : List (Input × Option (Except Error Ingest))} {rx next : Receiver crates}
    {input : Input} {answer : Option (Except Error Ingest)} (sane : Sane rx) (traced : Traced past rx)
    (steps : Steps rx input next) : Traced (past ++ [(input, answer)]) next := by
  have before : ∀ {session p}, (∃ event ∈ past, Brings crates event.1 session p) →
      ∃ event ∈ past ++ [(input, answer)], Brings crates event.1 session p := by
    rintro session p ⟨event, member, brings⟩
    exact ⟨event, List.mem_append_left _ member, brings⟩
  have now : ∀ {session p}, Brings crates input session p →
      ∃ event ∈ past ++ [(input, answer)], Brings crates event.1 session p :=
    fun brings => ⟨(input, answer), by simp, brings⟩
  have kept : ∀ p ∈ rx.seen, ∃ b, rx.beacon = some b ∧
      ∃ event ∈ past ++ [(input, answer)], Brings crates event.1 (sid4 b.sessionId) p := by
    intro p member
    obtain ⟨b, known, brought⟩ := traced.seen p member
    exact ⟨b, known, before brought⟩
  have waiting : ∀ session p, (session, p) ∈ rx.pending →
      ∃ event ∈ past ++ [(input, answer)], Brings crates event.1 session p :=
    fun session p member => before (traced.parked session p member)
  cases steps with
  | quiet => exact ⟨waiting, kept⟩
  | keyed key => exact ⟨waiting, kept⟩
  | parked session packets brought =>
      rcases hold_cases rx session packets with parks | same
      · rw [parks]
        refine ⟨fun session' p either => ?_, kept⟩
        rcases List.mem_append.mp either with early | late
        · exact waiting session' p early
        · obtain ⟨q, member, same⟩ := List.mem_map.mp late
          obtain ⟨rfl, rfl⟩ := Prod.mk.inj same
          exact now (brought q member)
      · rw [same]
        exact ⟨waiting, kept⟩
  | acquired b dec unknown created =>
      refine ⟨waiting, fun p member => ?_⟩
      replace member : p ∈ rx.seen := member
      rw [(sane.unheard unknown).2.1] at member
      simp at member
  | absorbed b dec queued next out done known held brought scanned =>
      refine ⟨fun session p member => by simp [counted] at member, fun p member => ?_⟩
      refine ⟨b, known, ?_⟩
      rcases List.mem_append.mp member with early | late
      · obtain ⟨other, same, came⟩ := kept p early
        obtain rfl := Option.some_inj.mp (known.symm.trans same)
        exact came
      · rcases brought p (mem_fresh late).1 with waited | comes
        · exact waiting _ p waited
        · exact now comes

theorem run_traced {rx : Receiver crates} {trace : List (Input × Option (Except Error Ingest))}
    (run : Machine.Run respond (new crates) trace rx) : Traced trace rx := by
  refine (run.history (fun past rx => Sane rx ∧ Traced past rx) ?_ ⟨sane_new, ?_⟩).2
  · rintro past before input output after ⟨sane, traced⟩ stepped
    exact ⟨respond_sane sane stepped, traced.steps sane (respond_steps sane.opened stepped)⟩
  · exact ⟨by simp [new], by simp [new]⟩

/-! What only grows, and what stays. -/

theorem Steps.grows {rx next : Receiver crates} {input : Input} (steps : Steps rx input next) :
    rx.received ≤ next.received ∧
      (rx.beacon ≠ none → next.beacon ≠ none ∧ next.needed = rx.needed) := by
  cases steps with
  | quiet => exact ⟨Nat.le_refl _, fun known => ⟨known, rfl⟩⟩
  | keyed key => exact ⟨Nat.le_refl _, fun known => ⟨known, rfl⟩⟩
  | parked session packets brought =>
      rcases hold_cases rx session packets with parks | same
      · rw [parks]
        exact ⟨Nat.le_refl _, fun known => ⟨known, rfl⟩⟩
      · rw [same]
        exact ⟨Nat.le_refl _, fun known => ⟨known, rfl⟩⟩
  | acquired b dec unknown created => exact ⟨Nat.le_refl _, fun known => absurd unknown known⟩
  | absorbed b dec queued next out done known held brought scanned =>
      exact ⟨Nat.le_add_right _ _, fun known => ⟨known, rfl⟩⟩

theorem run_grows {rx final : Receiver crates} {trace : List (Input × Option (Except Error Ingest))}
    (sane : Sane rx) (run : Machine.Run respond rx trace final) :
    rx.received ≤ final.received ∧ (rx.beacon ≠ none → final.needed = rx.needed) := by
  have kept := run.invariant (fun now => Sane now ∧ rx.received ≤ now.received ∧
    (rx.beacon ≠ none → now.beacon ≠ none ∧ now.needed = rx.needed)) ?_
    ⟨sane, Nat.le_refl _, fun known => ⟨known, rfl⟩⟩
  · exact ⟨kept.2.1, fun known => (kept.2.2 known).2⟩
  · rintro before input output after ⟨sane, grown, fixed⟩ stepped
    obtain ⟨grows, stays⟩ := (respond_steps sane.opened stepped).grows
    refine ⟨respond_sane sane stepped, grown.trans grows, fun known => ?_⟩
    obtain ⟨acquired, same⟩ := fixed known
    exact ⟨(stays acquired).1, (stays acquired).2.trans same⟩

end Receiver

open Receiver

/-! One transmitter in view. -/

def OneLength (packets : List Bytes) : Prop := ∃ len, ∀ p ∈ packets, p.length = len

section Pool

variable {key : Crypto.SessionKey} {nonce : Octets 24} {cfg : TransmitConfig} {plaintext : Bytes}

def FromOne (crates : Crates) (key : Crypto.SessionKey) (nonce : Octets 24) (cfg : TransmitConfig)
    (plaintext : Bytes) : Input → Prop :=
  FromSenders crates fun _ : Unit => Transmitter.new crates key nonce cfg plaintext

theorem new_uniform (sized : OneLength (Transmitter.encoded crates key nonce cfg plaintext).packets) :
    Uniform crates (Transmitter.new crates key nonce cfg plaintext) := by
  obtain ⟨len, sized⟩ := sized
  exact ⟨rfl, len, Transmitter.new_packetLen_mod sized, sized⟩

theorem FromOne.brings (sized : OneLength (Transmitter.encoded crates key nonce cfg plaintext).packets)
    {input : Input} (fed : FromOne crates key nonce cfg plaintext input) {session : Octets 4} {p : Bytes}
    (brings : Brings crates input session p) :
    p ∈ (Transmitter.encoded crates key nonce cfg plaintext).packets := by
  cases input with
  | restore session packets => exact fed.elim
  | setKey key => exact brings.elim
  | ingest bytes =>
      obtain ⟨_, ops, frame, emitted, rfl⟩ := fed
      exact (brings_uniform (new_uniform sized) (Transmitter.new_emits frame emitted) brings).2

theorem seen_in_pool (sized : OneLength (Transmitter.encoded crates key nonce cfg plaintext).packets)
    {rx : Receiver crates} {trace : List (Input × Option (Except Error Ingest))}
    (run : Machine.Run respond (new crates) trace rx)
    (fed : ∀ event ∈ trace, FromOne crates key nonce cfg plaintext event.1) :
    rx.seen.length ≤ (Transmitter.encoded crates key nonce cfg plaintext).packets.length := by
  have nodup : rx.seen.Nodup := (run_sane run).accounted.distinct.of_map _
  refine (nodup.subperm fun p member => ?_).length_le
  obtain ⟨b, -, event, inside, brings⟩ := (run_traced run).seen p member
  exact (fed event inside).brings sized brings

end Pool

/-- In every receiver reached: the count, the ids and the packets agree, the packets came under the
acquired session, the count only grows and what is needed stays; and one transmitter never makes it
exceed its pool. -/
theorem symbols_accounted {rx : Receiver crates} {trace : List (Input × Option (Except Error Ingest))}
    (run : Machine.Run respond (new crates) trace rx) :
    Accounted rx ∧
    (∀ b, rx.beacon = some b → ∀ p ∈ rx.seen,
      ∃ event ∈ trace, Brings crates event.1 (sid4 b.sessionId) p) ∧
    (∀ more final, Machine.Run respond rx more final →
      rx.received ≤ final.received ∧ (rx.beacon ≠ none → final.needed = rx.needed)) ∧
    ∀ key nonce cfg plaintext, OneLength (Transmitter.encoded crates key nonce cfg plaintext).packets →
      (∀ event ∈ trace, FromOne crates key nonce cfg plaintext event.1) →
      rx.received ≤ (Transmitter.new crates key nonce cfg plaintext).packets.length := by
  have sane := run_sane run
  refine ⟨sane.accounted, fun b known p member => ?_, fun more final => run_grows sane,
    fun key nonce cfg plaintext sized fed => ?_⟩
  · obtain ⟨other, same, came⟩ := (run_traced run).seen p member
    obtain rfl := Option.some_inj.mp (known.symm.trans same)
    exact came
  · rw [sane.received]
    exact seen_in_pool sized run fed

/-! What is parked and what was taken, side by side. -/

namespace Receiver

def retained (rx : Receiver crates) : List Bytes := rx.pending.map Prod.snd ++ rx.seen

/-- The packets of the SYMBOL frames in front of the first BEACON frame. -/
def early (crates : Crates) : List Input → List Bytes
  | [] => []
  | .ingest frame :: inputs =>
      match read crates frame with
      | .ok (.inl _) => []
      | .ok (.inr sf) => sf.packets ++ early crates inputs
      | .error _ => early crates inputs
  | .restore _ _ :: inputs => early crates inputs
  | .setKey _ :: inputs => early crates inputs

/-- A call that restores nothing and brings only packets of the pool. -/
def Feeds (crates : Crates) (pool : List Bytes) : Input → Prop
  | .ingest frame => ∀ session p, Brings crates (.ingest frame) session p → p ∈ pool
  | .restore _ _ => False
  | .setKey _ => True

structure Pooled (pool : List Bytes) (rx : Receiver crates) : Prop where
  parked : ∀ entry ∈ rx.pending, entry.2 ∈ pool
  seen : ∀ p ∈ rx.seen, p ∈ pool

theorem Feeds.brings {pool : List Bytes} {input : Input} (feeds : Feeds crates pool input)
    {session : Octets 4} {p : Bytes} (brings : Brings crates input session p) : p ∈ pool := by
  cases input with
  | ingest frame => exact feeds session p brings
  | restore session packets => exact feeds.elim
  | setKey key => exact brings.elim

theorem Pooled.steps {pool : List Bytes} {rx next : Receiver crates} {input : Input}
    (pooled : Pooled pool rx) (feeds : Feeds crates pool input) (steps : Steps rx input next) :
    Pooled pool next := by
  cases steps with
  | quiet => exact pooled
  | keyed key => exact ⟨pooled.parked, pooled.seen⟩
  | parked session packets brought =>
      rcases hold_cases rx session packets with parks | same
      · rw [parks]
        refine ⟨fun entry either => ?_, pooled.seen⟩
        rcases List.mem_append.mp either with before | now
        · exact pooled.parked entry before
        · obtain ⟨q, member, rfl⟩ := List.mem_map.mp now
          exact feeds.brings (brought q member)
      · rwa [same]
  | acquired b dec unknown created => exact ⟨pooled.parked, pooled.seen⟩
  | absorbed b dec queued next out done known held brought scanned =>
      refine ⟨fun entry member => by simp [counted] at member, fun p member => ?_⟩
      rcases List.mem_append.mp member with before | now
      · exact pooled.seen p before
      · rcases brought p (mem_fresh now).1 with waited | comes
        · exact pooled.parked _ waited
        · exact feeds.brings comes

theorem ingest_heard {rx next : Receiver crates} {frame : Bytes} {result : Except Error Ingest}
    (sane : Sane rx) (known : rx.beacon ≠ none) (ingested : rx.ingest frame = some (result, next)) :
    next.beacon ≠ none ∧ (next.pending = [] ∨ next.pending = rx.pending ∧ next.seen = rx.seen) := by
  cases ingest_cases ingested with
  | refused error => exact ⟨known, .inr ⟨rfl, rfl⟩⟩
  | ignored => exact ⟨known, .inr ⟨rfl, rfl⟩⟩
  | acquired b needed dec running unknown created => exact absurd unknown known
  | parked session packets running unknown => exact absurd unknown known
  | absorbed packets result next running absorbed =>
      obtain ⟨b, acquired⟩ := Option.ne_none_iff_exists'.mp known
      obtain ⟨dec, held⟩ := sane.opened b acquired
      obtain ⟨dec', out, done, -, rfl⟩ := absorb_scanned acquired held absorbed
      exact ⟨known, .inl rfl⟩

/-- In front of the beacon a frame parks what it carries, or is the beacon. -/
theorem ingest_unheard {rx next : Receiver crates} {frame : Bytes} {result : Except Error Ingest}
    (running : rx.done = false) (unknown : rx.beacon = none)
    (ingested : rx.ingest frame = some (result, next)) :
    (next.beacon = none ∧ ∃ now, next.pending.map Prod.snd = rx.pending.map Prod.snd ++ now ∧
      ∀ inputs, early crates (.ingest frame :: inputs) = now ++ early crates inputs) ∨
    (next.beacon ≠ none ∧ next.pending = rx.pending ∧ next.seen = rx.seen ∧
      ∀ inputs, early crates (.ingest frame :: inputs) = []) := by
  rw [ingest_eq, running] at ingested
  simp only [Bool.false_eq_true, if_false, decoded] at ingested
  cases said : read crates frame with
  | error fault =>
      cases fault with
      | panic => simp [said] at ingested
      | err error =>
          simp only [said] at ingested
          obtain ⟨-, rfl⟩ := Prod.mk.inj (Option.some_inj.mp ingested)
          exact .inl ⟨unknown, [], by simp, by simp [early, said]⟩
  | ok content =>
      simp only [said] at ingested
      cases content with
      | inr sf =>
          replace ingested : rx.ingestSymbol sf = some (result, next) := ingested
          rw [ingestSymbol_early unknown] at ingested
          obtain ⟨-, rfl⟩ := Prod.mk.inj (Option.some_inj.mp ingested)
          exact .inl ⟨unknown, sf.packets, by simp, by simp [early, said]⟩
      | inl b =>
          replace ingested : rx.ingestBeacon b = some (result, next) := ingested
          rw [ingestBeacon_unknown unknown] at ingested
          obtain ⟨dec, -, same⟩ := Option.map_eq_some_iff.mp ingested
          obtain ⟨-, rfl⟩ := Prod.mk.inj same
          exact .inr ⟨by simp, rfl, rfl, by simp [early, said]⟩

section Retention

variable {pool : List Bytes} {rx final : Receiver crates}
  {trace : List (Input × Option (Except Error Ingest))} {Good : List Bytes → Prop}

/-- What is good of any packets of the pool, each at most once, stays good behind the beacon. -/
theorem along_heard (own : ∀ packets : List Bytes, packets.Nodup → (∀ p ∈ packets, p ∈ pool) → Good packets)
    (run : Machine.Run respond rx trace final) (fed : ∀ event ∈ trace, Feeds crates pool event.1)
    (sane : Sane rx) (pooled : Pooled pool rx) (known : rx.beacon ≠ none)
    (kept : rx.pending = [] ∨ rx.seen = [] ∧ Good (rx.pending.map Prod.snd)) :
    Machine.Along respond (fun _ _ _ next => Good next.retained) rx trace := by
  refine (run.along fed).invariant (fun rx => Sane rx ∧ Pooled pool rx ∧ rx.beacon ≠ none ∧
    (rx.pending = [] ∨ rx.seen = [] ∧ Good (rx.pending.map Prod.snd))) ?_ ⟨sane, pooled, known, kept⟩
  rintro rx input answer next ⟨sane, pooled, known, kept⟩ stepped feeds
  have after := respond_sane sane stepped
  have inside := pooled.steps feeds (respond_steps sane.opened stepped)
  have still : next.beacon ≠ none ∧
      (next.pending = [] ∨ next.seen = [] ∧ Good (next.pending.map Prod.snd)) := by
    cases input with
    | restore session packets => exact feeds.elim
    | setKey key =>
        obtain ⟨-, rfl⟩ := Prod.mk.inj (Option.some_inj.mp stepped)
        exact ⟨known, kept⟩
    | ingest frame =>
        obtain ⟨result, -, ingested⟩ := respond_ingest stepped
        obtain ⟨known, empty | ⟨pending, seen⟩⟩ := ingest_heard sane known ingested
        · exact ⟨known, .inl empty⟩
        · rw [pending, seen]
          exact ⟨known, kept⟩
  refine ⟨?_, after, inside, still⟩
  rcases still.2 with empty | ⟨unseen, good⟩
  · rw [retained, empty]
    exact own next.seen (after.accounted.distinct.of_map _) inside.seen
  · rwa [retained, unseen, List.append_nil]

theorem along_retained_iff (fewer : ∀ front back, Good (front ++ back) → Good front)
    (own : ∀ packets : List Bytes, packets.Nodup → (∀ p ∈ packets, p ∈ pool) → Good packets)
    (run : Machine.Run respond rx trace final) (fed : ∀ event ∈ trace, Feeds crates pool event.1)
    (sane : Sane rx) (pooled : Pooled pool rx) (unknown : rx.beacon = none)
    (good : Good (rx.pending.map Prod.snd)) :
    Machine.Along respond (fun _ _ _ next => Good next.retained) rx trace ↔
      Good (rx.pending.map Prod.snd ++ early crates (trace.map Prod.fst)) := by
  induction run with
  | nil rx => exact iff_of_true trivial (by simpa [early] using good)
  | @cons rx input answer next trace final stepped rest ih =>
      obtain ⟨feeds, later⟩ := List.forall_mem_cons.mp fed
      obtain ⟨-, unseen, running⟩ := sane.unheard unknown
      have after := respond_sane sane stepped
      have inside := pooled.steps feeds (respond_steps sane.opened stepped)
      rw [Machine.along_cons_iff stepped, List.map_cons]
      -- A call that leaves the beacon out parks the packets it brings, none for most calls.
      have waiting : ∀ now, next.beacon = none →
          next.pending.map Prod.snd = rx.pending.map Prod.snd ++ now →
          early crates (input :: trace.map Prod.fst) = now ++ early crates (trace.map Prod.fst) →
          (Good next.retained ∧ Machine.Along respond (fun _ _ _ next => Good next.retained) next trace ↔
            Good (rx.pending.map Prod.snd ++ early crates (input :: trace.map Prod.fst))) := by
        intro now unknown parks brings
        have shape : next.retained = next.pending.map Prod.snd := by
          rw [retained, (after.unheard unknown).2.1, List.append_nil]
        rw [brings, ← List.append_assoc, ← parks, shape]
        constructor
        · rintro ⟨good, along⟩
          exact (ih later after inside unknown good).mp along
        · intro good
          have front := fewer _ _ good
          exact ⟨front, (ih later after inside unknown front).mpr good⟩
      cases input with
      | restore session packets => exact feeds.elim
      | setKey key =>
          obtain ⟨-, rfl⟩ := Prod.mk.inj (Option.some_inj.mp stepped)
          exact waiting [] unknown (by simp [setKey]) rfl
      | ingest frame =>
          obtain ⟨result, -, ingested⟩ := respond_ingest stepped
          rcases ingest_unheard running unknown ingested with
            ⟨still, now, parks, brings⟩ | ⟨known, pending, seen, brings⟩
          · exact waiting now still parks (brings _)
          · rw [brings, List.append_nil]
            have kept : next.pending = [] ∨ next.seen = [] ∧ Good (next.pending.map Prod.snd) :=
              .inr ⟨seen.trans unseen, by rwa [pending]⟩
            refine iff_of_true ⟨?_, along_heard own rest later after inside known kept⟩ good
            rwa [retained, pending, seen, unseen, List.append_nil]

end Retention

end Receiver

section Pool

variable {key : Crypto.SessionKey} {nonce : Octets 24} {cfg : TransmitConfig} {plaintext : Bytes}

theorem FromOne.feeds (sized : OneLength (Transmitter.encoded crates key nonce cfg plaintext).packets)
    {input : Input} (fed : FromOne crates key nonce cfg plaintext input) :
    Feeds crates (Transmitter.encoded crates key nonce cfg plaintext).packets input := by
  cases input with
  | restore session packets => exact fed.elim
  | setKey key => trivial
  | ingest frame => exact fun session p brings => fed.brings sized brings

/-- Duplicates are dropped behind the beacon and kept in front of it: what is retained stays within
the pool exactly when the SYMBOL frames in front of the beacon carry no more packets than that, and
holds each packet once exactly when they carry none twice. -/
theorem retention_bounded_iff
    (sized : OneLength (Transmitter.encoded crates key nonce cfg plaintext).packets)
    {final : Receiver crates} {trace : List (Input × Option (Except Error Ingest))}
    (run : Machine.Run respond (new crates) trace final)
    (fed : ∀ event ∈ trace, FromOne crates key nonce cfg plaintext event.1) :
    (Machine.Along respond (fun _ _ _ next => next.pending.length + next.seen.length ≤
        (Transmitter.new crates key nonce cfg plaintext).packets.length) (new crates) trace ↔
      (early crates (trace.map Prod.fst)).length ≤
        (Transmitter.new crates key nonce cfg plaintext).packets.length) ∧
    (Machine.Along respond (fun _ _ _ next => (next.pending.map Prod.snd ++ next.seen).Nodup)
        (new crates) trace ↔ (early crates (trace.map Prod.fst)).Nodup) := by
  have feeds := fun event member => (fed event member).feeds sized
  have pooled : Pooled (Transmitter.encoded crates key nonce cfg plaintext).packets (new crates) :=
    ⟨by simp [new], by simp [new]⟩
  constructor
  · have bounded := @along_retained_iff crates _ _ _ trace
      (fun packets => packets.length ≤ (Transmitter.new crates key nonce cfg plaintext).packets.length)
      (fun front back fits => by rw [List.length_append] at fits; omega)
      (fun packets nodup inside => (nodup.subperm inside).length_le) run feeds sane_new pooled rfl
      (Nat.zero_le _)
    simpa [retained, new] using bounded
  · exact along_retained_iff (fun front back nodup => (List.nodup_append.mp nodup).1)
      (fun packets nodup _ => nodup) run feeds sane_new pooled rfl List.nodup_nil

end Pool

/-! The small transfer. -/

theorem oneLength_terse : OneLength terseObject.packets := ⟨8, by decide +kernel⟩

theorem fromOne_terse {frames : List Frame} (drawn : frames ⊆ terseFrames)
    {trace : List (Input × Option (Except Error Ingest))} (inputs : trace.map Prod.fst = sent frames) :
    ∀ event ∈ trace, FromOne terseCrates sampleKey sampleNonce sampleConfig samplePlaintext event.1 := by
  intro event member
  have input : event.1 ∈ sent frames := by
    rw [← inputs]
    exact List.mem_map_of_mem member
  obtain ⟨frame, inside, same⟩ := List.mem_map.mp input
  rw [← same]
  exact ⟨(), _, frame, drawn inside, rfl⟩

set_option maxRecDepth 100000 in
theorem symbols_accounted_terse : ∃ trace rx, Machine.Run respond (new terseCrates) trace rx ∧
    trace.map Prod.fst = sent (terseFrames.take 2) ∧ rx.received = 2 ∧ rx.ids.card = 2 ∧
    rx.received ≤ 16 := by
  have computed : (Machine.execute respond (new terseCrates) (sent (terseFrames.take 2))).map
      (fun result => result.2.received) = some 2 := by decide +kernel
  obtain ⟨⟨answers, rx⟩, executed, counted⟩ := Option.map_eq_some_iff.mp computed
  obtain ⟨run, sized⟩ := Machine.execute_run executed
  have inputs := List.map_fst_zip (Nat.le_of_eq sized)
  obtain ⟨accounted, -, -, bounded⟩ := symbols_accounted run
  have within := bounded sampleKey sampleNonce sampleConfig samplePlaintext oneLength_terse
    (fromOne_terse (List.take_subset 2 terseFrames) inputs)
  exact ⟨_, rx, run, inputs, counted, accounted.received.1.symm.trans counted, within⟩

def lateBeacon : List Frame := (terseFrames.take 2).reverse

set_option maxRecDepth 100000 in
theorem retention_bounded_late : ∃ trace final, Machine.Run respond (new terseCrates) trace final ∧
    trace.map Prod.fst = sent lateBeacon ∧
    Machine.Along respond (fun _ _ _ next => (next.pending.map Prod.snd ++ next.seen).Nodup)
      (new terseCrates) trace := by
  obtain ⟨trace, final, run, inputs, -⟩ := Machine.run_of_view respond (new terseCrates)
    (sent lateBeacon) id [some (.ok .ignored), some (.ok .beaconAcquired)] (by decide +kernel)
  have drawn : lateBeacon ⊆ terseFrames := by
    intro frame member
    exact List.mem_of_mem_take (List.mem_reverse.mp member)
  have waits : (early terseCrates (trace.map Prod.fst)).Nodup := by
    rw [inputs]
    decide +kernel
  exact ⟨trace, final, run, inputs,
    (retention_bounded_iff oneLength_terse run (fromOne_terse drawn inputs)).2.mpr waits⟩

set_option maxRecDepth 100000 in
/-- The whole pool, shown twice before the beacon, is parked twice. -/
theorem pool_parked_twice : ∃ trace final, Machine.Run respond (new terseCrates) trace final ∧
    trace.map Prod.fst = sent (terseFrames.drop 2 ++ terseFrames.drop 2) ∧
    (∀ event ∈ trace,
      FromOne terseCrates sampleKey sampleNonce sampleConfig samplePlaintext event.1) ∧
    ¬final.pending.length + final.seen.length ≤ (Transmitter.new terseCrates sampleKey sampleNonce
      sampleConfig samplePlaintext).packets.length := by
  have computed : (Machine.execute respond (new terseCrates)
      (sent (terseFrames.drop 2 ++ terseFrames.drop 2))).map
        (fun result => result.2.pending.length + result.2.seen.length) = some 32 := by decide +kernel
  obtain ⟨⟨answers, final⟩, executed, kept⟩ := Option.map_eq_some_iff.mp computed
  obtain ⟨run, sized⟩ := Machine.execute_run executed
  have inputs := List.map_fst_zip (Nat.le_of_eq sized)
  have drawn : terseFrames.drop 2 ++ terseFrames.drop 2 ⊆ terseFrames :=
    List.append_subset.mpr ⟨List.drop_subset 2 _, List.drop_subset 2 _⟩
  refine ⟨_, final, run, inputs, fromOne_terse drawn inputs, ?_⟩
  rw [kept]
  decide +kernel

end Rabaska.Pipeline
