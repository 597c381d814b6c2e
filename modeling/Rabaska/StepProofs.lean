import Rabaska.FormatProofs
import Rabaska.Library.Dedup
import Rabaska.ReceiverProofs
import Rabaska.RecordCore

/-! What a call on a receiver computes, in closed form, and what holds of every receiver reached. -/

namespace Rabaska.Pipeline

open Call Wire Dedup

variable {crates : Crates}

/-! A decoder that is handed packets until it gives an object. -/

def decodeUntil (crates : Crates) :
    crates.Decoder → List Bytes → Option (crates.Decoder × Option Bytes)
  | dec, [] => some (dec, none)
  | dec, packet :: packets =>
      match crates.decode dec packet with
      | none => none
      | some (next, some ct) => some (next, some ct)
      | some (next, none) => decodeUntil crates next packets

/-- The packets it takes, the one at which the object comes or at which it panics included. -/
def handed (crates : Crates) : crates.Decoder → List Bytes → List Bytes
  | _, [] => []
  | dec, packet :: packets =>
      packet :: match crates.decode dec packet with
        | some (next, none) => handed crates next packets
        | _ => []

section Packet

variable {dec next : crates.Decoder} {packet ct : Bytes}

theorem decodeUntil_complete (answered : crates.decode dec packet = some (next, some ct))
    (packets : List Bytes) :
    decodeUntil crates dec (packet :: packets) = some (next, some ct) := by
  rw [decodeUntil, answered]

theorem decodeUntil_quiet (answered : crates.decode dec packet = some (next, none))
    (packets : List Bytes) :
    decodeUntil crates dec (packet :: packets) = decodeUntil crates next packets := by
  rw [decodeUntil, answered]

theorem handed_complete (answered : crates.decode dec packet = some (next, some ct))
    (packets : List Bytes) : handed crates dec (packet :: packets) = [packet] := by
  rw [handed, answered]

theorem handed_quiet (answered : crates.decode dec packet = some (next, none))
    (packets : List Bytes) :
    handed crates dec (packet :: packets) = packet :: handed crates next packets := by
  rw [handed, answered]

end Packet

theorem decodeUntil_append {dec next : crates.Decoder} {front : List Bytes}
    (quiet : decodeUntil crates dec front = some (next, none)) (back : List Bytes) :
    decodeUntil crates dec (front ++ back) = decodeUntil crates next back := by
  induction front generalizing dec with
  | nil =>
      obtain ⟨rfl, -⟩ := Prod.mk.inj (Option.some_inj.mp quiet)
      rfl
  | cons packet front ih =>
      rw [decodeUntil] at quiet
      rw [List.cons_append, decodeUntil]
      split at quiet
      · simp at quiet
      · simp at quiet
      · exact ih quiet

theorem handed_subset (dec : crates.Decoder) (packets : List Bytes) :
    ∀ p ∈ handed crates dec packets, p ∈ packets := by
  induction packets generalizing dec with
  | nil => simp [handed]
  | cons packet packets ih =>
      intro p member
      rcases List.mem_cons.mp member with rfl | rest
      · exact List.mem_cons_self
      · split at rest
        · exact List.mem_cons_of_mem packet (ih _ p rest)
        · simp at rest

namespace Receiver

/-! What the bytes of a frame say to a receiver. -/

def read (crates : Crates) (frame : Bytes) : Outcome Error (Beacon ⊕ SymbolFrame) := do
  let ty ← peekType frame
  if ty = FrameType.beacon then
    let b ← Beacon.decode crates frame
    .ok (.inl b)
  else if ty = FrameType.symbol then
    let sf ← SymbolFrame.decode crates frame
    .ok (.inr sf)
  else fail (.badFrameType ty)

def heed (rx : Receiver crates) :
    Beacon ⊕ SymbolFrame → Option (Except Error Ingest × Receiver crates) :=
  Sum.elim rx.ingestBeacon rx.ingestSymbol

theorem decoded_bind {α β : Type} (rx : Receiver crates) (first : Outcome Error α)
    (second : α → Outcome Error β) (next : β → Option (Except Error Ingest × Receiver crates)) :
    rx.decoded (first >>= second) next = rx.decoded first fun value => rx.decoded (second value) next := by
  cases first with
  | ok value => rfl
  | error fault => cases fault <;> rfl

theorem ingest_eq (rx : Receiver crates) (frame : Bytes) : rx.ingest frame =
    if rx.done then some (.ok .ignored, rx) else rx.decoded (read crates frame) rx.heed := by
  unfold ingest read
  split
  · rfl
  · rw [decoded_bind]
    congr 1
    funext ty
    split
    · rw [decoded_bind]
      rfl
    · split
      · rw [decoded_bind]
        rfl
      · rfl

theorem read_beacon {frame : Bytes} {b : Beacon} (decoded : Beacon.decode crates frame = .ok b) :
    read crates frame = .ok (.inl b) := by
  simp [read, Accepts.peekType crates (.beacon b decoded), decoded]

theorem read_symbol {frame : Bytes} {sf : SymbolFrame}
    (decoded : SymbolFrame.decode crates frame = .ok sf) : read crates frame = .ok (.inr sf) := by
  have other : FrameType.symbol ≠ FrameType.beacon := by decide
  simp [read, Accepts.peekType crates (.symbol sf decoded), decoded, other]

theorem read_cases {frame : Bytes} {content : Beacon ⊕ SymbolFrame}
    (said : read crates frame = .ok content) :
    (∃ b, content = .inl b ∧ Beacon.decode crates frame = .ok b) ∨
      ∃ sf, content = .inr sf ∧ SymbolFrame.decode crates frame = .ok sf := by
  unfold read at said
  cases peeked : peekType frame with
  | error fault => simp [peeked] at said
  | ok ty =>
      simp only [peeked, ok_bind] at said
      split at said
      · cases decoded : Beacon.decode crates frame with
        | error fault => simp [decoded] at said
        | ok b =>
            rw [decoded, ok_bind] at said
            exact .inl ⟨b, (Except.ok.inj said).symm, rfl⟩
      · split at said
        · cases decoded : SymbolFrame.decode crates frame with
          | error fault => simp [decoded] at said
          | ok sf =>
              rw [decoded, ok_bind] at said
              exact .inr ⟨sf, (Except.ok.inj said).symm, rfl⟩
        · simp [fail] at said

theorem read_panics_iff (frame : Bytes) :
    read crates frame = .error .panic ↔ DeclaresEmptyPackets crates frame := by
  rw [← SymbolFrame.decode_panics_iff]
  constructor
  · intro panics
    unfold read at panics
    obtain impossible | ⟨ty, -, panics⟩ := (panics_bind _ _).mp panics
    · exact absurd impossible (peekType_not_panics frame)
    · split at panics
      · obtain impossible | ⟨b, -, impossible⟩ := (panics_bind _ _).mp panics
        · exact absurd impossible (Beacon.decode_not_panics crates frame)
        · exact absurd impossible (not_panics_ok _)
      · split at panics
        · obtain panics | ⟨sf, -, impossible⟩ := (panics_bind _ _).mp panics
          · exact panics
          · exact absurd impossible (not_panics_ok _)
        · exact absurd panics (not_panics_fail _)
  · intro panics
    obtain ⟨sid4, frameId, count, rfl⟩ := (SymbolFrame.decode_panics_iff crates frame).mp panics
    have peeked := peekType_framed crates FrameType.symbol
      (symbolBody sid4 frameId count (Octets.replicate 2 0) [])
    have other : FrameType.symbol ≠ FrameType.beacon := by decide
    replace panics : SymbolFrame.decode crates _ = .error .panic := panics
    simp [read, peeked, other, panics]

/-! The loop of `absorb` takes the fresh packets of the queue, and hands them to the decoder until
something is reassembled. -/

def counted (rx : Receiver crates) (queued : List Bytes) (dec : crates.Decoder) : Receiver crates :=
  { rx with
    ids := learn payloadId rx.ids queued
    seen := rx.seen ++ fresh payloadId rx.ids queued
    received := rx.received + (fresh payloadId rx.ids queued).length
    decoder := some dec }

theorem counted_nil {rx : Receiver crates} {dec : crates.Decoder} (held : rx.decoder = some dec) :
    rx.counted [] dec = rx := by
  obtain ⟨beacon, key, decoder, pending, seen, ids, received, needed, done⟩ := rx
  obtain rfl : decoder = some dec := held
  simp [counted, fresh]

theorem counted_keyless (rx : Receiver crates) {raw : Bytes} (keyless : payloadId raw = none)
    (queued : List Bytes) (dec : crates.Decoder) :
    rx.counted (raw :: queued) dec = rx.counted queued dec := by
  simp [counted, learn_keyless keyless, fresh_keyless keyless]

theorem counted_known (rx : Receiver crates) {raw : Bytes} {id : Octets 4}
    (identified : payloadId raw = some id) (known : id ∈ rx.ids) (queued : List Bytes)
    (dec : crates.Decoder) : rx.counted (raw :: queued) dec = rx.counted queued dec := by
  simp [counted, learn_known identified known, fresh_known identified known]

theorem counted_new (rx : Receiver crates) {raw : Bytes} {id : Octets 4}
    (identified : payloadId raw = some id) (absent : id ∉ rx.ids) (queued : List Bytes)
    (dec next : crates.Decoder) : rx.counted (raw :: queued) dec =
      ({ rx with
        ids := insert id rx.ids, seen := rx.seen ++ [raw], received := rx.received + 1,
        decoder := some next } : Receiver crates).counted queued dec := by
  simp [counted, learn_new identified, fresh_new identified absent, Nat.add_assoc, Nat.add_comm 1]

theorem absorbOne_keyless (state : Receiver crates × Option Bytes) {raw : Bytes}
    (keyless : payloadId raw = none) : absorbOne state raw = some state := by
  simp [absorbOne, keyless]

theorem foldlM_found {rx : Receiver crates} {dec : crates.Decoder} {ct : Bytes}
    (held : rx.decoder = some dec) (queued : List Bytes) :
    queued.foldlM absorbOne (rx, some ct) = some (rx.counted queued dec, some ct) := by
  induction queued generalizing rx with
  | nil => rw [counted_nil held]; rfl
  | cons raw queued ih =>
      rw [List.foldlM_cons]
      cases identified : payloadId raw with
      | none =>
          rw [absorbOne_keyless _ identified, counted_keyless rx identified]
          exact ih held
      | some id =>
          by_cases known : id ∈ rx.ids
          · rw [absorbOne_known identified known, counted_known rx identified known]
            exact ih held
          · rw [absorbOne_counted identified known held, counted_new rx identified known queued dec dec,
              ← held]
            exact ih held

theorem foldlM_closed {rx : Receiver crates} {dec : crates.Decoder} (held : rx.decoder = some dec)
    (queued : List Bytes) : queued.foldlM absorbOne (rx, none) =
      (decodeUntil crates dec (fresh payloadId rx.ids queued)).map fun (dec, out) =>
        (rx.counted queued dec, out) := by
  induction queued generalizing rx dec with
  | nil => simp [decodeUntil, fresh, counted_nil held]
  | cons raw queued ih =>
      rw [List.foldlM_cons]
      cases identified : payloadId raw with
      | none =>
          simp only [absorbOne_keyless _ identified, fresh_keyless identified,
            counted_keyless rx identified]
          exact ih held
      | some id =>
          by_cases known : id ∈ rx.ids
          · simp only [absorbOne_known identified known, fresh_known identified known,
              counted_known rx identified known]
            exact ih held
          · rw [fresh_new identified known, decodeUntil]
            cases answered : crates.decode dec raw with
            | none => simp [absorbOne, identified, known, held, answered]
            | some answer =>
                obtain ⟨next, out⟩ := answer
                rw [absorbOne_decoded identified known held answered]
                cases out with
                | none =>
                    simp only [counted_new rx identified known queued _ next]
                    exact ih rfl
                | some ct =>
                    simp only [Option.map_some, counted_new rx identified known queued _ next]
                    exact foldlM_found rfl queued

theorem absorb_known {rx : Receiver crates} {b : Beacon} (known : rx.beacon = some b)
    (packets : List Bytes) : rx.absorb packets =
      ((rx.queued b packets).foldlM absorbOne ({ rx with pending := [] }, none)).bind
        fun (absorbed, finished) => some (absorbed.conclude b finished) :=
  congrArg (Option.bind · _) known

theorem absorb_closed {rx : Receiver crates} {b : Beacon} {dec : crates.Decoder}
    (known : rx.beacon = some b) (held : rx.decoder = some dec) (packets : List Bytes) :
    rx.absorb packets =
      (decodeUntil crates dec (fresh payloadId rx.ids (rx.queued b packets))).map fun (dec, out) =>
        (({ rx with pending := [] } : Receiver crates).counted (rx.queued b packets) dec).conclude b
          out := by
  have closed := @foldlM_closed _ { rx with pending := [] } dec held (rx.queued b packets)
  rw [absorb_known known, closed]
  cases decodeUntil crates dec (fresh payloadId rx.ids (rx.queued b packets)) <;> rfl

theorem conclude_done (rx : Receiver crates) (b : Beacon) (found : Option Bytes) :
    ∃ done, (rx.conclude b found).2 = { rx with done } := by
  unfold conclude
  split
  · split
    · exact ⟨rx.done, rfl⟩
    · exact ⟨true, rfl⟩
  · exact ⟨rx.done, rfl⟩

theorem absorb_scanned {rx next : Receiver crates} {b : Beacon} {dec : crates.Decoder}
    {packets : List Bytes} {result : Except Error Ingest} (known : rx.beacon = some b)
    (held : rx.decoder = some dec) (absorbed : rx.absorb packets = some (result, next)) :
    ∃ dec' out done, decodeUntil crates dec (fresh payloadId rx.ids (rx.queued b packets)) =
        some (dec', out) ∧
      next = { ({ rx with pending := [] } : Receiver crates).counted (rx.queued b packets) dec' with
        done } := by
  rw [absorb_closed known held] at absorbed
  obtain ⟨⟨dec', out⟩, scanned, same⟩ := Option.map_eq_some_iff.mp absorbed
  obtain ⟨done, finished⟩ := conclude_done
    (({ rx with pending := [] } : Receiver crates).counted (rx.queued b packets) dec') b out
  exact ⟨dec', out, done, scanned, (congrArg Prod.snd same).symm.trans finished⟩

theorem hold_own {rx : Receiver crates} {session : Octets 4}
    (own : ∀ b, rx.beacon = some b → session = sid4 b.sessionId) (packets : List Bytes) :
    rx.hold session packets =
      { rx with pending := rx.pending ++ packets.map fun p => (session, p) } := by
  unfold Receiver.hold
  dsimp only
  split
  · rename_i b known
    simp [own b known]
  · rfl

theorem hold_foreign {rx : Receiver crates} {session : Octets 4} {b : Beacon}
    (known : rx.beacon = some b) (foreign : session ≠ sid4 b.sessionId) (packets : List Bytes) :
    rx.hold session packets = rx := by
  simp [Receiver.hold, known, foreign]

theorem hold_cases (rx : Receiver crates) (session : Octets 4) (packets : List Bytes) :
    rx.hold session packets = { rx with pending := rx.pending ++ packets.map fun p => (session, p) } ∨
      rx.hold session packets = rx := by
  by_cases own : ∀ b, rx.beacon = some b → session = sid4 b.sessionId
  · exact .inl (hold_own own packets)
  · simp only [not_forall] at own
    obtain ⟨b, known, foreign⟩ := own
    exact .inr (hold_foreign known foreign packets)

theorem hold_decoder (rx : Receiver crates) (session : Octets 4) (packets : List Bytes) :
    (rx.hold session packets).decoder = rx.decoder := by
  rcases hold_cases rx session packets with parks | same
  · rw [parks]
  · rw [same]

/-- The packets that a call brings, each with the session it comes under. -/
def Brings (crates : Crates) : Input → Octets 4 → Bytes → Prop
  | .ingest frame, session, p =>
      ∃ sf, SymbolFrame.decode crates frame = .ok sf ∧ sf.sid4 = session ∧ p ∈ sf.packets
  | .restore restored packets, session, p => restored = session ∧ p ∈ packets
  | .setKey _, _, _ => False

/-- The kinds of step that a call takes: what it parks it brings, and what it queues was parked or
is brought. -/
inductive Steps (rx : Receiver crates) (input : Input) : Receiver crates → Prop
  | quiet : Steps rx input rx
  | keyed (key) : Steps rx input (rx.setKey key)
  | parked (session packets) : (∀ p ∈ packets, Brings crates input session p) →
      Steps rx input (rx.hold session packets)
  | acquired (b dec) : rx.beacon = none → crates.newDecoder b.oti = some dec →
      Steps rx input
        { rx with needed := symbolsNeeded crates b.oti, decoder := some dec, beacon := some b }
  | absorbed (b dec queued next out done) : rx.beacon = some b → rx.decoder = some dec →
      (∀ p ∈ queued, (sid4 b.sessionId, p) ∈ rx.pending ∨
        Brings crates input (sid4 b.sessionId) p) →
      decodeUntil crates dec (fresh payloadId rx.ids queued) = some (next, out) →
      Steps rx input { ({ rx with pending := [] } : Receiver crates).counted queued next with done }

theorem mem_queued {rx : Receiver crates} {b : Beacon} {packets : List Bytes} {p : Bytes}
    (member : p ∈ rx.queued b packets) : (sid4 b.sessionId, p) ∈ rx.pending ∨ p ∈ packets := by
  rcases List.mem_append.mp member with parked | now
  · obtain ⟨entry, kept, rfl⟩ := List.mem_map.mp parked
    obtain ⟨inside, own⟩ := List.mem_filter.mp kept
    rw [← show entry.1 = sid4 b.sessionId by simpa using own]
    exact .inl inside
  · exact .inr now

theorem respond_ingest {rx next : Receiver crates} {frame : Bytes}
    {answer : Option (Except Error Ingest)} (stepped : rx.respond (.ingest frame) = some (answer, next)) :
    ∃ result, answer = some result ∧ rx.ingest frame = some (result, next) := by
  obtain ⟨⟨result, after⟩, ingested, same⟩ := Option.map_eq_some_iff.mp stepped
  obtain ⟨rfl, rfl⟩ := Prod.mk.inj same
  exact ⟨result, rfl, ingested⟩

theorem absorb_steps {rx next : Receiver crates} {b : Beacon} {dec : crates.Decoder}
    {packets : List Bytes} {result : Except Error Ingest} {input : Input} (known : rx.beacon = some b)
    (held : rx.decoder = some dec) (absorbed : rx.absorb packets = some (result, next))
    (brought : ∀ p ∈ packets, Brings crates input (sid4 b.sessionId) p) : Steps rx input next := by
  obtain ⟨dec', out, done, scanned, rfl⟩ := absorb_scanned known held absorbed
  refine .absorbed b dec (rx.queued b packets) dec' out done known held (fun p member => ?_) scanned
  exact (mem_queued member).imp_right (brought p)

theorem ingestBeacon_steps {rx next : Receiver crates} {b : Beacon} {input : Input}
    {result : Except Error Ingest} (heeded : rx.ingestBeacon b = some (result, next)) :
    Steps rx input next := by
  rcases ingestBeacon_inv heeded with ⟨existing, known, rfl, -⟩ | ⟨unknown, -, dec, created, rfl⟩
  · exact .quiet
  · exact .acquired b dec unknown created

theorem ingestSymbol_steps {rx next : Receiver crates} {sf : SymbolFrame} {frame : Bytes}
    {result : Except Error Ingest} (opened : ∀ b, rx.beacon = some b → ∃ dec, rx.decoder = some dec)
    (decoded : SymbolFrame.decode crates frame = .ok sf)
    (heeded : rx.ingestSymbol sf = some (result, next)) : Steps rx (.ingest frame) next := by
  rcases ingestSymbol_inv heeded with
    ⟨unknown, -, rfl⟩ | ⟨b, known, ⟨session, absorbed⟩ | ⟨foreign, -, rfl⟩⟩
  · exact .parked sf.sid4 sf.packets fun p member => ⟨sf, decoded, rfl, member⟩
  · obtain ⟨dec, held⟩ := opened b known
    exact absorb_steps known held absorbed fun p member => ⟨sf, decoded, session, member⟩
  · exact .quiet

theorem respond_steps {rx next : Receiver crates} {input : Input}
    {answer : Option (Except Error Ingest)}
    (opened : ∀ b, rx.beacon = some b → ∃ dec, rx.decoder = some dec)
    (stepped : rx.respond input = some (answer, next)) : Steps rx input next := by
  cases input with
  | restore session packets =>
      obtain ⟨-, rfl⟩ := Prod.mk.inj (Option.some_inj.mp stepped)
      exact .parked session packets fun p member => ⟨rfl, member⟩
  | setKey key =>
      obtain ⟨-, rfl⟩ := Prod.mk.inj (Option.some_inj.mp stepped)
      exact .keyed key
  | ingest frame =>
      obtain ⟨result, -, ingested⟩ := respond_ingest stepped
      rw [ingest_eq] at ingested
      split at ingested
      · obtain ⟨-, rfl⟩ := Prod.mk.inj (Option.some_inj.mp ingested)
        exact .quiet
      · unfold decoded at ingested
        split at ingested
        · rename_i content said
          rcases read_cases said with ⟨b, rfl, -⟩ | ⟨sf, rfl, decoded⟩
          · exact ingestBeacon_steps ingested
          · exact ingestSymbol_steps opened decoded ingested
        · obtain ⟨-, rfl⟩ := Prod.mk.inj (Option.some_inj.mp ingested)
          exact .quiet
        · simp at ingested

/-- What holds of every receiver reached: a decoder exactly from the beacon on, nothing seen before,
and the packets seen are identified, distinct and counted. -/
structure Sane (rx : Receiver crates) : Prop where
  opened : ∀ b, rx.beacon = some b → ∃ dec, rx.decoder = some dec
  unheard : rx.beacon = none → rx.decoder = none ∧ rx.seen = [] ∧ rx.done = false
  own : fresh payloadId ∅ rx.seen = rx.seen
  ids : rx.ids = learn payloadId ∅ rx.seen
  received : rx.received = rx.seen.length

theorem sane_new : Sane (new crates) := by
  refine ⟨by simp [new], fun _ => ⟨rfl, rfl, rfl⟩, rfl, by simp [new], rfl⟩

theorem Sane.of_same {rx next : Receiver crates} (sane : Sane rx) (beacon : next.beacon = rx.beacon)
    (decoder : next.decoder = rx.decoder) (seen : next.seen = rx.seen) (ids : next.ids = rx.ids)
    (received : next.received = rx.received) (done : next.done = rx.done) : Sane next := by
  refine ⟨?_, ?_, ?_, ?_, ?_⟩
  · rw [beacon, decoder]
    exact sane.opened
  · rw [beacon, decoder, seen, done]
    exact sane.unheard
  · rw [seen]
    exact sane.own
  · rw [ids, seen]
    exact sane.ids
  · rw [received, seen]
    exact sane.received

theorem Sane.counted {rx : Receiver crates} (sane : Sane rx) {b : Beacon} (known : rx.beacon = some b)
    (queued : List Bytes) (dec : crates.Decoder) (done : Bool) :
    Sane { ({ rx with pending := [] } : Receiver crates).counted queued dec with done } := by
  have own : fresh payloadId ∅ (rx.seen ++ fresh payloadId rx.ids queued) =
      rx.seen ++ fresh payloadId rx.ids queued := by
    rw [sane.ids]
    exact fresh_self_append ∅ queued sane.own
  have ids : learn payloadId rx.ids queued =
      learn payloadId ∅ (rx.seen ++ fresh payloadId rx.ids queued) := by
    rw [learn_append, ← sane.ids, learn_fresh]
  refine ⟨fun _ _ => ⟨dec, rfl⟩, fun unknown => ?_, own, ids, ?_⟩
  · exact absurd (known.symm.trans unknown) (by simp)
  · simp [Receiver.counted, sane.received]

theorem Sane.steps {rx next : Receiver crates} {input : Input} (sane : Sane rx)
    (steps : Steps rx input next) : Sane next := by
  cases steps with
  | quiet => exact sane
  | keyed key => exact sane.of_same rfl rfl rfl rfl rfl rfl
  | parked session packets brought =>
      rcases hold_cases rx session packets with parks | same
      · rw [parks]
        exact sane.of_same rfl rfl rfl rfl rfl rfl
      · rwa [same]
  | acquired b dec unknown created =>
      exact ⟨fun _ _ => ⟨dec, rfl⟩, fun impossible => by simp at impossible, sane.own, sane.ids,
        sane.received⟩
  | absorbed b dec queued next out done known held brought scanned =>
      exact sane.counted known queued next done

theorem respond_sane {rx next : Receiver crates} {input : Input} {answer : Option (Except Error Ingest)}
    (sane : Sane rx) (stepped : rx.respond input = some (answer, next)) : Sane next :=
  sane.steps (respond_steps sane.opened stepped)

theorem run_sane {final : Receiver crates} {trace : List (Input × Option (Except Error Ingest))}
    (run : Machine.Run respond (new crates) trace final) : Sane final :=
  run.invariant Sane (fun _ _ _ _ => respond_sane) sane_new

theorem respond_known {rx next : Receiver crates} {input : Input}
    {answer : Option (Except Error Ingest)} {b : Beacon} (known : rx.beacon = some b)
    (stepped : rx.respond input = some (answer, next)) : next.beacon = some b := by
  cases input with
  | ingest frame =>
      obtain ⟨result, -, ingested⟩ := respond_ingest stepped
      exact (ingest_cases ingested).effect.2.1 b known
  | restore session packets =>
      obtain ⟨-, rfl⟩ := Prod.mk.inj (Option.some_inj.mp stepped)
      exact (hold_effect rx session packets).1.trans known
  | setKey key =>
      obtain ⟨-, rfl⟩ := Prod.mk.inj (Option.some_inj.mp stepped)
      exact known

theorem run_known {rx final : Receiver crates} {trace : List (Input × Option (Except Error Ingest))}
    (run : Machine.Run respond rx trace final) {b : Beacon} (known : rx.beacon = some b) :
    final.beacon = some b :=
  run.invariant (fun rx => rx.beacon = some b) (fun _ _ _ _ => respond_known) known

end Receiver

end Rabaska.Pipeline
