import Rabaska.CryptoProofs
import Rabaska.Library.Machine
import Rabaska.PipelineCore

/-! What one call can do to a receiver, and runs of calls. -/

namespace Rabaska.Pipeline

open Call Wire

namespace Receiver

variable {crates : Crates}

structure Untouched (before after : Receiver crates) : Prop where
  beacon : after.beacon = before.beacon
  key : after.key = before.key
  done : after.done = before.done
  pending : after.pending = before.pending

theorem absorbOne_untouched {before after : Receiver crates × Option Bytes} {raw : Bytes}
    (absorbed : absorbOne before raw = some after) : Untouched before.1 after.1 := by
  obtain ⟨rx, finished⟩ := before
  unfold absorbOne at absorbed
  dsimp only at absorbed
  split at absorbed
  · obtain rfl := Option.some_inj.mp absorbed
    exact ⟨rfl, rfl, rfl, rfl⟩
  · split at absorbed
    · obtain rfl := Option.some_inj.mp absorbed
      exact ⟨rfl, rfl, rfl, rfl⟩
    · split at absorbed
      · simp at absorbed
      · split at absorbed
        · obtain rfl := Option.some_inj.mp absorbed
          exact ⟨rfl, rfl, rfl, rfl⟩
        · split at absorbed
          · simp at absorbed
          · obtain rfl := Option.some_inj.mp absorbed
            exact ⟨rfl, rfl, rfl, rfl⟩

/-! A packet is dropped when its id is known, and otherwise counted and, until something is
reassembled, decoded. -/

theorem absorbOne_known {rx : Receiver crates} {found : Option Bytes} {raw : Bytes} {id : Octets 4}
    (identified : payloadId raw = some id) (known : id ∈ rx.ids) :
    absorbOne (rx, found) raw = some (rx, found) := by
  simp [absorbOne, identified, known]

theorem absorbOne_counted {rx : Receiver crates} {ct raw : Bytes} {id : Octets 4}
    {dec : crates.Decoder} (identified : payloadId raw = some id) (fresh : id ∉ rx.ids)
    (held : rx.decoder = some dec) :
    absorbOne (rx, some ct) raw = some ({ rx with
      ids := insert id rx.ids, seen := rx.seen ++ [raw], received := rx.received + 1 }, some ct) := by
  simp [absorbOne, identified, fresh, held]

theorem absorbOne_decoded {rx : Receiver crates} {raw : Bytes} {id : Octets 4}
    {dec next : crates.Decoder} {out : Option Bytes} (identified : payloadId raw = some id)
    (fresh : id ∉ rx.ids) (held : rx.decoder = some dec)
    (decoded : crates.decode dec raw = some (next, out)) :
    absorbOne (rx, none) raw = some ({ rx with
      ids := insert id rx.ids, seen := rx.seen ++ [raw], received := rx.received + 1,
      decoder := some next }, out) := by
  simp [absorbOne, identified, fresh, held, decoded]

theorem foldlM_untouched {before after : Receiver crates × Option Bytes} {queued : List Bytes}
    (absorbed : queued.foldlM absorbOne before = some after) : Untouched before.1 after.1 := by
  refine Machine.foldlM_invariant (fun state => Untouched before.1 state.1) ?_
    ⟨rfl, rfl, rfl, rfl⟩ absorbed
  intro state raw next kept turned
  have one := absorbOne_untouched turned
  exact ⟨one.beacon.trans kept.beacon, one.key.trans kept.key, one.done.trans kept.done,
    one.pending.trans kept.pending⟩

theorem absorb_eq {rx next : Receiver crates} {b : Beacon} {packets : List Bytes}
    {finished : Option Bytes} (known : rx.beacon = some b)
    (folded : (rx.queued b packets).foldlM absorbOne ({ rx with pending := [] }, none) =
      some (next, finished)) : rx.absorb packets = some (next.conclude b finished) := by
  refine Option.bind_eq_some_iff.mpr ⟨b, known, ?_⟩
  exact Option.bind_eq_some_iff.mpr ⟨(next, finished), folded, rfl⟩

/-- What a call to `absorb` can do: open an object that the held key authenticates, fail to open
one, or report progress. -/
theorem absorb_cases {rx next : Receiver crates} {packets : List Bytes}
    {result : Except Error Ingest} (absorbed : rx.absorb packets = some (result, next)) :
    ∃ b, rx.beacon = some b ∧ next.beacon = some b ∧ next.key = rx.key ∧
      ((∃ key ct plaintext, rx.key = some key ∧ openObject crates key b ct = .ok plaintext ∧
          result = .ok (.done plaintext) ∧ next.done = true) ∨
        (next.done = rx.done ∧ ((∃ error, result = .error error) ∨
          result = .ok (.progress next.received next.needed)))) := by
  unfold absorb at absorbed
  obtain ⟨b, known, absorbed⟩ := Option.bind_eq_some_iff.mp absorbed
  obtain ⟨⟨after, finished⟩, folded, absorbed⟩ := Option.bind_eq_some_iff.mp absorbed
  have kept := foldlM_untouched folded
  refine ⟨b, known, ?_⟩
  simp only [conclude] at absorbed kept
  split at absorbed
  · rename_i ct key keyed
    split at absorbed
    · rename_i error refused
      obtain ⟨rfl, rfl⟩ := Prod.mk.inj (Option.some_inj.mp absorbed)
      exact ⟨kept.beacon.trans known, kept.key, .inr ⟨kept.done, .inl ⟨error, rfl⟩⟩⟩
    · rename_i plaintext opened
      obtain ⟨rfl, rfl⟩ := Prod.mk.inj (Option.some_inj.mp absorbed)
      exact ⟨kept.beacon.trans known, kept.key,
        .inl ⟨key, ct, plaintext, kept.key.symm.trans keyed, opened, rfl, rfl⟩⟩
  · obtain ⟨rfl, rfl⟩ := Prod.mk.inj (Option.some_inj.mp absorbed)
    exact ⟨kept.beacon.trans known, kept.key, .inr ⟨kept.done, .inr rfl⟩⟩

/-! What a beacon or a symbol frame does, by the beacon that the receiver holds. -/

def symbolsNeeded (crates : Crates) (oti : Octets 12) : Nat :=
  let sym := max (crates.symbolSize oti).toNat 1
  ((crates.transferLength oti).toNat + sym - 1) / sym

theorem ingestBeacon_unknown {rx : Receiver crates} (unknown : rx.beacon = none) (b : Beacon) :
    rx.ingestBeacon b = (crates.newDecoder b.oti).map fun dec => (.ok .beaconAcquired,
      { rx with needed := symbolsNeeded crates b.oti, decoder := some dec, beacon := some b }) := by
  simp only [ingestBeacon, unknown, Option.map_eq_bind]
  rfl

theorem ingestBeacon_known {rx : Receiver crates} {existing : Beacon} (known : rx.beacon = some existing)
    (b : Beacon) : rx.ingestBeacon b =
      some (if existing.sessionId = b.sessionId then .ok .ignored else .error .foreignSession, rx) := by
  simp only [ingestBeacon, known]
  split <;> rfl

theorem hold_early {rx : Receiver crates} (unknown : rx.beacon = none) (session : Octets 4)
    (packets : List Bytes) : rx.hold session packets =
      { rx with pending := rx.pending ++ packets.map fun p => (session, p) } := by
  simp [hold, unknown]

theorem ingestSymbol_early {rx : Receiver crates} (unknown : rx.beacon = none) (sf : SymbolFrame) :
    rx.ingestSymbol sf = some (.ok .ignored,
      { rx with pending := rx.pending ++ sf.packets.map fun p => (sf.sid4, p) }) := by
  rw [← hold_early unknown, ingestSymbol]
  simp [unknown]

theorem ingestSymbol_known {rx : Receiver crates} {b : Beacon} {sf : SymbolFrame}
    (known : rx.beacon = some b) (session : sf.sid4 = sid4 b.sessionId) :
    rx.ingestSymbol sf = rx.absorb sf.packets := by
  simp [ingestSymbol, known, session]

theorem ingestSymbol_foreign {rx : Receiver crates} {b : Beacon} {sf : SymbolFrame}
    (known : rx.beacon = some b) (foreign : sf.sid4 ≠ sid4 b.sessionId) :
    rx.ingestSymbol sf = some (.error .foreignSession, rx) := by
  simp [ingestSymbol, known, foreign]

/-! The same read backwards: a beacon changes nothing or is acquired, and what a symbol frame brings is
parked, absorbed or foreign. -/

theorem ingestBeacon_inv {rx next : Receiver crates} {b : Beacon} {result : Except Error Ingest}
    (heeded : rx.ingestBeacon b = some (result, next)) :
    (∃ existing, rx.beacon = some existing ∧ next = rx ∧
        (result = .ok .ignored ∨ result = .error .foreignSession)) ∨
      rx.beacon = none ∧ result = .ok .beaconAcquired ∧ ∃ dec, crates.newDecoder b.oti = some dec ∧
        next = { rx with
          needed := symbolsNeeded crates b.oti, decoder := some dec, beacon := some b } := by
  cases known : rx.beacon with
  | some existing =>
      rw [ingestBeacon_known known] at heeded
      obtain ⟨same, rfl⟩ := Prod.mk.inj (Option.some_inj.mp heeded)
      refine .inl ⟨existing, rfl, rfl, ?_⟩
      split at same
      · exact .inl same.symm
      · exact .inr same.symm
  | none =>
      rw [ingestBeacon_unknown known] at heeded
      obtain ⟨dec, created, same⟩ := Option.map_eq_some_iff.mp heeded
      obtain ⟨rfl, rfl⟩ := Prod.mk.inj same
      exact .inr ⟨rfl, rfl, dec, created, rfl⟩

theorem ingestSymbol_inv {rx next : Receiver crates} {sf : SymbolFrame} {result : Except Error Ingest}
    (heeded : rx.ingestSymbol sf = some (result, next)) :
    (rx.beacon = none ∧ result = .ok .ignored ∧ next = rx.hold sf.sid4 sf.packets) ∨
      ∃ b, rx.beacon = some b ∧
        (sf.sid4 = sid4 b.sessionId ∧ rx.absorb sf.packets = some (result, next) ∨
          sf.sid4 ≠ sid4 b.sessionId ∧ result = .error .foreignSession ∧ next = rx) := by
  cases known : rx.beacon with
  | none =>
      rw [ingestSymbol_early known, ← hold_early known] at heeded
      obtain ⟨rfl, rfl⟩ := Prod.mk.inj (Option.some_inj.mp heeded)
      exact .inl ⟨rfl, rfl, rfl⟩
  | some b =>
      refine .inr ⟨b, rfl, ?_⟩
      by_cases session : sf.sid4 = sid4 b.sessionId
      · rw [ingestSymbol_known known session] at heeded
        exact .inl ⟨session, heeded⟩
      · rw [ingestSymbol_foreign known session] at heeded
        obtain ⟨rfl, rfl⟩ := Prod.mk.inj (Option.some_inj.mp heeded)
        exact .inr ⟨session, rfl, rfl⟩

/-- The kinds of step that `ingest` takes. -/
inductive Ingests (rx : Receiver crates) : Except Error Ingest → Receiver crates → Prop
  | refused (error) : Ingests rx (.error error) rx
  | ignored : Ingests rx (.ok .ignored) rx
  | acquired (b needed dec) : rx.done = false → rx.beacon = none → crates.newDecoder b.oti = some dec →
      Ingests rx (.ok .beaconAcquired) { rx with needed, decoder := some dec, beacon := some b }
  | parked (session packets) : rx.done = false → rx.beacon = none →
      Ingests rx (.ok .ignored) (rx.hold session packets)
  | absorbed (packets result next) : rx.done = false → rx.absorb packets = some (result, next) →
      Ingests rx result next

theorem decoded_cases {α : Type} {rx next : Receiver crates} {outcome : Outcome Error α}
    {following : α → Option (Except Error Ingest × Receiver crates)} {result : Except Error Ingest}
    (stepped : rx.decoded outcome following = some (result, next)) :
    Ingests rx result next ∨ ∃ value, outcome = .ok value ∧ following value = some (result, next) := by
  unfold decoded at stepped
  split at stepped
  · exact .inr ⟨_, rfl, stepped⟩
  · obtain ⟨rfl, rfl⟩ := Prod.mk.inj (Option.some_inj.mp stepped)
    exact .inl (.refused _)
  · simp at stepped

theorem ingestBeacon_cases {rx next : Receiver crates} {b : Beacon} {result : Except Error Ingest}
    (running : rx.done = false) (ingested : rx.ingestBeacon b = some (result, next)) :
    Ingests rx result next := by
  rcases ingestBeacon_inv ingested with
    ⟨existing, known, rfl, rfl | rfl⟩ | ⟨unknown, rfl, dec, created, rfl⟩
  · exact .ignored
  · exact .refused _
  · exact .acquired b _ dec running unknown created

theorem ingestSymbol_cases {rx next : Receiver crates} {sf : SymbolFrame}
    {result : Except Error Ingest} (running : rx.done = false)
    (ingested : rx.ingestSymbol sf = some (result, next)) : Ingests rx result next := by
  rcases ingestSymbol_inv ingested with
    ⟨unknown, rfl, rfl⟩ | ⟨b, known, ⟨session, absorbed⟩ | ⟨foreign, rfl, rfl⟩⟩
  · exact .parked sf.sid4 sf.packets running unknown
  · exact .absorbed sf.packets result next running absorbed
  · exact .refused _

theorem ingest_cases {rx next : Receiver crates} {frame : Bytes} {result : Except Error Ingest}
    (ingested : rx.ingest frame = some (result, next)) : Ingests rx result next := by
  unfold ingest at ingested
  split at ingested
  · obtain ⟨rfl, rfl⟩ := Prod.mk.inj (Option.some_inj.mp ingested)
    exact .ignored
  · rename_i running
    have running : rx.done = false := by simpa using running
    rcases decoded_cases ingested with stepped | ⟨ty, -, ingested⟩
    · exact stepped
    · split at ingested
      · rcases decoded_cases ingested with stepped | ⟨b, -, ingested⟩
        · exact stepped
        · exact ingestBeacon_cases running ingested
      · split at ingested
        · rcases decoded_cases ingested with stepped | ⟨sf, -, ingested⟩
          · exact stepped
          · exact ingestSymbol_cases running ingested
        · obtain ⟨rfl, rfl⟩ := Prod.mk.inj (Option.some_inj.mp ingested)
          exact .refused _

/-! A running receiver reads the frames of a transmitter as what they encode. -/

theorem ingest_beacon {rx : Receiver crates} (running : rx.done = false) (b : Beacon) :
    rx.ingest (b.encode crates) = rx.ingestBeacon b := by
  have peeked : peekType (b.encode crates) = .ok FrameType.beacon :=
    peekType_framed crates FrameType.beacon _
  simp [ingest, running, decoded, peeked, Beacon.decode_encode]

theorem ingest_symbol {rx : Receiver crates} (running : rx.done = false) {sf : SymbolFrame}
    (wellFormed : sf.WellFormed) : rx.ingest (sf.encode crates) = rx.ingestSymbol sf := by
  have peeked : peekType (sf.encode crates) = .ok FrameType.symbol :=
    peekType_framed crates FrameType.symbol _
  have other : FrameType.symbol ≠ FrameType.beacon := by decide
  simp [ingest, running, decoded, peeked, other, SymbolFrame.decode_encode crates sf wellFormed]

theorem hold_effect (rx : Receiver crates) (session : Octets 4) (packets : List Bytes) :
    (rx.hold session packets).beacon = rx.beacon ∧ (rx.hold session packets).key = rx.key ∧
      (rx.hold session packets).done = rx.done := by
  unfold hold
  dsimp only
  split
  · split <;> exact ⟨rfl, rfl, rfl⟩
  · exact ⟨rfl, rfl, rfl⟩

/-! Which frame a beacon was acquired from. -/

theorem decoded_acquired {α : Type} {rx next : Receiver crates} {outcome : Outcome Error α}
    {following : α → Option (Except Error Ingest × Receiver crates)}
    (stepped : rx.decoded outcome following = some (.ok .beaconAcquired, next)) :
    ∃ value, outcome = .ok value ∧ following value = some (.ok .beaconAcquired, next) := by
  unfold decoded at stepped
  split at stepped
  · exact ⟨_, rfl, stepped⟩
  · simp at stepped
  · simp at stepped

theorem absorb_not_acquired {rx next : Receiver crates} {packets : List Bytes}
    (absorbed : rx.absorb packets = some (.ok .beaconAcquired, next)) : False := by
  obtain ⟨b, -, -, -, outcome⟩ := absorb_cases absorbed
  rcases outcome with ⟨key, ct, plaintext, -, -, result, -⟩ | ⟨-, ⟨error, result⟩ | result⟩
  · simp at result
  · simp at result
  · simp at result

theorem ingestBeacon_acquired {rx next : Receiver crates} {b : Beacon}
    (ingested : rx.ingestBeacon b = some (.ok .beaconAcquired, next)) :
    rx.beacon = none ∧ next.key = rx.key ∧ next.beacon = some b := by
  rcases ingestBeacon_inv ingested with
    ⟨existing, known, -, result | result⟩ | ⟨unknown, -, dec, created, rfl⟩
  · simp at result
  · simp at result
  · exact ⟨unknown, rfl, rfl⟩

theorem ingestSymbol_not_acquired {rx next : Receiver crates} {sf : SymbolFrame}
    (ingested : rx.ingestSymbol sf = some (.ok .beaconAcquired, next)) : False := by
  rcases ingestSymbol_inv ingested with
    ⟨unknown, result, -⟩ | ⟨b, known, ⟨session, absorbed⟩ | ⟨foreign, result, -⟩⟩
  · simp at result
  · exact absorb_not_acquired absorbed
  · simp at result

theorem ingest_acquired {rx next : Receiver crates} {frame : Bytes}
    (ingested : rx.ingest frame = some (.ok .beaconAcquired, next)) :
    rx.beacon = none ∧ next.key = rx.key ∧
      ∃ b, Beacon.decode crates frame = .ok b ∧ next.beacon = some b := by
  unfold ingest at ingested
  split at ingested
  · simp at ingested
  · obtain ⟨ty, -, ingested⟩ := decoded_acquired ingested
    split at ingested
    · obtain ⟨b, decoded, ingested⟩ := decoded_acquired ingested
      obtain ⟨unknown, key, known⟩ := ingestBeacon_acquired ingested
      exact ⟨unknown, key, b, decoded, known⟩
    · split at ingested
      · obtain ⟨sf, -, ingested⟩ := decoded_acquired ingested
        exact (ingestSymbol_not_acquired ingested).elim
      · simp at ingested

theorem ingest_kept {rx next : Receiver crates} {frame : Bytes} {result : Except Error Ingest}
    (ingested : rx.ingest frame = some (result, next)) (other : result ≠ .ok .beaconAcquired) :
    next.beacon = rx.beacon ∧ next.key = rx.key := by
  cases ingest_cases ingested with
  | refused error => exact ⟨rfl, rfl⟩
  | ignored => exact ⟨rfl, rfl⟩
  | acquired b needed dec running unknown created => exact absurd rfl other
  | parked session packets running unknown =>
      obtain ⟨beacon, key, -⟩ := hold_effect rx session packets
      exact ⟨beacon, key⟩
  | absorbed packets result next running absorbed =>
      obtain ⟨b, known, kept, key, -⟩ := absorb_cases absorbed
      exact ⟨kept.trans known.symm, key⟩

/-! Runs of calls on a receiver that holds one key, or is given it on the way. -/

inductive Op where
  | ingest (frame : Bytes)
  | restore (session : Octets 4) (packets : List Bytes)
  | setKey

def step (key : Crypto.SessionKey) (rx : Receiver crates) :
    Op → Option (Option (Except Error Ingest) × Receiver crates)
  | .ingest frame => (rx.ingest frame).map fun (result, next) => (some result, next)
  | .restore session packets => some (none, rx.restore session packets)
  | .setKey => some (none, rx.setKey key)

def delivered : Option (Except Error Ingest) → Option Bytes
  | some (.ok (.done plaintext)) => some plaintext
  | _ => none

theorem Ingests.effect {rx next : Receiver crates} {result : Except Error Ingest}
    (stepped : Ingests rx result next) :
    next.key = rx.key ∧ (∀ b, rx.beacon = some b → next.beacon = some b) ∧
      match delivered (some result) with
      | some plaintext => rx.done = false ∧ next.done = true ∧ ∃ b key ct,
          next.beacon = some b ∧ rx.key = some key ∧ openObject crates key b ct = .ok plaintext
      | none => next.done = rx.done := by
  cases stepped with
  | refused error => exact ⟨rfl, fun _ known => known, rfl⟩
  | ignored => exact ⟨rfl, fun _ known => known, rfl⟩
  | acquired b needed dec running unknown created =>
      exact ⟨rfl, fun _ known => by simp [unknown] at known, rfl⟩
  | parked session packets running unknown =>
      rw [hold_early unknown]
      exact ⟨rfl, fun _ known => known, rfl⟩
  | absorbed packets result next running absorbed =>
      obtain ⟨b, known, kept, key, outcome⟩ := absorb_cases absorbed
      refine ⟨key, fun other known' => ?_, ?_⟩
      · rw [kept, ← known, known']
      · rcases outcome with ⟨key, ct, plaintext, keyed, opened, rfl, done⟩ |
          ⟨same, ⟨error, rfl⟩ | rfl⟩
        · exact ⟨running, done, b, key, ct, kept, keyed, opened⟩
        · exact same
        · exact same

theorem step_effect {key : Crypto.SessionKey} {rx next : Receiver crates} {op : Op}
    {answer : Option (Except Error Ingest)} (stepped : step key rx op = some (answer, next)) :
    (next.key = rx.key ∨ next.key = some key) ∧
      (∀ b, rx.beacon = some b → next.beacon = some b) ∧
      match delivered answer with
      | some plaintext => rx.done = false ∧ next.done = true ∧ ∃ b key ct,
          next.beacon = some b ∧ rx.key = some key ∧ openObject crates key b ct = .ok plaintext
      | none => next.done = rx.done := by
  cases op with
  | ingest frame =>
      obtain ⟨⟨result, after⟩, ingested, same⟩ := Option.map_eq_some_iff.mp stepped
      obtain ⟨rfl, rfl⟩ := Prod.mk.inj same
      have effect := (ingest_cases ingested).effect
      exact ⟨.inl effect.1, effect.2⟩
  | restore session packets =>
      obtain ⟨rfl, rfl⟩ := Prod.mk.inj (Option.some_inj.mp stepped)
      obtain ⟨beacon, key, done⟩ := hold_effect rx session packets
      exact ⟨.inl key, fun b known => beacon.trans known, done⟩
  | setKey =>
      obtain ⟨rfl, rfl⟩ := Prod.mk.inj (Option.some_inj.mp stepped)
      exact ⟨.inr rfl, fun b known => known, rfl⟩

variable {key : Crypto.SessionKey} {rx final : Receiver crates}
  {trace : List (Op × Option (Except Error Ingest))}

theorem run_key (run : Machine.Run (step key) rx trace final) (holds : ∀ k ∈ rx.key, k = key) :
    ∀ k ∈ final.key, k = key := by
  refine run.invariant (fun rx => ∀ k ∈ rx.key, k = key) ?_ holds
  intro before op answer after held stepped
  rcases (step_effect stepped).1 with same | set
  · rwa [same]
  · rw [set]
    intro k member
    exact (Option.some_inj.mp member).symm

theorem run_beacon (run : Machine.Run (step key) rx trace final) {b : Beacon}
    (known : rx.beacon = some b) : final.beacon = some b :=
  run.invariant (fun rx => rx.beacon = some b)
    (fun _ _ _ _ held stepped => (step_effect stepped).2.1 b held) known

theorem run_delivers (run : Machine.Run (step key) rx trace final) :
    trace.countP (fun event => (delivered event.2).isSome) ≤ if rx.done then 0 else 1 := by
  induction run with
  | nil => simp
  | @cons rx op answer next trace final stepped rest ih =>
      have effect := (step_effect stepped).2.2
      rw [List.countP_cons]
      cases shape : delivered answer with
      | none =>
          rw [shape] at effect
          rw [← effect]
          simpa [shape] using ih
      | some plaintext =>
          rw [shape] at effect
          obtain ⟨running, done, -⟩ := effect
          simp only [done, if_true, Nat.le_zero] at ih
          simp [ih, running]

end Receiver

end Rabaska.Pipeline
