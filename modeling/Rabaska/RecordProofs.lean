import Rabaska.StepProofs

/-! What a recording receiver has written down, and that recording changes nothing. -/

namespace Rabaska.Pipeline

open Call Wire Dedup

variable {crates : Crates}

theorem encode_recorded (b : Beacon) : b.encode crates.recorded = b.encode crates := rfl

/-! The record of a decoder that is handed packets until it gives an object. -/

theorem recorded_decode (rec : Recorder crates) (packet : Bytes) :
    crates.recorded.decode rec packet = some (rec.decode packet) := rfl

theorem recorded_decodeUntil (rec : Recorder crates) (packets : List Bytes) :
    ∃ (next : Recorder crates) (out : Option Bytes),
      decodeUntil crates.recorded rec packets = some (next, out) ∧ next.oti = rec.oti ∧
      next.packets = rec.packets ++ handed crates.recorded rec packets ∧
      next.objects = rec.objects ++ out.toList := by
  induction packets generalizing rec with
  | nil => exact ⟨rec, none, rfl, rfl, (List.append_nil _).symm, (List.append_nil _).symm⟩
  | cons packet packets ih =>
      cases given : (rec.decode packet).2 with
      | some ct =>
          have answered : crates.recorded.decode rec packet = some ((rec.decode packet).1, some ct) := by
            rw [recorded_decode, ← given]
          refine ⟨_, _, decodeUntil_complete answered packets, rfl, ?_, ?_⟩
          · rw [handed_complete answered packets]
            rfl
          · rw [← given]
            rfl
      | none =>
          have answered : crates.recorded.decode rec packet = some ((rec.decode packet).1, none) := by
            rw [recorded_decode, ← given]
          obtain ⟨next, out, rest, oti, extended, objects⟩ := ih (rec.decode packet).1
          refine ⟨next, out, (decodeUntil_quiet answered packets).trans rest, oti, ?_, ?_⟩
          · rw [extended, handed_quiet answered packets]
            exact List.append_assoc rec.packets [packet] _
          · have quiet : (rec.decode packet).1.objects = rec.objects := by
              calc (rec.decode packet).1.objects = rec.objects ++ (rec.decode packet).2.toList := rfl
                _ = rec.objects := by rw [given, Option.toList_none, List.append_nil]
            rw [objects, quiet]

namespace Receiver

def acquires (rx : Receiver crates) : Input → Option Beacon
  | .ingest frame =>
      if rx.done = false ∧ rx.beacon = none then (Beacon.decode crates frame).toOption else none
  | _ => none

/-- The packets that a call hands to the decoder: those of its queue that are new, up to the one
that completes the object. -/
def hands (rx : Receiver crates) : Input → List Bytes
  | .ingest frame =>
      match rx.done, rx.beacon, rx.decoder, SymbolFrame.decode crates frame with
      | false, some b, some dec, .ok sf =>
          if sf.sid4 = sid4 b.sessionId then
            handed crates dec (fresh payloadId rx.ids (rx.queued b sf.packets))
          else []
      | _, _, _, _ => []
  | _ => []

theorem hands_symbol {rx : Receiver crates} {b : Beacon} {dec : crates.Decoder} {frame : Bytes}
    {sf : SymbolFrame} (running : rx.done = false) (known : rx.beacon = some b)
    (held : rx.decoder = some dec) (said : SymbolFrame.decode crates frame = .ok sf) :
    rx.hands (.ingest frame) = if sf.sid4 = sid4 b.sessionId then
      handed crates dec (fresh payloadId rx.ids (rx.queued b sf.packets)) else [] := by
  simp [hands, running, known, held, said]

theorem hands_other {rx : Receiver crates} {frame : Bytes}
    (other : ∀ sf, SymbolFrame.decode crates frame ≠ .ok sf) : rx.hands (.ingest frame) = [] := by
  simp only [hands]
  split
  · rename_i said
    exact absurd said (other _)
  · rfl

theorem hands_idle {rx : Receiver crates} {frame : Bytes}
    (idle : rx.done = true ∨ rx.beacon = none) : rx.hands (.ingest frame) = [] := by
  simp only [hands]
  split
  · rename_i running known held said
    simp [running, known] at idle
  · rfl

theorem acquires_known {rx : Receiver crates} {b : Beacon} (known : rx.beacon = some b) (input : Input) :
    rx.acquires input = none := by
  cases input <;> simp [acquires, known]

theorem acquires_unknown {rx : Receiver crates} {input : Input} {b : Beacon}
    (acquired : rx.acquires input = some b) : rx.beacon = none := by
  cases known : rx.beacon with
  | none => rfl
  | some other => simp [acquires_known known] at acquired

theorem acquires_other {rx : Receiver crates} {frame : Bytes}
    (other : ∀ b, Beacon.decode crates frame ≠ .ok b) : rx.acquires (.ingest frame) = none := by
  simp only [acquires]
  split
  · cases decoded : Beacon.decode crates frame with
    | ok b => exact absurd decoded (other b)
    | error fault => rfl
  · rfl

theorem acquires_beacon {rx : Receiver crates} {frame : Bytes} {b : Beacon} (running : rx.done = false)
    (unknown : rx.beacon = none) (decoded : Beacon.decode crates frame = .ok b) :
    rx.acquires (.ingest frame) = some b := by
  simp [acquires, running, unknown, decoded, Except.toOption]

/-- What a call adds to the record: a new one for the beacon it acquires, else the packets it
hands over. -/
def Records (rx : Receiver crates.recorded) (input : Input) (next : Receiver crates.recorded) : Prop :=
  match rx.acquires input with
  | some b => next.beacon = some b ∧ next.decoder = some (Recorder.new crates b.oti)
  | none => next.beacon = rx.beacon ∧ ∀ rec : Recorder crates, rx.decoder = some rec →
      ∃ rec' : Recorder crates, next.decoder = some rec' ∧ rec'.oti = rec.oti ∧
        rec'.packets = rec.packets ++ rx.hands input

theorem records_quiet {rx next : Receiver crates.recorded} {input : Input}
    (unacquired : rx.acquires input = none) (beacon : next.beacon = rx.beacon)
    (decoder : next.decoder = rx.decoder) (nothing : rx.hands input = []) : Records rx input next := by
  simp only [Records, unacquired]
  refine ⟨beacon, fun rec held => ⟨rec, decoder.trans held, rfl, ?_⟩⟩
  rw [nothing, List.append_nil]

theorem absorb_records {rx next : Receiver crates.recorded} {b : Beacon} {rec : Recorder crates}
    {packets : List Bytes} {result : Except Error Ingest} (known : rx.beacon = some b)
    (held : rx.decoder = some rec) (absorbed : rx.absorb packets = some (result, next)) :
    next.beacon = some b ∧ ∃ rec' : Recorder crates, next.decoder = some rec' ∧ rec'.oti = rec.oti ∧
      rec'.packets = rec.packets ++
        handed crates.recorded rec (fresh payloadId rx.ids (rx.queued b packets)) := by
  obtain ⟨rec', out, done, scanned, rfl⟩ := absorb_scanned known held absorbed
  obtain ⟨after, found, scanned', oti, extended, -⟩ :=
    recorded_decodeUntil rec (fresh payloadId rx.ids (rx.queued b packets))
  obtain ⟨rfl, rfl⟩ := Prod.mk.inj (Option.some_inj.mp (scanned'.symm.trans scanned))
  exact ⟨known, after, rfl, oti, extended⟩

theorem beacon_records {rx next : Receiver crates.recorded} {frame : Bytes} {b : Beacon}
    {result : Except Error Ingest} (running : rx.done = false)
    (decoded : Beacon.decode crates.recorded frame = .ok b)
    (heeded : rx.ingestBeacon b = some (result, next)) : Records rx (.ingest frame) next := by
  have other : ∀ sf, SymbolFrame.decode crates.recorded frame ≠ .ok sf := by
    intro sf said
    have both := (read_beacon decoded).symm.trans (read_symbol said)
    simp at both
  rcases ingestBeacon_inv heeded with ⟨existing, known, rfl, -⟩ | ⟨unknown, -, dec, created, rfl⟩
  · exact records_quiet (acquires_known known _) rfl rfl (hands_other other)
  · simp only [Records, acquires_beacon running unknown decoded]
    exact ⟨trivial, created.symm⟩

theorem symbol_records {rx next : Receiver crates.recorded} {frame : Bytes} {sf : SymbolFrame}
    {result : Except Error Ingest} (sane : Sane rx) (running : rx.done = false)
    (decoded : SymbolFrame.decode crates.recorded frame = .ok sf)
    (heeded : rx.ingestSymbol sf = some (result, next)) : Records rx (.ingest frame) next := by
  have other : ∀ b, Beacon.decode crates.recorded frame ≠ .ok b := by
    intro b said
    have both := (read_symbol decoded).symm.trans (read_beacon said)
    simp at both
  have unacquired := @acquires_other _ rx frame other
  rcases ingestSymbol_inv heeded with ⟨unknown, -, rfl⟩ | ⟨b, known, outcome⟩
  · rw [hold_early unknown]
    exact records_quiet unacquired rfl rfl (hands_idle (.inr unknown))
  · obtain ⟨rec, held⟩ := sane.opened b known
    have hands := hands_symbol running known held decoded
    rcases outcome with ⟨session, absorbed⟩ | ⟨foreign, -, rfl⟩
    · rw [if_pos session] at hands
      obtain ⟨beacon, rec', held', oti, extended⟩ := absorb_records known held absorbed
      simp only [Records, unacquired]
      refine ⟨beacon.trans known.symm, fun other found => ?_⟩
      obtain rfl : rec = other := Option.some_inj.mp (held.symm.trans found)
      exact ⟨rec', held', oti, by rw [extended, hands]⟩
    · rw [if_neg foreign] at hands
      exact records_quiet unacquired rfl rfl hands

theorem respond_first {rx : Receiver crates.recorded} (running : rx.done = false)
    (unknown : rx.beacon = none) (b : Beacon) :
    rx.respond (.ingest (b.encode crates)) = some (some (.ok .beaconAcquired),
      { rx with
        needed := symbolsNeeded crates b.oti
        decoder := some (Recorder.new crates b.oti)
        beacon := some b }) := by
  rw [← encode_recorded, respond, ingest_beacon running, ingestBeacon_unknown unknown]
  rfl

theorem respond_records {rx next : Receiver crates.recorded} {input : Input}
    {answer : Option (Except Error Ingest)} (sane : Sane rx)
    (stepped : rx.respond input = some (answer, next)) : Records rx input next := by
  cases input with
  | restore session packets =>
      obtain ⟨-, rfl⟩ := Prod.mk.inj (Option.some_inj.mp stepped)
      exact records_quiet rfl (hold_effect rx session packets).1 (hold_decoder rx session packets) rfl
  | setKey key =>
      obtain ⟨-, rfl⟩ := Prod.mk.inj (Option.some_inj.mp stepped)
      exact records_quiet rfl rfl rfl rfl
  | ingest frame =>
      obtain ⟨result, -, ingested⟩ := respond_ingest stepped
      rw [ingest_eq] at ingested
      cases running : rx.done with
      | true =>
          rw [running, if_pos rfl] at ingested
          obtain ⟨-, rfl⟩ := Prod.mk.inj (Option.some_inj.mp ingested)
          exact records_quiet (by simp [acquires, running]) rfl rfl (hands_idle (.inl running))
      | false =>
          rw [running, if_neg (by simp)] at ingested
          cases said : read crates.recorded frame with
          | ok content =>
              rw [said] at ingested
              rcases read_cases said with ⟨b, rfl, decoded⟩ | ⟨sf, rfl, decoded⟩
              · exact beacon_records running decoded ingested
              · exact symbol_records sane running decoded ingested
          | error fault =>
              have noBeacon : ∀ b, Beacon.decode crates.recorded frame ≠ .ok b := by
                intro b decoded
                exact absurd ((read_beacon decoded).symm.trans said) (by simp)
              have noSymbol : ∀ sf, SymbolFrame.decode crates.recorded frame ≠ .ok sf := by
                intro sf decoded
                exact absurd ((read_symbol decoded).symm.trans said) (by simp)
              rw [said] at ingested
              cases fault with
              | panic => simp [decoded] at ingested
              | err error =>
                  obtain ⟨-, rfl⟩ := Prod.mk.inj (Option.some_inj.mp ingested)
                  exact records_quiet (acquires_other noBeacon) rfl rfl (hands_other noSymbol)

/-! A receiver does what it does with a recording decoder, until the decoder panics. -/

theorem forget_absorbOne (rx : Receiver crates.recorded) (found : Option Bytes) (raw : Bytes) :
    (rx.forget.bind fun plain => absorbOne (plain, found) raw) =
      (absorbOne (rx, found) raw).bind fun (next, out) => next.forget.map fun plain => (plain, out) := by
  obtain ⟨beacon, key, decoder, pending, seen, ids, received, needed, done⟩ := rx
  cases identified : payloadId raw with
  | none =>
      simp only [absorbOne_keyless _ identified, Option.bind_some, Option.map_eq_bind]
      rfl
  | some id =>
      by_cases known : id ∈ ids
      · cases decoder with
        | none => simp [forget, carry, absorbOne, identified, known]
        | some rec => cases inner : rec.inner <;> simp [forget, carry, absorbOne, identified, known, inner]
      · cases decoder with
        | none => simp [forget, carry, absorbOne, identified, known]
        | some rec =>
            cases found with
            | some ct =>
                cases inner : rec.inner <;> simp [forget, carry, absorbOne, identified, known, inner]
            | none =>
                cases inner : rec.inner with
                | none =>
                    simp [forget, carry, absorbOne, identified, known, inner, Recorder.decode]
                | some dec =>
                    cases answered : crates.decode dec raw <;>
                      simp [forget, carry, absorbOne, identified, known, inner, Recorder.decode,
                        answered]

theorem forget_foldlM (rx : Receiver crates.recorded) (found : Option Bytes) (queued : List Bytes) :
    (rx.forget.bind fun plain => queued.foldlM absorbOne (plain, found)) =
      (queued.foldlM absorbOne (rx, found)).bind fun (next, out) =>
        next.forget.map fun plain => (plain, out) := by
  induction queued generalizing rx found with
  | nil => simp [Option.map_eq_bind]
  | cons raw queued ih =>
      have turned := forget_absorbOne rx found raw
      simp only [List.foldlM_cons, Option.bind_eq_bind, ← Option.bind_assoc, turned]
      rw [Option.bind_assoc, Option.bind_assoc]
      congr 1
      funext state
      obtain ⟨next, out⟩ := state
      rw [Option.bind_map]
      exact ih next out

theorem forget_conclude (rx : Receiver crates.recorded) (b : Beacon) (found : Option Bytes) :
    (rx.forget.map fun plain => plain.conclude b found) =
      (rx.conclude b found).2.forget.map fun plain => ((rx.conclude b found).1, plain) := by
  obtain ⟨beacon, key, decoder, pending, seen, ids, received, needed, done⟩ := rx
  have opens : ∀ key ct, openObject crates.recorded key b ct = openObject crates key b ct :=
    fun _ _ => rfl
  cases found with
  | none => cases decoder <;> simp [forget, carry, conclude, Function.comp_def]
  | some ct =>
      cases key with
      | none => cases decoder <;> simp [forget, carry, conclude, Function.comp_def]
      | some key =>
          cases opened : openObject crates key b ct <;> cases decoder <;>
            simp [forget, carry, conclude, opens, opened, Function.comp_def]

variable {rx : Receiver crates.recorded} {plain : Receiver crates}

theorem forget_carry (forgets : rx.forget = some plain) : plain = rx.carry plain.decoder := by
  unfold forget at forgets
  split at forgets
  · exact (Option.some_inj.mp forgets).symm ▸ rfl
  · obtain ⟨dec, -, rfl⟩ := Option.map_eq_some_iff.mp forgets
    rfl

theorem forget_decoder (forgets : rx.forget = some plain) (next : Receiver crates.recorded)
    (same : next.decoder = rx.decoder) : next.forget = some (next.carry plain.decoder) := by
  unfold forget at forgets ⊢
  rw [same]
  cases decoder : rx.decoder with
  | none =>
      rw [decoder] at forgets
      obtain rfl := Option.some_inj.mp forgets
      rfl
  | some rec =>
      rw [decoder] at forgets
      obtain ⟨dec, inner, rfl⟩ := Option.map_eq_some_iff.mp forgets
      simp only [inner]
      rfl

theorem forget_pending (forgets : rx.forget = some plain) (pending : List (Octets 4 × Bytes)) :
    ({ rx with pending } : Receiver crates.recorded).forget = some { plain with pending } := by
  rw [forget_decoder forgets { rx with pending } rfl, forget_carry forgets]
  rfl

theorem forget_setKey (forgets : rx.forget = some plain) (key : Crypto.SessionKey) :
    (rx.setKey key).forget = some (plain.setKey key) := by
  rw [forget_decoder forgets (rx.setKey key) rfl, forget_carry forgets]
  rfl

theorem forget_absorb (forgets : rx.forget = some plain) (packets : List Bytes) :
    plain.absorb packets = (rx.absorb packets).bind fun (result, next) =>
      next.forget.map fun plain => (result, plain) := by
  have folded := fun queued => forget_foldlM { rx with pending := [] } none queued
  simp only [forget_pending forgets, Option.bind_some] at folded
  have beacon : plain.beacon = rx.beacon := by rw [forget_carry forgets]; rfl
  have queued : ∀ b, plain.queued b packets = rx.queued b packets := by
    intro b
    rw [forget_carry forgets]
    rfl
  cases known : rx.beacon with
  | none => simp [absorb, beacon, known]
  | some b =>
      rw [absorb_known (beacon.trans known), absorb_known known, queued, folded, Option.bind_assoc,
        Option.bind_assoc]
      congr 1
      funext state
      obtain ⟨next, found⟩ := state
      calc (next.forget.map fun plain => (plain, found)).bind
              (fun state => some (state.1.conclude b state.2))
          = next.forget.map fun plain => plain.conclude b found := by
            simp [Option.map_eq_bind, Option.bind_assoc]
        _ = _ := forget_conclude next b found

theorem forget_hold (forgets : rx.forget = some plain) (session : Octets 4) (packets : List Bytes) :
    (rx.hold session packets).forget = some (plain.hold session packets) := by
  have beacon : plain.beacon = rx.beacon := by rw [forget_carry forgets]; rfl
  have pending : plain.pending = rx.pending := by rw [forget_carry forgets]; rfl
  by_cases own : ∀ b, rx.beacon = some b → session = sid4 b.sessionId
  · rw [hold_own own, hold_own (by rw [beacon]; exact own), pending]
    exact forget_pending forgets _
  · simp only [not_forall] at own
    obtain ⟨b, known, foreign⟩ := own
    rw [hold_foreign known foreign, hold_foreign (beacon.trans known) foreign]
    exact forgets

theorem forget_ingestBeacon (forgets : rx.forget = some plain) (b : Beacon) :
    plain.ingestBeacon b = (rx.ingestBeacon b).bind fun (result, next) =>
      next.forget.map fun plain => (result, plain) := by
  have beacon : plain.beacon = rx.beacon := by rw [forget_carry forgets]; rfl
  cases known : rx.beacon with
  | some existing =>
      rw [ingestBeacon_known (beacon.trans known), ingestBeacon_known known]
      simp [forgets]
  | none =>
      rw [ingestBeacon_unknown (beacon.trans known), ingestBeacon_unknown known, forget_carry forgets]
      cases created : crates.newDecoder b.oti <;> simp [created, Recorder.new, forget, carry, symbolsNeeded]

theorem forget_ingestSymbol (forgets : rx.forget = some plain) (sf : SymbolFrame) :
    plain.ingestSymbol sf = (rx.ingestSymbol sf).bind fun (result, next) =>
      next.forget.map fun plain => (result, plain) := by
  have beacon : plain.beacon = rx.beacon := by rw [forget_carry forgets]; rfl
  unfold ingestSymbol
  rw [beacon]
  split
  · simp [forget_hold forgets]
  · split
    · simp [forgets]
    · exact forget_absorb forgets sf.packets

/-- A plain receiver answers as the recording one does, unless the decoder panics. -/
theorem forget_respond (forgets : rx.forget = some plain) (input : Input) :
    plain.respond input = (rx.respond input).bind fun (answer, next) =>
      next.forget.map fun plain => (answer, plain) := by
  cases input with
  | restore session packets => simp [respond, restore, forget_hold forgets]
  | setKey key => simp [respond, forget_setKey forgets]
  | ingest frame =>
      have done : plain.done = rx.done := by rw [forget_carry forgets]; rfl
      have same : read crates.recorded frame = read crates frame := rfl
      simp only [respond, ingest_eq, done, same]
      split
      · simp [forgets]
      · cases read crates frame with
        | error fault => cases fault <;> simp [decoded, forgets]
        | ok content =>
            cases content with
            | inl b =>
                change (plain.ingestBeacon b).map _ = ((rx.ingestBeacon b).map _).bind _
                rw [forget_ingestBeacon forgets]
                simp [Option.map_eq_bind, Option.bind_assoc]
            | inr sf =>
                change (plain.ingestSymbol sf).map _ = ((rx.ingestSymbol sf).map _).bind _
                rw [forget_ingestSymbol forgets]
                simp [Option.map_eq_bind, Option.bind_assoc]

/-- A plain receiver returns from every call exactly when the recording one does and its decoder has not
panicked. -/
theorem forget_along_iff (forgets : rx.forget = some plain)
    {trace : List (Input × Option (Except Error Ingest))} :
    (∃ final, Machine.Run respond plain trace final) ↔
      Machine.Along respond (fun _ _ _ next => next.forget ≠ none) rx trace := by
  constructor
  · rintro ⟨final, run⟩
    induction run generalizing rx with
    | nil => trivial
    | cons stepped _ ih =>
        rw [forget_respond forgets] at stepped
        obtain ⟨⟨answer, next⟩, recorded, forgotten⟩ := Option.bind_eq_some_iff.mp stepped
        obtain ⟨after, forgets', same⟩ := Option.map_eq_some_iff.mp forgotten
        obtain ⟨rfl, rfl⟩ := Prod.mk.inj same
        exact ⟨next, recorded, by simp [forgets'], ih forgets'⟩
  · intro along
    induction trace generalizing rx plain with
    | nil => exact ⟨plain, .nil plain⟩
    | cons event trace ih =>
        obtain ⟨input, answer⟩ := event
        obtain ⟨next, stepped, kept, rest⟩ := along
        obtain ⟨after, forgets'⟩ := Option.ne_none_iff_exists'.mp kept
        obtain ⟨final, run⟩ := ih forgets' rest
        exact ⟨final, .cons (by simp [forget_respond forgets, stepped, forgets']) run⟩

theorem absorb_returns {b : Beacon} (sane : Sane rx) (known : rx.beacon = some b)
    (packets : List Bytes) : rx.absorb packets ≠ none := by
  obtain ⟨rec, held⟩ := sane.opened b known
  obtain ⟨next, out, scanned, -⟩ :=
    recorded_decodeUntil rec (fresh payloadId rx.ids (rx.queued b packets))
  rw [absorb_closed known held, scanned]
  simp

theorem heed_returns (sane : Sane rx) (content : Beacon ⊕ SymbolFrame) : rx.heed content ≠ none := by
  cases content with
  | inl b =>
      change rx.ingestBeacon b ≠ none
      cases known : rx.beacon with
      | none => simp [ingestBeacon_unknown known]
      | some existing => simp [ingestBeacon_known known]
  | inr sf =>
      change rx.ingestSymbol sf ≠ none
      cases known : rx.beacon with
      | none => simp [ingestSymbol_early known]
      | some b =>
          by_cases session : sf.sid4 = sid4 b.sessionId
          · rw [ingestSymbol_known known session]
            exact absorb_returns sane known sf.packets
          · simp [ingestSymbol_foreign known session]

theorem recorded_returns_iff (sane : Sane rx) (input : Input) : rx.respond input = none ↔
    rx.done = false ∧ ∃ frame, input = .ingest frame ∧ DeclaresEmptyPackets crates.recorded frame := by
  constructor
  · intro crashed
    cases input with
    | restore session packets => simp [respond] at crashed
    | setKey key => simp [respond] at crashed
    | ingest frame =>
        simp only [respond, Option.map_eq_none_iff, ingest_eq] at crashed
        split at crashed
        · simp at crashed
        · rename_i running
          refine ⟨by simpa using running, frame, rfl, (read_panics_iff frame).mp ?_⟩
          cases said : read crates.recorded frame with
          | error fault => cases fault <;> simp_all [decoded]
          | ok content =>
              rw [said] at crashed
              exact absurd crashed (heed_returns sane content)
  · rintro ⟨running, frame, rfl, declares⟩
    simp [respond, ingest_eq, running, (read_panics_iff frame).mpr declares, decoded]

theorem symbol_returns (sane : Sane rx) {frame : Bytes} {sf : SymbolFrame}
    (decoded : SymbolFrame.decode crates.recorded frame = .ok sf) :
    rx.respond (.ingest frame) ≠ none := by
  intro crashed
  obtain ⟨-, other, same, declares⟩ := (recorded_returns_iff sane _).mp crashed
  obtain rfl := Input.ingest.inj same
  have panics := (read_panics_iff frame).mpr declares
  rw [read_symbol decoded] at panics
  simp at panics

end Receiver

end Rabaska.Pipeline
