import Rabaska.StepProofs

/-! Foreign and damaged input costs a transfer nothing but time. -/

namespace Rabaska

def Error.ofFrame : Error → Bool
  | .truncated _ _ | .badMagic | .badVersion _ | .badFrameType _ | .badMode _ | .badCrc _ _
  | .foreignSession => true
  | .authFailed | .lengthMismatch _ _ | .decompress | .missingIdentity => false

namespace Pipeline.Receiver

open Call Wire

variable {crates : Crates}

def acquiredIn (past : List (Input × Option (Except Error Ingest))) : Bool :=
  past.any fun event => match event.2 with
    | some (.ok .beaconAcquired) => true
    | _ => false

/-- What is foreign to a session: a frame that was refused as one, a SYMBOL frame of another session
before the beacon, packets restored under another session. -/
def foreign (crates : Crates) (session : Octets 4)
    (past : List (Input × Option (Except Error Ingest))) :
    Input × Option (Except Error Ingest) → Bool
  | (.ingest _, some (.error error)) => error.ofFrame
  | (.ingest frame, _) => !acquiredIn past && match SymbolFrame.decode crates frame with
      | .ok sf => sf.sid4 ≠ session
      | .error _ => false
  | (.restore other _, _) => other ≠ session
  | (.setKey _, _) => false

/-- Two receivers that differ only in packets parked for other sessions. -/
structure Akin (session : Octets 4) (rx other : Receiver crates) : Prop where
  same : other = { rx with pending := other.pending }
  parked : (other.pending.filter fun entry => entry.1 = session) =
    rx.pending.filter fun entry => entry.1 = session

variable {session : Octets 4} {rx other next : Receiver crates}

theorem Akin.refl (session : Octets 4) (rx : Receiver crates) : Akin session rx rx := ⟨rfl, rfl⟩

theorem Akin.parks (akin : Akin session rx other) (entries : List (Octets 4 × Bytes)) :
    Akin session { rx with pending := rx.pending ++ entries }
      { other with pending := other.pending ++ entries } := by
  refine ⟨?_, ?_⟩
  · rw [akin.same]
  · rw [List.filter_append, List.filter_append, akin.parked]

theorem Akin.parks_other (akin : Akin session rx other) {entries : List (Octets 4 × Bytes)}
    (others : ∀ entry ∈ entries, entry.1 ≠ session) :
    Akin session { rx with pending := rx.pending ++ entries } other := by
  refine ⟨akin.same, ?_⟩
  have none : (entries.filter fun entry => entry.1 = session) = [] := by
    simpa [List.filter_eq_nil_iff] using others
  rw [List.filter_append, none, List.append_nil]
  exact akin.parked

theorem Akin.absorb (akin : Akin session rx other) {b : Beacon} (known : rx.beacon = some b)
    (own : sid4 b.sessionId = session) (packets : List Bytes) :
    other.absorb packets = rx.absorb packets := by
  have beacon : other.beacon = rx.beacon := by rw [akin.same]
  have queued : other.queued b packets = rx.queued b packets := by
    rw [queued, queued, own, akin.parked]
  have drained : ({ other with pending := [] } : Receiver crates) = { rx with pending := [] } := by
    rw [akin.same]
  rw [absorb_known (beacon.trans known), absorb_known known, queued, drained]

/-! Opening an object fails with errors of its own. -/

theorem openObject_error {key : Crypto.SessionKey} {b : Beacon} {ct : Bytes} {error : Error}
    (failed : openObject crates key b ct = .error error) : error.ofFrame = false := by
  unfold openObject Crypto.decrypt maybeDecompress at failed
  cases opened : crates.xchachaDecrypt key b.nonce b.aad ct with
  | none =>
      simp [opened, bind, Except.bind] at failed
      rw [← failed]
      rfl
  | some body =>
      simp only [opened, bind, Except.bind] at failed
      split at failed
      · rename_i inflated
        split at inflated
        · simp at inflated
        · split at inflated
          · simp at inflated
          · rw [← Except.error.inj failed, ← Except.error.inj inflated]
            rfl
      · split at failed
        · rw [← Except.error.inj failed]
          rfl
        · simp at failed

theorem absorb_error {packets : List Bytes} {error : Error}
    (absorbed : rx.absorb packets = some (.error error, next)) : error.ofFrame = false := by
  unfold absorb at absorbed
  obtain ⟨b, -, absorbed⟩ := Option.bind_eq_some_iff.mp absorbed
  obtain ⟨⟨after, found⟩, -, absorbed⟩ := Option.bind_eq_some_iff.mp absorbed
  simp only [conclude] at absorbed
  split at absorbed
  · split at absorbed
    · rename_i failed
      obtain ⟨same, -⟩ := Prod.mk.inj (Option.some_inj.mp absorbed)
      obtain rfl := Except.error.inj same
      exact openObject_error failed
    · simp at absorbed
  · simp at absorbed

theorem ingest_damaged {frame : Bytes} {error : Error}
    (ingested : rx.ingest frame = some (.error error, next)) (damaged : error.ofFrame = true) :
    next = rx := by
  cases ingest_cases ingested with
  | refused error => rfl
  | absorbed packets result next running absorbed =>
      rw [absorb_error absorbed] at damaged
      simp at damaged

/-! One call: what is not deleted is answered alike, and what is deleted leaves no trace. -/

theorem ingestBeacon_akin (akin : Akin session rx other) {b : Beacon} {result : Except Error Ingest}
    (heeded : rx.ingestBeacon b = some (result, next)) :
    ∃ after, other.ingestBeacon b = some (result, after) ∧ Akin session next after := by
  have beacon : other.beacon = rx.beacon := by rw [akin.same]
  cases known : rx.beacon with
  | some existing =>
      rw [ingestBeacon_known known] at heeded
      obtain ⟨rfl, rfl⟩ := Prod.mk.inj (Option.some_inj.mp heeded)
      exact ⟨other, ingestBeacon_known (beacon.trans known) b, akin⟩
  | none =>
      rw [ingestBeacon_unknown known] at heeded
      obtain ⟨dec, created, same⟩ := Option.map_eq_some_iff.mp heeded
      obtain ⟨rfl, rfl⟩ := Prod.mk.inj same
      rw [ingestBeacon_unknown (beacon.trans known), created]
      refine ⟨_, rfl, ?_, akin.parked⟩
      rw [akin.same]

theorem ingestSymbol_akin (akin : Akin session rx other) {sf : SymbolFrame}
    {result : Except Error Ingest} (heeded : rx.ingestSymbol sf = some (result, next))
    (own : ∀ b, rx.beacon = some b → sid4 b.sessionId = session) :
    ∃ after, other.ingestSymbol sf = some (result, after) ∧ Akin session next after := by
  have beacon : other.beacon = rx.beacon := by rw [akin.same]
  cases known : rx.beacon with
  | none =>
      rw [ingestSymbol_early known] at heeded
      obtain ⟨rfl, rfl⟩ := Prod.mk.inj (Option.some_inj.mp heeded)
      exact ⟨_, ingestSymbol_early (beacon.trans known) sf, akin.parks _⟩
  | some b =>
      by_cases here : sf.sid4 = sid4 b.sessionId
      · rw [ingestSymbol_known known here] at heeded
        rw [ingestSymbol_known (beacon.trans known) here, akin.absorb known (own b known)]
        exact ⟨next, heeded, Akin.refl session next⟩
      · rw [ingestSymbol_foreign known here] at heeded
        obtain ⟨rfl, rfl⟩ := Prod.mk.inj (Option.some_inj.mp heeded)
        exact ⟨other, ingestSymbol_foreign (beacon.trans known) here, akin⟩

theorem ingest_akin (akin : Akin session rx other) {frame : Bytes} {result : Except Error Ingest}
    (ingested : rx.ingest frame = some (result, next))
    (own : ∀ b, rx.beacon = some b → sid4 b.sessionId = session) :
    ∃ after, other.ingest frame = some (result, after) ∧ Akin session next after := by
  have done : other.done = rx.done := by rw [akin.same]
  rw [ingest_eq] at ingested
  rw [ingest_eq, done]
  split at ingested
  · rename_i finished
    obtain ⟨rfl, rfl⟩ := Prod.mk.inj (Option.some_inj.mp ingested)
    exact ⟨other, by rw [if_pos finished], akin⟩
  · rename_i running
    rw [if_neg running]
    cases said : read crates frame with
    | error fault =>
        rw [said] at ingested
        cases fault with
        | panic => simp [decoded] at ingested
        | err error =>
            obtain ⟨rfl, rfl⟩ := Prod.mk.inj (Option.some_inj.mp ingested)
            exact ⟨other, rfl, akin⟩
    | ok content =>
        rw [said] at ingested
        cases content with
        | inl b => exact ingestBeacon_akin akin ingested
        | inr sf => exact ingestSymbol_akin akin ingested own

theorem respond_akin (akin : Akin session rx other) {input : Input}
    {answer : Option (Except Error Ingest)} (stepped : rx.respond input = some (answer, next))
    (own : ∀ b, rx.beacon = some b → sid4 b.sessionId = session) :
    ∃ after, other.respond input = some (answer, after) ∧ Akin session next after := by
  cases input with
  | ingest frame =>
      obtain ⟨result, rfl, ingested⟩ := respond_ingest stepped
      obtain ⟨after, answered, related⟩ := ingest_akin akin ingested own
      exact ⟨after, by simp [respond, answered], related⟩
  | restore restored packets =>
      obtain ⟨rfl, rfl⟩ := Prod.mk.inj (Option.some_inj.mp stepped)
      refine ⟨_, rfl, ?_⟩
      have beacon : other.beacon = rx.beacon := by rw [akin.same]
      by_cases here : ∀ b, rx.beacon = some b → restored = sid4 b.sessionId
      · rw [restore, restore, hold_own here, hold_own (by rwa [beacon])]
        exact akin.parks _
      · simp only [not_forall] at here
        obtain ⟨b, known, elsewhere⟩ := here
        rw [restore, restore, hold_foreign known elsewhere, hold_foreign (beacon.trans known) elsewhere]
        exact akin
  | setKey key =>
      obtain ⟨rfl, rfl⟩ := Prod.mk.inj (Option.some_inj.mp stepped)
      refine ⟨_, rfl, ?_, akin.parked⟩
      rw [akin.same]
      rfl

theorem respond_foreign (akin : Akin session rx other)
    {past : List (Input × Option (Except Error Ingest))} {input : Input}
    {answer : Option (Except Error Ingest)} (stepped : rx.respond input = some (answer, next))
    (early : acquiredIn past = false → rx.beacon = none)
    (own : ∀ b, rx.beacon = some b → sid4 b.sessionId = session)
    (deleted : foreign crates session past (input, answer) = true) : Akin session next other := by
  cases input with
  | setKey key => simp [foreign] at deleted
  | restore restored packets =>
      obtain ⟨rfl, rfl⟩ := Prod.mk.inj (Option.some_inj.mp stepped)
      have elsewhere : restored ≠ session := by simpa [foreign] using deleted
      cases known : rx.beacon with
      | none =>
          rw [restore, hold_early known]
          refine akin.parks_other fun entry member => ?_
          obtain ⟨p, -, rfl⟩ := List.mem_map.mp member
          exact elsewhere
      | some b =>
          have refused : restored ≠ sid4 b.sessionId := by rwa [own b known]
          rw [restore, hold_foreign known refused]
          exact akin
  | ingest frame =>
      obtain ⟨result, rfl, ingested⟩ := respond_ingest stepped
      cases result with
      | error error =>
          rw [ingest_damaged ingested deleted]
          exact akin
      | ok outcome =>
          simp only [foreign, Bool.and_eq_true, Bool.not_eq_true'] at deleted
          obtain ⟨unheard, elsewhere⟩ := deleted
          have unknown := early unheard
          split at elsewhere
          · rename_i sf said
            have elsewhere : sf.sid4 ≠ session := by simpa using elsewhere
            rw [ingest_eq, read_symbol said] at ingested
            split at ingested
            · obtain ⟨-, rfl⟩ := Prod.mk.inj (Option.some_inj.mp ingested)
              exact akin
            · simp only [decoded, heed, Sum.elim_inr, ingestSymbol_early unknown] at ingested
              obtain ⟨-, rfl⟩ := Prod.mk.inj (Option.some_inj.mp ingested)
              refine akin.parks_other fun entry member => ?_
              obtain ⟨p, -, rfl⟩ := List.mem_map.mp member
              exact elsewhere
          · simp at elsewhere

theorem respond_early {past : List (Input × Option (Except Error Ingest))} {input : Input}
    {answer : Option (Except Error Ingest)} (stepped : rx.respond input = some (answer, next))
    (early : acquiredIn past = false → rx.beacon = none) :
    acquiredIn (past ++ [(input, answer)]) = false → next.beacon = none := by
  intro unheard
  simp only [acquiredIn, List.any_append, Bool.or_eq_false_iff, List.any_cons, List.any_nil,
    Bool.or_false] at unheard
  obtain ⟨before, now⟩ := unheard
  have unknown := early before
  cases input with
  | setKey key =>
      obtain ⟨-, rfl⟩ := Prod.mk.inj (Option.some_inj.mp stepped)
      exact unknown
  | restore session packets =>
      obtain ⟨-, rfl⟩ := Prod.mk.inj (Option.some_inj.mp stepped)
      exact (hold_effect rx session packets).1.trans unknown
  | ingest frame =>
      obtain ⟨result, rfl, ingested⟩ := respond_ingest stepped
      refine (ingest_kept ingested ?_).1.trans unknown
      rintro rfl
      simp at now

/-- Deleting everything foreign to the session of the acquired beacon from a run leaves all other
answers, and the receiver at the end but for what is parked for other sessions. -/
theorem foreign_deleted {final : Receiver crates}
    {trace : List (Input × Option (Except Error Ingest))} {b : Beacon}
    (run : Machine.Run respond (new crates) trace final) (acquired : final.beacon = some b) :
    ∃ last, Machine.Run respond (new crates) (Machine.prune (foreign crates (sid4 b.sessionId)) [] trace)
        last ∧ Akin (sid4 b.sessionId) final last := by
  -- The beacon is acquired once, so whatever beacon a receiver on the way holds is this one.
  have own : ∀ {rx next : Receiver crates} {input answer rest}, rx.respond input = some (answer, next) →
      Machine.Run respond next rest final →
      ∀ b', rx.beacon = some b' → sid4 b'.sessionId = sid4 b.sessionId := by
    intro rx next input answer rest stepped run b' known
    have kept := run_known run (respond_known known stepped)
    rw [Option.some_inj.mp (kept.symm.trans acquired)]
  obtain ⟨last, pruned, -, akin⟩ := run.pruned
    (fun past rx other => (acquiredIn past = false → rx.beacon = none) ∧
      Akin (sid4 b.sessionId) rx other)
    (fun past rx other input answer next rest related stepped run deleted =>
      ⟨respond_early stepped related.1,
        respond_foreign related.2 stepped related.1 (own stepped run) deleted⟩)
    (fun past rx other input answer next rest related stepped run => by
      obtain ⟨after, answered, akin⟩ := respond_akin related.2 stepped (own stepped run)
      exact ⟨after, answered, respond_early stepped related.1, akin⟩)
    ⟨fun _ => rfl, Akin.refl _ _⟩
  exact ⟨last, pruned, akin⟩

/-! A transfer in a noisy room. -/

def sampleSender (session : UInt8) : Transmitter :=
  Transmitter.new Crates.sample sampleKey sampleNonce
    { sampleConfig with sessionId := Octets.replicate 8 session } samplePlaintext

def sampleSymbol (session : UInt8) : Bytes :=
  SymbolFrame.encode Crates.sample
    { sid4 := Octets.replicate 4 session
      frameId := 1
      packetLen := (sampleSender session).packetLen
      packets := (sampleSender session).packets.take 1 }

def noisy : List Input :=
  [.ingest [0x52, 0x42], .restore (Octets.replicate 4 9) [[0, 0, 0, 0, 1]], .ingest (sampleSymbol 9),
    .ingest (sampleSender 4).beaconBytes, .ingest (sampleSender 9).beaconBytes,
    .restore (Octets.replicate 4 9) [[0, 0, 0, 0, 1]], .setKey sampleKey, .ingest (sampleSymbol 4)]

def noisyAnswers : List (Option (Except Error Ingest)) :=
  [some (.error (.truncated 4 2)), none, some (.ok .ignored), some (.ok .beaconAcquired),
    some (.error .foreignSession), none, none, some (.ok (.done samplePlaintext))]

set_option maxRecDepth 100000 in
theorem foreign_deleted_noisy : ∃ final last,
    Machine.Run respond (new Crates.sample) (noisy.zip noisyAnswers) final ∧
      Machine.Run respond (new Crates.sample)
        (Machine.prune (foreign Crates.sample (Octets.replicate 4 4)) [] (noisy.zip noisyAnswers)) last ∧
      (Machine.prune (foreign Crates.sample (Octets.replicate 4 4)) []
        (noisy.zip noisyAnswers)).map Prod.fst =
        [.ingest (sampleSender 4).beaconBytes, .setKey sampleKey, .ingest (sampleSymbol 4)] ∧
      Akin (Octets.replicate 4 4) final last := by
  have computed : ((Machine.execute respond (new Crates.sample) noisy).map fun result =>
      (result.1, result.2.beacon)) = some (noisyAnswers, some (sampleSender 4).beacon) := by
    decide +kernel
  obtain ⟨⟨answers, final⟩, executed, same⟩ := Option.map_eq_some_iff.mp computed
  obtain ⟨rfl, acquired⟩ := Prod.mk.inj same
  obtain ⟨run, -⟩ := Machine.execute_run executed
  obtain ⟨last, pruned, akin⟩ := foreign_deleted run acquired
  exact ⟨final, last, run, pruned, by decide +kernel, akin⟩

end Pipeline.Receiver

end Rabaska
