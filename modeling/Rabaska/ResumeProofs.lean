import Rabaska.RecordProofs

/-! A receiver resumed from a checkpoint goes on as the one that was checkpointed. -/

namespace Rabaska.Pipeline.Receiver

open Call Wire Dedup

variable {crates : Crates} {rx next : Receiver crates.recorded} {b : Beacon}

/-! What a receiver holds is what a new decoder holds that is handed all that was seen. -/

/-- Until something is reassembled, the decoder is one for the beacon that was handed what was seen. -/
structure Replays (rx : Receiver crates.recorded) : Prop where
  sane : Sane rx
  needed : ∀ b, rx.beacon = some b → rx.needed = symbolsNeeded crates b.oti
  decoder : ∀ b, rx.beacon = some b → ∀ rec : Recorder crates, rx.decoder = some rec →
    rec.objects = [] →
      decodeUntil crates.recorded (Recorder.new crates b.oti) rx.seen = some (rec, none)

theorem replays_new : Replays (new crates.recorded) :=
  ⟨sane_new, by simp [new], by simp [new]⟩

theorem Replays.steps {input : Input} (replays : Replays rx) (steps : Steps rx input next) :
    Replays next := by
  have sane := replays.sane.steps steps
  cases steps with
  | quiet => exact replays
  | keyed key => exact ⟨sane, replays.needed, replays.decoder⟩
  | parked session packets brought =>
      rcases hold_cases rx session packets with parks | same
      · rw [parks] at sane ⊢
        exact ⟨sane, replays.needed, replays.decoder⟩
      · rwa [same]
  | acquired b dec unknown created =>
      have unseen := (replays.sane.unheard unknown).2.1
      refine ⟨sane, ?_, ?_⟩
      · rintro other ⟨rfl⟩
        rfl
      · rintro other ⟨rfl⟩ rec ⟨rfl⟩ -
        rw [← Option.some_inj.mp created, unseen]
        rfl
  | absorbed b dec queued dec' out done known held brought scanned =>
      refine ⟨sane, replays.needed, fun other known' rec found clean => ?_⟩
      obtain rfl : dec' = rec := Option.some_inj.mp found
      obtain rfl : b = other := Option.some_inj.mp (known.symm.trans known')
      obtain ⟨after, out', scanned', -, -, objects⟩ :=
        recorded_decodeUntil dec (fresh payloadId rx.ids queued)
      obtain ⟨rfl, rfl⟩ := Prod.mk.inj (Option.some_inj.mp (scanned'.symm.trans scanned))
      rw [objects, List.append_eq_nil_iff] at clean
      obtain ⟨before, nothing⟩ := clean
      have front := replays.decoder b known dec held before
      have quiet : out' = none := by simpa using nothing
      calc decodeUntil crates.recorded (Recorder.new crates b.oti)
            (rx.seen ++ fresh payloadId rx.ids queued)
          = decodeUntil crates.recorded dec (fresh payloadId rx.ids queued) :=
            decodeUntil_append front _
        _ = some (after, none) := by rw [scanned', quiet]

theorem run_replays {trace : List (Input × Option (Except Error Ingest))}
    (run : Machine.Run respond (new crates.recorded) trace rx) : Replays rx :=
  run.invariant Replays
    (fun _ _ _ _ replays stepped => replays.steps (respond_steps replays.sane.opened stepped))
    replays_new

/-! The receiver as it is when it has the checkpoint and the beacon, and no symbol yet. -/

def rewound (rx : Receiver crates.recorded) (b : Beacon) : Receiver crates.recorded :=
  { rx with
    decoder := some (Recorder.new crates b.oti)
    pending := rx.seen.map fun p => (sid4 b.sessionId, p)
    seen := []
    ids := ∅
    received := 0 }

/-- A receiver from which a transfer can be resumed: nothing parked, nothing reassembled yet. -/
structure Resumable (rx : Receiver crates.recorded) (b : Beacon) : Prop where
  known : rx.beacon = some b
  running : rx.done = false
  idle : rx.pending = []
  incomplete : ∀ rec : Recorder crates, rx.decoder = some rec → rec.objects = []

theorem queued_rewound (packets : List Bytes) :
    (rewound rx b).queued b packets = rx.seen ++ packets := by
  simp [queued, rewound, List.filter_map, Function.comp_def]

theorem absorb_rewound (replays : Replays rx) (resumable : Resumable rx b) (packets : List Bytes) :
    (rewound rx b).absorb packets = rx.absorb packets := by
  obtain ⟨known, -, idle, incomplete⟩ := resumable
  obtain ⟨rec, held⟩ := replays.sane.opened b known
  have front := replays.decoder b known rec held (incomplete rec held)
  have queued : rx.queued b packets = packets := by simp [Receiver.queued, idle]
  have news : fresh payloadId ∅ (rx.seen ++ packets) = rx.seen ++ fresh payloadId rx.ids packets := by
    rw [fresh_append, replays.sane.own, ← replays.sane.ids]
  have ids : learn payloadId ∅ (rx.seen ++ packets) = learn payloadId rx.ids packets := by
    rw [learn_append, ← replays.sane.ids]
  have counted : ∀ dec, ({ rewound rx b with pending := [] } : Receiver crates.recorded).counted
      (rx.seen ++ packets) dec =
        ({ rx with pending := [] } : Receiver crates.recorded).counted packets dec := by
    intro dec
    simp only [Receiver.counted, rewound, news, ids, List.nil_append, List.length_append,
      Nat.zero_add, replays.sane.received]
  have known' : (rewound rx b).beacon = some b := known
  have scanned : decodeUntil crates.recorded (Recorder.new crates b.oti)
      (fresh payloadId (rewound rx b).ids (rx.seen ++ packets)) =
      decodeUntil crates.recorded rec (fresh payloadId rx.ids packets) := by
    rw [← decodeUntil_append front, ← news]
    rfl
  rw [absorb_closed known' rfl, absorb_closed known held, queued, queued_rewound, scanned]
  simp only [counted]

def OfSession (crates : Crates) (b : Beacon) (frame : Bytes) : Prop :=
  ∃ sf, SymbolFrame.decode crates frame = .ok sf ∧ sf.sid4 = sid4 b.sessionId

theorem ingest_rewound (replays : Replays rx) (resumable : Resumable rx b) {frame : Bytes}
    (session : OfSession crates b frame) : rx.ingest frame = (rewound rx b).ingest frame := by
  obtain ⟨sf, decoded, own⟩ := session
  have said := @read_symbol crates.recorded frame sf decoded
  have running : (rewound rx b).done = false := resumable.running
  have known : (rewound rx b).beacon = some b := resumable.known
  rw [ingest_eq, ingest_eq, running, resumable.running, said]
  change rx.ingestSymbol sf = (rewound rx b).ingestSymbol sf
  rw [ingestSymbol_known resumable.known own, ingestSymbol_known known own,
    absorb_rewound replays resumable]

/-- The answer to what is no symbol of the session, once the beacon is known. -/
def aside (b : Beacon) : Outcome Error (Beacon ⊕ SymbolFrame) → Option (Except Error Ingest)
  | .ok (.inl other) =>
      some (if b.sessionId = other.sessionId then .ok .ignored else .error .foreignSession)
  | .ok (.inr _) => some (.error .foreignSession)
  | .error (.err error) => some (.error error)
  | .error .panic => none

theorem ingest_aside {frame : Bytes} (known : rx.beacon = some b) (running : rx.done = false)
    (other : ¬OfSession crates b frame) :
    rx.ingest frame = (aside b (read crates frame)).map fun answer => (answer, rx) := by
  have same : read crates.recorded frame = read crates frame := rfl
  rw [ingest_eq, running, same]
  simp only [Bool.false_eq_true, if_false]
  cases said : read crates frame with
  | error fault => cases fault <;> rfl
  | ok content =>
      cases content with
      | inl again => exact ingestBeacon_known known again
      | inr sf =>
          refine ingestSymbol_foreign known fun own => other ?_
          rcases read_cases said with ⟨again, impossible, -⟩ | ⟨sf', same', decoded⟩
          · simp at impossible
          · obtain rfl := Sum.inr.inj same'
            exact ⟨sf, decoded, own⟩

/-! A fresh receiver that is given the checkpoint and the beacon. -/

def Input.isKey : Input → Bool
  | .setKey _ => true
  | _ => false

def calls (trace : List (Input × Option (Except Error Ingest))) : List Input :=
  (trace.map Prod.fst).filter fun input => !input.isKey

variable {trace : List (Input × Option (Except Error Ingest))}

theorem run_keys (run : Machine.Run respond rx trace next) (none : calls trace = []) :
    ∃ key, next = { rx with key } := by
  induction run with
  | nil rx => exact ⟨rx.key, rfl⟩
  | @cons rx input answer after trace final stepped _ ih =>
      cases input with
      | ingest frame => simp [calls, Input.isKey] at none
      | restore session packets => simp [calls, Input.isKey] at none
      | setKey key =>
          obtain ⟨-, rfl⟩ := Prod.mk.inj (Option.some_inj.mp stepped)
          exact ih none

theorem run_call {input : Input} {rest : List Input} (run : Machine.Run respond rx trace next)
    (called : calls trace = input :: rest) :
    ∃ key answer after later, ({ rx with key } : Receiver crates.recorded).respond input =
      some (answer, after) ∧ Machine.Run respond after later next ∧ calls later = rest := by
  induction run with
  | nil rx => simp [calls] at called
  | @cons rx first answer after trace final stepped run ih =>
      cases first with
      | setKey key =>
          obtain ⟨-, rfl⟩ := Prod.mk.inj (Option.some_inj.mp stepped)
          exact ih called
      | ingest frame =>
          obtain ⟨rfl, rfl⟩ := List.cons.inj called
          exact ⟨rx.key, answer, after, trace, stepped, run, rfl⟩
      | restore session packets =>
          obtain ⟨rfl, rfl⟩ := List.cons.inj called
          exact ⟨rx.key, answer, after, trace, stepped, run, rfl⟩

theorem resumed_eq (run : Machine.Run respond (new crates.recorded) trace next) (packets : List Bytes)
    (resumed : calls trace = [.restore (sid4 b.sessionId) packets, .ingest (b.encode crates)] ∨
      calls trace = [.ingest (b.encode crates), .restore (sid4 b.sessionId) packets]) :
    ∃ key, next = { new crates.recorded with
      key
      beacon := some b
      decoder := some (Recorder.new crates b.oti)
      pending := packets.map fun p => (sid4 b.sessionId, p)
      needed := symbolsNeeded crates b.oti } := by
  rcases resumed with order | order
  · obtain ⟨key, answer, after, later, stepped, run, called⟩ := run_call run order
    obtain ⟨-, rfl⟩ := Prod.mk.inj (Option.some_inj.mp stepped)
    obtain ⟨key', answer, after, later, stepped, run, called⟩ := run_call run called
    rw [restore, hold_early rfl, respond_first rfl rfl] at stepped
    obtain ⟨-, rfl⟩ := Prod.mk.inj (Option.some_inj.mp stepped)
    obtain ⟨key'', rfl⟩ := run_keys run called
    exact ⟨key'', rfl⟩
  · obtain ⟨key, answer, after, later, stepped, run, called⟩ := run_call run order
    rw [respond_first rfl rfl] at stepped
    obtain ⟨-, rfl⟩ := Prod.mk.inj (Option.some_inj.mp stepped)
    obtain ⟨key', answer, after, later, stepped, run, called⟩ := run_call run called
    obtain ⟨-, rfl⟩ := Prod.mk.inj (Option.some_inj.mp stepped)
    obtain ⟨key'', rfl⟩ := run_keys run called
    refine ⟨key'', ?_⟩
    rw [restore, hold_own (by rintro other ⟨rfl⟩; rfl)]
    rfl

variable {r1 r2 : Receiver crates.recorded}
  {trace1 trace2 : List (Input × Option (Except Error Ingest))}

/-- A receiver that can be resumed, and a fresh one that is given its checkpoint, its beacon and its
key: they answer every sequence of frames alike, and from the first symbol of the session on they are
the same receiver, with the same record of what the decoder was handed. -/
theorem resumes (first : Machine.Run respond (new crates.recorded) trace1 r1)
    (resumable : Resumable r1 b) (second : Machine.Run respond (new crates.recorded) trace2 r2)
    (resumed : calls trace2 = [.restore (sid4 b.sessionId) r1.seen, .ingest (b.encode crates)] ∨
      calls trace2 = [.ingest (b.encode crates), .restore (sid4 b.sessionId) r1.seen])
    (keyed : r2.key = r1.key) (frames : List Bytes) :
    (Machine.execute ingest r1 frames).map Prod.fst = (Machine.execute ingest r2 frames).map Prod.fst ∧
      ((∃ frame ∈ frames, OfSession crates b frame) →
        Machine.execute ingest r1 frames = Machine.execute ingest r2 frames) := by
  have replays := run_replays first
  obtain rfl : r2 = rewound r1 b := by
    obtain ⟨key, rfl⟩ := resumed_eq second r1.seen resumed
    obtain rfl : key = r1.key := keyed
    rw [rewound, ← resumable.known, ← replays.needed b resumable.known, resumable.running]
    rfl
  refine Machine.execute_until (OfSession crates b) (fun frame other => ?_)
    (fun frame session => ingest_rewound replays resumable session) frames
  exact ⟨_, ingest_aside resumable.known resumable.running other,
    ingest_aside resumable.known resumable.running other⟩

/-! A transfer of two packets that is interrupted after the first. -/

abbrev patientCrates : Crates :=
  { Crates.sample with
    Decoder := Nat
    newDecoder := fun _ => some 0
    decode := fun count packet => some (count + 1, if count = 0 then none else some (packet.drop 4)) }

def patientSender : Transmitter :=
  Transmitter.new patientCrates sampleKey sampleNonce sampleConfig samplePlaintext

def patientSymbol (packets : List Bytes) : Bytes :=
  SymbolFrame.encode patientCrates
    { sid4 := sid4 patientSender.beacon.sessionId, frameId := 1, packetLen := patientSender.packetLen,
      packets }

def interrupted : List Input :=
  [.ingest (patientSender.beacon.encode patientCrates), .setKey sampleKey,
    .ingest (patientSymbol (patientSender.packets.take 1))]

def resumption : List Input :=
  [.restore (sid4 patientSender.beacon.sessionId) (patientSender.packets.take 1), .setKey sampleKey,
    .ingest (patientSender.beacon.encode patientCrates)]

set_option maxRecDepth 100000 in
theorem resumes_patient : ∃ trace1 trace2 r1 r2,
    Machine.Run respond (new patientCrates.recorded) trace1 r1 ∧ trace1.map Prod.fst = interrupted ∧
      Machine.Run respond (new patientCrates.recorded) trace2 r2 ∧ trace2.map Prod.fst = resumption ∧
      Machine.execute ingest r1 [patientSymbol (patientSender.packets.take 2)] =
        Machine.execute ingest r2 [patientSymbol (patientSender.packets.take 2)] := by
  have known : ((Machine.execute respond (new patientCrates.recorded) interrupted).map fun result =>
      (result.2.beacon, result.2.done, result.2.pending)) =
      some (some patientSender.beacon, false, []) := by
    decide +kernel
  have taken : ((Machine.execute respond (new patientCrates.recorded) interrupted).map fun result =>
      (result.2.decoder.map Recorder.objects, result.2.seen, result.2.key)) =
      some (some [], patientSender.packets.take 1, some sampleKey) := by
    decide +kernel
  have restored : ((Machine.execute respond (new patientCrates.recorded) resumption).map fun result =>
      result.2.key) = some (some sampleKey) := by
    decide +kernel
  obtain ⟨⟨answers1, r1⟩, executed1, same⟩ := Option.map_eq_some_iff.mp known
  obtain ⟨known, running, idle⟩ : r1.beacon = some patientSender.beacon ∧ r1.done = false ∧
      r1.pending = [] := by simpa using same
  rw [executed1] at taken
  obtain ⟨objects, seen, keyed1⟩ : r1.decoder.map Recorder.objects = some [] ∧
      r1.seen = patientSender.packets.take 1 ∧ r1.key = some sampleKey := by simpa using taken
  obtain ⟨⟨answers2, r2⟩, executed2, keyed2⟩ := Option.map_eq_some_iff.mp restored
  obtain ⟨run1, sized1⟩ := Machine.execute_run executed1
  obtain ⟨run2, sized2⟩ := Machine.execute_run executed2
  have shape1 : (interrupted.zip answers1).map Prod.fst = interrupted :=
    List.map_fst_zip (Nat.le_of_eq sized1)
  have shape2 : (resumption.zip answers2).map Prod.fst = resumption :=
    List.map_fst_zip (Nat.le_of_eq sized2)
  have resumable : Resumable r1 patientSender.beacon := by
    refine ⟨known, running, idle, fun rec held => ?_⟩
    rw [held] at objects
    exact Option.some_inj.mp objects
  have resumed : calls (resumption.zip answers2) =
      [.restore (sid4 patientSender.beacon.sessionId) r1.seen,
        .ingest (patientSender.beacon.encode patientCrates)] := by
    rw [calls, shape2, seen]
    rfl
  obtain ⟨-, same⟩ := resumes run1 resumable run2 (.inl resumed) (keyed2.trans keyed1.symm)
    [patientSymbol (patientSender.packets.take 2)]
  refine ⟨_, _, r1, r2, run1, shape1, run2, shape2, same ?_⟩
  refine ⟨_, List.mem_singleton_self _, _, SymbolFrame.decode_encode patientCrates _ ?_, rfl⟩
  refine ⟨?_, ?_, ?_⟩ <;> decide +kernel

end Rabaska.Pipeline.Receiver
