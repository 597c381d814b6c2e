import Rabaska.Convergence
import Rabaska.RecordProofs

/-! Several senders in view: whose packets the decoder of an acquired beacon is handed. -/

namespace Rabaska.Pipeline

open Call Wire Dedup Receiver

variable {crates : Crates}

/-- A transmitter as the code builds one, of packets as RaptorQ makes them. -/
def Honest (crates : Crates) (tx : Transmitter) : Prop :=
  ∃ key nonce cfg plaintext, tx = Transmitter.new crates key nonce cfg plaintext ∧
    PacketPool (Transmitter.encoded crates key nonce cfg plaintext).packets

/-- A call that feeds a frame of one of the senders, or sets a key. -/
def FromSenders {ι : Type} (crates : Crates) (senders : ι → Transmitter) : Input → Prop
  | .ingest bytes => ∃ i ops, ∃ frame ∈ Transmitter.emitted crates (senders i) ops, frame.bytes = bytes
  | .restore _ _ => False
  | .setKey _ => True

/-- Once the beacon is this sender's, every packet that was handed to the decoder is. -/
def FedBy (tx : Transmitter) (rx : Receiver crates.recorded) : Prop :=
  rx.beacon = some tx.beacon → ∀ rec : Recorder crates, rx.decoder = some rec →
    ∀ p ∈ rec.packets, p ∈ tx.packets

/-- A call in which no packet of another sender gets to the front: every one that is new in the queue
of the session, up to the one that completes the object, is the sender's. -/
def Offers (tx : Transmitter) (rx : Receiver crates.recorded) (input : Input) : Prop :=
  rx.beacon = some tx.beacon → ∀ p ∈ rx.hands input, p ∈ tx.packets

variable {tx : Transmitter} {rx next : Receiver crates.recorded} {input : Input}

theorem fedBy_iff (sane : Sane rx) (fed : FedBy tx rx)
    (records : Records rx input next) : FedBy tx next ↔ Offers tx rx input := by
  unfold Records at records
  split at records
  · rename_i b acquired
    obtain ⟨-, decoder⟩ := records
    have unknown := acquires_unknown acquired
    refine iff_of_true (fun _ rec held => ?_) (by simp [Offers, unknown])
    obtain rfl := Option.some_inj.mp (decoder.symm.trans held)
    simp [Recorder.new]
  · obtain ⟨beacon, extends'⟩ := records
    unfold FedBy Offers
    rw [beacon]
    refine forall_congr' fun known => ?_
    obtain ⟨rec, held⟩ := sane.opened _ known
    obtain ⟨rec', held', -, packets⟩ := extends' rec held
    constructor
    · intro kept p member
      refine kept rec' held' p ?_
      rw [packets]
      exact List.mem_append_right _ member
    · intro offered other found p member
      obtain rfl := Option.some_inj.mp (held'.symm.trans found)
      rw [packets] at member
      rcases List.mem_append.mp member with before | now
      · exact fed known rec held p before
      · exact offered p now

theorem along_fedBy_iff (tx : Transmitter) (trace : List (Input × Option (Except Error Ingest))) :
    Machine.Along respond (fun _ _ _ next => FedBy tx next) (new crates.recorded) trace ↔
      Machine.Along respond (fun rx input _ _ => Offers tx rx input) (new crates.recorded) trace := by
  refine Machine.along_iff (fun rx => Sane rx ∧ FedBy tx rx) ?_
    ⟨sane_new, fun _ => by simp [new]⟩ trace
  rintro rx input answer next ⟨sane, fed⟩ stepped
  have same := fedBy_iff sane fed (respond_records sane stepped)
  exact ⟨same, fun offers => ⟨respond_sane sane stepped, same.mpr offers⟩⟩

/-! Only what comes under the first four bytes of the acquired session can be handed over. -/

def ParkedBy (tx : Transmitter) (rx : Receiver crates.recorded) : Prop :=
  ∀ p, (sid4 tx.beacon.sessionId, p) ∈ rx.pending → p ∈ tx.packets

theorem ParkedBy.steps (parked : ParkedBy tx rx) (steps : Steps rx input next)
    (clean : ∀ p, Brings crates.recorded input (sid4 tx.beacon.sessionId) p → p ∈ tx.packets) :
    ParkedBy tx next := by
  cases steps with
  | quiet => exact parked
  | keyed key => exact parked
  | parked session packets brought =>
      rcases hold_cases rx session packets with parks | same
      · rw [parks]
        intro p either
        rcases List.mem_append.mp either with before | now
        · exact parked p before
        · obtain ⟨q, member, same⟩ := List.mem_map.mp now
          obtain ⟨rfl, rfl⟩ := Prod.mk.inj same
          exact clean q (brought q member)
      · rwa [same]
  | acquired b dec unknown created => exact parked
  | absorbed b dec queued next out done known held brought scanned =>
      intro p member
      simp [counted] at member

theorem hands_brought {p : Bytes} {b : Beacon} (known : rx.beacon = some b)
    (member : p ∈ rx.hands input) : (sid4 b.sessionId, p) ∈ rx.pending ∨
      Brings crates.recorded input (sid4 b.sessionId) p := by
  cases input with
  | restore session packets => simp [hands] at member
  | setKey key => simp [hands] at member
  | ingest frame =>
      simp only [hands] at member
      split at member
      · rename_i b' dec sf running known' held decoded
        obtain rfl := Option.some_inj.mp (known.symm.trans known')
        split at member
        · rename_i session
          have queued := (mem_fresh (handed_subset dec _ p member)).1
          exact (mem_queued queued).imp_right fun inside => ⟨sf, decoded, session, inside⟩
        · simp at member
      · simp at member

theorem offers_clean (parked : ParkedBy tx rx)
    (clean : ∀ p, Brings crates.recorded input (sid4 tx.beacon.sessionId) p → p ∈ tx.packets) :
    Offers tx rx input := by
  intro known p member
  rcases hands_brought known member with before | now
  · exact parked p before
  · exact clean p now

/-- In a run whose calls bring only the sender's packets under the first four bytes of its session,
the decoder is handed only the sender's packets. -/
theorem along_clean {trace : List (Input × Option (Except Error Ingest))}
    (clean : Machine.Along respond (fun _ input _ _ => ∀ p,
      Brings crates.recorded input (sid4 tx.beacon.sessionId) p → p ∈ tx.packets)
      (new crates.recorded) trace) :
    Machine.Along respond (fun _ _ _ next => FedBy tx next) (new crates.recorded) trace := by
  rw [along_fedBy_iff]
  refine clean.invariant (fun rx => Sane rx ∧ ParkedBy tx rx) ?_ ⟨sane_new, by simp [ParkedBy, new]⟩
  rintro rx input answer next ⟨sane, parked⟩ stepped clean
  exact ⟨offers_clean parked clean, respond_sane sane stepped,
    parked.steps (respond_steps sane.opened stepped) clean⟩

/-! Honest senders. -/

theorem Honest.sound (honest : Honest crates tx) : Sound crates tx := by
  obtain ⟨key, nonce, cfg, plaintext, rfl, genuine⟩ := honest
  exact sound_new genuine.sized

theorem Honest.emits (honest : Honest crates tx) {ops : List Transmitter.Op} {frame : Frame}
    (emitted : frame ∈ Transmitter.emitted crates tx ops) : tx.Genuine crates frame := by
  obtain ⟨key, nonce, cfg, plaintext, rfl, -⟩ := honest
  exact Transmitter.new_emits frame emitted

/-- What RaptorQ's packets of one length make of a transmitter: the length is declared in two bytes. -/
structure Uniform (crates : Crates) (tx : Transmitter) : Prop where
  encodes : tx.beaconBytes = tx.beacon.encode crates
  sized : ∃ len, tx.packetLen.toNat = len % 2 ^ 16 ∧ ∀ p ∈ tx.packets, p.length = len

theorem Sound.uniform (sound : Sound crates tx) : Uniform crates tx :=
  ⟨sound.encodes, _, (Nat.mod_eq_of_lt tx.packetLen.toNat_lt).symm, sound.sized⟩

theorem brings_uniform (uniform : Uniform crates tx) {frame : Frame} (genuine : tx.Genuine crates frame)
    {session : Octets 4} {p : Bytes} (brings : Brings crates (.ingest frame.bytes) session p) :
    sid4 tx.beacon.sessionId = session ∧ p ∈ tx.packets := by
  obtain ⟨sf, decoded, rfl, member⟩ := brings
  cases genuine with
  | beacon =>
      have said := read_beacon (Beacon.decode_encode crates tx.beacon)
      rw [← uniform.encodes] at said
      exact absurd ((read_symbol decoded).symm.trans said) (by simp)
  | symbol own session len kept count pool =>
      obtain ⟨size, declared, sized⟩ := uniform.sized
      obtain rfl : sf = own := SymbolFrame.decode_uniform crates kept count
        (fun q inside => sized q (pool q inside)) (by rw [len, declared]) decoded
      exact ⟨session.symm, pool p member⟩

theorem brings_genuine (sound : Sound crates tx) {frame : Frame} (genuine : tx.Genuine crates frame)
    {session : Octets 4} {p : Bytes} (brings : Brings crates (.ingest frame.bytes) session p) :
    sid4 tx.beacon.sessionId = session ∧ p ∈ tx.packets :=
  brings_uniform sound.uniform genuine brings

theorem Honest.begins (honest : Honest crates tx) :
    .beacon tx.beaconBytes ∈ Transmitter.emitted crates tx [.nextFrame] := by
  obtain ⟨key, nonce, cfg, plaintext, rfl, -⟩ := honest
  exact List.mem_singleton_self _

theorem Honest.draws (honest : Honest crates tx) {p : Bytes} (member : p ∈ tx.packets) :
    (∃ id, payloadId p = some id) ∧ Transmitter.Draws crates tx p := by
  obtain ⟨key, nonce, cfg, plaintext, rfl, genuine⟩ := honest
  obtain ⟨id, identified, -⟩ := genuine.payloadId member
  exact ⟨⟨id, identified⟩, Transmitter.new_draws member⟩

theorem hands_first {b : Beacon} {rec : Recorder crates} {sf : SymbolFrame} (running : rx.done = false)
    (known : rx.beacon = some b) (held : rx.decoder = some rec) (idle : rx.pending = [])
    (unseen : rx.ids = ∅) (session : sf.sid4 = sid4 b.sessionId) (wellFormed : sf.WellFormed)
    {p : Bytes} (alone : sf.packets = [p]) {id : Octets 4} (identified : payloadId p = some id) :
    p ∈ rx.hands (.ingest (sf.encode crates)) := by
  have decoded : SymbolFrame.decode crates.recorded (sf.encode crates) = .ok sf :=
    SymbolFrame.decode_encode crates sf wellFormed
  have queued : rx.queued b sf.packets = [p] := by simp [Receiver.queued, idle, alone]
  have new : fresh payloadId rx.ids [p] = [p] := by
    rw [fresh_new identified (by simp [unseen])]
    rfl
  rw [hands_symbol running known held decoded, if_pos session, queued, new, handed]
  exact List.mem_cons_self

theorem mixable {other : Transmitter} (honest : Honest crates tx) (honest' : Honest crates other)
    (shared : sid4 other.beacon.sessionId = sid4 tx.beacon.sessionId) {p : Bytes}
    (member : p ∈ other.packets) (foreign : p ∉ tx.packets) : ∃ ops, ∃ frame ∈
      Transmitter.emitted crates other ops, ∃ trace final,
        Machine.Run respond (new crates.recorded) trace final ∧
        trace.map Prod.fst = [.ingest tx.beaconBytes, .ingest frame.bytes] ∧
        ¬Machine.Along respond (fun rx input _ _ => Offers tx rx input) (new crates.recorded) trace := by
  obtain ⟨⟨id, identified⟩, ops, frameId, drawn⟩ := honest'.draws member
  obtain ⟨sf, session, len, alone, emitted⟩ : ∃ sf : SymbolFrame, sf.sid4 = sid4 other.beacon.sessionId ∧
      sf.packetLen = other.packetLen ∧ sf.packets = [p] ∧
      .symbol (sf.encode crates) ∈ Transmitter.emitted crates other ops :=
    ⟨_, rfl, rfl, rfl, drawn⟩
  have wellFormed : sf.WellFormed :=
    honest'.sound.wellFormed len (by simp [alone]) (by simpa [alone] using member)
  have acquires := @respond_first crates (new crates.recorded) rfl rfl tx.beacon
  rw [← honest.sound.encodes] at acquires
  have survives := symbol_returns (respond_sane sane_new acquires)
    (SymbolFrame.decode_encode crates.recorded sf wellFormed)
  obtain ⟨⟨answer, next⟩, stepped⟩ := Option.ne_none_iff_exists'.mp survives
  refine ⟨ops, _, emitted, _, next, .cons acquires (.cons stepped (.nil next)), rfl, ?_⟩
  rintro ⟨mid, again, -, last, -, offers, -⟩
  obtain ⟨-, rfl⟩ := Prod.mk.inj (Option.some_inj.mp (acquires.symm.trans again))
  exact foreign (offers rfl p
    (hands_first rfl rfl rfl rfl rfl (session.trans shared) wellFormed alone identified))

/-- However the frames of any number of senders are interleaved: the decoder is handed packets of the
acquired sender alone exactly while no packet of another one gets to the front of its session; and so
it is in all interleavings exactly when no other sender shares the first four bytes of the session id,
unless with the same packets. -/
theorem unmixed_iff {ι : Type} {senders : ι → Transmitter} (honest : ∀ i, Honest crates (senders i))
    (i : ι) :
    (∀ trace final, Machine.Run respond (new crates.recorded) trace final →
      (∀ event ∈ trace, FromSenders crates senders event.1) →
      (Machine.Along respond (fun _ _ _ next => FedBy (senders i) next) (new crates.recorded) trace ↔
        Machine.Along respond (fun rx input _ _ => Offers (senders i) rx input)
          (new crates.recorded) trace)) ∧
      ((∀ trace final, Machine.Run respond (new crates.recorded) trace final →
        (∀ event ∈ trace, FromSenders crates senders event.1) →
        Machine.Along respond (fun _ _ _ next => FedBy (senders i) next) (new crates.recorded)
          trace) ↔
        ∀ j, sid4 (senders j).beacon.sessionId = sid4 (senders i).beacon.sessionId →
          ∀ p ∈ (senders j).packets, p ∈ (senders i).packets) := by
  refine ⟨fun trace _ _ _ => along_fedBy_iff (senders i) trace, fun always j shared p member => ?_,
    fun alone trace final run fed => along_clean ?_⟩
  · by_contra foreign
    obtain ⟨ops, frame, emitted, trace, final, run, inputs, mixed⟩ :=
      mixable (honest i) (honest j) shared member foreign
    refine mixed ((along_fedBy_iff (senders i) trace).mp (always trace final run fun event inside => ?_))
    have input : event.1 ∈ trace.map Prod.fst := List.mem_map_of_mem inside
    rw [inputs] at input
    rcases List.mem_cons.mp input with first | rest
    · rw [first]
      exact ⟨i, [.nextFrame], _, (honest i).begins, rfl⟩
    · rw [List.mem_singleton.mp rest]
      exact ⟨j, ops, frame, emitted, rfl⟩
  · refine (run.along fed).mono fun rx input answer next drawn p brings => ?_
    cases input with
    | restore session packets => exact drawn.elim
    | setKey key => exact brings.elim
    | ingest bytes =>
        obtain ⟨j, ops, frame, emitted, rfl⟩ := drawn
        obtain ⟨shared, member⟩ := brings_genuine (honest j).sound ((honest j).emits emitted) brings
        exact alone j shared p member

/-! A second sender, who answers the request of the session it is given. -/

def answerer (session : UInt8) (second : Bool) : Transmitter :=
  if second then
    Transmitter.new Crates.sample (Octets.replicate 32 8) (Octets.replicate 24 1)
      { sampleConfig with sessionId := Octets.replicate 8 session } [4, 5, 6]
  else Transmitter.new Crates.sample sampleKey sampleNonce sampleConfig samplePlaintext

def firstFrames (session : UInt8) (second : Bool) : List Frame :=
  Transmitter.emitted Crates.sample (answerer session second) [.nextFrame, .nextFrame]

def interleaved (session : UInt8) : List Input :=
  ((firstFrames session false).take 1).map (fun frame => .ingest frame.bytes) ++
    (.setKey sampleKey :: ((firstFrames session true).drop 1 ++ (firstFrames session false).drop 1).map
      fun frame => .ingest frame.bytes)

theorem interleaved_fed (session : UInt8) :
    ∀ input ∈ interleaved session, FromSenders Crates.sample (answerer session) input := by
  have drawn : ∀ second, ∀ frame ∈ firstFrames session second,
      FromSenders Crates.sample (answerer session) (.ingest frame.bytes) :=
    fun second frame member => ⟨second, _, frame, member, rfl⟩
  intro input member
  rcases List.mem_append.mp member with first | rest
  · obtain ⟨frame, inside, rfl⟩ := List.mem_map.mp first
    exact drawn false frame (List.mem_of_mem_take inside)
  · rcases List.mem_cons.mp rest with rfl | later
    · trivial
    · obtain ⟨frame, inside, rfl⟩ := List.mem_map.mp later
      rcases List.mem_append.mp inside with theirs | ours
      · exact drawn true frame (List.mem_of_mem_drop theirs)
      · exact drawn false frame (List.mem_of_mem_drop ours)

theorem answerer_honest (session : UInt8) (either : session = 4 ∨ session = 9) (second : Bool) :
    Honest Crates.sample (answerer session second) := by
  cases second with
  | false =>
      refine ⟨sampleKey, sampleNonce, sampleConfig, samplePlaintext, rfl,
        ⟨148, by decide, by decide, ?_⟩, ?_⟩
      · decide +kernel
      · decide +kernel
  | true =>
      refine ⟨Octets.replicate 32 8, Octets.replicate 24 1,
        { sampleConfig with sessionId := Octets.replicate 8 session }, [4, 5, 6], rfl,
        ⟨148, by decide, by decide, ?_⟩, ?_⟩
      · rcases either with rfl | rfl <;> decide +kernel
      · rcases either with rfl | rfl <;> decide +kernel

set_option maxRecDepth 100000 in
theorem unmixed_neighbours : ∃ trace final,
    Machine.Run respond (new Crates.sample.recorded) trace final ∧
      trace.map Prod.fst = interleaved 9 ∧
      trace.map Prod.snd = [some (.ok .beaconAcquired), none, some (.error .foreignSession),
        some (.ok (.done samplePlaintext))] ∧
      Machine.Along respond (fun _ _ _ next => FedBy (answerer 9 false) next)
        (new Crates.sample.recorded) trace := by
  obtain ⟨trace, final, run, inputs, answers⟩ := Machine.run_of_view respond
    (new Crates.sample.recorded) (interleaved 9) id
    [some (.ok .beaconAcquired), none, some (.error .foreignSession), some (.ok (.done samplePlaintext))]
    (by decide +kernel)
  have fed : ∀ event ∈ trace, FromSenders Crates.sample (answerer 9) event.1 := by
    intro event member
    refine interleaved_fed 9 event.1 ?_
    rw [← inputs]
    exact List.mem_map_of_mem member
  refine ⟨trace, final, run, inputs, answers, (unmixed_iff (answerer_honest 9 (.inr rfl)) false).2.mpr
    (fun other shared p member => ?_) trace final run fed⟩
  cases other with
  | false => exact member
  | true => exact absurd shared (by decide)

set_option maxRecDepth 100000 in
/-- Both answer one request, so their symbols look alike: the second one's packet is taken for the
first one's, no key opens what is reassembled, and the first one's own packet is then a duplicate. -/
theorem two_answers_mixed : ∃ trace final,
    Machine.Run respond (new Crates.sample.recorded) trace final ∧
      trace.map Prod.fst = interleaved 4 ∧
      trace.map Prod.snd = [some (.ok .beaconAcquired), none, some (.error .authFailed),
        some (.ok (.progress 1 1))] ∧
      (∀ second, Honest Crates.sample (answerer 4 second)) ∧
      (∀ event ∈ trace, FromSenders Crates.sample (answerer 4) event.1) ∧
      (answerer 4 true).beacon.sessionId = (answerer 4 false).beacon.sessionId ∧
      ¬FedBy (answerer 4 false) final := by
  have computed : ((Machine.execute respond (new Crates.sample.recorded) (interleaved 4)).map
      fun result => (result.1, result.2.beacon, result.2.decoder.map Recorder.packets)) =
      some ([some (.ok .beaconAcquired), none, some (.error .authFailed), some (.ok (.progress 1 1))],
        some (answerer 4 false).beacon, some ((answerer 4 true).packets.take 1)) := by
    decide +kernel
  obtain ⟨⟨answers, final⟩, executed, same⟩ := Option.map_eq_some_iff.mp computed
  obtain ⟨told, same⟩ := Prod.mk.inj same
  obtain ⟨known, handed⟩ := Prod.mk.inj same
  obtain ⟨run, sized⟩ := Machine.execute_run executed
  have inputs := List.map_fst_zip (Nat.le_of_eq sized)
  refine ⟨_, final, run, inputs, (List.map_snd_zip (Nat.le_of_eq sized.symm)).trans told,
    answerer_honest 4 (.inl rfl), fun event member => ?_, by decide +kernel, fun fed => ?_⟩
  · refine interleaved_fed 4 event.1 ?_
    rw [← inputs]
    exact List.mem_map_of_mem member
  · obtain ⟨rec, held, packets⟩ := Option.map_eq_some_iff.mp handed
    have foreign : ¬∀ p ∈ (answerer 4 true).packets.take 1, p ∈ (answerer 4 false).packets := by
      decide +kernel
    rw [← packets] at foreign
    exact foreign (fed known rec held)

end Rabaska.Pipeline
