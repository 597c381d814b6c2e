import Rabaska.CompleteProofs
import Rabaska.Convergence
import Rabaska.LadderProofs
import Rabaska.PairingCore
import Rabaska.RouterProofs
import Rabaska.ShellProofs

/-! Two devices face to face: what no interleaving of their displays, cameras and taps can do, and that
none of them leaves the two waiting for each other. -/

namespace Rabaska.Shell

open Wire Crypto Pipeline Wasm

variable {crates : Crates}

theorem framed_mark (ty : UInt8) (body : Bytes) : (framed crates ty body)[3]? = some ty := rfl

def confirmation (crates : Crates) (tx : Transmitter) (payload : Bytes) : Bytes :=
  Complete.encode crates
    { sid4 := sid4 tx.beacon.sessionId, status := .ok,
      hash8 := completeHash crates tx.beacon.sessionId payload }

theorem mark_pairReq (session : Session crates) : session.pairReq[3]? = some 0x01 := framed_mark _ _

theorem mark_reveal (session : Session crates) : session.reveal[3]? = some 0x05 := framed_mark _ _

theorem mark_confirmation (tx : Transmitter) (payload : Bytes) :
    (confirmation crates tx payload)[3]? = some 0x04 := framed_mark _ _

/-! The receiving side. -/

theorem acquired_running {rx next : Receiver crates} {frame : Bytes}
    (fed : rx.ingest frame = some (.ok .beaconAcquired, next)) : next.done = false := by
  cases Receiver.ingest_cases fed with
  | acquired b needed dec running unknown created => exact running
  | absorbed packets result next running absorbed =>
      exact (Receiver.absorb_not_acquired absorbed).elim

/-- What a transfer rests on: a PAIR beacon, packets that the decoder makes the object of, and an object
that the receiver's key opens. -/
structure Transfer (crates : Crates) (code : Fountain.Code Bytes) (session : Session crates)
    (tx : Transmitter) (object payload : Bytes) : Prop where
  mode : tx.beacon.mode = .pair
  genuine : PacketPool tx.packets
  reconstructs : Reconstructs crates code tx.beacon.oti tx.packets object
  sound : Sound crates tx
  opens : Receiver.openObject crates (session.pairKey tx.beacon) tx.beacon object = .ok payload

section Receiving

variable (code : Fountain.Code Bytes) (session : Session crates) (tx : Transmitter)
  (object payload : Bytes)

structure Receives (receiver : Receiving crates) (collector : Fountain.Collector Bytes) : Prop where
  bound : Receive.Bound session receiver.recv
  running : receiver.stop = false
  alive : receiver.trapped = false
  unstaged : receiver.staged = none
  tracks : Tracks code (session.pairKey tx.beacon) tx object receiver.recv.rx collector
  resting : receiver.recv.rx.beacon = none → receiver.recv.rx.done = false ∧
    receiver.sasShown = false ∧ receiver.display = session.pairReq
  acquired : ∀ b, receiver.recv.rx.beacon = some b → b = tx.beacon ∧
    receiver.sas = some (session.digits tx.beacon) ∧
    receiver.display = if receiver.recv.rx.done then confirmation crates tx payload else session.reveal

variable {code session tx object payload} {receiver : Receiving crates}
  {collector : Fountain.Collector Bytes}

theorem Receives.switch (receives : Receives code session tx object payload receiver collector)
    (on : Bool) :
    Receives code session tx object payload { receiver with cameraOn := on } collector :=
  ⟨receives.bound, receives.running, receives.alive, receives.unstaged, receives.tracks,
    receives.resting, receives.acquired⟩

theorem Receives.beacon (receives : Receives code session tx object payload receiver collector) :
    receiver.recv.rx.beacon = none ∨ receiver.recv.rx.beacon = some tx.beacon := by
  cases known : receiver.recv.rx.beacon with
  | none => exact .inl rfl
  | some b => exact .inr (congrArg some (receives.acquired b known).1)

theorem Receives.frame (receives : Receives code session tx object payload receiver collector)
    (on : receiver.cameraOn = true) {bytes : Bytes} {r : IngestResult} {recv : Receive crates}
    (ingested : receiver.recv.ingest bytes = some (r, recv)) :
    receiver.heard (some bytes) = some r ∧
      receiver.onFrame (some bytes) = Receiving.heed { receiver with recv } r := by
  simp [Receiving.heard, Receiving.onFrame, receives.running, receives.unstaged, receives.alive, on,
    ingested]

structure Looked (code : Fountain.Code Bytes) (session : Session crates) (tx : Transmitter)
    (object payload : Bytes) (receiver : Receiving crates) (collector : Fountain.Collector Bytes)
    (event : Fountain.Event Bytes) (r : IngestResult) (next : Receiving crates) : Prop where
  receives : Receives code session tx object payload next (Fountain.step code collector event).2
  known : receiver.recv.rx.beacon = some tx.beacon → next.recv.rx.beacon = some tx.beacon
  accepted : ∀ msg, r.kind ≠ .error msg
  delivers : r.kind = .done → r.payload = some payload
  completes : next.recv.rx.done = true → receiver.recv.rx.done = true ∨ r.kind = .done
  kept : next.cameraOn = true

theorem Receives.look_acquired (transfer : Transfer crates code session tx object payload)
    (receives : Receives code session tx object payload receiver collector)
    (on : receiver.cameraOn = true) {bytes : Bytes} {rx : Receiver crates}
    (fed : receiver.recv.rx.ingest bytes = some (.ok .beaconAcquired, rx))
    {event : Fountain.Event Bytes}
    (tracks : Tracks code (session.pairKey tx.beacon) tx object
      (rx.setKey (session.pairKey tx.beacon)) (Fountain.step code collector event).2) :
    ∃ r, receiver.heard (some bytes) = some r ∧
      Looked code session tx object payload receiver collector event r (receiver.onFrame (some bytes)) := by
  obtain ⟨unknown, -, b, decoded, known⟩ := Receiver.ingest_acquired fed
  have unfinished := acquired_running fed
  have same : b = tx.beacon := by
    have live := tracks.live unfinished
    have held : rx.beacon = if (Fountain.step code collector event).2.acquired then some tx.beacon
      else none := live.beacon
    rw [known] at held
    split at held
    · exact Option.some_inj.mp held
    · simp at held
  subst same
  have derived := @Receive.deriveAndSet_pair _ session { receiver.recv with rx } _ receives.bound.own
    (receives.bound.unkeyed unknown) known transfer.mode
  have ingested : receiver.recv.ingest bytes = some (Receive.answer { receiver.recv with rx }
      (.ok .beaconAcquired)) := by
    simp [Receive.ingest, fed]
  simp only [Receive.answer, derived] at ingested
  obtain ⟨heard, shown⟩ := receives.frame on ingested
  have heeds := Receive.ingest_heeds receives.bound ingested
  have unshown := (receives.resting unknown).2.1
  have nonempty : session.digits tx.beacon ≠ "" := sasDigits_ne _
  refine ⟨_, heard, ?_⟩
  rw [shown]
  simp only [Receiving.heed, unshown, nonempty, ne_eq, not_false_eq_true, and_self, if_true]
  refine ⟨⟨heeds.bound, receives.running, receives.alive, receives.unstaged, tracks, ?_, ?_⟩,
    fun _ => known, by simp, by simp, fun done => ?_, on⟩
  · intro vanished
    exact absurd (known.symm.trans vanished) (by simp)
  · intro other held
    obtain rfl := Option.some_inj.mp (known.symm.trans held)
    refine ⟨rfl, rfl, ?_⟩
    have still : (rx.setKey (session.pairKey tx.beacon)).done = false := unfinished
    simp only [Receiving.showSas, still, Bool.false_eq_true, if_false, Receive.sessionReveal]
    rw [receives.bound.own]
  · exact absurd (unfinished.symm.trans done) (by simp)

theorem Receives.look_quiet (receives : Receives code session tx object payload receiver collector)
    (on : receiver.cameraOn = true) {bytes : Bytes} {rx : Receiver crates} {result : Except Error Ingest}
    (quiet : result = .ok .ignored ∨ ∃ received needed, result = .ok (.progress received needed))
    (fed : receiver.recv.rx.ingest bytes = some (result, rx)) {event : Fountain.Event Bytes}
    (tracks : Tracks code (session.pairKey tx.beacon) tx object rx
      (Fountain.step code collector event).2)
    (same : rx.done = receiver.recv.rx.done) :
    ∃ r, receiver.heard (some bytes) = some r ∧
      Looked code session tx object payload receiver collector event r (receiver.onFrame (some bytes)) := by
  obtain ⟨r, ingested, other, unheeded, accepted, unfinished⟩ : ∃ r,
      receiver.recv.ingest bytes = some (r, { receiver.recv with rx }) ∧
        result ≠ .ok .beaconAcquired ∧ (∀ shell : Receiving crates, shell.heed r = shell) ∧
        (∀ msg, r.kind ≠ .error msg) ∧ r.kind ≠ .done := by
    rcases quiet with rfl | ⟨received, needed, rfl⟩
    · exact ⟨_, by simp only [Receive.ingest, fed]; rfl, by simp, fun _ => rfl, by simp, by simp⟩
    · exact ⟨_, by simp only [Receive.ingest, fed]; rfl, by simp, fun _ => rfl, by simp, by simp⟩
  obtain ⟨beacon, -⟩ := Receiver.ingest_kept fed other
  have heeds := Receive.ingest_heeds receives.bound ingested
  obtain ⟨heard, shown⟩ := receives.frame on ingested
  rw [shown, unheeded]
  refine ⟨r, heard, ⟨heeds.bound, receives.running, receives.alive, receives.unstaged, tracks, ?_, ?_⟩,
    beacon.trans, accepted, fun done => absurd done unfinished,
    fun done => .inl (same.symm.trans done), on⟩
  · intro unknown
    obtain ⟨running, rest⟩ := receives.resting (beacon.symm.trans unknown)
    exact ⟨same.trans running, rest⟩
  · intro b known
    have acquired := receives.acquired b (beacon.symm.trans known)
    rwa [← same] at acquired

theorem Receives.look_done (receives : Receives code session tx object payload receiver collector)
    (on : receiver.cameraOn = true) {bytes : Bytes} {rx : Receiver crates}
    (fed : receiver.recv.rx.ingest bytes = some (.ok (.done payload), rx)) {event : Fountain.Event Bytes}
    (tracks : Tracks code (session.pairKey tx.beacon) tx object rx
      (Fountain.step code collector event).2)
    (done : rx.done = true) :
    ∃ r, receiver.heard (some bytes) = some r ∧
      Looked code session tx object payload receiver collector event r (receiver.onFrame (some bytes)) := by
  obtain ⟨beacon, -⟩ := Receiver.ingest_kept fed (by simp)
  have known : rx.beacon = some tx.beacon := by
    rw [beacon]
    refine receives.beacon.resolve_left fun unknown => ?_
    cases Receiver.ingest_cases fed with
    | absorbed packets result next running absorbed =>
        obtain ⟨b, -, held, -⟩ := Receiver.absorb_cases absorbed
        exact absurd (unknown.symm.trans (beacon.symm.trans held)) (by simp)
  have ingested : receiver.recv.ingest bytes = some
      ({ kind := .done, received := rx.received, needed := rx.needed, payload := some payload,
         sas := none }, { receiver.recv with rx }) := by
    simp only [Receive.ingest, fed]
    rfl
  have heeds := Receive.ingest_heeds receives.bound ingested
  obtain ⟨heard, shown⟩ := receives.frame on ingested
  have acquired := receives.acquired tx.beacon (beacon.symm.trans known)
  have shows : receiver.onFrame (some bytes) =
      { receiver with recv := { receiver.recv with rx }, display := confirmation crates tx payload } := by
    rw [shown]
    simp [Receiving.heed, Receiving.finish, Receive.completeFrame, Receiver.completeFrame, known,
      confirmation]
  rw [shows]
  refine ⟨_, heard, ⟨heeds.bound, receives.running, receives.alive, receives.unstaged, tracks, ?_, ?_⟩,
    fun _ => known, by simp, fun _ => rfl, fun _ => .inr rfl, on⟩
  · intro unknown
    exact absurd (known.symm.trans unknown) (by simp)
  · intro b held
    obtain rfl := Option.some_inj.mp (known.symm.trans held)
    exact ⟨rfl, acquired.2.1, (if_pos done).symm⟩

theorem Receives.look (transfer : Transfer crates code session tx object payload)
    (receives : Receives code session tx object payload receiver collector)
    (on : receiver.cameraOn = true) {frame : Frame} (drawn : tx.Genuine crates frame) :
    ∃ r, receiver.heard (some frame.bytes) = some r ∧
      Looked code session tx object payload receiver collector (image crates frame) r
        (receiver.onFrame (some frame.bytes)) := by
  obtain ⟨result, after, driven, answers, tracks⟩ := Tracks.step transfer.genuine
    transfer.reconstructs transfer.sound transfer.opens drawn receives.tracks
  rcases drive_cases driven with ⟨rfl, rx, fed, rfl⟩ | ⟨other, fed⟩
  · exact receives.look_acquired transfer on fed tracks
  · have finished := Fountain.step_finished_iff code collector (image crates frame)
    rw [← tracks.done, ← receives.tracks.done] at finished
    have same (incomplete : (Fountain.step code collector (image crates frame)).1 ≠ .complete) :
        after.done = receiver.recv.rx.done := by
      rw [Bool.eq_iff_iff, finished, or_iff_left incomplete]
    cases told : (Fountain.step code collector (image crates frame)).1 with
    | ignored =>
        rw [told] at answers
        exact receives.look_quiet on (.inl answers) fed tracks (same (by simp [told]))
    | acquired =>
        rw [told] at answers
        exact absurd answers other
    | progress =>
        rw [told] at answers
        exact receives.look_quiet on (.inr answers) fed tracks (same (by simp [told]))
    | complete =>
        rw [told] at answers
        obtain rfl : result = .ok (.done payload) := answers
        exact receives.look_done on fed tracks (finished.mpr (.inr told))

theorem Looked.finished {event : Fountain.Event Bytes} {r : IngestResult} {next : Receiving crates}
    (receives : Receives code session tx object payload receiver collector)
    (looked : Looked code session tx object payload receiver collector event r next)
    (done : receiver.recv.rx.done = true) : next.recv.rx.done = true := by
  rw [looked.receives.tracks.done, Fountain.step_finished_iff, ← receives.tracks.done]
  exact .inl done

end Receiving

/-! The sending side. -/

structure Replies (session : Session crates) (eph : KeyPair crates) (payload : Bytes) (start : Send) :
    Prop where
  held : start.tx.held = true
  interval : start.tx.beaconInterval = 15
  unconfirmed : start.sas = none
  pending : start.pending = some (Send.kept session.request eph)
  expects : Send.Expects crates start payload
  digits : Crypto.sas crates session.request.sessionId session.request.rEphPub eph.publicKey
    session.rNonce = session.digits start.tx.beacon

section Sending

variable (session : Session crates) (eph : KeyPair crates) (payload : Bytes) (start : Send)

def AtPhase (sending : Sending crates) : Phase → Prop
  | .revealing => sending.display.send.tx.held = true
  | .comparing => sending.display.send.tx.held = true ∧
      sending.display.send.sas = some (session.digits start.tx.beacon) ∧
      sending.shell.sas = some (session.digits start.tx.beacon)
  | .completing => sending.display.send.tx.held = false
  | .ended .gone => True
  | .ended .unconfirmed => sending.display.send.tx.held = false
  | .ended (.checked _ good) => good = true
  | .ended (.aborted _ _) => False
  | .ended (.threw _) => False

structure Presents (sending : Sending crates) : Prop where
  object : Transmitter.SameObject start.tx sending.display.send.tx
  interval : sending.display.send.tx.beaconInterval = 15
  pending : sending.display.send.pending = some (Send.kept session.request eph)
  expects : Send.Expects crates sending.display.send payload
  screen : ∃ frame, start.tx.Genuine crates frame ∧ sending.shell.display = frame.bytes ∧
    (sending.display.send.tx.held = true → frame = .beacon start.tx.beaconBytes)
  digits : ∀ shown, sending.display.send.sas = some shown → shown = session.digits start.tx.beacon
  confirmed : sending.display.send.tx.held = false → sending.display.send.sas ≠ none
  running : (∀ complete good, sending.phase ≠ .ended (.checked complete good)) →
    sending.shell.stop = false ∧ sending.ticking = true
  phase : AtPhase session start sending sending.phase

variable {session eph payload start} {sending : Sending crates} {fits : Qr.Fits}

theorem nextFrame_bytes (send : Send) (capacity : Nat) :
    (send.nextFrame crates capacity).1.bytes = (send.tx.nextFrameAt crates capacity).1.bytes := by
  unfold Send.nextFrame
  split
  · rename_i emitted
    rw [emitted]
    rfl
  · rename_i emitted
    rw [emitted]
    rfl

theorem tick_running (ticking : sending.ticking = true) (running : sending.shell.stop = false) :
    ∃ capacity, sending.tick fits =
      { sending with
        shell := { sending.shell with
          display := (sending.display.send.tx.nextFrameAt crates capacity).1.bytes }
        display :=
          { send := { sending.display.send with
              tx := (sending.display.send.tx.nextFrameAt crates capacity).2 }
            i := sending.display.i + 1 } } := by
  refine ⟨Qr.qrCapacity fits (rungAt sending.display.i).version (rungAt sending.display.i).ecc, ?_⟩
  have sent := @tick_send crates fits sending.display
  rw [← nextFrame_bytes, ← sent]
  simp only [Sending.tick, ticking, running, Bool.not_true, Bool.false_eq_true, if_false]
  rfl

theorem nextFrame_expects {send : Send} (expects : Send.Expects crates send payload) (capacity : Nat) :
    Send.Expects crates { send with tx := (send.tx.nextFrameAt crates capacity).2 } payload := by
  have stepped : send.step crates (.nextFrame capacity) =
      some (.frame (send.nextFrame crates capacity).1, (send.nextFrame crates capacity).2) := rfl
  have later := Send.step_expects expects stepped
  rwa [Send.nextFrame_tx] at later

theorem Presents.paints (presents : Presents session eph payload start sending) (capacity : Nat) :
    ∃ frame, start.tx.Genuine crates frame ∧
      (sending.display.send.tx.nextFrameAt crates capacity).1 = frame ∧
      (sending.display.send.tx.held = true → frame = .beacon start.tx.beaconBytes) := by
  refine ⟨_, presents.object.genuine ?_, rfl, fun held => ?_⟩
  · exact Transmitter.nextFrameAt_genuine sending.display.send.tx capacity
  · rw [Transmitter.nextFrameAt, Transmitter.nextFramePacked_held _ _ held, presents.object.beaconBytes]

theorem AtPhase.of_same {next : Sending crates} {phase : Phase}
    (held : next.display.send.tx.held = sending.display.send.tx.held)
    (sas : next.display.send.sas = sending.display.send.sas)
    (panel : next.shell.sas = sending.shell.sas) (at_phase : AtPhase session start sending phase) :
    AtPhase session start next phase := by
  revert at_phase
  unfold AtPhase
  split <;> simp only [held, sas, panel, imp_self]

structure Learns (session : Session crates) (eph : KeyPair crates) (payload : Bytes) (start : Send)
    (sending next : Sending crates) (found : Option Bytes) : Prop where
  presents : Presents session eph payload start next
  digits : next.display.send.sas ≠ none → sending.display.send.sas ≠ none ∨ found = some session.reveal
  checked : ∀ complete good, next.phase = .ended (.checked complete good) →
    sending.phase = .ended (.checked complete good) ∨
      found = some (confirmation crates start.tx payload)
  held : next.display.send.tx.held = true → sending.display.send.tx.held = true

theorem Presents.stays (presents : Presents session eph payload start sending) (found : Option Bytes) :
    Learns session eph payload start sending sending found :=
  ⟨presents, .inl, fun _ _ => .inl, id⟩

theorem Presents.tick (presents : Presents session eph payload start sending) :
    Learns session eph payload start sending (sending.tick fits) none := by
  by_cases ticking : sending.ticking = true
  swap
  · rw [Sending.tick, if_pos (by simpa using ticking)]
    exact presents.stays none
  by_cases stopped : sending.shell.stop = true
  · rw [Sending.tick, if_neg (by simpa using ticking), if_pos stopped]
    refine ⟨⟨presents.object, presents.interval, presents.pending, presents.expects, presents.screen,
      presents.digits, presents.confirmed, fun unchecked => ?_, presents.phase.of_same rfl rfl rfl⟩,
      .inl, fun _ _ => .inl, id⟩
    exact absurd stopped (by simp [(presents.running unchecked).1])
  obtain ⟨capacity, ticked⟩ := @tick_running crates sending fits ticking (by simpa using stopped)
  obtain ⟨frame, genuine, painted, beacon⟩ := presents.paints capacity
  obtain ⟨held, -, interval⟩ := Transmitter.nextFramePacked_flags crates sending.display.send.tx
    (Transmitter.packetsAt capacity sending.display.send.tx.packetLen)
  have same := Transmitter.nextFramePacked_same crates sending.display.send.tx
    (Transmitter.packetsAt capacity sending.display.send.tx.packetLen)
  have expects := nextFrame_expects presents.expects capacity
  rw [ticked]
  exact ⟨⟨presents.object.trans same, interval.trans presents.interval, presents.pending, expects,
    ⟨frame, genuine, congrArg Frame.bytes painted, fun now => beacon (held.symm.trans now)⟩,
    presents.digits, fun released => presents.confirmed (held.symm.trans released),
    presents.running, presents.phase.of_same held rfl rfl⟩, .inl, fun _ _ => .inl, held.symm.trans⟩

inductive Shows (session : Session crates) (payload : Bytes) (start : Send) : Bytes → Prop
  | pairReq : Shows session payload start session.pairReq
  | reveal : Shows session payload start session.reveal
  | complete : Shows session payload start (confirmation crates start.tx payload)

theorem Shows.of_mark {code : Bytes} (shows : Shows session payload start code) :
    (code[3]? = some 0x05 → code = session.reveal) ∧
      (code[3]? = some 0x04 → code = confirmation crates start.tx payload) := by
  cases shows with
  | pairReq => simp [mark_pairReq]
  | reveal => simp [mark_reveal]
  | complete => simp [mark_confirmation]

theorem Presents.gone (presents : Presents session eph payload start sending)
    (unchecked : ∀ complete good, sending.phase ≠ .ended (.checked complete good))
    (found : Option Bytes) :
    Learns session eph payload start sending { sending with phase := .ended .gone } found :=
  ⟨⟨presents.object, presents.interval, presents.pending, presents.expects, presents.screen,
    presents.digits, presents.confirmed, fun _ => presents.running unchecked, trivial⟩, .inl, by simp, id⟩

theorem takeReveal_own (replies : Replies session eph payload start)
    (presents : Presents session eph payload start sending) :
    sending.takeReveal session.reveal =
      { sending with
        shell := { sending.shell with sas := some (session.digits start.tx.beacon) }
        display := { sending.display with send :=
          { sending.display.send with sas := some (session.digits start.tx.beacon) } }
        phase := .comparing } := by
  have opened := Send.acceptReveal_opens presents.pending
    (rfl : commit crates session.request.sessionId session.request.rEphPub session.rNonce =
      session.request.rCommit)
  rw [replies.digits] at opened
  have revealed : session.reveal = Reveal.encode crates
      { sid4 := sid4 session.request.sessionId, rNonce := session.rNonce } := rfl
  rw [Sending.takeReveal, revealed, opened]

theorem Presents.takeReveal (replies : Replies session eph payload start)
    (presents : Presents session eph payload start sending) (scanning : sending.phase = .revealing) :
    Learns session eph payload start sending (sending.takeReveal session.reveal)
      (some session.reveal) := by
  have held : sending.display.send.tx.held = true := by
    have now := presents.phase
    rwa [scanning] at now
  rw [takeReveal_own replies presents]
  refine ⟨⟨presents.object, presents.interval, presents.pending, presents.expects, presents.screen,
    ?_, ?_, fun _ => presents.running (by simp [scanning]), held, rfl, rfl⟩, fun _ => .inr rfl, by simp,
    id⟩
  · rintro shown ⟨rfl⟩
    rfl
  · simp

theorem Presents.takeComplete (presents : Presents session eph payload start sending) :
    Learns session eph payload start sending
        (sending.takeComplete (confirmation crates start.tx payload))
        (some (confirmation crates start.tx payload)) ∧
      (sending.takeComplete (confirmation crates start.tx payload)).phase =
        .ended (.checked (confirmation crates start.tx payload) true) := by
  have delivered : sending.display.send.verifyComplete crates (confirmation crates start.tx payload) =
      some (.ok true) := by
    rw [confirmation, Send.verifyComplete_encode, presents.expects, presents.object.beacon]
    exact ⟨rfl, rfl⟩
  have taken : sending.takeComplete (confirmation crates start.tx payload) =
      sending.halt (.checked (confirmation crates start.tx payload) true) := by
    rw [Sending.takeComplete, delivered]
  rw [taken]
  refine ⟨⟨⟨presents.object, presents.interval, presents.pending, presents.expects, presents.screen,
    presents.digits, presents.confirmed, fun unchecked => ?_, rfl⟩, .inl, fun _ _ _ => .inr rfl, id⟩, rfl⟩
  exact absurd rfl (unchecked _ _)

theorem Presents.look (replies : Replies session eph payload start)
    (presents : Presents session eph payload start sending) {found : Option Bytes}
    (shows : ∀ code, found = some code → Shows session payload start code) :
    Learns session eph payload start sending (sending.look found) found := by
  cases phase : sending.phase with
  | comparing => simpa only [Sending.look, phase] using presents.stays found
  | ended ending => simpa only [Sending.look, phase] using presents.stays found
  | revealing =>
      simp only [Sending.look, phase]
      rcases Receiving.scanOneFrame_cases sending.shell 0x05 found with
        ⟨-, gone⟩ | ⟨-, waiting, -⟩ | ⟨-, code, rfl, mark, caught⟩
      · rw [gone]
        exact presents.gone (by simp [phase]) found
      · rw [waiting]
        exact presents.stays found
      · obtain rfl := (shows code rfl).of_mark.1 mark
        rw [caught]
        exact presents.takeReveal replies phase
  | completing =>
      simp only [Sending.look, phase]
      rcases Receiving.scanOneFrame_cases sending.shell 0x04 found with
        ⟨-, gone⟩ | ⟨-, waiting, -⟩ | ⟨-, code, rfl, mark, caught⟩
      · rw [gone]
        exact presents.gone (by simp [phase]) found
      · rw [waiting]
        exact presents.stays found
      · obtain rfl := (shows code rfl).of_mark.2 mark
        rw [caught]
        exact presents.takeComplete.1

theorem Presents.switch (presents : Presents session eph payload start sending) (on : Bool) :
    Learns session eph payload start sending
      { sending with shell := { sending.shell with cameraOn := on } } none :=
  ⟨⟨presents.object, presents.interval, presents.pending, presents.expects, presents.screen,
    presents.digits, presents.confirmed, presents.running, presents.phase.of_same rfl rfl rfl⟩,
    .inl, fun _ _ => .inl, id⟩

theorem Presents.confirm (presents : Presents session eph payload start sending) :
    Learns session eph payload start sending sending.confirm none := by
  cases phase : sending.phase with
  | revealing => simpa only [Sending.confirm, phase] using presents.stays none
  | completing => simpa only [Sending.confirm, phase] using presents.stays none
  | ended ending => simpa only [Sending.confirm, phase] using presents.stays none
  | comparing =>
      obtain ⟨-, digits, -⟩ : AtPhase session start sending .comparing := phase ▸ presents.phase
      have released : sending.display.send.release =
          (.ok (), { sending.display.send with tx := sending.display.send.tx.release }) := by
        simp [Send.release, digits]
      have running := presents.running (by simp [phase])
      obtain ⟨frame, genuine, painted, -⟩ := presents.screen
      simp only [Sending.confirm, phase, released, Sending.awaitComplete]
      refine ⟨⟨presents.object.trans ⟨rfl, rfl, rfl, rfl, rfl⟩, presents.interval, presents.pending,
        presents.expects, ⟨frame, genuine, painted, by simp [Transmitter.release]⟩, presents.digits,
        fun _ => by simp [digits], fun _ => running, ?_⟩, .inl, ?_, by simp [Transmitter.release]⟩
      · dsimp only
        split <;> rfl
      · dsimp only
        intro complete good same
        split at same <;> simp at same

end Sending

/-! The two together. -/

section Meeting

variable (code : Fountain.Code Bytes) (session : Session crates) (eph : KeyPair crates)
  (object payload : Bytes) (start : Send)

/-- Each device has seen nothing but the other: digits on the sender come from a receiver that has the
beacon, and a confirmation from one that is done. -/
structure Facing (pairing : Pairing crates) (collector : Fountain.Collector Bytes) : Prop where
  receives : Receives code session start.tx object payload pairing.receiver collector
  presents : Presents session eph payload start pairing.sender
  revealed : pairing.sender.display.send.sas ≠ none →
    pairing.receiver.recv.rx.beacon = some start.tx.beacon
  delivered : ∀ complete good, pairing.sender.phase = .ended (.checked complete good) →
    pairing.receiver.recv.rx.done = true
  waiting : pairing.sender.display.send.tx.held = true → pairing.receiver.recv.rx.done = false

def Agreeable (payload : Bytes) (said : Option IngestResult) : Prop :=
  ∀ r, said = some r → (∀ msg, r.kind ≠ .error msg) ∧ (r.kind = .done → r.payload = some payload)

/-- What a run has come to: whoever is done was told so, and nothing but the beacon was shown before the
digits were confirmed. -/
structure Met (past : List (Pairing.Event × Option IngestResult)) (pairing : Pairing crates) : Prop where
  facing : ∃ collector, Facing code session eph object payload start pairing collector
  agreeable : ∀ event said, (event, said) ∈ past → Agreeable payload said
  told : pairing.receiver.recv.rx.done = true →
    ∃ event r, (event, some r) ∈ past ∧ r.kind = .done ∧ r.payload = some payload
  withheld : .confirm ∉ past.map Prod.fst → pairing.sender.display.send.tx.held = true

variable {code session eph object payload start} {pairing : Pairing crates}
  {collector : Fountain.Collector Bytes} {fits : Qr.Fits}

theorem Receives.shows {receiver : Receiving crates}
    (receives : Receives code session start.tx object payload receiver collector) :
    Shows session payload start receiver.display := by
  rcases receives.beacon with unknown | known
  · rw [(receives.resting unknown).2.2]
    exact .pairReq
  · rw [(receives.acquired _ known).2.2]
    split
    · exact .complete
    · exact .reveal

theorem Receives.shown {receiver : Receiving crates}
    (receives : Receives code session start.tx object payload receiver collector) :
    (receiver.display = session.reveal → receiver.recv.rx.beacon = some start.tx.beacon) ∧
      (receiver.display = confirmation crates start.tx payload → receiver.recv.rx.done = true) := by
  rcases receives.beacon with unknown | known
  · rw [(receives.resting unknown).2.2]
    refine ⟨fun same => ?_, fun same => ?_⟩
    · exact absurd (congrArg (fun code => code[3]?) same) (by simp [mark_pairReq, mark_reveal])
    · exact absurd (congrArg (fun code => code[3]?) same) (by simp [mark_pairReq, mark_confirmation])
  · refine ⟨fun _ => known, fun same => ?_⟩
    by_contra running
    rw [(receives.acquired _ known).2.2, if_neg running] at same
    exact absurd (congrArg (fun code => code[3]?) same) (by simp [mark_reveal, mark_confirmation])

variable (fits) in
theorem Facing.sees (transfer : Transfer crates code session start.tx object payload)
    (facing : Facing code session eph object payload start pairing collector)
    (on : pairing.receiver.cameraOn = true) {frame : Frame} (genuine : start.tx.Genuine crates frame)
    (painted : pairing.sender.shell.display = frame.bytes)
    (beacon : pairing.sender.display.send.tx.held = true → frame = .beacon start.tx.beaconBytes) :
    ∃ r next, pairing.step fits (.receiverLooks true) = (some r, { pairing with receiver := next }) ∧
      Looked code session start.tx object payload pairing.receiver collector (image crates frame) r next ∧
      Facing code session eph object payload start { pairing with receiver := next }
        (Fountain.step code collector (image crates frame)).2 := by
  obtain ⟨r, heard, looked⟩ := facing.receives.look transfer on genuine
  refine ⟨r, _, ?_, looked, looked.receives, facing.presents,
    fun shown => looked.known (facing.revealed shown),
    fun complete good ended => looked.finished facing.receives (facing.delivered complete good ended),
    fun held => ?_⟩
  · simp only [Pairing.step, Pairing.glimpse, painted, if_true, heard]
  · have running := facing.waiting held
    rw [facing.receives.tracks.done] at running
    obtain rfl := beacon held
    exact looked.receives.tracks.done.trans (Fountain.step_announced_running code running)

theorem Facing.receiverLooks (transfer : Transfer crates code session start.tx object payload)
    (facing : Facing code session eph object payload start pairing collector) (sharp : Bool) :
    (∃ collector, Facing code session eph object payload start
        (pairing.step fits (.receiverLooks sharp)).2 collector) ∧
      Agreeable payload (pairing.step fits (.receiverLooks sharp)).1 ∧
      ((pairing.step fits (.receiverLooks sharp)).2.receiver.recv.rx.done = true →
        pairing.receiver.recv.rx.done = true ∨
          ∃ r, (pairing.step fits (.receiverLooks sharp)).1 = some r ∧ r.kind = .done) := by
  by_cases blind : pairing.receiver.cameraOn = true ∧ sharp = true
  · obtain ⟨on, rfl⟩ := blind
    obtain ⟨frame, genuine, painted, beacon⟩ := facing.presents.screen
    obtain ⟨r, next, stepped, looked, now⟩ := facing.sees fits transfer on genuine painted beacon
    rw [stepped]
    refine ⟨⟨_, now⟩, ?_, fun done => (looked.completes done).imp_right fun kind => ⟨r, rfl, kind⟩⟩
    rintro _ ⟨rfl⟩
    exact ⟨looked.accepted, looked.delivers⟩
  · have idle : pairing.step fits (.receiverLooks sharp) = (none, pairing) := by
      cases sharp with
      | false => simp [Pairing.step, Pairing.glimpse, Receiving.heard, Receiving.onFrame]
      | true => simp_all [Pairing.step, Receiving.heard, Receiving.onFrame]
    rw [idle]
    exact ⟨⟨collector, facing⟩, by simp [Agreeable], .inl⟩

theorem Facing.sender (facing : Facing code session eph object payload start pairing collector)
    {next : Sending crates} {found : Option Bytes}
    (learns : Learns session eph payload start pairing.sender next found)
    (seen : ∀ code, found = some code → code = pairing.receiver.display) :
    Facing code session eph object payload start { pairing with sender := next } collector := by
  obtain ⟨revealed, confirmed⟩ := facing.receives.shown
  refine ⟨facing.receives, learns.presents, fun digits => ?_, fun complete good ended => ?_,
    fun held => facing.waiting (learns.held held)⟩
  · rcases learns.digits digits with before | now
    · exact facing.revealed before
    · exact revealed (seen _ now).symm
  · rcases learns.checked complete good ended with before | now
    · exact facing.delivered complete good before
    · exact confirmed (seen _ now).symm

variable (fits) in
theorem Facing.step (transfer : Transfer crates code session start.tx object payload)
    (replies : Replies session eph payload start)
    (facing : Facing code session eph object payload start pairing collector) (event : Pairing.Event) :
    (∃ collector, Facing code session eph object payload start (pairing.step fits event).2 collector) ∧
      Agreeable payload (pairing.step fits event).1 ∧
      ((pairing.step fits event).2.receiver.recv.rx.done = true →
        pairing.receiver.recv.rx.done = true ∨
          ∃ r, (pairing.step fits event).1 = some r ∧ r.kind = .done) := by
  have silent : Agreeable payload none := by simp [Agreeable]
  have presents := facing.presents
  cases event with
  | receiverLooks sharp => exact facing.receiverLooks transfer sharp
  | tick => exact ⟨⟨collector, facing.sender presents.tick (by simp)⟩, silent, .inl⟩
  | senderLooks sharp =>
      have seen : ∀ code, Pairing.glimpse pairing.receiver.display sharp = some code →
          code = pairing.receiver.display := by
        cases sharp <;> simp [Pairing.glimpse]
      refine ⟨⟨collector, facing.sender (presents.look replies fun code found => ?_) seen⟩, silent, .inl⟩
      rw [seen code found]
      exact facing.receives.shows
  | confirm => exact ⟨⟨collector, facing.sender presents.confirm (by simp)⟩, silent, .inl⟩
  | receiverCamera on =>
      exact ⟨⟨collector, facing.receives.switch on, presents, facing.revealed, facing.delivered,
        facing.waiting⟩, silent, .inl⟩
  | senderCamera on => exact ⟨⟨collector, facing.sender (presents.switch on) (by simp)⟩, silent, .inl⟩

theorem look_held (sending : Sending crates) (found : Option Bytes) :
    (sending.look found).display.send.tx = sending.display.send.tx := by
  unfold Sending.look
  split
  · split
    · rfl
    · rfl
    · unfold Sending.takeReveal
      split
      · rfl
      · rfl
      · rename_i opened
        cases Send.acceptReveal_cases opened with
        | accepted => rfl
  · split <;> rfl
  · rfl

theorem tick_held (sending : Sending crates) :
    (sending.tick fits).display.send.tx.held = sending.display.send.tx.held := by
  unfold Sending.tick
  split
  · rfl
  · split
    · rfl
    · change (sending.display.tick crates fits).2.send.tx.held = _
      rw [tick_send]
      exact (Transmitter.nextFramePacked_flags crates _ _).1

theorem held_step (pairing : Pairing crates) {event : Pairing.Event} (other : event ≠ .confirm) :
    (pairing.step fits event).2.sender.display.send.tx.held =
      pairing.sender.display.send.tx.held := by
  cases event with
  | confirm => exact absurd rfl other
  | tick => exact tick_held pairing.sender
  | senderLooks sharp => exact congrArg Transmitter.held (look_held pairing.sender _)
  | receiverLooks sharp => rfl
  | receiverCamera on => rfl
  | senderCamera on => rfl

variable {past : List (Pairing.Event × Option IngestResult)}

theorem Met.step (transfer : Transfer crates code session start.tx object payload)
    (replies : Replies session eph payload start)
    (met : Met code session eph object payload start past pairing) (event : Pairing.Event) :
    Met code session eph object payload start (past ++ [(event, (pairing.step fits event).1)])
      (pairing.step fits event).2 := by
  obtain ⟨⟨collector, facing⟩, agreeable, told, withheld⟩ := met
  obtain ⟨next, said, completes⟩ := facing.step fits transfer replies event
  refine ⟨next, fun other answer member => ?_, fun done => ?_, fun unconfirmed => ?_⟩
  · rcases List.mem_append.mp member with before | now
    · exact agreeable other answer before
    · obtain ⟨-, rfl⟩ := Prod.mk.inj (List.mem_singleton.mp now)
      exact said
  · rcases completes done with before | ⟨r, answered, kind⟩
    · obtain ⟨other, r, member, delivered⟩ := told before
      exact ⟨other, r, List.mem_append_left _ member, delivered⟩
    · refine ⟨event, r, List.mem_append_right _ ?_, kind, (said r answered).2 kind⟩
      rw [answered]
      exact List.mem_singleton.mpr rfl
  · rw [List.map_append, List.mem_append, not_or] at unconfirmed
    rw [held_step pairing (by simpa using Ne.symm (by simpa using unconfirmed.2))]
    exact withheld unconfirmed.1

variable (fits) in
theorem start_running {send : Send} (held : send.tx.held = true) {shell : Receiving crates}
    (running : shell.stop = false) : ∃ capacity, Sending.start fits shell send =
      { shell := { shell with display := send.tx.beaconBytes }
        display := { send := { send with tx := (send.tx.nextFrameAt crates capacity).2 }, i := 1 }
        ticking := true
        phase := if shell.cameraOn then .revealing else .ended .gone } := by
  obtain ⟨capacity, ticked⟩ := @tick_running crates
    { shell, display := beSender send, ticking := true, phase := .revealing } fits rfl running
  have painted : (send.tx.nextFrameAt crates capacity).1 = .beacon send.tx.beaconBytes := by
    rw [Transmitter.nextFrameAt, Transmitter.nextFramePacked_held _ _ held]
  have shut : (send.tx.nextFrameAt crates capacity).2.held = true :=
    (Transmitter.nextFramePacked_flags crates send.tx
      (Transmitter.packetsAt capacity send.tx.packetLen)).1.trans held
  refine ⟨capacity, ?_⟩
  rw [Sending.start, ticked, ← show (send.tx.nextFrameAt crates capacity).1.bytes = send.tx.beaconBytes by
    rw [painted]; rfl]
  exact if_pos shut

variable (fits) in
theorem start_presents (replies : Replies session eph payload start) {shell : Receiving crates}
    (running : shell.stop = false) :
    Presents session eph payload start (Sending.start fits shell start) ∧
      (Sending.start fits shell start).display.send.sas = none ∧
      (Sending.start fits shell start).display.send.tx.held = true ∧
      ∀ complete good, (Sending.start fits shell start).phase ≠ .ended (.checked complete good) := by
  obtain ⟨capacity, begun⟩ := start_running fits replies.held running
  obtain ⟨held, -, interval⟩ := Transmitter.nextFramePacked_flags crates start.tx
    (Transmitter.packetsAt capacity start.tx.packetLen)
  have same := Transmitter.nextFramePacked_same crates start.tx
    (Transmitter.packetsAt capacity start.tx.packetLen)
  have expects := nextFrame_expects replies.expects capacity
  have shut : (start.tx.nextFrameAt crates capacity).2.held = true := held.trans replies.held
  rw [begun]
  refine ⟨⟨same, interval.trans replies.interval, replies.pending, expects,
    ⟨_, .beacon, rfl, fun _ => rfl⟩, ?_, ?_, fun _ => ⟨running, rfl⟩, ?_⟩,
    replies.unconfirmed, shut, ?_⟩
  · simp [replies.unconfirmed]
  · exact fun released => absurd (shut.symm.trans released) (by simp)
  · dsimp only
    split
    · exact shut
    · trivial
  · dsimp only
    intro complete good
    split <;> simp

theorem facing_met (replies : Replies session eph payload start) {shell : Receiving crates}
    (running : shell.stop = false) :
    Met code session eph object payload start [] (Pairing.facing fits session shell start) := by
  obtain ⟨presents, unconfirmed, held, unchecked⟩ := start_presents fits replies running
  refine ⟨⟨Fountain.Collector.new, ⟨Receive.new_bound session, rfl, rfl, rfl, tracks_new,
    fun _ => ⟨rfl, rfl, rfl⟩, ?_⟩, presents, ?_, ?_, fun _ => rfl⟩, by simp, ?_, fun _ => held⟩
  · intro b known
    exact absurd known (by simp [Pairing.facing, beReceiver, Receive.new, Receiver.new])
  · exact fun digits => absurd unconfirmed digits
  · exact fun complete good ended => absurd ended (unchecked complete good)
  · intro done
    exact absurd done (by simp [Pairing.facing, beReceiver, Receive.new, Receiver.new])

theorem run_met (transfer : Transfer crates code session start.tx object payload)
    (replies : Replies session eph payload start) {shell : Receiving crates} (running : shell.stop = false)
    (run : Machine.Run (Machine.total (Pairing.step fits)) (Pairing.facing fits session shell start)
      past pairing) : Met code session eph object payload start past pairing := by
  refine run.history (Met code session eph object payload start) ?_ (facing_met replies running)
  intro past before event said after met stepped
  obtain ⟨rfl, rfl⟩ := Prod.mk.inj (Option.some_inj.mp stepped)
  exact met.step transfer replies event

end Meeting

section Answered

variable {code : Fountain.Code Bytes} {session : Session crates} {payload : Bytes}
  {identity : Option (KeyPair crates)} {buildHash : Bytes} {frameCapacity : Nat} {ephSecret : Octets 32}
  {nonce : Octets 24} {fits : Qr.Fits}

def sentKey (session : Session crates) (ephSecret : Octets 32) : SessionKey :=
  derivePair .sender (KeyPair.fromBytes crates ephSecret) session.request.rEphPub session.request.sessionId

def sentCfg (session : Session crates) (identity : Option (KeyPair crates)) (buildHash : Bytes)
    (frameCapacity : Nat) (ephSecret : Octets 32) : TransmitConfig :=
  cfg .pair session.request.sessionId (KeyPair.fromBytes crates ephSecret).publicKey buildHash
    frameCapacity identity.isSome

theorem replies_pairSend : Replies session (KeyPair.fromBytes crates ephSecret) payload
    (Send.pairSend crates session.request payload identity buildHash frameCapacity ephSecret nonce) :=
  ⟨rfl, rfl, rfl, rfl, rfl, (digits_pairSend session payload identity buildHash frameCapacity ephSecret
    nonce).symm⟩

theorem transfer_pairSend (commutes : DiffieHellmanCommutes crates)
    (sendable : Sendable crates code (sentKey session ephSecret) nonce
      (sentCfg session identity buildHash frameCapacity ephSecret) payload) :
    Transfer crates code session (Send.pairSend crates session.request payload identity buildHash
        frameCapacity ephSecret nonce).tx
      (Transmitter.ciphertext crates (sentKey session ephSecret) nonce
        (sentCfg session identity buildHash frameCapacity ephSecret) payload) payload := by
  have opens := openObject_new (sentKey session ephSecret) nonce
    (sentCfg session identity buildHash frameCapacity ephSecret) sendable.short
    sendable.inflatable sendable.undoes sendable.inflates
  have key : sentKey session ephSecret = session.pairKey (Send.pairSend crates session.request payload
      identity buildHash frameCapacity ephSecret nonce).tx.beacon :=
    pairKey_agrees commutes rfl rfl rfl
  obtain ⟨encodes, positive, sized⟩ := @sound_new crates (sentKey session ephSecret) nonce
    (sentCfg session identity buildHash frameCapacity ephSecret) payload sendable.genuine.sized
  refine ⟨rfl, sendable.genuine, sendable.reconstructs, ⟨encodes, positive, sized⟩, ?_⟩
  rw [← key]
  exact opens

/-- Whatever is looked at, missed, switched off and tapped, in whatever order: the receiver's core never
reports an error and delivers nothing but the payload; until the digits are confirmed the sender shows
its beacon and nothing else; where they are compared they are the same; and the sender never aborts, and
says that the payload arrived only when it did. -/
theorem pairing_safe (commutes : DiffieHellmanCommutes crates)
    (sendable : Sendable crates code (sentKey session ephSecret) nonce
      (sentCfg session identity buildHash frameCapacity ephSecret) payload)
    {start : Send} (replied : Send.reply crates session.pairReq payload identity none buildHash
      frameCapacity ephSecret nonce = some (.ok start))
    {shell : Receiving crates} (running : shell.stop = false)
    {trace : List (Pairing.Event × Option IngestResult)} {final : Pairing crates}
    (run : Machine.Run (Machine.total (Pairing.step fits)) (Pairing.facing fits session shell start)
      trace final) :
    (∀ event r, (event, some r) ∈ trace →
      (∀ msg, r.kind ≠ .error msg) ∧ (r.kind = .done → r.payload = some payload)) ∧
    (.confirm ∉ trace.map Prod.fst → final.sender.shell.display = start.tx.beaconBytes) ∧
    (final.sender.phase = .comparing →
      final.sender.shell.sas = some (session.digits start.tx.beacon) ∧
        final.receiver.sas = some (session.digits start.tx.beacon)) ∧
    ∀ ending, final.sender.phase = .ended ending → ending = .gone ∨ ending = .unconfirmed ∨
      ∃ complete, ending = .checked complete true ∧ ∃ event r, (event, some r) ∈ trace ∧
        r.kind = .done ∧ r.payload = some payload := by
  obtain rfl := Except.ok.inj (Option.some_inj.mp
    (replied.symm.trans (Send.reply_encoded session.request payload identity buildHash frameCapacity
      ephSecret nonce)))
  obtain ⟨⟨collector, receives, presents, revealed, delivered, -⟩, agreeable, told, withheld⟩ :=
    run_met (transfer_pairSend commutes sendable) replies_pairSend running run
  refine ⟨fun event r member => agreeable event _ member r rfl, fun unconfirmed => ?_,
    fun comparing => ?_, fun ending ended => ?_⟩
  · obtain ⟨frame, -, painted, beacon⟩ := presents.screen
    rw [painted, beacon (withheld unconfirmed)]
    rfl
  · have phase := presents.phase
    rw [comparing] at phase
    obtain ⟨-, digits, panel⟩ := phase
    exact ⟨panel, (receives.acquired _ (revealed (by simp [digits]))).2.1⟩
  · have phase := presents.phase
    rw [ended] at phase
    cases ending with
    | gone => exact .inl rfl
    | unconfirmed => exact .inr (.inl rfl)
    | checked complete good =>
        obtain rfl : good = true := phase
        exact .inr (.inr ⟨complete, rfl, told (delivered complete true ended)⟩)
    | aborted reveal message => exact phase.elim
    | threw message => exact phase.elim

theorem sendable_sample : Sendable Crates.sample anyPacket
    (sentKey sampleSession (Octets.replicate 32 8)) sampleNonce
    (sentCfg sampleSession none [] 100 (Octets.replicate 32 8)) samplePlaintext :=
  sample_sendable (by decide) ⟨⟨148, by decide, by decide, by decide +kernel⟩, by decide +kernel⟩

def sampleFits : Qr.Fits := fun len _ _ => decide (len ≤ 400)

def samplePairing : Pairing Crates.sample :=
  Pairing.facing sampleFits sampleSession (beReceiver sampleSession none true) Send.sampleSend

def sampleEvents : List Pairing.Event :=
  [.receiverLooks true, .senderLooks true, .confirm, .tick, .receiverLooks true, .senderLooks true]

set_option maxRecDepth 100000 in
theorem pairing_safe_sample : ∃ trace final,
    Machine.Run (Machine.total (Pairing.step sampleFits)) samplePairing trace final ∧
      trace.map Prod.fst = sampleEvents ∧
      trace.map (fun event => event.2.map IngestResult.kind) =
        [some .beacon, none, none, none, some .done, none] ∧
      (∀ event r, (event, some r) ∈ trace →
        (∀ msg, r.kind ≠ .error msg) ∧ (r.kind = .done → r.payload = some samplePlaintext)) ∧
      ∀ ending, final.sender.phase = .ended ending → ending = .gone ∨ ending = .unconfirmed ∨
        ∃ complete, ending = .checked complete true ∧ ∃ event r, (event, some r) ∈ trace ∧
          r.kind = .done ∧ r.payload = some samplePlaintext := by
  obtain ⟨trace, final, run, inputs, views⟩ := Machine.run_of_view
    (Machine.total (Pairing.step sampleFits)) samplePairing sampleEvents
    (Option.map IngestResult.kind) [some .beacon, none, none, none, some .done, none] (by decide +kernel)
  have safe := pairing_safe sample_commutes sendable_sample Send.sample_replied rfl run
  exact ⟨trace, final, run, inputs, views, safe.1, safe.2.2.2⟩

end Answered

end Rabaska.Shell
