import Rabaska.FileCore
import Rabaska.InterceptionProofs
import Rabaska.LabelProofs
import Rabaska.SurvivalProofs

/-! The file that is staged on one device is the file that the other one offers. -/

namespace Rabaska

open Wire Pipeline Wasm Crypto
open Pipeline.Receiver (patientCrates)

variable {crates : Crates}

namespace Shell

/-- What the other device is to offer: the file under a name that is made safe on either side. -/
def File.offered (file : File) (openWarning : Bool) : Download where
  body := file.body
  name := either (Payload.safeName file.name >>= Payload.safeName) "rabaska-payload.bin".toList
  mime := either (Payload.safeMime file.mime) "application/octet-stream".toList
  openWarning := openWarning

variable {file : File}

theorem download_wrap (fits : Payload.FitsLength file.name) (shell : Receiving crates) :
    shell.download (Payload.wrap file.body file.name file.mime) =
      file.offered (shell.recv.mode = some .open) := by
  simp only [Receiving.download, Payload.unwrap_wrap file.body file.mime fits, Payload.safeMime_twice,
    File.offered]

theorem made_identity {making : Making crates} {payload scanned : Option Bytes} {start : Send}
    (made : making.beSender payload scanned = .ok start) : ∃ identity, making.identity = some identity := by
  cases given : making.identity with
  | none => simp [Making.beSender, given] at made
  | some identity => exact ⟨identity, rfl⟩

section Paired

variable {code : Fountain.Code Bytes} {session : Session crates} {making : Making crates}
  {idle shell : Receiving crates} {start : Send} {fits : Qr.Fits}

theorem paired_made (made : making.beSender (idle.stageSend file).staged (some session.pairReq) = .ok start) :
    start = Send.pairSend crates session.request (Payload.wrap file.body file.name file.mime)
      making.identity making.buildHash making.frameCapacity making.ephSecret making.nonce := by
  obtain ⟨identity, given⟩ := made_identity made
  simp only [Making.beSender, given, Receiving.stageSend, Session.pairReq, Send.reply_encoded] at made
  rw [given]
  exact (Except.ok.inj made).symm

/-- Face to face, whatever is looked at, missed, switched off and tapped: whatever the receiver delivers
is offered as the staged file, without a warning; and what the sender says is verified was. -/
theorem file_paired (commutes : DiffieHellmanCommutes crates)
    (sendable : Sendable crates code (sentKey session making.ephSecret) making.nonce
      (sentCfg session making.identity making.buildHash making.frameCapacity making.ephSecret)
      (Payload.wrap file.body file.name file.mime))
    (carried : Payload.FitsLength file.name)
    (made : making.beSender (idle.stageSend file).staged (some session.pairReq) = .ok start)
    (running : shell.stop = false) {trace : List (Pairing.Event × Option IngestResult)}
    {final : Pairing crates}
    (run : Machine.Run (Machine.total (Pairing.step fits)) (Pairing.facing fits session shell start)
      trace final) :
    (∀ event r, (event, some r) ∈ trace → r.kind = .done →
      r.payload.map final.receiver.download = some (file.offered false)) ∧
    ∀ complete, final.sender.phase = .ended (.checked complete true) →
      ∃ event r, (event, some r) ∈ trace ∧ r.kind = .done ∧
        r.payload.map final.receiver.download = some (file.offered false) := by
  obtain rfl := paired_made made
  obtain ⟨⟨collector, facing⟩, agreeable, told, -⟩ :=
    run_met (transfer_pairSend commutes sendable) replies_pairSend running run
  have offers : final.receiver.download (Payload.wrap file.body file.name file.mime) =
      file.offered false := by
    rw [download_wrap carried]
    -- The only beacon it can have is the sender's, and that says PAIR.
    rcases facing.receives.beacon with unknown | known
    · simp [Receive.mode, unknown]
    · rw [Receive.mode, known]
      rfl
  have delivers (event : Pairing.Event) (r : IngestResult) (member : (event, some r) ∈ trace)
      (done : r.kind = .done) : r.payload.map final.receiver.download = some (file.offered false) := by
    rw [(agreeable event _ member r rfl).2 done, Option.map_some, offers]
  refine ⟨delivers, fun complete ended => ?_⟩
  obtain ⟨event, r, member, done, -⟩ := told (facing.delivered complete true ended)
  exact ⟨event, r, member, done, delivers event r member done⟩

end Paired

def note : File where
  body := [104, 105]
  name := "note.txt".toList
  mime := "text/plain".toList

theorem fitsLength_note : Payload.FitsLength note.name := by
  have kept : Payload.safeName note.name = some note.name := by decide
  intro s named
  obtain rfl := Option.some_inj.mp (kept.symm.trans named)
  decide

def noteMaking (crates : Crates) : Making crates where
  identity := some (KeyPair.fromBytes crates (Octets.replicate 32 7))
  buildHash := []
  frameCapacity := 100
  ephSecret := Octets.replicate 32 8
  sessionId := Octets.replicate 8 4
  nonce := sampleNonce

def noteIdle (crates : Crates) : Receiving crates :=
  beReceiver (Session.new none (Octets.replicate 32 9) (Octets.replicate 8 9) (Octets.replicate 16 9)) none
    true

def noteStart : Send :=
  Send.pairSend Crates.sample sampleSession.request (Payload.wrap note.body note.name note.mime)
    (noteMaking Crates.sample).identity [] 100 (Octets.replicate 32 8) sampleNonce

set_option maxRecDepth 100000 in
theorem file_paired_note : ∃ trace final,
    (noteMaking Crates.sample).beSender ((noteIdle Crates.sample).stageSend note).staged
      (some sampleSession.pairReq) = .ok noteStart ∧
    Machine.Run (Machine.total (Pairing.step sampleFits))
      (Pairing.facing sampleFits sampleSession (noteIdle Crates.sample) noteStart) trace final ∧
    trace.map Prod.fst = sampleEvents ∧
    trace.map (fun event => event.2.map IngestResult.kind) =
      [some .beacon, none, none, none, some .done, none] ∧
    (∀ event r, (event, some r) ∈ trace → r.kind = .done →
      r.payload.map final.receiver.download = some (note.offered false)) ∧
    ∀ complete, final.sender.phase = .ended (.checked complete true) →
      ∃ event r, (event, some r) ∈ trace ∧ r.kind = .done ∧
        r.payload.map final.receiver.download = some (note.offered false) := by
  have made : (noteMaking Crates.sample).beSender ((noteIdle Crates.sample).stageSend note).staged
      (some sampleSession.pairReq) = .ok noteStart := by
    simp only [Making.beSender, noteMaking, Receiving.stageSend, Session.pairReq, Send.reply_encoded]
    rfl
  have sendable : Sendable Crates.sample anyPacket
      (sentKey sampleSession (noteMaking Crates.sample).ephSecret) sampleNonce
      (sentCfg sampleSession (noteMaking Crates.sample).identity [] 100
        (noteMaking Crates.sample).ephSecret) (Payload.wrap note.body note.name note.mime) :=
    sample_sendable (by decide +kernel) ⟨⟨172, by decide, by decide, by decide +kernel⟩, by decide +kernel⟩
  obtain ⟨trace, final, run, inputs, views⟩ := Machine.run_of_view
    (Machine.total (Pairing.step sampleFits))
    (Pairing.facing sampleFits sampleSession (noteIdle Crates.sample) noteStart) sampleEvents
    (Option.map IngestResult.kind) [some .beacon, none, none, none, some .done, none] (by decide +kernel)
  exact ⟨trace, final, made, run, inputs, views,
    file_paired sample_commutes sendable fitsLength_note made rfl run⟩

/-! To everybody who watches. -/

theorem heard_unsealed {shell : Receiving crates} {found : Option Bytes} {r : IngestResult}
    (said : shell.heard found = some r) (done : r.kind = .done) :
    ∃ out, r.payload = some out ∧ Unsealed (shell.onFrame found).recv out := by
  have watches := onFrame_watches shell found
  rw [said] at watches
  generalize shell.onFrame found = next at watches ⊢
  cases watches with
  | told frame _ recv ingested =>
      rw [heed_recv]
      exact ingest_unsealed ingested done

namespace Installed

theorem step_done_known {installed next : Installed crates} {event : Event crates} {r : IngestResult}
    (stepped : installed.step event = (some r, next)) (done : r.kind = .done) :
    ∃ page b, next.page = some page ∧ page.shell.recv.rx.beacon = some b := by
  cases event with
  | frame found finishes =>
      cases on : installed.page with
      | none => simp [Installed.step, on] at stepped
      | some page =>
          simp only [Installed.step, on] at stepped
          obtain ⟨said, rfl⟩ := Prod.mk.inj stepped
          obtain ⟨-, -, b, -, -, known, -⟩ := heard_unsealed said done
          simp only [Installed.look]
          split
          · exact ⟨_, b, rfl, known⟩
          · exact ⟨_, b, rfl, known⟩
  | launch session cameraOn =>
      cases on : installed.page <;> simp [Installed.step, on] at stepped
  | assign stop cameraOn staged encrypted receiving =>
      cases on : installed.page <;> simp [Installed.step, on] at stepped
  | interval => cases on : installed.page <;> simp [Installed.step, on] at stepped
  | commit => simp [Installed.step] at stepped
  | crash => simp [Installed.step] at stepped

variable {code : Fountain.Code Bytes} {making : Making crates} {idle : Receiving crates} {start : Send}

theorem open_made (made : making.beSender (idle.stageSend file).staged none = .ok start) :
    start = Send.open crates (Payload.wrap file.body file.name file.mime) making.buildHash
      making.frameCapacity making.ephSecret making.sessionId making.nonce := by
  obtain ⟨identity, given⟩ := made_identity made
  simp only [Making.beSender, given, Receiving.stageSend] at made
  exact (Except.ok.inj made).symm

/-- In front of a broadcast, through launches and crashes in any order: a delivery offers the staged file,
with the warning that everybody could read it. -/
theorem file_broadcast
    (sendable : Sendable crates code (openKey crates making.ephSecret making.sessionId) making.nonce
      (openCfg crates making.buildHash making.frameCapacity making.ephSecret making.sessionId)
      (Payload.wrap file.body file.name file.mime))
    (carried : Payload.FitsLength file.name)
    (made : making.beSender (idle.stageSend file).staged none = .ok start)
    {installed final : Installed crates} (unacquainted : Unacquainted start.tx installed)
    {front : List (Event crates × Option IngestResult)} {event : Event crates} {r : IngestResult}
    (sees : ∀ seen ∈ front ++ [(event, some r)], Sees crates start.tx seen.1)
    (run : Machine.Run (Machine.total step) installed (front ++ [(event, some r)]) final)
    (done : r.kind = .done) :
    ∃ page, final.page = some page ∧ r.payload.map page.shell.download = some (file.offered true) := by
  obtain rfl := open_made made
  have broadcast := broadcast_open sendable
  obtain ⟨before, after, first, stepped, last⟩ := run.event
  cases last
  have survives := run_survives broadcast unacquainted
    (fun event earlier => sees event (List.mem_append_left _ earlier)) first
  have stepped := Option.some_inj.mp stepped
  obtain ⟨still, delivers⟩ := survives.step broadcast (sees (event, some r) (by simp))
  rw [stepped] at still delivers
  -- Whoever is done has a beacon, and in front of one sender it is the sender's.
  obtain ⟨page, b, on, known⟩ := step_done_known stepped done
  obtain ⟨collector, o, watching, -⟩ := still.page page on
  have own : b = (Send.open crates (Payload.wrap file.body file.name file.mime) making.buildHash
      making.frameCapacity making.ephSecret making.sessionId making.nonce).tx.beacon := by
    refine watching.hosts.collects.own b ?_
    rw [watching.hosts.akin.same] at known
    exact known
  refine ⟨page, on, ?_⟩
  rw [(delivers r rfl).2 done, Option.map_some, download_wrap carried, Receive.mode, known, own]
  rfl

def openNote : Send :=
  Send.open patientCrates (Payload.wrap note.body note.name note.mime) [] 100 (Octets.replicate 32 8)
    (Octets.replicate 8 4) sampleNonce

def openWatched : List (Event patientCrates) :=
  [.launch (Session.new none (Octets.replicate 32 3) (Octets.replicate 8 5) (Octets.replicate 16 6)) true,
    .frame (some openNote.tx.beaconBytes) true,
    .frame (some ((soleSymbol openNote.tx 0).encode patientCrates)) true,
    .frame (some ((soleSymbol openNote.tx 1).encode patientCrates)) true]

set_option maxRecDepth 100000 in
theorem file_broadcast_note : ∃ front event r final page,
    (noteMaking patientCrates).beSender ((noteIdle patientCrates).stageSend note).staged none =
      .ok openNote ∧
    Machine.Run (Machine.total step) (fresh patientCrates) (front ++ [(event, some r)]) final ∧
    (front ++ [(event, some r)]).map Prod.fst = openWatched ∧ r.kind = .done ∧
    final.page = some page ∧ r.payload.map page.shell.download = some (note.offered true) := by
  obtain ⟨trace, final, run, inputs, views⟩ := Machine.run_of_view (Machine.total step)
    (fresh patientCrates) openWatched (Option.map IngestResult.kind)
    [none, some .beacon, some .progress, some .done] (by decide +kernel)
  obtain ⟨front, ⟨event, answer⟩, rfl⟩ : ∃ front last, trace = front ++ [last] := by
    refine ⟨trace.dropLast, trace.getLast ?_, (List.dropLast_append_getLast _).symm⟩
    rintro rfl
    simp at views
  have last : answer.map IngestResult.kind = some .done := by
    have ends := congrArg List.getLast? views
    simpa using ends
  obtain ⟨r, rfl, done⟩ := Option.map_eq_some_iff.mp last
  have made : (noteMaking patientCrates).beSender ((noteIdle patientCrates).stageSend note).staged none =
      .ok openNote := rfl
  have two : 1 < openNote.tx.packets.length := by decide +kernel
  have sendable : Sendable patientCrates twoPackets
      (openKey patientCrates (noteMaking patientCrates).ephSecret (noteMaking patientCrates).sessionId)
      sampleNonce (openCfg patientCrates [] 100 (noteMaking patientCrates).ephSecret
        (noteMaking patientCrates).sessionId) (Payload.wrap note.body note.name note.mime) := by
    refine patient_sendable (by decide +kernel)
      ⟨⟨172, by decide, by decide, by decide +kernel⟩, by decide +kernel⟩ ?_
    exact ⟨openNote.tx.packets.get ⟨0, by decide +kernel⟩, List.get_mem _ _,
      openNote.tx.packets.get ⟨1, by decide +kernel⟩, List.get_mem _ _, by decide +kernel⟩
  have sees : ∀ event ∈ openWatched, Sees patientCrates openNote.tx event := by
    intro event member
    simp only [openWatched, List.mem_cons, List.not_mem_nil, or_false] at member
    rcases member with rfl | rfl | rfl | rfl
    · trivial
    · exact sees_beacon _ true
    · exact sees_sole (by omega) true
    · exact sees_sole two true
  obtain ⟨page, on, offers⟩ := file_broadcast sendable fitsLength_note made
    ⟨rfl, rfl, by simp [fresh], kept_none⟩ (sees_inputs inputs sees) run done
  exact ⟨front, event, r, final, page, made, run, inputs, done, on, offers⟩

end Installed

/-! Whoever sends. -/

/-- How a receiver comes by the key for a beacon: agreed on with a key pair of its own, or told to
everybody who sees the beacon. -/
inductive Keys (session : Session crates) : Beacon → SessionKey → Prop
  | pair (b : Beacon) : b.mode = .pair → Keys session b (session.pairKey b)
  | sealed (b : Beacon) (id : KeyPair crates) : b.mode = .seal → session.identity = some id →
      Keys session b (sealReceiver id b.sEphPub none)
  | told (b : Beacon) : b.mode = .open → Keys session b (deriveOpen crates b.sessionId b.sEphPub)

/-- What holds of every receiver of the app, which never sets the identity of a peer. -/
structure Derived (session : Session crates) (recv : Receive crates) : Prop where
  own : recv.session = session
  peer : recv.peerIdentity = none
  unknown : recv.rx.beacon = none → recv.keyed = false ∧ recv.rx.key = none
  key : ∀ key, recv.rx.key = some key → ∃ b, recv.rx.beacon = some b ∧ Keys session b key

variable {session : Session crates} {recv next : Receive crates}

theorem Derived.of_rx (derived : Derived session recv) {rx : Receiver crates}
    (beacon : rx.beacon = recv.rx.beacon) (key : rx.key = recv.rx.key) :
    Derived session { recv with rx } := by
  refine ⟨derived.own, derived.peer, fun unknown => ?_, fun held set => ?_⟩
  · obtain ⟨unkeyed, keyless⟩ := derived.unknown (beacon.symm.trans unknown)
    exact ⟨unkeyed, key.trans keyless⟩
  · obtain ⟨b, known, keys⟩ := derived.key held (key.symm.trans set)
    exact ⟨b, beacon.trans known, keys⟩

theorem deriveAndSet_derived {b : Beacon} (own : recv.session = session) (peer : recv.peerIdentity = none)
    (unkeyed : recv.keyed = false) (keyless : recv.rx.key = none) (known : recv.rx.beacon = some b) :
    Derived session recv.deriveAndSet.2 := by
  have stays : Derived session recv := ⟨own, peer, by simp [known], by simp [keyless]⟩
  have sets {key : SessionKey} (keys : Keys session b key) :
      Derived session { recv with rx := recv.rx.setKey key, keyed := true } := by
    refine ⟨own, peer, fun vanished => ?_, fun held set => ?_⟩
    · exact absurd (known.symm.trans vanished) (by simp)
    · obtain rfl := Option.some_inj.mp set
      exact ⟨b, known, keys⟩
  -- SEAL needs the identity of the session, and SESSION that of the peer too.
  cases mode : b.mode with
  | pair =>
      rw [Receive.deriveAndSet_pair own unkeyed known mode]
      exact sets (.pair b mode)
  | «open» =>
      rw [deriveAndSet_open unkeyed known mode]
      exact sets (.told b mode)
  | session =>
      unfold Receive.deriveAndSet
      rw [unkeyed, known]
      simp only [Receive.agreementKey, mode, deriveForMode, peer]
      cases recv.session.identity <;> exact stays
  | «seal» =>
      unfold Receive.deriveAndSet
      rw [unkeyed, known]
      cases identity : recv.session.identity with
      | none =>
          simp only [Receive.agreementKey, mode, identity]
          exact stays
      | some id =>
          have keys : Keys session b (sealReceiver id b.sEphPub recv.peerIdentity) := by
            rw [peer]
            exact .sealed b id mode (own ▸ identity)
          simp only [Receive.agreementKey, mode, identity, deriveForMode]
          exact sets keys

theorem Derived.ingest (derived : Derived session recv) {frame : Bytes} {r : IngestResult}
    (ingested : recv.ingest frame = some (r, next)) : Derived session next := by
  rcases Receive.ingest_split ingested with ⟨rx, fed, same⟩ | ⟨inner, rx, fed, other, -, rfl⟩
  · obtain ⟨unknown, key, b, -, known⟩ := Receiver.ingest_acquired fed
    obtain ⟨unkeyed, keyless⟩ := derived.unknown unknown
    obtain rfl := congrArg Prod.snd same
    rw [Receive.answer_acquired_beacon]
    exact deriveAndSet_derived derived.own derived.peer unkeyed (key.trans keyless) known
  · obtain ⟨beacon, key⟩ := Receiver.ingest_kept fed other
    exact derived.of_rx beacon key

theorem Derived.onFrame {shell : Receiving crates} (derived : Derived session shell.recv)
    (found : Option Bytes) : Derived session (shell.onFrame found).recv := by
  have watches := onFrame_watches shell found
  generalize shell.onFrame found = after, shell.heard found = said at watches ⊢
  cases watches with
  | blind => exact derived
  | flipped => exact derived
  | trapped => exact derived
  | told frame r recv ingested =>
      rw [heed_recv]
      exact derived.ingest ingested

end Shell

end Rabaska
