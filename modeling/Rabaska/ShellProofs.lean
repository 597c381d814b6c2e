import Rabaska.HandshakeProofs
import Rabaska.ShellCore

/-! The order of the handshake on the receiving device: everything the digits depend on is fixed
before the nonce is on the screen. -/

namespace Rabaska.Shell

open Wire Crypto Pipeline Wasm

variable {crates : Crates}

theorem sasDigits_ne (d : Octets 32) : sasDigits d ≠ "" := by
  intro blank
  have length := congrArg String.length blank
  simp [sasDigits] at length

theorem framed_not_reveal {ty : UInt8} {body : Bytes} (other : ty ≠ FrameType.reveal) :
    peekType (framed crates ty body) ≠ .ok FrameType.reveal := by
  rw [peekType_framed]
  intro same
  exact other (Except.ok.inj same)

structure Ordered (session : Session crates) (shell : Receiving crates) : Prop where
  bound : Receive.Bound session shell.recv
  revealed : peekType shell.display = .ok FrameType.reveal →
    ∃ b, shell.recv.rx.beacon = some b ∧ b.mode = .pair
  early : shell.sasShown = true → ∃ b, shell.recv.rx.beacon = some b
  shown : ∀ b, shell.recv.rx.beacon = some b → b.mode = .pair → shell.sas = some (session.digits b)

theorem Ordered.of_same {session : Session crates} {shell next : Receiving crates}
    (ordered : Ordered session shell) (recv : next.recv = shell.recv)
    (display : next.display = shell.display) (sasShown : next.sasShown = shell.sasShown)
    (sas : next.sas = shell.sas) : Ordered session next := by
  obtain ⟨bound, revealed, early, shown⟩ := ordered
  refine ⟨?_, ?_, ?_, ?_⟩
  · rwa [recv]
  · rwa [recv, display]
  · rwa [recv, sasShown]
  · rwa [recv, sas]

theorem beReceiver_ordered (session : Session crates) (saved : Option (Octets 4 × List Bytes))
    (cameraOn : Bool) : Ordered session (beReceiver session saved cameraOn) := by
  have fresh := Receive.new_bound session
  have start : Receive.Bound session (beReceiver session saved cameraOn).recv ∧
      (beReceiver session saved cameraOn).recv.rx.beacon = none := by
    unfold beReceiver
    dsimp only
    split
    · rename_i savedSession packets
      split
      · obtain ⟨beacon, key, -⟩ :=
          Receiver.hold_effect (Receive.new session).rx savedSession packets
        refine ⟨⟨rfl, fun _ => rfl, fun b known => ?_⟩, beacon⟩
        exact absurd (beacon.symm.trans known) (by simp [Receive.new, Receiver.new])
      · exact ⟨fresh, rfl⟩
    · exact ⟨fresh, rfl⟩
  refine ⟨start.1, fun reveal => ?_, by simp [beReceiver], fun b known => ?_⟩
  · exact absurd reveal (framed_not_reveal (by decide))
  · rw [start.2] at known
    simp at known

theorem heed_recv (shell : Receiving crates) (r : IngestResult) : (shell.heed r).recv = shell.recv := by
  unfold Receiving.heed
  split
  · split
    · split <;> rfl
    · rfl
  · split
    · unfold Receiving.finish
      split <;> rfl
    · rfl
  · split <;> rfl
  · rfl

theorem finish_ordered {session : Session crates} {shell : Receiving crates}
    (ordered : Ordered session shell) (payload : Bytes) : Ordered session (shell.finish payload) := by
  unfold Receiving.finish
  split
  · rename_i complete confirmed
    refine ⟨ordered.bound, fun reveal => ?_, ordered.early, ordered.shown⟩
    obtain ⟨b, -, rfl⟩ := Option.map_eq_some_iff.mp confirmed
    exact absurd reveal (framed_not_reveal (by decide))
  · exact ordered

theorem quiet_ordered {session : Session crates} {shell : Receiving crates} {next : Receive crates}
    {frame : Bytes} {r : IngestResult} (ordered : Ordered session shell)
    (heeds : Receive.Heeds session shell.recv next frame r) (silent : r.sas = none) :
    Ordered session { shell with recv := next } := by
  refine ⟨heeds.bound, fun reveal => ?_, fun shown => ?_, fun b known mode => ?_⟩
  · obtain ⟨b, known, mode⟩ := ordered.revealed reveal
    exact ⟨b, heeds.beacon b known, mode⟩
  · obtain ⟨b, known⟩ := ordered.early shown
    exact ⟨b, heeds.beacon b known⟩
  · cases first : shell.recv.rx.beacon with
    | none =>
        have digits := ((heeds.acquired b first known).2 mode).2
        exact absurd (silent.symm.trans digits) (by simp)
    | some other =>
        obtain rfl : other = b := Option.some_inj.mp ((heeds.beacon other first).symm.trans known)
        exact ordered.shown other first mode

theorem heed_ordered {session : Session crates} {shell : Receiving crates} {next : Receive crates}
    {frame : Bytes} {r : IngestResult} (ordered : Ordered session shell)
    (heeds : Receive.Heeds session shell.recv next frame r) :
    Ordered session (Receiving.heed { shell with recv := next } r) := by
  cases digits : r.sas with
  | none =>
      have quiet := quiet_ordered ordered heeds digits
      unfold Receiving.heed
      split
      · rw [digits]
        exact quiet
      · split
        · exact finish_ordered quiet _
        · exact quiet
      · split
        · exact quiet.of_same rfl rfl rfl rfl
        · exact quiet
      · exact quiet
  | some sas =>
      obtain ⟨b, unknown, known, mode, kind, rfl⟩ := heeds.shown sas digits
      have unshown : shell.sasShown = false := by
        by_contra shown
        obtain ⟨other, held⟩ := ordered.early (by simpa using shown)
        exact absurd (unknown.symm.trans held) (by simp)
      have nonempty : session.digits b ≠ "" := sasDigits_ne _
      have shape : Receiving.heed { shell with recv := next } r =
          Receiving.showSas { shell with recv := next } (session.digits b) := by
        simp [Receiving.heed, kind, digits, nonempty, unshown]
      rw [shape]
      refine ⟨heeds.bound, fun _ => ⟨b, known, mode⟩, fun _ => ⟨b, known⟩, fun other held _ => ?_⟩
      obtain rfl : b = other := Option.some_inj.mp (known.symm.trans held)
      rfl

theorem step_ordered {session : Session crates} {shell : Receiving crates}
    (ordered : Ordered session shell) (event : Receiving.Event) :
    Ordered session (shell.step event).2 ∧
      ∀ b, shell.recv.rx.beacon = some b → (shell.step event).2.recv.rx.beacon = some b := by
  cases event with
  | assign stop cameraOn staged encrypted =>
      exact ⟨ordered.of_same rfl rfl rfl rfl, fun _ known => known⟩
  | frame found =>
      simp only [Receiving.step, Receiving.onFrame]
      split
      · exact ⟨ordered, fun _ known => known⟩
      · split
        · exact ⟨ordered, fun _ known => known⟩
        · split
          · exact ⟨ordered.of_same rfl rfl rfl rfl, fun _ known => known⟩
          · split
            · exact ⟨ordered, fun _ known => known⟩
            · split
              · exact ⟨ordered.of_same rfl rfl rfl rfl, fun _ known => known⟩
              · rename_i r next ingested
                have heeds := Receive.ingest_heeds ordered.bound ingested
                refine ⟨heed_ordered ordered heeds, fun b known => ?_⟩
                rw [heed_recv]
                exact heeds.beacon b known

theorem run_ordered {session : Session crates} {shell final : Receiving crates}
    {trace : List (Receiving.Event × Unit)} (ordered : Ordered session shell)
    (run : Machine.Run (Machine.total Receiving.step) shell trace final) :
    Ordered session final ∧ ∀ b, shell.recv.rx.beacon = some b → final.recv.rx.beacon = some b := by
  refine run.invariant (fun now => Ordered session now ∧
    ∀ b, shell.recv.rx.beacon = some b → now.recv.rx.beacon = some b) ?_ ⟨ordered, fun _ known => known⟩
  rintro before event ⟨⟩ after ⟨held, first⟩ stepped
  obtain rfl := congrArg Prod.snd (Option.some_inj.mp stepped)
  obtain ⟨next, kept⟩ := step_ordered held event
  exact ⟨next, fun b known => kept b (first b known)⟩

/-- Before a reveal is on the receiver's screen a PAIR beacon was acquired, and from then on the
peer's ephemeral key, the session id, the key and the digits stay; and what a PAIR sender checks a
reveal against, and hashes with its nonce, is what its reply fixed. -/
theorem anti_grinding {session : Session crates} {saved : Option (Octets 4 × List Bytes)}
    {cameraOn : Bool} {front back : List (Receiving.Event × Unit)} {middle final : Receiving crates}
    (first : Machine.Run (Machine.total Receiving.step) (beReceiver session saved cameraOn) front middle)
    (later : Machine.Run (Machine.total Receiving.step) middle back final) {pairReq payload : Bytes}
    {identity : Option (KeyPair crates)} {peerIdentity : Option Bytes} {buildHash : Bytes}
    {frameCapacity : Nat} {ephSecret : Octets 32} {nonce : Octets 24} {send now : Send}
    {past : List (Send.Op × Send.Answer)} (paired : identity = none ∨ peerIdentity = none)
    (replied : Send.reply crates pairReq payload identity peerIdentity buildHash frameCapacity
      ephSecret nonce = some (.ok send))
    (sending : Machine.Run (Send.step crates) send past now) :
    (peekType middle.display = .ok FrameType.reveal →
      ∃ b, middle.recv.rx.beacon = some b ∧ b.mode = .pair) ∧
    (∀ b, middle.recv.rx.beacon = some b → b.mode = .pair →
      (middle.recv.rx.key = some (session.pairKey b) ∧ middle.sas = some (session.digits b)) ∧
      final.recv.session = session ∧ final.recv.rx.beacon = some b ∧
      final.recv.rx.key = some (session.pairKey b) ∧ final.sas = some (session.digits b)) ∧
    ∃ req, PairReq.decode crates pairReq = .ok req ∧
      now.pending = some (Send.kept req (KeyPair.fromBytes crates ephSecret)) ∧
      now.tx.beaconBytes = send.tx.beaconBytes ∧
      ∀ frame digits, (.acceptReveal frame, .digits (.ok digits)) ∈ past →
        ∃ rv, Reveal.decode crates frame = .ok rv ∧
          commit crates req.sessionId req.rEphPub rv.rNonce = req.rCommit ∧
          digits = sasDigits (crates.sha256
            ((Send.kept req (KeyPair.fromBytes crates ephSecret)).transcript rv.rNonce)) := by
  obtain ⟨before, -⟩ := run_ordered (beReceiver_ordered session saved cameraOn) first
  obtain ⟨after, stays⟩ := run_ordered before later
  refine ⟨before.revealed, fun b known mode => ?_, ?_⟩
  · have kept := stays b known
    exact ⟨⟨before.bound.pair b known mode, before.shown b known mode⟩, after.bound.own, kept,
      after.bound.pair b kept mode, after.shown b kept mode⟩
  · obtain ⟨req, decoded, rfl⟩ := Send.reply_pair paired replied
    have withheld := Send.run_withheld sending
    refine ⟨req, decoded, withheld.pending, withheld.object.beaconBytes, fun frame digits member => ?_⟩
    obtain ⟨earlier, rest, rfl⟩ := List.append_of_mem member
    obtain ⟨at_reveal, next, run, stepped, -⟩ := sending.event
    cases Send.step_cases stepped with
    | accepted _ p rv pending reveal sameSession opened =>
        obtain rfl : Send.kept req (KeyPair.fromBytes crates ephSecret) = p :=
          Option.some_inj.mp ((Send.run_withheld run).pending.symm.trans pending)
        exact ⟨rv, reveal, opened, rfl⟩

def sampleAcquired : Receiving Crates.sample :=
  ((beReceiver sampleSession none true).step (.frame (some Send.sampleSend.tx.beaconBytes))).2

def otherBeacon : Beacon :=
  { Send.sampleSend.tx.beacon with sEphPub := Octets.replicate 32 1 }

set_option maxRecDepth 100000 in
theorem anti_grinding_sample :
    sampleAcquired.display = sampleSession.reveal ∧
      (sampleAcquired.step (.frame (some (otherBeacon.encode Crates.sample)))).2.recv.rx.key =
        some (sampleSession.pairKey Send.sampleSend.tx.beacon) ∧
      (sampleAcquired.step (.frame (some (otherBeacon.encode Crates.sample)))).2.sas =
        some (sampleSession.digits Send.sampleSend.tx.beacon) := by
  have first : Machine.Run (Machine.total Receiving.step) (beReceiver sampleSession none true)
      [(.frame (some Send.sampleSend.tx.beaconBytes), ())] sampleAcquired := .cons rfl (.nil _)
  have later : Machine.Run (Machine.total Receiving.step) sampleAcquired
      [(.frame (some (otherBeacon.encode Crates.sample)), ())]
      (sampleAcquired.step (.frame (some (otherBeacon.encode Crates.sample)))).2 := .cons rfl (.nil _)
  have ordered := anti_grinding first later (.inl rfl) Send.sample_replied (.nil _)
  have acquired : sampleAcquired.recv.rx.beacon = some Send.sampleSend.tx.beacon := by decide +kernel
  obtain ⟨-, -, -, key, sas⟩ := ordered.2.1 _ acquired rfl
  exact ⟨by decide +kernel, key, sas⟩

end Rabaska.Shell
