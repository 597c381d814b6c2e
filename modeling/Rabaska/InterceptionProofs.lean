import Rabaska.Authenticity
import Rabaska.PairingProofs

/-! Somebody between the two screens, who shows either device whatever they like: what the comparison of
the digits is worth. -/

namespace Rabaska.Shell

open Wire Crypto Pipeline Wasm

variable {crates : Crates}

/-! The receiving side. -/

inductive Watches (shell : Receiving crates) : Option IngestResult → Receiving crates → Prop
  | blind : Watches shell none shell
  | flipped : Watches shell none { shell with stop := true, encrypted := false }
  | trapped : Watches shell none { shell with trapped := true }
  | told (frame : Bytes) (r : IngestResult) (recv : Receive crates) :
      shell.recv.ingest frame = some (r, recv) →
      Watches shell (some r) (Receiving.heed { shell with recv } r)

theorem onFrame_watches (shell : Receiving crates) (found : Option Bytes) :
    Watches shell (shell.heard found) (shell.onFrame found) := by
  unfold Receiving.heard Receiving.onFrame
  by_cases off : (shell.stop || !shell.cameraOn) = true
  · rw [if_pos off, if_pos off]
    exact .blind
  rw [if_neg off, if_neg off]
  cases found with
  | none => exact .blind
  | some frame =>
      dsimp only
      by_cases flips : shell.staged.isSome ∧ shell.encrypted ∧ frame[3]? = some 0x01
      · rw [if_pos flips, if_pos flips]
        exact .flipped
      rw [if_neg flips, if_neg flips]
      by_cases trapped : shell.trapped = true
      · rw [if_pos trapped, if_pos trapped]
        exact .blind
      rw [if_neg trapped, if_neg trapped]
      cases ingested : shell.recv.ingest frame with
      | none => exact .trapped
      | some told => exact .told frame told.1 told.2 ingested

theorem heed_sas (shell : Receiving crates) (r : IngestResult) :
    (shell.heed r).sas = shell.sas ∨ ∃ digits, r.kind = .beacon ∧ r.sas = some digits ∧
      (shell.heed r).sas = some digits := by
  unfold Receiving.heed
  split
  · rename_i kind
    split
    · rename_i digits told
      split
      · exact .inr ⟨digits, kind, told, rfl⟩
      · exact .inl rfl
    · exact .inl rfl
  · split
    · unfold Receiving.finish
      split <;> exact .inl rfl
    · exact .inl rfl
  · split <;> exact .inl rfl
  · exact .inl rfl

def Unsealed (recv : Receive crates) (out : Bytes) : Prop :=
  ∃ b key ct, recv.rx.beacon = some b ∧ recv.rx.key = some key ∧
    Receiver.openObject crates key b ct = .ok out

theorem ingest_unsealed {recv next : Receive crates} {frame : Bytes} {r : IngestResult}
    (ingested : recv.ingest frame = some (r, next)) (done : r.kind = .done) :
    ∃ out, r.payload = some out ∧ Unsealed next out := by
  obtain ⟨⟨inner, rx⟩, fed, same⟩ := Option.bind_eq_some_iff.mp ingested
  have effect := (Receiver.ingest_cases fed).effect
  have same := Option.some_inj.mp same
  cases inner with
  | error e =>
      obtain rfl := congrArg Prod.fst same
      simp [Receive.answer, errResult] at done
  | ok told =>
      cases told with
      | done plaintext =>
          obtain ⟨rfl, rfl⟩ := Prod.mk.inj same
          obtain ⟨kept, -, -, -, b, key, ct, known, keyed, opened⟩ := effect
          exact ⟨plaintext, rfl, b, key, ct, known, kept.trans keyed, opened⟩
      | ignored =>
          obtain rfl := congrArg Prod.fst same
          simp [Receive.answer] at done
      | progress received needed =>
          obtain rfl := congrArg Prod.fst same
          simp [Receive.answer] at done
      | beaconAcquired =>
          obtain rfl := congrArg Prod.fst same
          simp only [Receive.answer] at done
          split at done <;> simp [errResult] at done

variable (session : Session crates)

structure Hears (receiver : Receiving crates) : Prop where
  ordered : Ordered session receiver
  panel : ∀ digits, receiver.sas = some digits → ∃ b, receiver.recv.rx.beacon = some b ∧
    b.mode = .pair ∧ digits = session.digits b

variable {session}

theorem Hears.of_same {receiver next : Receiving crates} (hears : Hears session receiver)
    (recv : next.recv = receiver.recv) (display : next.display = receiver.display)
    (sasShown : next.sasShown = receiver.sasShown) (sas : next.sas = receiver.sas) :
    Hears session next := by
  refine ⟨hears.ordered.of_same recv display sasShown sas, fun digits shown => ?_⟩
  rw [recv]
  exact hears.panel digits (sas.symm.trans shown)

structure Heard (session : Session crates) (receiver next : Receiving crates)
    (said : Option IngestResult) : Prop where
  hears : Hears session next
  beacon : ∀ b, receiver.recv.rx.beacon = some b → next.recv.rx.beacon = some b
  unsealed : ∀ r, said = some r → r.kind = .done → ∃ out, r.payload = some out ∧ Unsealed next.recv out

theorem Hears.look {receiver : Receiving crates} (hears : Hears session receiver)
    (found : Option Bytes) :
    Heard session receiver (receiver.onFrame found) (receiver.heard found) := by
  obtain ⟨ordered, kept⟩ := step_ordered hears.ordered (.frame found)
  change Ordered session (receiver.onFrame found) at ordered
  change ∀ b, receiver.recv.rx.beacon = some b → (receiver.onFrame found).recv.rx.beacon = some b at kept
  have watches := onFrame_watches receiver found
  generalize receiver.onFrame found = next, receiver.heard found = said at *
  cases watches with
  | blind => exact ⟨hears, kept, by simp⟩
  | flipped => exact ⟨hears.of_same rfl rfl rfl rfl, kept, by simp⟩
  | trapped => exact ⟨hears.of_same rfl rfl rfl rfl, kept, by simp⟩
  | told frame r recv ingested =>
      have heeds := Receive.ingest_heeds hears.ordered.bound ingested
      refine ⟨⟨ordered, fun digits shown => ?_⟩, kept, ?_⟩
      · rw [heed_recv]
        rcases heed_sas { receiver with recv } r with same | ⟨told, -, fresh, panel⟩
        · obtain ⟨b, known, mode, rfl⟩ := hears.panel digits (same.symm.trans shown)
          exact ⟨b, heeds.beacon b known, mode, rfl⟩
        · obtain rfl := Option.some_inj.mp (panel.symm.trans shown)
          obtain ⟨b, -, known, mode, -, same⟩ := heeds.shown told fresh
          exact ⟨b, known, mode, same⟩
      · rintro _ ⟨rfl⟩ done
        rw [heed_recv]
        exact ingest_unsealed ingested done

/-! The sending side. -/

section Sending

variable (req : PairReq) (eph : KeyPair crates) (start : Send) (seen : Bytes → Prop)

def Compared (digits : String) : Prop :=
  ∃ frame rv, seen frame ∧ Reveal.decode crates frame = .ok rv ∧
    commit crates req.sessionId req.rEphPub rv.rNonce = req.rCommit ∧
    digits = sasDigits (crates.sha256 ((Send.kept req eph).transcript rv.rNonce))

/-- A sender that may have scanned anything: while it holds the payload back it shows its beacon, and its
digits are those of a reveal that it scanned. -/
structure Confides (sending : Sending crates) : Prop where
  object : Transmitter.SameObject start.tx sending.display.send.tx
  pending : sending.display.send.pending = some (Send.kept req eph)
  digits : ∀ digits, sending.display.send.sas = some digits → Compared req eph seen digits
  screen : sending.display.send.tx.held = true → sending.shell.display = start.tx.beaconBytes
  revealing : sending.phase = .revealing → sending.display.send.tx.held = true
  comparing : sending.phase = .comparing → sending.display.send.tx.held = true ∧
    sending.display.send.sas ≠ none ∧ sending.shell.sas = sending.display.send.sas

variable {req eph start seen} {sending : Sending crates} {fits : Qr.Fits}

theorem Confides.tick (confides : Confides req eph start seen sending) :
    Confides req eph start seen (sending.tick fits) := by
  by_cases ticking : sending.ticking = true
  swap
  · rwa [Sending.tick, if_pos (by simpa using ticking)]
  by_cases stopped : sending.shell.stop = true
  · rw [Sending.tick, if_neg (by simpa using ticking), if_pos stopped]
    exact ⟨confides.object, confides.pending, confides.digits, confides.screen, confides.revealing,
      confides.comparing⟩
  obtain ⟨capacity, ticked⟩ := @tick_running crates sending fits ticking (by simpa using stopped)
  obtain ⟨held, -, -⟩ := Transmitter.nextFramePacked_flags crates sending.display.send.tx
    (Transmitter.packetsAt capacity sending.display.send.tx.packetLen)
  have same := Transmitter.nextFramePacked_same crates sending.display.send.tx
    (Transmitter.packetsAt capacity sending.display.send.tx.packetLen)
  rw [ticked]
  refine ⟨confides.object.trans same, confides.pending, confides.digits, fun shut => ?_,
    fun scanning => held.trans (confides.revealing scanning), fun compares => ?_⟩
  · change ((sending.display.send.tx.nextFrameAt crates capacity).1).bytes = _
    rw [Transmitter.nextFrameAt, Transmitter.nextFramePacked_held _ _ (held.symm.trans shut)]
    exact confides.object.beaconBytes
  · obtain ⟨shut, kept⟩ := confides.comparing compares
    exact ⟨held.trans shut, kept⟩

theorem Confides.halt (confides : Confides req eph start seen sending) (ending : Ending) :
    Confides req eph start seen (sending.halt ending) :=
  ⟨confides.object, confides.pending, confides.digits, confides.screen, by simp [Sending.halt],
    by simp [Sending.halt]⟩

theorem Confides.takeReveal (confides : Confides req eph start seen sending)
    (scanning : sending.phase = .revealing) {frame : Bytes} (shown : seen frame) :
    Confides req eph start seen (sending.takeReveal frame) := by
  unfold Sending.takeReveal
  split
  · exact confides.halt _
  · exact confides.halt _
  · rename_i digits send opened
    cases Send.acceptReveal_cases opened with
    | accepted _ p rv pending decoded sameSession opens =>
        obtain rfl : Send.kept req eph = p := Option.some_inj.mp (confides.pending.symm.trans pending)
        refine ⟨confides.object, confides.pending, ?_, confides.screen, by simp,
          fun _ => ⟨confides.revealing scanning, by simp, rfl⟩⟩
        rintro _ ⟨rfl⟩
        exact ⟨frame, rv, shown, decoded, opens, rfl⟩

theorem Confides.look (confides : Confides req eph start seen sending) {found : Option Bytes}
    (shown : ∀ frame, found = some frame → seen frame) :
    Confides req eph start seen (sending.look found) := by
  have gone : Confides req eph start seen { sending with phase := .ended .gone } :=
    ⟨confides.object, confides.pending, confides.digits, confides.screen, by simp, by simp⟩
  cases phase : sending.phase with
  | comparing => simpa only [Sending.look, phase] using confides
  | ended ending => simpa only [Sending.look, phase] using confides
  | revealing =>
      simp only [Sending.look, phase]
      rcases Receiving.scanOneFrame_cases sending.shell 0x05 found with
        ⟨-, left⟩ | ⟨-, waiting, -⟩ | ⟨-, frame, rfl, -, caught⟩
      · rw [left]
        exact gone
      · rw [waiting]
        exact confides
      · rw [caught]
        exact confides.takeReveal phase (shown frame rfl)
  | completing =>
      simp only [Sending.look, phase]
      rcases Receiving.scanOneFrame_cases sending.shell 0x04 found with
        ⟨-, left⟩ | ⟨-, waiting, -⟩ | ⟨-, frame, rfl, -, caught⟩
      · rw [left]
        exact gone
      · rw [waiting]
        exact confides
      · rw [caught]
        exact confides.halt _

theorem confirm_idle (other : sending.phase ≠ .comparing) : sending.confirm = sending := by
  unfold Sending.confirm
  split
  · rename_i comparing
    exact absurd comparing other
  · rfl

theorem Confides.confirms (confides : Confides req eph start seen sending)
    (comparing : sending.phase = .comparing) :
    sending.confirm =
      { sending with
        display := { sending.display with send :=
          { sending.display.send with tx := sending.display.send.tx.release } }
        phase := if sending.shell.cameraOn then .completing else .ended .unconfirmed } := by
  obtain ⟨-, digits, -⟩ := confides.comparing comparing
  have released : sending.display.send.release =
      (.ok (), { sending.display.send with tx := sending.display.send.tx.release }) := by
    simp [Send.release, digits]
  simp only [Sending.confirm, comparing, released, Sending.awaitComplete]

theorem Confides.confirm (confides : Confides req eph start seen sending) :
    Confides req eph start seen sending.confirm := by
  by_cases comparing : sending.phase = .comparing
  · rw [confides.confirms comparing]
    refine ⟨confides.object.trans ⟨rfl, rfl, rfl, rfl, rfl⟩, confides.pending, confides.digits,
      by simp [Transmitter.release], fun revealing => ?_, fun again => ?_⟩
    · dsimp only at revealing
      split at revealing <;> simp at revealing
    · dsimp only at again
      split at again <;> simp at again
  · rwa [confirm_idle comparing]

theorem Confides.switch (confides : Confides req eph start seen sending) (on : Bool) :
    Confides req eph start seen { sending with shell := { sending.shell with cameraOn := on } } :=
  ⟨confides.object, confides.pending, confides.digits, confides.screen, confides.revealing,
    confides.comparing⟩

theorem tick_sas (sending : Sending crates) :
    (sending.tick fits).display.send.sas = sending.display.send.sas := by
  unfold Sending.tick
  split
  · rfl
  · split
    · rfl
    · change (sending.display.tick crates fits).2.send.sas = _
      rw [tick_send]

theorem look_sas (found : Option Bytes) (other : sending.phase ≠ .revealing) :
    (sending.look found).display.send.sas = sending.display.send.sas := by
  unfold Sending.look
  split
  · rename_i revealing
    exact absurd revealing other
  · split <;> rfl
  · rfl

theorem Confides.mono {more : Bytes → Prop} (confides : Confides req eph start seen sending)
    (later : ∀ frame, seen frame → more frame) : Confides req eph start more sending := by
  refine ⟨confides.object, confides.pending, fun digits shown => ?_, confides.screen,
    confides.revealing, confides.comparing⟩
  obtain ⟨frame, rv, before, rest⟩ := confides.digits digits shown
  exact ⟨frame, rv, later frame before, rest⟩

end Sending

/-! Both, and whoever stands between them. -/

section Between

variable (session : Session crates) (req : PairReq) (eph : KeyPair crates) (start : Send)

/-- What has come of a run: a sender that lets the payload go shows the digits of the receiver's beacon,
and what the receiver delivered it opened under that beacon. -/
structure Between (past : List (Pairing.Contact × Option IngestResult)) (pairing : Pairing crates) :
    Prop where
  hears : Hears session pairing.receiver
  confides : Confides req eph start (fun frame => .senderLooks (some frame) ∈ past.map Prod.fst)
    pairing.sender
  trusts : pairing.sender.display.send.tx.held = false → ∃ b, pairing.receiver.recv.rx.beacon = some b ∧
    b.mode = .pair ∧ pairing.sender.display.send.sas = some (session.digits b)
  unsealed : ∀ event r, (event, some r) ∈ past → r.kind = .done →
    ∃ out, r.payload = some out ∧ ∃ b ct, pairing.receiver.recv.rx.beacon = some b ∧
      (b.mode = .pair → Receiver.openObject crates (session.pairKey b) b ct = .ok out)

variable {session req eph start} {fits : Qr.Fits} {pairing : Pairing crates}
  {past : List (Pairing.Contact × Option IngestResult)}

theorem Between.sender {next : Sending crates} {event : Pairing.Contact}
    (between : Between session req eph start past pairing)
    (confides : Confides req eph start (fun frame => .senderLooks (some frame) ∈ past.map Prod.fst ++ [event])
      next)
    (kept : next.display.send.tx.held = false → pairing.sender.display.send.tx.held = false ∧
      next.display.send.sas = pairing.sender.display.send.sas) :
    Between session req eph start (past ++ [(event, none)]) { pairing with sender := next } := by
  refine ⟨between.hears, by rwa [List.map_append], fun released => ?_, fun other r member => ?_⟩
  · obtain ⟨b, known, mode, digits⟩ := between.trusts (kept released).1
    exact ⟨b, known, mode, (kept released).2.trans digits⟩
  · exact between.unsealed other r (by simpa using member)

theorem Between.receiver {next : Receiving crates} {event : Pairing.Contact} {said : Option IngestResult}
    (between : Between session req eph start past pairing)
    (heard : Heard session pairing.receiver next said) :
    Between session req eph start (past ++ [(event, said)]) { pairing with receiver := next } := by
  refine ⟨heard.hears, ?_, fun released => ?_, fun other r member done => ?_⟩
  · rw [List.map_append]
    exact between.confides.mono fun frame before => List.mem_append_left _ before
  · obtain ⟨b, known, rest⟩ := between.trusts released
    exact ⟨b, heard.beacon b known, rest⟩
  · rcases List.mem_append.mp member with before | now
    · obtain ⟨out, payload, b, ct, known, opens⟩ := between.unsealed other r before done
      exact ⟨out, payload, b, ct, heard.beacon b known, opens⟩
    · obtain ⟨rfl, rfl⟩ : other = event ∧ some r = said := by simpa using now
      obtain ⟨out, payload, b, key, ct, known, keyed, opened⟩ := heard.unsealed r rfl done
      refine ⟨out, payload, b, ct, known, fun mode => ?_⟩
      rwa [← Option.some_inj.mp (keyed.symm.trans (heard.hears.ordered.bound.pair b known mode))]

theorem Between.compare (between : Between session req eph start past pairing)
    (same : pairing.sender.shell.sas = pairing.receiver.sas) :
    Between session req eph start (past ++ [(.compare, none)])
      { pairing with sender := pairing.sender.confirm } := by
  have confides := between.confides
  have later : Confides req eph start
      (fun frame => .senderLooks (some frame) ∈ past.map Prod.fst ++ [.compare]) pairing.sender.confirm :=
    confides.confirm.mono fun frame before => List.mem_append_left _ before
  by_cases comparing : pairing.sender.phase = .comparing
  · refine ⟨between.hears, by rwa [List.map_append], fun _ => ?_,
      fun other r member => between.unsealed other r (by simpa using member)⟩
    obtain ⟨-, shown, panel⟩ := confides.comparing comparing
    obtain ⟨digits, digits_eq⟩ := Option.ne_none_iff_exists'.mp shown
    obtain ⟨b, known, mode, rfl⟩ := between.hears.panel digits (same.symm.trans (panel.trans digits_eq))
    refine ⟨b, known, mode, ?_⟩
    rw [confides.confirms comparing]
    exact digits_eq
  · refine between.sender later fun released => ?_
    rw [confirm_idle comparing] at released ⊢
    exact ⟨released, rfl⟩

theorem Between.step (between : Between session req eph start past pairing) (event : Pairing.Contact) :
    Between session req eph start (past ++ [(event, (pairing.contact fits event).1)])
      (pairing.contact fits event).2 := by
  have confides := between.confides
  have before (event : Pairing.Contact) : ∀ frame, .senderLooks (some frame) ∈ past.map Prod.fst →
      .senderLooks (some frame) ∈ past.map Prod.fst ++ [event] :=
    fun frame earlier => List.mem_append_left _ earlier
  cases event with
  | tick =>
      refine between.sender (confides.tick.mono (before _)) fun released => ?_
      exact ⟨(tick_held pairing.sender).symm.trans released, tick_sas pairing.sender⟩
  | receiverLooks found => exact between.receiver (between.hears.look found)
  | senderLooks found =>
      refine between.sender ((confides.mono (before _)).look fun frame shown => ?_) fun released => ?_
      · rw [shown]
        exact List.mem_append_right _ (List.mem_singleton.mpr rfl)
      · rw [look_held] at released
        refine ⟨released, look_sas found fun revealing => ?_⟩
        exact absurd (confides.revealing revealing) (by simp [released])
  | compare =>
      simp only [Pairing.contact]
      split
      · rename_i same
        exact between.compare same
      · exact between.sender (confides.mono (before _)) fun released => ⟨released, rfl⟩
  | receiverCamera on =>
      exact between.receiver ⟨between.hears.of_same rfl rfl rfl rfl, fun _ known => known,
        by simp [Pairing.contact]⟩
  | senderCamera on =>
      exact between.sender ((confides.mono (before _)).switch on) fun released => ⟨released, rfl⟩

def Apart (session : Session crates) (req : PairReq) (eph : KeyPair crates) (b : Beacon)
    (seen : Bytes → Prop) : Prop :=
  ∀ frame rv, seen frame → Reveal.decode crates frame = .ok rv →
    commit crates req.sessionId req.rEphPub rv.rNonce = req.rCommit →
    sasDigits (crates.sha256 ((Send.kept req eph).transcript rv.rNonce)) = session.digits b →
    (Send.kept req eph).transcript rv.rNonce = session.transcript b

end Between

end Rabaska.Shell
