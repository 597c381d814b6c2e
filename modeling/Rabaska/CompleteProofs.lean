import Rabaska.FormatProofs
import Rabaska.SenderProofs

/-! The delivery confirmation: which COMPLETE frames a sender reads as delivered. -/

namespace Rabaska.Wasm

open Call Wire Crypto Pipeline

variable {crates : Crates}

namespace Send

def Expects (crates : Crates) (send : Send) (payload : Bytes) : Prop :=
  send.tx.plaintextHash = completeHash crates send.tx.beacon.sessionId payload

theorem made_expects {opening : Opening crates} {send : Send} (made : opening.send = some (.ok send)) :
    Expects crates send opening.payload := by
  obtain ⟨derivation, cfg, tx, sends, shown⟩ := Opening.sends made
  obtain rfl := sends.object
  rcases shown with same | held
  · rw [Expects, same]
    rfl
  · rw [Expects, held]
    rfl

theorem step_expects {send next : Send} {op : Op} {answer : Answer} {payload : Bytes}
    (expects : Expects crates send payload) (stepped : send.step crates op = some (answer, next)) :
    Expects crates next payload := by
  cases step_cases stepped with
  | frame capacity =>
      have same := Transmitter.nextFramePacked_same crates send.tx
        (Transmitter.packetsAt capacity send.tx.packetLen)
      rw [nextFrame_tx, Expects]
      change (send.tx.nextFramePacked crates _).2.plaintextHash =
        completeHash crates (send.tx.nextFramePacked crates _).2.beacon.sessionId payload
      rw [Transmitter.nextFramePacked_hash, same.beacon]
      exact expects
  | rejected frame msg => exact expects
  | accepted frame p rv pending decoded session opened => exact expects
  | refused msg pending unconfirmed => exact expects
  | released allowed => exact expects

theorem run_expects {opening : Opening crates} {start send : Send} {trace : List (Op × Answer)}
    (made : opening.send = some (.ok start)) (run : Machine.Run (Send.step crates) start trace send) :
    Expects crates send opening.payload :=
  run.invariant (fun send => Expects crates send opening.payload)
    (fun _ _ _ _ => step_expects) (made_expects made)

theorem verifyComplete_encode (send : Send) (complete : Complete) :
    send.verifyComplete crates (complete.encode crates) = some (.ok true) ↔
      complete.status = .ok ∧ complete.hash8 = send.tx.plaintextHash := by
  rw [verifyComplete, Complete.decode_encode]
  simp

/-- Whatever is scanned: only a sealed COMPLETE frame with status byte zero and the hash that is
waited for reads as delivered. -/
theorem verifyComplete_delivered {send : Send} {frame : Bytes}
    (delivered : send.verifyComplete crates frame = some (.ok true)) :
    ∃ session : Octets 4, frame = framed crates FrameType.complete
      (session.bytes ++ [0x00] ++ send.tx.plaintextHash.bytes) := by
  cases decoded : Complete.decode crates frame with
  | error fault => cases fault <;> simp [verifyComplete, decoded] at delivered
  | ok complete =>
      obtain ⟨status, hash⟩ : complete.status = .ok ∧ complete.hash8 = send.tx.plaintextHash := by
        simpa [verifyComplete, decoded] using delivered
      obtain ⟨byte, -, written, unknown⟩ := Complete.decode_status crates decoded
      have known : KnownStatus byte := by
        by_contra other
        rw [status] at unknown
        exact absurd (unknown other) (by decide)
      refine ⟨complete.sid4, ?_⟩
      rw [← written.mpr known, Complete.encode, status, hash]
      rfl

/-- The only feedback there is: the confirmation of a receiver reads as delivered exactly when it
holds, in this sender's session, what this sender was given. -/
theorem delivery_confirmed {opening : Opening crates} {start send : Send}
    {trace : List (Op × Answer)} (made : opening.send = some (.ok start))
    (run : Machine.Run (Send.step crates) start trace send) {inputs : Set (Octets 8 × Bytes)}
    (distinct : inputs.InjOn fun input => completeHash crates input.1 input.2)
    (own : (send.tx.beacon.sessionId, opening.payload) ∈ inputs) :
    (∀ (rx : Receiver crates) b plaintext status, rx.beacon = some b →
      (b.sessionId, plaintext) ∈ inputs → ∃ frame, rx.completeFrame plaintext status = some frame ∧
        (send.verifyComplete crates frame = some (.ok true) ↔
          status = .ok ∧ b.sessionId = send.tx.beacon.sessionId ∧ plaintext = opening.payload)) ∧
    ∀ frame, send.verifyComplete crates frame = some (.ok true) →
      ∃ session : Octets 4, frame = framed crates FrameType.complete (session.bytes ++ [0x00] ++
        (completeHash crates send.tx.beacon.sessionId opening.payload).bytes) := by
  have expects := run_expects made run
  constructor
  · intro rx b plaintext status known member
    refine ⟨_, by rw [Receiver.completeFrame, known]; rfl, ?_⟩
    rw [verifyComplete_encode, expects]
    dsimp only
    constructor
    · rintro ⟨ok, same⟩
      obtain ⟨session, payload⟩ := Prod.mk.inj (distinct member own same)
      exact ⟨ok, session, payload⟩
    · rintro ⟨ok, session, payload⟩
      rw [session, payload]
      exact ⟨ok, rfl⟩
  · intro frame delivered
    rw [← expects]
    exact verifyComplete_delivered delivered

theorem delivery_confirmed_sealed : ∃ send : Send, Opening.sealing.send = some (.ok send) ∧
    ∀ rx : Receiver Crates.sample, rx.beacon = some send.tx.beacon →
      (∃ frame, rx.completeFrame samplePlaintext .ok = some frame ∧
        send.verifyComplete Crates.sample frame = some (.ok true)) ∧
      ∃ frame, rx.completeFrame [1, 2, 4] .ok = some frame ∧
        send.verifyComplete Crates.sample frame ≠ some (.ok true) := by
  obtain ⟨send, made⟩ : ∃ send, Opening.sealing.send = some (.ok send) := ⟨_, rfl⟩
  have session : send.tx.beacon.sessionId = Octets.replicate 8 4 := by
    obtain ⟨rId, -, tx⟩ := Opening.seal_tx (Option.some_inj.mp made)
    rw [tx]
    rfl
  let inputs : Set (Octets 8 × Bytes) :=
    {(Octets.replicate 8 4, samplePlaintext), (Octets.replicate 8 4, [1, 2, 4])}
  have distinct : inputs.InjOn fun input => completeHash Crates.sample input.1 input.2 := by
    rintro _ (rfl | rfl) _ (rfl | rfl) same
    · rfl
    · exact absurd same (by decide)
    · exact absurd same (by decide)
    · rfl
  have own : (send.tx.beacon.sessionId, Opening.sealing.payload) ∈ inputs := by
    rw [session]
    exact .inl rfl
  have confirmed := (delivery_confirmed made (.nil send) distinct own).1
  refine ⟨send, made, fun rx known => ⟨?_, ?_⟩⟩
  · obtain ⟨frame, shown, exact⟩ := confirmed rx _ samplePlaintext .ok known (by rw [session]; exact .inl rfl)
    exact ⟨frame, shown, exact.mpr ⟨rfl, rfl, rfl⟩⟩
  · obtain ⟨frame, shown, exact⟩ := confirmed rx _ [1, 2, 4] .ok known (by rw [session]; exact .inr rfl)
    exact ⟨frame, shown, fun delivered => absurd (exact.mp delivered).2.2 (by decide)⟩

end Send

end Rabaska.Wasm
