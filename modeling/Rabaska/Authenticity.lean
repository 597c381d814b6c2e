import Rabaska.ReceiverProofs
import Rabaska.TransmitterProofs

/-! End-to-end authenticity: what a receiver delivers on a channel that an attacker controls. -/

namespace Rabaska.Pipeline

open Wire

variable {crates : Crates}

/-- The AEAD is ideal for a key under which one message was sealed: that message opens to what
was sealed, and nothing else opens at all. -/
structure IdealFor (crates : Crates) (key : Crypto.SessionKey) (nonce : Octets 24)
    (aad body : Bytes) : Prop where
  opens : crates.xchachaDecrypt key nonce aad (crates.xchachaEncrypt key nonce aad body) = some body
  only : ∀ nonce' aad' ct opened, crates.xchachaDecrypt key nonce' aad' ct = some opened →
    nonce' = nonce ∧ aad' = aad ∧ ct = crates.xchachaEncrypt key nonce aad body

/-- Two beacons agree on everything but the transmission parameters and the build. -/
structure Agrees (first second : Beacon) : Prop where
  mode : first.mode = second.mode
  flags : first.flags = second.flags
  sessionId : first.sessionId = second.sessionId
  sEphPub : first.sEphPub = second.sEphPub
  nonce : first.nonce = second.nonce
  plaintextLen : first.plaintextLen = second.plaintextLen

theorem Agrees.compressed {first second : Beacon} (agrees : Agrees first second) :
    first.compressed = second.compressed := by
  simp only [Beacon.compressed, agrees.flags]

theorem openObject_genuine {key : Crypto.SessionKey} {nonce : Octets 24} {cfg : TransmitConfig}
    {plaintext : Bytes} (inflates : InflateUndoesDeflate crates)
    (ideal : IdealFor crates key nonce (Transmitter.new crates key nonce cfg plaintext).beacon.aad
      (maybeCompress crates plaintext).1)
    {b : Beacon} {ct out : Bytes} (opened : Receiver.openObject crates key b ct = .ok out) :
    out = plaintext ∧ Agrees b (Transmitter.new crates key nonce cfg plaintext).beacon := by
  unfold Receiver.openObject Crypto.decrypt at opened
  cases decrypted : crates.xchachaDecrypt key b.nonce b.aad ct with
  | none => simp [decrypted, bind, Except.bind] at opened
  | some body =>
      obtain ⟨-, sameAad, sameCt⟩ := ideal.only _ _ _ _ decrypted
      obtain ⟨mode, flags, sessionId, sEphPub, sameNonce, plaintextLen⟩ := Beacon.aad_inj sameAad
      have agrees : Agrees b (Transmitter.new crates key nonce cfg plaintext).beacon :=
        ⟨mode, flags, sessionId, sEphPub, sameNonce, plaintextLen⟩
      have sealed : body = (maybeCompress crates plaintext).1 := by
        rw [sameAad, sameCt, sameNonce] at decrypted
        exact Option.some_inj.mp (decrypted.symm.trans ideal.opens)
      refine ⟨?_, agrees⟩
      simp only [decrypted, bind, Except.bind] at opened
      split at opened
      · simp at opened
      · rename_i plain decompressed
        rw [agrees.compressed, Transmitter.new_beacon_compressed, sealed] at decompressed
        split at opened
        · simp at opened
        · rw [← Except.ok.inj opened]
          exact maybeDecompress_eq inflates decompressed

/-- Whatever bytes a receiver with the key is fed, in whatever order and with whatever restored
packets, it delivers nothing but the transmitted plaintext, under a beacon that agrees with the
transmitted one, and delivers at most once. -/
theorem authentic (key : Crypto.SessionKey) (nonce : Octets 24) (cfg : TransmitConfig)
    (plaintext : Bytes) (inflates : InflateUndoesDeflate crates)
    (ideal : IdealFor crates key nonce (Transmitter.new crates key nonce cfg plaintext).beacon.aad
      (maybeCompress crates plaintext).1)
    (rx final : Receiver crates) (holds : ∀ k ∈ rx.key, k = key)
    (trace : List (Receiver.Op × Option (Except Error Ingest)))
    (run : Machine.Run (Receiver.step key) rx trace final) :
    (∀ op answer out, (op, answer) ∈ trace → Receiver.delivered answer = some out →
        out = plaintext ∧ ∃ b, final.beacon = some b ∧
          Agrees b (Transmitter.new crates key nonce cfg plaintext).beacon) ∧
      trace.countP (fun event => (Receiver.delivered event.2).isSome) ≤ 1 := by
  constructor
  · intro op answer out member delivery
    obtain ⟨front, back, rfl⟩ := List.append_of_mem member
    obtain ⟨before, after, first, stepped, rest⟩ := run.event
    have effect := (Receiver.step_effect stepped).2.2
    rw [delivery] at effect
    obtain ⟨-, -, b, used, ct, known, keyed, opened⟩ := effect
    obtain rfl : used = key := Receiver.run_key first holds used (by rw [keyed]; rfl)
    obtain ⟨same, agrees⟩ := openObject_genuine inflates ideal opened
    exact ⟨same, b, Receiver.run_beacon rest known, agrees⟩
  · refine (Receiver.run_delivers run).trans ?_
    split <;> omega

/-! The toy crates with an AEAD that is ideal for one message. -/

def sealedSample : Crates :=
  let aad := (Transmitter.new Crates.sample sampleKey sampleNonce sampleConfig samplePlaintext).beacon.aad
  let ct := Crates.sample.xchachaEncrypt sampleKey sampleNonce aad samplePlaintext
  { Crates.sample with
    xchachaDecrypt := fun _ nonce' aad' ct' =>
      if nonce' = sampleNonce ∧ aad' = aad ∧ ct' = ct then some samplePlaintext else none }

def sampleTransmitter : Transmitter :=
  Transmitter.new sealedSample sampleKey sampleNonce sampleConfig samplePlaintext

set_option maxRecDepth 100000 in
theorem authentic_delivery :
    ∃ trace final, Machine.Run (Receiver.step sampleKey) (Receiver.new sealedSample) trace final ∧
      (trace.map Prod.snd = [none, some (.ok .ignored), some (.error .badMagic),
        some (.ok .beaconAcquired), some (.ok (.done samplePlaintext)), some (.ok .ignored)]) ∧
      (∀ op answer out, (op, answer) ∈ trace → Receiver.delivered answer = some out →
        out = samplePlaintext ∧ ∃ b, final.beacon = some b ∧ Agrees b sampleTransmitter.beacon) ∧
      trace.countP (fun event => (Receiver.delivered event.2).isSome) ≤ 1 := by
  let beacon := (sampleTransmitter.nextFrame sealedSample).1.bytes
  let symbol := ((sampleTransmitter.nextFrame sealedSample).2.nextFrame sealedSample).1.bytes
  obtain ⟨trace, final, run, -, answers⟩ := Machine.run_of_view (Receiver.step sampleKey)
    (Receiver.new sealedSample)
    [.setKey, .ingest symbol, .ingest [1, 2, 3, 4], .ingest beacon, .ingest symbol, .ingest symbol] id
    [none, some (.ok .ignored), some (.error .badMagic), some (.ok .beaconAcquired),
      some (.ok (.done samplePlaintext)), some (.ok .ignored)] (by decide +kernel)
  refine ⟨trace, final, run, answers, ?_⟩
  refine authentic sampleKey sampleNonce sampleConfig samplePlaintext ?_ ?_ _ final ?_ _ run
  · intro plain limit out inflated
    simp only [sealedSample, Crates.sample, Option.ite_none_right_eq_some, Option.some_inj] at inflated
    exact inflated.2.symm
  · refine ⟨by decide +kernel, fun nonce' aad' ct opened decrypted => ?_⟩
    simp only [sealedSample, Option.ite_none_right_eq_some] at decrypted
    exact decrypted.1
  · simp [Receiver.new]

end Rabaska.Pipeline
