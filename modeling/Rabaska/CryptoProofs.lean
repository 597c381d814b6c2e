import Rabaska.CryptoCore
import Rabaska.WireProofs

/-! Agreement of the two sides' keys, and what the hashed and authenticated strings determine. -/

namespace Rabaska

open Wire

namespace Crypto

variable {crates : Crates}

/-- Each side gets the shared secret from its own secret and the other's public key. -/
def DiffieHellmanCommutes (crates : Crates) : Prop :=
  ∀ first second, crates.diffieHellman first (crates.publicKey second) =
    crates.diffieHellman second (crates.publicKey first)

theorem KeyPair.dh_comm (commutes : DiffieHellmanCommutes crates) (own peer : KeyPair crates) :
    own.dh peer.publicKey = peer.dh own.publicKey := by
  rw [KeyPair.dh, KeyPair.dh, own.derived, peer.derived, commutes]

theorem derivePair_agrees (commutes : DiffieHellmanCommutes crates) (sender receiver : KeyPair crates)
    (sessionId : Octets 8) :
    derivePair .sender sender receiver.publicKey sessionId =
      derivePair .receiver receiver sender.publicKey sessionId := by
  simp only [derivePair, KeyPair.dh_comm commutes sender receiver]

theorem deriveSession_agrees (commutes : DiffieHellmanCommutes crates)
    (sEph sId rEph rId : KeyPair crates) (sessionId : Octets 8) :
    deriveSession .sender sEph sId rEph.publicKey rId.publicKey sessionId =
      deriveSession .receiver rEph rId sEph.publicKey sId.publicKey sessionId := by
  simp only [deriveSession, KeyPair.dh_comm commutes sEph rId, KeyPair.dh_comm commutes sId rEph,
    KeyPair.dh_comm commutes sEph rEph]

theorem seal_agrees (commutes : DiffieHellmanCommutes crates) (sEph : KeyPair crates)
    (sId : Option (KeyPair crates)) (rId : KeyPair crates) :
    sealSender sEph sId rId.publicKey =
      sealReceiver rId sEph.publicKey (sId.map KeyPair.publicKey) := by
  cases sId with
  | none => simp only [sealSender, sealReceiver, Option.map_none, KeyPair.dh_comm commutes sEph rId]
  | some id =>
      simp only [sealSender, sealReceiver, Option.map_some, KeyPair.dh_comm commutes sEph rId,
        KeyPair.dh_comm commutes id rId]

theorem deriveForMode_session_missing (role : Role) (own : KeyPair crates)
    (ownId : Option (KeyPair crates)) (peer : Peer) (sessionId : Octets 8)
    (missing : ownId = none ∨ peer.idPub = none) :
    deriveForMode .session role own ownId peer sessionId = .error .missingIdentity := by
  obtain ⟨ephPub, idPub⟩ := peer
  rcases missing with rfl | rfl
  · rfl
  · cases ownId <;> rfl

/-- In every mode the two sides derive one key: in PAIR from the two ephemerals, in SESSION when each
holds the other's identity, in SEAL when the receiver's own key is its identity and both agree whether
the sender's takes part, and in OPEN from the session and the sender's ephemeral alone. Without an
identity that the mode needs there is no key. -/
theorem modes_agree (commutes : DiffieHellmanCommutes crates) (sEph rEph sId rId : KeyPair crates)
    (sessionId : Octets 8) :
    (∀ sOwn rOwn sPeer rPeer,
      deriveForMode .pair .sender sEph sOwn { ephPub := rEph.publicKey, idPub := sPeer } sessionId =
        .ok (derivePair .sender sEph rEph.publicKey sessionId) ∧
      deriveForMode .pair .receiver rEph rOwn { ephPub := sEph.publicKey, idPub := rPeer } sessionId =
        .ok (derivePair .sender sEph rEph.publicKey sessionId)) ∧
    (deriveForMode .session .sender sEph (some sId)
        { ephPub := rEph.publicKey, idPub := some rId.publicKey } sessionId =
        .ok (deriveSession .sender sEph sId rEph.publicKey rId.publicKey sessionId) ∧
      deriveForMode .session .receiver rEph (some rId)
        { ephPub := sEph.publicKey, idPub := some sId.publicKey } sessionId =
        .ok (deriveSession .sender sEph sId rEph.publicKey rId.publicKey sessionId)) ∧
    (∀ taking rOwn sPeer,
      deriveForMode .seal .sender sEph taking { ephPub := sPeer, idPub := some rId.publicKey }
        sessionId = .ok (sealSender sEph taking rId.publicKey) ∧
      deriveForMode .seal .receiver rId rOwn
        { ephPub := sEph.publicKey, idPub := taking.map KeyPair.publicKey } sessionId =
        .ok (sealSender sEph taking rId.publicKey)) ∧
    (∀ sOwn rOwn sPeer rPeer,
      deriveForMode .open .sender sEph sOwn sPeer sessionId =
        .ok (deriveOpen crates sessionId sEph.publicKey) ∧
      deriveForMode .open .receiver rEph rOwn { ephPub := sEph.publicKey, idPub := rPeer } sessionId =
        .ok (deriveOpen crates sessionId sEph.publicKey)) ∧
    (∀ role own ownId peer, ownId = none ∨ peer.idPub = none →
      deriveForMode .session role own (ownId : Option (KeyPair crates)) peer sessionId =
        .error .missingIdentity) ∧
    ∀ own ownId ephPub, deriveForMode .seal .sender own (ownId : Option (KeyPair crates))
      { ephPub, idPub := none } sessionId = .error .missingIdentity := by
  refine ⟨fun sOwn rOwn sPeer rPeer => ⟨rfl, ?_⟩, ⟨rfl, ?_⟩, fun taking rOwn sPeer => ⟨rfl, ?_⟩,
    fun sOwn rOwn sPeer rPeer => ⟨rfl, rfl⟩, ?_, fun own ownId ephPub => rfl⟩
  · exact congrArg Except.ok (derivePair_agrees commutes sEph rEph sessionId).symm
  · exact congrArg Except.ok (deriveSession_agrees commutes sEph sId rEph rId sessionId).symm
  · exact congrArg Except.ok (seal_agrees commutes sEph taking rId).symm
  · intro role own ownId peer missing
    exact deriveForMode_session_missing role own ownId peer sessionId missing

theorem sample_commutes : DiffieHellmanCommutes Crates.sample := by
  intro first second
  simp only [Crates.sample]
  exact Octets.ext (List.zipWith_comm_of_comm UInt8.xor_comm)

def samplePair (byte : UInt8) : KeyPair Crates.sample :=
  KeyPair.fromBytes Crates.sample (Octets.replicate 32 byte)

theorem modes_agree_sample :
    deriveForMode .session .sender (samplePair 1) (some (samplePair 2))
      { ephPub := (samplePair 3).publicKey, idPub := some (samplePair 4).publicKey }
      (Octets.replicate 8 5) =
      .ok (deriveSession .sender (samplePair 1) (samplePair 2) (samplePair 3).publicKey
        (samplePair 4).publicKey (Octets.replicate 8 5)) ∧
    deriveForMode .session .receiver (samplePair 3) (some (samplePair 4))
      { ephPub := (samplePair 1).publicKey, idPub := some (samplePair 2).publicKey }
      (Octets.replicate 8 5) =
      .ok (deriveSession .sender (samplePair 1) (samplePair 2) (samplePair 3).publicKey
        (samplePair 4).publicKey (Octets.replicate 8 5)) :=
  (modes_agree sample_commutes (samplePair 1) (samplePair 3) (samplePair 2) (samplePair 4)
    (Octets.replicate 8 5)).2.1

theorem foldl_or_eq_zero (differences : Bytes) (start : UInt8) :
    differences.foldl (· ||| ·) start = 0 ↔ start = 0 ∧ ∀ byte ∈ differences, byte = 0 := by
  induction differences generalizing start with
  | nil => simp
  | cons byte rest ih =>
      rw [List.foldl_cons, ih]
      have either : start ||| byte = 0 ↔ start = 0 ∧ byte = 0 := by
        simp only [← UInt8.toBitVec_inj, UInt8.toBitVec_or]
        exact BitVec.or_eq_zero_iff
      simp [either, and_assoc]

theorem zipWith_xor_zero {first second : Bytes} (sized : first.length = second.length) :
    (∀ byte ∈ List.zipWith (· ^^^ ·) first second, byte = 0) ↔ first = second := by
  induction first generalizing second with
  | nil =>
      obtain rfl := List.length_eq_zero_iff.mp sized.symm
      simp
  | cons byte rest ih =>
      obtain ⟨other, others, rfl⟩ := List.exists_cons_of_length_eq_add_one sized.symm
      simp only [List.zipWith_cons_cons, List.forall_mem_cons, ih (Nat.succ_inj.mp sized),
        UInt8.xor_eq_zero_iff, List.cons.injEq]

theorem verifyCommit_iff (sessionId : Octets 8) (rEphPub : Octets 32) (rNonce claimed : Octets 16) :
    verifyCommit crates sessionId rEphPub rNonce claimed = true ↔
      commit crates sessionId rEphPub rNonce = claimed := by
  simp only [verifyCommit, beq_iff_eq, foldl_or_eq_zero, true_and]
  rw [zipWith_xor_zero (by simp), Octets.bytes_inj]

theorem sasTranscript_inj {sessionId sessionId' : Octets 8} {rEphPub rEphPub' sEphPub sEphPub' : Octets 32}
    {rNonce rNonce' : Octets 16} :
    sasTranscript sessionId rEphPub sEphPub rNonce = sasTranscript sessionId' rEphPub' sEphPub' rNonce' ↔
      sessionId = sessionId' ∧ rEphPub = rEphPub' ∧ sEphPub = sEphPub' ∧ rNonce = rNonce' := by
  simp only [sasTranscript, List.append_assoc, List.append_cancel_left_eq, Octets.append_inj,
    Octets.bytes_inj]

end Crypto

theorem Wire.Beacon.aad_inj {first second : Beacon} (same : first.aad = second.aad) :
    first.mode = second.mode ∧ first.flags = second.flags ∧ first.sessionId = second.sessionId ∧
      first.sEphPub = second.sEphPub ∧ first.nonce = second.nonce ∧
      first.plaintextLen = second.plaintextLen := by
  simp only [aad, List.append_assoc, List.append_cancel_left_eq, List.cons_append, List.nil_append,
    List.cons.injEq, Octets.append_inj, Octets.bytes_inj, Octets.ofU32_inj, true_and] at same
  exact ⟨Mode.toU8_inj same.1, same.2⟩

end Rabaska
