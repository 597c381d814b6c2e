import Rabaska.DerivationProofs
import Rabaska.SendProofs

/-! How a sender is made and what its key is derived from: what its beacon says of that, and which
receivers derive the same key. -/

namespace Rabaska.Wasm

open Call Wire Crypto Pipeline

variable {crates : Crates}

/-- A call that makes a sender, with the random values it draws. -/
inductive Opening (crates : Crates) where
  | reply (pairReq payload : Bytes) (identity : Option (KeyPair crates)) (peerIdentity : Option Bytes)
      (buildHash : Bytes) (frameCapacity : Nat) (ephSecret : Octets 32) (nonce : Octets 24)
  | seal (receiverPublicKey payload : Bytes) (identity : Option (KeyPair crates)) (buildHash : Bytes)
      (frameCapacity : Nat) (ephSecret : Octets 32) (sessionId : Octets 8) (nonce : Octets 24)
  | open (payload buildHash : Bytes) (frameCapacity : Nat) (ephSecret : Octets 32)
      (sessionId : Octets 8) (nonce : Octets 24)

namespace Opening

def send : Opening crates → Option (Except String Send)
  | .reply pairReq payload identity peerIdentity buildHash frameCapacity ephSecret nonce =>
      Send.reply crates pairReq payload identity peerIdentity buildHash frameCapacity ephSecret nonce
  | .seal receiverPublicKey payload identity buildHash frameCapacity ephSecret sessionId nonce =>
      some (Send.seal crates receiverPublicKey payload identity buildHash frameCapacity ephSecret
        sessionId nonce)
  | .open payload buildHash frameCapacity ephSecret sessionId nonce =>
      some (.ok (Send.open crates payload buildHash frameCapacity ephSecret sessionId nonce))

def payload : Opening crates → Bytes
  | .reply _ payload .. => payload
  | .seal _ payload .. => payload
  | .open payload .. => payload

def nonce : Opening crates → Octets 24
  | .reply _ _ _ _ _ _ _ nonce => nonce
  | .seal _ _ _ _ _ _ _ nonce => nonce
  | .open _ _ _ _ _ nonce => nonce

def identity : Opening crates → Option (KeyPair crates)
  | .reply _ _ identity .. => identity
  | .seal _ _ identity .. => identity
  | .open .. => none

def derivation : Opening crates → Option (Derivation crates)
  | .reply pairReq _ identity peerIdentity _ _ ephSecret _ =>
      match PairReq.decode crates pairReq, Send.peerKey peerIdentity with
      | .ok req, .ok peerId =>
          Derivation.choose (Send.replyMode identity peerId) .sender
            (KeyPair.fromBytes crates ephSecret) identity { ephPub := req.rEphPub, idPub := peerId }
            req.sessionId
      | _, _ => none
  | .seal receiverPublicKey _ identity _ _ ephSecret _ _ =>
      match toKey receiverPublicKey with
      | .ok rId => some (.sealSender (KeyPair.fromBytes crates ephSecret) identity rId)
      | .error _ => none
  | .open _ _ _ ephSecret sessionId _ =>
      some (.open sessionId (KeyPair.fromBytes crates ephSecret).publicKey)

/-- An identity that is given but not asked for: a reply is in PAIR mode without a peer's. -/
def IdentityIdle : Opening crates → Prop
  | .reply _ _ identity peerIdentity .. => identity.isSome ∧ peerIdentity = none
  | .seal .. => False
  | .open .. => False

theorem IdentityIdle.given {opening : Opening crates} (idle : opening.IdentityIdle) :
    opening.identity.isSome := by
  cases opening with
  | reply => exact idle.1
  | «seal» => exact idle.elim
  | «open» => exact idle.elim

/-- What is sent: the payload, encrypted under the key of the derivation, with a flag that says whether
an identity was given. -/
structure Sends (opening : Opening crates) (derivation : Derivation crates) (cfg : TransmitConfig)
    (tx : Transmitter) : Prop where
  derived : opening.derivation = some derivation
  object : tx = Transmitter.new crates derivation.key opening.nonce cfg opening.payload
  senderAuth : cfg.senderAuth = opening.identity.isSome

theorem start_tx (mode : Mode) (req : PairReq) (eph : KeyPair crates) (tx : Transmitter) :
    (Send.start mode req eph tx).tx = tx ∨ (Send.start mode req eph tx).tx = tx.hold := by
  cases mode with
  | pair => exact .inr rfl
  | session => exact .inl rfl
  | «seal» => exact .inl rfl
  | «open» => exact .inl rfl

theorem seal_tx {receiverPublicKey payload : Bytes} {identity : Option (KeyPair crates)}
    {buildHash : Bytes} {frameCapacity : Nat} {ephSecret : Octets 32} {sessionId : Octets 8}
    {nonce : Octets 24} {send : Send} (made : Send.seal crates receiverPublicKey payload identity
      buildHash frameCapacity ephSecret sessionId nonce = .ok send) :
    ∃ rId, toKey receiverPublicKey = .ok rId ∧ send.tx = Transmitter.new crates
      (Derivation.sealSender (KeyPair.fromBytes crates ephSecret) identity rId).key nonce
      (cfg .seal sessionId (KeyPair.fromBytes crates ephSecret).publicKey buildHash frameCapacity
        identity.isSome) payload := by
  unfold Send.seal at made
  cases addressed : toKey receiverPublicKey with
  | error msg => simp [addressed, bind, Except.bind] at made
  | ok rId =>
      simp only [addressed, bind, Except.bind] at made
      obtain rfl := Except.ok.inj made
      exact ⟨rId, rfl, rfl⟩

theorem sends {opening : Opening crates} {send : Send} (made : opening.send = some (.ok send)) :
    ∃ derivation cfg tx, Sends opening derivation cfg tx ∧ (send.tx = tx ∨ send.tx = tx.hold) := by
  cases opening with
  | reply pairReq payload identity peerIdentity buildHash frameCapacity ephSecret nonce =>
      simp only [Opening.send, Send.reply] at made
      split at made
      · simp at made
      · simp at made
      · rename_i req decoded
        split at made
        · simp at made
        · rename_i peerId accepted
          rw [Derivation.deriveForMode_eq] at made
          split at made
          · simp at made
          · rename_i key derived
            split at derived
            · rename_i derivation chosen
              obtain rfl := Except.ok.inj derived
              obtain rfl := Except.ok.inj (Option.some_inj.mp made)
              refine ⟨derivation, _, _, ⟨?_, rfl, rfl⟩, start_tx _ _ _ _⟩
              simpa only [Opening.derivation, decoded, accepted] using chosen
            · simp at derived
  | «seal» receiverPublicKey payload identity buildHash frameCapacity ephSecret sessionId nonce =>
      obtain ⟨rId, addressed, tx⟩ := seal_tx (Option.some_inj.mp made)
      exact ⟨_, _, _, ⟨by simp only [derivation, addressed], rfl, rfl⟩, .inl tx⟩
  | «open» payload buildHash frameCapacity ephSecret sessionId nonce =>
      obtain rfl := Except.ok.inj (Option.some_inj.mp made)
      exact ⟨_, _, _, ⟨rfl, rfl, rfl⟩, .inl rfl⟩

/-! The flag. -/

theorem senderAuth_eq {opening : Opening crates} {send : Send}
    (made : opening.send = some (.ok send)) : send.tx.beacon.senderAuth = opening.identity.isSome := by
  obtain ⟨derivation, cfg, tx, sends, shown⟩ := sends made
  have flag : tx.beacon.senderAuth = opening.identity.isSome := by
    rw [sends.object, Transmitter.new_senderAuth, sends.senderAuth]
  rcases shown with same | held
  · rwa [same]
  · rwa [held]

theorem peerKey_isSome {peerIdentity : Option Bytes} {peerId : Option (Octets 32)}
    (accepted : Send.peerKey peerIdentity = .ok peerId) : peerId = none ↔ peerIdentity = none := by
  cases peerIdentity with
  | none =>
      obtain rfl := Except.ok.inj accepted
      simp
  | some bytes =>
      simp only [Send.peerKey, toKey] at accepted
      split at accepted
      · obtain rfl := Except.ok.inj accepted
        simp
      · simp [Except.map] at accepted

theorem identity_used_iff {opening : Opening crates} {derivation : Derivation crates}
    (derived : opening.derivation = some derivation) :
    .senderIdentity ∈ derivation.recipe.parties ↔ opening.identity.isSome ∧ ¬opening.IdentityIdle := by
  rw [Derivation.identity_used_iff]
  cases opening with
  | reply pairReq payload identity peerIdentity buildHash frameCapacity ephSecret nonce =>
      simp only [Opening.derivation] at derived
      split at derived
      · rename_i req peerId decoded accepted
        have given := peerKey_isSome accepted
        cases identity with
        | none =>
            obtain rfl := Option.some_inj.mp derived
            simp [Derivation.domain, Opening.identity]
        | some id =>
            cases peerId with
            | none =>
                obtain rfl := Option.some_inj.mp derived
                simp [Derivation.domain, Opening.identity, IdentityIdle, given.mp rfl]
            | some peerId =>
                obtain rfl := Option.some_inj.mp derived
                have addressed : peerIdentity ≠ none := fun absent => by simpa using given.mpr absent
                simp [Derivation.domain, Opening.identity, IdentityIdle, addressed]
      · simp at derived
  | «seal» receiverPublicKey payload identity buildHash frameCapacity ephSecret sessionId nonce =>
      simp only [Opening.derivation] at derived
      split at derived
      · obtain rfl := Option.some_inj.mp derived
        cases identity <;> simp [Derivation.domain, Opening.identity, IdentityIdle]
      · simp at derived
  | «open» payload buildHash frameCapacity ephSecret sessionId nonce =>
      obtain rfl := Option.some_inj.mp derived
      simp [Derivation.domain, Opening.identity]

/-- The flag says that an identity was given, and the identity is folded into the key unless the call
is a reply without a peer's identity: there the beacon announces an authentication that the key does
not have. -/
theorem flag_truthful_iff {opening : Opening crates} {send : Send}
    (made : opening.send = some (.ok send)) :
    ∃ derivation cfg tx, Sends opening derivation cfg tx ∧ (send.tx = tx ∨ send.tx = tx.hold) ∧
      ((send.tx.beacon.senderAuth = true ↔ .senderIdentity ∈ derivation.recipe.parties) ↔
        ¬opening.IdentityIdle) := by
  obtain ⟨derivation, cfg, tx, sends, shown⟩ := Opening.sends made
  refine ⟨derivation, cfg, tx, sends, shown, ?_⟩
  rw [senderAuth_eq made, identity_used_iff sends.derived]
  constructor
  · intro truthful idle
    exact (truthful.mp idle.given).2 idle
  · intro used
    exact ⟨fun given => ⟨given, used⟩, And.left⟩

def sealing : Opening Crates.sample :=
  .seal (samplePair 11).publicKey.bytes samplePlaintext (some (samplePair 12)) [] 100
    (Octets.replicate 32 8) (Octets.replicate 8 4) sampleNonce

theorem flag_truthful_sealed : ∃ send derivation, sealing.send = some (.ok send) ∧
    sealing.derivation = some derivation ∧ send.tx.beacon.senderAuth = true ∧
    .senderIdentity ∈ derivation.recipe.parties := by
  obtain ⟨send, made⟩ : ∃ send, sealing.send = some (.ok send) := ⟨_, rfl⟩
  obtain ⟨derivation, cfg, tx, sends, shown, truthful⟩ := flag_truthful_iff made
  have flag : send.tx.beacon.senderAuth = true := senderAuth_eq made
  exact ⟨send, derivation, made, sends.derived, flag, (truthful.mpr id).mp flag⟩

/-- A reply with the device identity and no peer identity, the one the application makes. -/
def firstMeeting : Opening Crates.sample :=
  .reply sampleSession.pairReq samplePlaintext (some (samplePair 12)) none [] 100
    (Octets.replicate 32 8) sampleNonce

theorem flag_lies : ∃ send derivation, firstMeeting.send = some (.ok send) ∧
    firstMeeting.derivation = some derivation ∧
    ¬(send.tx.beacon.senderAuth = true ↔ .senderIdentity ∈ derivation.recipe.parties) := by
  have made : firstMeeting.send = some (.ok _) := Send.reply_encoded sampleSession.request
    samplePlaintext (some (samplePair 12)) [] 100 (Octets.replicate 32 8) sampleNonce
  obtain ⟨derivation, cfg, tx, sends, -⟩ := Opening.sends made
  have announced := senderAuth_eq made
  refine ⟨_, derivation, made, sends.derived, fun truthful => ?_⟩
  exact ((identity_used_iff sends.derived).mp (truthful.mp announced)).2 ⟨rfl, rfl⟩

end Opening

/-! The key of a SEAL transfer. -/

section Sealed

variable {rId : KeyPair crates} {payload buildHash : Bytes} {identity : Option (KeyPair crates)}
  {frameCapacity : Nat} {ephSecret : Octets 32} {sessionId : Octets 8} {nonce : Octets 24}
  {send : Send} {recv : Receive crates}

def Receive.derivedKey (recv : Receive crates) : Option SessionKey := recv.deriveAndSet.2.rx.key

theorem derivedKey_seal {b : Beacon} (own : recv.session.identity = some rId)
    (unkeyed : recv.keyed = false) (known : recv.rx.beacon = some b) (mode : b.mode = .seal) :
    recv.derivedKey = some (Derivation.sealReceiver rId b.sEphPub recv.peerIdentity).key := by
  unfold Receive.derivedKey Receive.deriveAndSet
  rw [unkeyed, known]
  simp only [Receive.agreementKey, mode, own, deriveForMode]
  rfl

/-- The receiver looks at what it has stored and not at the flag: an unauthenticated transfer opens
exactly while no peer identity is stored, an authenticated one with the sender's. -/
theorem seal_opens_iff (commutes : DiffieHellmanCommutes crates)
    (apart : Derivation.Apart
      (.sealSender (KeyPair.fromBytes crates ephSecret) identity rId.publicKey)
      (.sealReceiver rId (KeyPair.fromBytes crates ephSecret).publicKey recv.peerIdentity))
    (made : Send.seal crates rId.publicKey.bytes payload identity buildHash frameCapacity ephSecret
      sessionId nonce = .ok send)
    (own : recv.session.identity = some rId) (unkeyed : recv.keyed = false)
    (acquired : recv.rx.beacon = some send.tx.beacon) :
    ((send.tx.beacon.senderAuth = false → recv.derivedKey =
        some (sealSender (KeyPair.fromBytes crates ephSecret) identity rId.publicKey)) ∧
      (send.tx.beacon.senderAuth = true → recv.peerIdentity = identity.map KeyPair.publicKey →
        recv.derivedKey =
          some (sealSender (KeyPair.fromBytes crates ephSecret) identity rId.publicKey))) ↔
      identity.isSome ∨ recv.peerIdentity = none := by
  obtain ⟨rId', addressed, tx⟩ := Opening.seal_tx made
  obtain rfl : rId.publicKey = rId' := by
    simpa [toKey] using addressed
  have flag : send.tx.beacon.senderAuth = identity.isSome := by rw [tx, Transmitter.new_senderAuth]; rfl
  have derived := derivedKey_seal own unkeyed acquired (by rw [tx]; rfl)
  rw [show send.tx.beacon.sEphPub = (KeyPair.fromBytes crates ephSecret).publicKey by rw [tx]; rfl]
    at derived
  have agrees : recv.peerIdentity = identity.map KeyPair.publicKey → recv.derivedKey =
      some (sealSender (KeyPair.fromBytes crates ephSecret) identity rId.publicKey) := by
    intro stored
    rw [derived, stored, seal_agrees commutes]
    rfl
  rw [flag]
  constructor
  · rintro ⟨plain, -⟩
    cases identity with
    | some id => exact .inl rfl
    | none =>
        right
        have same := (Option.some_inj.mp (derived.symm.trans (plain rfl))).symm
        have domain := (Derivation.separate (apart same)).1
        by_contra stored
        obtain ⟨peer, stored⟩ := Option.ne_none_iff_exists'.mp stored
        simp [Derivation.domain, stored] at domain
  · intro either
    refine ⟨fun plain => agrees ?_, fun _ => agrees⟩
    rcases either with given | stored
    · simp [plain] at given
    · have absent : identity = none := Option.not_isSome_iff_eq_none.mp (by simp [plain])
      rw [stored, absent]
      rfl

end Sealed

/-- The toy crates with an HKDF that takes a part of each of its arguments. -/
abbrev labelled : Crates :=
  { Crates.sample with
    hkdf := fun ikm salt info => padded (info.reverse.take 8 ++ ikm.take 8 ++ salt.take 8) }

def labelledPair (byte : UInt8) : KeyPair labelled := KeyPair.fromBytes labelled (Octets.replicate 32 byte)

def device : Session labelled :=
  Session.new (some (labelledPair 11)) (Octets.replicate 32 3) (Octets.replicate 8 4)
    (Octets.replicate 16 6)

def sealedTo (identity : Option (KeyPair labelled)) : Except String Send :=
  Send.seal labelled (labelledPair 11).publicKey.bytes samplePlaintext identity [] 100
    (Octets.replicate 32 8) (Octets.replicate 8 4) sampleNonce

def acquiring (send : Send) (stored : Option (Octets 32)) : Receive labelled :=
  { Receive.new device with
    rx := { Receiver.new labelled with beacon := some send.tx.beacon }
    peerIdentity := stored }

theorem seal_opens_known : ∃ send, sealedTo (some (labelledPair 12)) = .ok send ∧
    (acquiring send (some (labelledPair 12).publicKey)).derivedKey =
      some (sealSender (KeyPair.fromBytes labelled (Octets.replicate 32 8)) (some (labelledPair 12))
        (labelledPair 11).publicKey) := by
  obtain ⟨send, made⟩ : ∃ send, sealedTo (some (labelledPair 12)) = .ok send := ⟨_, rfl⟩
  have commutes : DiffieHellmanCommutes labelled := sample_commutes
  have apart : Derivation.Apart
      (.sealSender (KeyPair.fromBytes labelled (Octets.replicate 32 8)) (some (labelledPair 12))
        (labelledPair 11).publicKey)
      (.sealReceiver (labelledPair 11) (KeyPair.fromBytes labelled (Octets.replicate 32 8)).publicKey
        (some (labelledPair 12).publicKey)) := fun _ => by decide
  have flag : send.tx.beacon.senderAuth = true := by
    obtain ⟨rId, -, tx⟩ := Opening.seal_tx made
    rw [tx, Transmitter.new_senderAuth]
    rfl
  have own : (acquiring send (some (labelledPair 12).publicKey)).session.identity =
      some (labelledPair 11) := rfl
  have opens := (seal_opens_iff commutes apart made own rfl rfl).mpr (.inl rfl)
  exact ⟨send, made, opens.2 flag rfl⟩

def mistakenKey : SessionKey :=
  sealReceiver (labelledPair 11) (KeyPair.fromBytes labelled (Octets.replicate 32 8)).publicKey
    (some (labelledPair 12).publicKey)

set_option maxRecDepth 100000 in
/-- A receiver that has stored the sender's identity does not open what the sender did not
authenticate. -/
theorem seal_locked : ∃ send trace final, sealedTo none = .ok send ∧
    send.tx.beacon.senderAuth = false ∧ Machine.Run Receive.step (Receive.new device) trace final ∧
    trace.map Prod.fst = [.setPeerIdentity (labelledPair 12).publicKey.bytes,
      .ingest send.tx.beaconBytes] ∧
    final.rx.beacon = some send.tx.beacon ∧ final.rx.key = some mistakenKey ∧
    mistakenKey ≠ sealSender (KeyPair.fromBytes labelled (Octets.replicate 32 8)) none
      (labelledPair 11).publicKey := by
  have computed : (sealedTo none).toOption.bind (fun send =>
      (Machine.execute Receive.step (Receive.new device) [.setPeerIdentity
        (labelledPair 12).publicKey.bytes, .ingest send.tx.beaconBytes]).map fun result =>
          (send.tx.beacon.senderAuth, decide (result.2.rx.beacon = some send.tx.beacon),
            result.2.rx.key)) =
      some (false, true, some mistakenKey) := by decide +kernel
  obtain ⟨send, made, computed⟩ := Option.bind_eq_some_iff.mp computed
  obtain ⟨⟨answers, final⟩, executed, same⟩ := Option.map_eq_some_iff.mp computed
  obtain ⟨flag, same⟩ := Prod.mk.inj same
  obtain ⟨known, key⟩ := Prod.mk.inj same
  obtain ⟨run, sized⟩ := Machine.execute_run executed
  refine ⟨send, _, final, ?_, flag, run, List.map_fst_zip (Nat.le_of_eq sized), ?_, key, by decide⟩
  · cases shape : sealedTo none with
    | error msg => simp [shape, Except.toOption] at made
    | ok other =>
        rw [shape] at made
        rw [Option.some_inj.mp made]
  · exact of_decide_eq_true known

end Rabaska.Wasm
