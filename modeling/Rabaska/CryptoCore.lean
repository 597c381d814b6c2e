import Rabaska.WireCore

/-! Key agreement, AEAD and the human-facing values: the executable model of `crypto.rs`, and the
associated data of a beacon. Random values are arguments. -/

namespace Rabaska

open Wire

namespace Crypto

def label (text : String) : Bytes := Utf8.encode text.toList

def infoPair : Bytes := label "rabaska/v2/pair"
def infoSession : Bytes := label "rabaska/v2/session"
def infoSeal : Bytes := label "rabaska/v2/seal"
def infoSealAuth : Bytes := label "rabaska/v2/seal-auth"
def infoOpen : Bytes := label "rabaska/v2/open"
def infoSas : Bytes := label "rabaska/v2/sas"
def infoCommit : Bytes := label "rabaska/v2/commit"
def infoIdhint : Bytes := label "rabaska/v2/idhint"
def infoComplete : Bytes := label "rabaska/v2/complete"
def infoAad : Bytes := label "rabaska/v2/aad"

/-- An X25519 key pair, which only ever holds the public key of its own secret. -/
structure KeyPair (crates : Crates) where
  secret : Octets 32
  publicKey : Octets 32
  derived : publicKey = crates.publicKey secret

abbrev SessionKey := Octets 32

variable {crates : Crates}

def KeyPair.fromBytes (crates : Crates) (b : Octets 32) : KeyPair crates :=
  { secret := b, publicKey := crates.publicKey b, derived := rfl }

def KeyPair.dh (own : KeyPair crates) (peer : Octets 32) : Octets 32 :=
  crates.diffieHellman own.secret peer

inductive Role where
  | sender
  | receiver
  deriving DecidableEq, Repr

def derivePair (role : Role) (own : KeyPair crates) (peerEphPub : Octets 32)
    (sessionId : Octets 8) : SessionKey :=
  let shared := own.dh peerEphPub
  let (rEph, sEph) := match role with
    | .sender => (peerEphPub, own.publicKey)
    | .receiver => (own.publicKey, peerEphPub)
  crates.hkdf shared.bytes (sessionId.bytes ++ rEph.bytes ++ sEph.bytes) infoPair

def deriveSession (role : Role) (ownEph ownId : KeyPair crates) (peerEphPub peerIdPub : Octets 32)
    (sessionId : Octets 8) : SessionKey :=
  let (dh1, dh2) := match role with
    | .sender => (ownEph.dh peerIdPub, ownId.dh peerEphPub)
    | .receiver => (ownId.dh peerEphPub, ownEph.dh peerIdPub)
  let dh3 := ownEph.dh peerEphPub
  let (rEph, sEph, rId, sId) := match role with
    | .sender => (peerEphPub, ownEph.publicKey, peerIdPub, ownId.publicKey)
    | .receiver => (ownEph.publicKey, peerEphPub, ownId.publicKey, peerIdPub)
  crates.hkdf (dh1.bytes ++ dh2.bytes ++ dh3.bytes)
    (sessionId.bytes ++ rEph.bytes ++ sEph.bytes ++ rId.bytes ++ sId.bytes) infoSession

def sealSender (sEph : KeyPair crates) (sId : Option (KeyPair crates)) (rIdPub : Octets 32) :
    SessionKey :=
  let salt := sEph.publicKey.bytes ++ rIdPub.bytes
  let ikm := (sEph.dh rIdPub).bytes
  match sId with
  | some id => crates.hkdf (ikm ++ (id.dh rIdPub).bytes) salt infoSealAuth
  | none => crates.hkdf ikm salt infoSeal

def sealReceiver (rId : KeyPair crates) (sEphPub : Octets 32) (sIdPub : Option (Octets 32)) :
    SessionKey :=
  let salt := sEphPub.bytes ++ rId.publicKey.bytes
  let ikm := (rId.dh sEphPub).bytes
  match sIdPub with
  | some p => crates.hkdf (ikm ++ (rId.dh p).bytes) salt infoSealAuth
  | none => crates.hkdf ikm salt infoSeal

def deriveOpen (crates : Crates) (sessionId : Octets 8) (sEphPub : Octets 32) : SessionKey :=
  crates.hkdf (label "rabaska/v2/open/no-confidentiality") (sessionId.bytes ++ sEphPub.bytes) infoOpen

structure Peer where
  ephPub : Octets 32
  idPub : Option (Octets 32)

/-- In SEAL mode the receiver's `ownEph` is its long-term identity key. -/
def deriveForMode (mode : Mode) (role : Role) (ownEph : KeyPair crates)
    (ownId : Option (KeyPair crates)) (peer : Peer) (sessionId : Octets 8) :
    Except Error SessionKey :=
  match mode with
  | .pair => .ok (derivePair role ownEph peer.ephPub sessionId)
  | .session =>
      match ownId, peer.idPub with
      | some id, some peerId => .ok (deriveSession role ownEph id peer.ephPub peerId sessionId)
      | _, _ => .error .missingIdentity
  | .seal =>
      match role with
      | .sender =>
          match peer.idPub with
          | some rId => .ok (sealSender ownEph ownId rId)
          | none => .error .missingIdentity
      | .receiver => .ok (sealReceiver ownEph peer.ephPub peer.idPub)
  | .open =>
      let sEph := match role with
        | .sender => ownEph.publicKey
        | .receiver => peer.ephPub
      .ok (deriveOpen crates sessionId sEph)

def commit (crates : Crates) (sessionId : Octets 8) (rEphPub : Octets 32) (rNonce : Octets 16) :
    Octets 16 :=
  (crates.sha256 (infoCommit ++ sessionId.bytes ++ rEphPub.bytes ++ rNonce.bytes)).take 16

/-- The differences of all byte pairs are collected before they are compared with zero. -/
def verifyCommit (crates : Crates) (sessionId : Octets 8) (rEphPub : Octets 32)
    (rNonce claimed : Octets 16) : Bool :=
  let expect := commit crates sessionId rEphPub rNonce
  (List.zipWith (· ^^^ ·) expect.bytes claimed.bytes).foldl (· ||| ·) 0 == 0

def sasTranscript (sessionId : Octets 8) (rEphPub sEphPub : Octets 32) (rNonce : Octets 16) :
    Bytes :=
  infoSas ++ sessionId.bytes ++ rEphPub.bytes ++ sEphPub.bytes ++ rNonce.bytes

/-- `{n:05}` of the first four bytes of a hash, big-endian, modulo 100000. -/
def sasDigits (d : Octets 32) : String :=
  let n := LittleEndian.decode (d.bytes.take 4).reverse % 100000
  String.ofList ((Nat.toDigits 10 n).leftpad 5 '0')

def sas (crates : Crates) (sessionId : Octets 8) (rEphPub sEphPub : Octets 32)
    (rNonce : Octets 16) : String :=
  sasDigits (crates.sha256 (sasTranscript sessionId rEphPub sEphPub rNonce))

def idHint (crates : Crates) (idPub : Octets 32) : Octets 4 :=
  (crates.sha256 (infoIdhint ++ idPub.bytes)).take 4

def completeHash (crates : Crates) (sessionId : Octets 8) (plaintext : Bytes) : Octets 8 :=
  (crates.sha256 (infoComplete ++ sessionId.bytes ++ plaintext)).take 8

def buildHash (crates : Crates) (bundle : Bytes) : Octets 8 := (crates.sha256 bundle).take 8

def encrypt (crates : Crates) (key : SessionKey) (nonce : Octets 24) (aad plaintext : Bytes) : Bytes :=
  crates.xchachaEncrypt key nonce aad plaintext

def decrypt (crates : Crates) (key : SessionKey) (nonce : Octets 24) (aad ct : Bytes) :
    Except Error Bytes :=
  match crates.xchachaDecrypt key nonce aad ct with
  | some body => .ok body
  | none => .error .authFailed

end Crypto

def Wire.Beacon.aad (beacon : Beacon) : Bytes :=
  Crypto.infoAad ++ [version, beacon.mode.toU8, beacon.flags] ++ beacon.sessionId.bytes ++
    beacon.sEphPub.bytes ++ beacon.nonce.bytes ++ (Octets.ofU32 beacon.plaintextLen).bytes

end Rabaska
