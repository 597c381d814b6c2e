import Rabaska.PipelineCore

/-! The boundary the shell calls: the executable model of `wasm.rs`. A thrown `JsError` is its text,
random values are arguments, and `none` is a panic. -/

namespace Rabaska.Wasm

open Call Wire Crypto Pipeline

variable {crates : Crates}

def badKey : String := "public keys must be 32 bytes"

def toKey (bytes : Bytes) : Except String (Octets 32) :=
  if sized : bytes.length = 32 then .ok ⟨bytes, sized⟩ else .error badKey

def cfg (mode : Mode) (sessionId : Octets 8) (sEphPub : Octets 32) (buildHash : Bytes)
    (frameCapacity : Nat) (senderAuth : Bool) : TransmitConfig where
  mode := mode
  sessionId := sessionId
  sEphPub := sEphPub
  codec := CodecParams.default
  buildHash := ⟨(buildHash ++ List.replicate 8 0).take 8, by simp⟩
  frameCapacity := frameCapacity
  senderAuth := senderAuth

/-! The receiver's half of a session. -/

structure Session (crates : Crates) where
  eph : KeyPair crates
  sessionId : Octets 8
  identity : Option (KeyPair crates)
  rNonce : Octets 16

namespace Session

def new (identity : Option (KeyPair crates)) (ephSecret : Octets 32) (sessionId : Octets 8)
    (rNonce : Octets 16) : Session crates where
  eph := KeyPair.fromBytes crates ephSecret
  sessionId := sessionId
  identity := identity
  rNonce := rNonce

variable (session : Session crates)

def request : PairReq :=
  let (flags, hint) := match session.identity with
    | some id => (Flags.hasIdHint, idHint crates id.publicKey)
    | none => (0, Octets.replicate 4 0)
  { flags
    sessionId := session.sessionId
    rEphPub := session.eph.publicKey
    idHint := hint
    rCommit := commit crates session.sessionId session.eph.publicKey session.rNonce }

def pairReq : Bytes := session.request.encode crates

def reveal : Bytes :=
  Reveal.encode crates { sid4 := sid4 session.sessionId, rNonce := session.rNonce }

def sas (sEphPub : Bytes) : Except String String := do
  let s ← toKey sEphPub
  .ok (Crypto.sas crates session.sessionId session.eph.publicKey s session.rNonce)

end Session

/-! Receiving. -/

inductive Kind where
  | ignored
  | beacon
  | progress
  | done
  | error (msg : String)
  deriving DecidableEq, Repr

def Kind.text : Kind → String
  | .ignored => "ignored"
  | .beacon => "beacon"
  | .progress => "progress"
  | .done => "done"
  | .error msg => s!"error: {msg}"

structure IngestResult where
  kind : Kind
  received : Nat
  needed : Nat
  payload : Option Bytes
  sas : Option String
  deriving DecidableEq, Repr

def errResult (msg : String) : IngestResult :=
  { kind := .error msg, received := 0, needed := 0, payload := none, sas := none }

structure Receive (crates : Crates) where
  rx : Receiver crates
  session : Session crates
  peerIdentity : Option (Octets 32)
  keyed : Bool

namespace Receive

def new (session : Session crates) : Receive crates where
  rx := Receiver.new crates
  session := session
  peerIdentity := none
  keyed := false

variable (recv : Receive crates)

def setPeerIdentity (pubkey : Bytes) : Except String Unit × Receive crates :=
  match toKey pubkey with
  | .ok key => (.ok (), { recv with peerIdentity := some key })
  | .error msg => (.error msg, recv)

/-- With the session prefix already read from its hexadecimal form. -/
def restore (session : Octets 4) (packets : List Bytes) : Receive crates :=
  { recv with rx := recv.rx.restore session packets }

/-- In SEAL mode the receiver's long-term identity does the key agreement. -/
def agreementKey (b : Beacon) : Except String (KeyPair crates) :=
  match b.mode with
  | .seal =>
      match recv.session.identity with
      | some id => .ok id
      | none => .error "SEAL beacon needs a device identity, which this session has none of"
  | _ => .ok recv.session.eph

def deriveAndSet : Except String (Option String) × Receive crates :=
  if recv.keyed then (.ok none, recv)
  else
    match recv.rx.beacon with
    | none => (.error "beacon vanished", recv)
    | some b =>
        match recv.agreementKey b with
        | .error msg => (.error msg, recv)
        | .ok own =>
            match deriveForMode b.mode .receiver own recv.session.identity
                { ephPub := b.sEphPub, idPub := recv.peerIdentity } b.sessionId with
            | .error e => (.error e.display, recv)
            | .ok key =>
                let sas := match b.mode with
                  | .pair => some (Crypto.sas crates b.sessionId recv.session.eph.publicKey b.sEphPub
                      recv.session.rNonce)
                  | _ => none
                (.ok sas, { recv with rx := recv.rx.setKey key, keyed := true })

def answer (result : Except Error Ingest) : IngestResult × Receive crates :=
  match result with
  | .ok .beaconAcquired =>
      match recv.deriveAndSet with
      | (.error msg, next) => (errResult msg, next)
      | (.ok sas, next) =>
          ({ kind := .beacon, received := next.rx.received, needed := next.rx.needed,
             payload := none, sas }, next)
  | .ok (.progress received needed) =>
      ({ kind := .progress, received, needed, payload := none, sas := none }, recv)
  | .ok (.done plaintext) =>
      ({ kind := .done, received := recv.rx.received, needed := recv.rx.needed,
         payload := some plaintext, sas := none }, recv)
  | .ok .ignored =>
      ({ kind := .ignored, received := 0, needed := 0, payload := none, sas := none }, recv)
  | .error e => (errResult e.display, recv)

def ingest (frame : Bytes) : Option (IngestResult × Receive crates) := do
  let (result, rx) ← recv.rx.ingest frame
  some (answer { recv with rx } result)

def completeFrame (plaintext : Bytes) (ok : Bool) : Option Bytes :=
  recv.rx.completeFrame plaintext (if ok then .ok else .hashMismatch)

def sessionReveal : Bytes := recv.session.reveal

/-! The calls that change a receiver. -/

inductive Op where
  | ingest (frame : Bytes)
  | setPeerIdentity (pubkey : Bytes)
  | restore (session : Octets 4) (packets : List Bytes)
  deriving DecidableEq, Repr

def step (recv : Receive crates) : Op → Option (Option IngestResult × Receive crates)
  | .ingest frame => (recv.ingest frame).map fun (result, next) => (some result, next)
  | .setPeerIdentity pubkey => some (none, (recv.setPeerIdentity pubkey).2)
  | .restore session packets => some (none, recv.restore session packets)

end Receive

/-! Sending. -/

structure PendingSas where
  sessionId : Octets 8
  rEphPub : Octets 32
  sEphPub : Octets 32
  rCommit : Octets 16
  deriving DecidableEq

structure Send where
  tx : Transmitter
  sas : Option String
  pending : Option PendingSas

structure FrameOut where
  robust : Bool
  bytes : Bytes
  deriving DecidableEq, Repr

namespace Send

def peerKey : Option Bytes → Except String (Option (Octets 32))
  | some bytes => (toKey bytes).map some
  | none => .ok none

def replyMode (identity : Option (KeyPair crates)) (peerId : Option (Octets 32)) : Mode :=
  match identity, peerId with
  | some _, some _ => .session
  | _, _ => .pair

/-- The payload of a PAIR session is held back, and what the reveal is checked against is kept. -/
def start (mode : Mode) (req : PairReq) (eph : KeyPair crates) (tx : Transmitter) : Send :=
  match mode with
  | .pair =>
      { tx := tx.hold
        sas := none
        pending := some
          { sessionId := req.sessionId, rEphPub := req.rEphPub, sEphPub := eph.publicKey,
            rCommit := req.rCommit } }
  | _ => { tx, sas := none, pending := none }

variable (crates) in
def reply (pairReq payload : Bytes) (identity : Option (KeyPair crates)) (peerIdentity : Option Bytes)
    (buildHash : Bytes) (frameCapacity : Nat) (ephSecret : Octets 32) (nonce : Octets 24) :
    Option (Except String Send) :=
  match PairReq.decode crates pairReq with
  | .error .panic => none
  | .error (.err e) => some (.error e.display)
  | .ok req =>
      let eph := KeyPair.fromBytes crates ephSecret
      match peerKey peerIdentity with
      | .error msg => some (.error msg)
      | .ok peerId =>
          let mode := replyMode identity peerId
          match deriveForMode mode .sender eph identity { ephPub := req.rEphPub, idPub := peerId }
              req.sessionId with
          | .error e => some (.error e.display)
          | .ok key =>
              some (.ok (start mode req eph (Transmitter.new crates key nonce
                (cfg mode req.sessionId eph.publicKey buildHash frameCapacity identity.isSome) payload)))

variable (crates) in
def «seal» (receiverPublicKey payload : Bytes) (identity : Option (KeyPair crates)) (buildHash : Bytes)
    (frameCapacity : Nat) (ephSecret : Octets 32) (sessionId : Octets 8) (nonce : Octets 24) :
    Except String Send := do
  let rId ← toKey receiverPublicKey
  let eph := KeyPair.fromBytes crates ephSecret
  let key := sealSender eph identity rId
  .ok { tx := Transmitter.new crates key nonce
          (cfg .seal sessionId eph.publicKey buildHash frameCapacity identity.isSome) payload
        sas := none
        pending := none }

variable (crates) in
def «open» (payload buildHash : Bytes) (frameCapacity : Nat) (ephSecret : Octets 32)
    (sessionId : Octets 8) (nonce : Octets 24) : Send :=
  let eph := KeyPair.fromBytes crates ephSecret
  let key := deriveOpen crates sessionId eph.publicKey
  { tx := Transmitter.new crates key nonce
      (cfg .open sessionId eph.publicKey buildHash frameCapacity false) payload
    sas := none
    pending := none }

variable (crates) (send : Send)

def nextFrame (capacity : Nat) : FrameOut × Send :=
  match send.tx.nextFrameAt crates capacity with
  | (.beacon b, tx) => ({ robust := true, bytes := b }, { send with tx })
  | (.symbol b, tx) => ({ robust := false, bytes := b }, { send with tx })

def commitmentMismatch : String :=
  "commitment mismatch: the nonce was not the one committed to. Abort."

def acceptReveal (frame : Bytes) : Option (Except String String × Send) :=
  match send.pending with
  | none => some (.error "this session does not use a SAS", send)
  | some p =>
      match Reveal.decode crates frame with
      | .error .panic => none
      | .error (.err e) => some (.error e.display, send)
      | .ok rv =>
          if rv.sid4 ≠ sid4 p.sessionId then some (.error "reveal belongs to another session", send)
          else if !verifyCommit crates p.sessionId p.rEphPub rv.rNonce p.rCommit then
            some (.error commitmentMismatch, send)
          else
            let sas := Crypto.sas crates p.sessionId p.rEphPub p.sEphPub rv.rNonce
            some (.ok sas, { send with sas := some sas })

def release : Except String Unit × Send :=
  if send.pending.isSome ∧ send.sas.isNone then
    (.error "cannot release before the SAS is confirmed", send)
  else (.ok (), { send with tx := send.tx.release })

def verifyComplete (frame : Bytes) : Option (Except String Bool) :=
  match Complete.decode crates frame with
  | .error .panic => none
  | .error (.err e) => some (.error e.display)
  | .ok c => some (.ok (c.status = .ok ∧ c.hash8 = send.tx.plaintextHash))

/-! The calls a sender takes. -/

inductive Op where
  | nextFrame (capacity : Nat)
  | acceptReveal (frame : Bytes)
  | release
  deriving DecidableEq, Repr

inductive Answer where
  | frame (out : FrameOut)
  | digits (result : Except String String)
  | released (result : Except String Unit)

def step (send : Send) : Op → Option (Answer × Send)
  | .nextFrame capacity => let (out, next) := send.nextFrame crates capacity; some (.frame out, next)
  | .acceptReveal frame => (send.acceptReveal crates frame).map fun (result, next) =>
      (.digits result, next)
  | .release => let (result, next) := send.release; some (.released result, next)

end Send

/-! A small session to run the model on. -/

def sampleSession : Session Crates.sample :=
  Session.new none (Octets.replicate 32 3) (Octets.replicate 8 4) (Octets.replicate 16 6)

def sampleReply : Option (Except String Send) :=
  Send.reply Crates.sample sampleSession.pairReq samplePlaintext none none [] 100
    (Octets.replicate 32 8) sampleNonce

end Rabaska.Wasm
