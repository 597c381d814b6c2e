import Rabaska.PipelineCore

/-! The protocol harness: the executable model of `Rng`, `keys_for` and `run` in `main.rs`. Draws and
probabilities are exact numbers, and the seconds that a transfer takes are left out. -/

namespace Rabaska.Harness

open Call Wire Crypto Pipeline

variable {crates : Crates}

structure Rung where
  name : String
  capacity : Nat
  weight : Nat
  deriving DecidableEq, Repr

def rungQr : Rung := { name := "QR v25", capacity := 997, weight := 1 }
def rungC4 : Rung := { name := "4-colour", capacity := 7500, weight := 2 }
def rungC8 : Rung := { name := "8-colour", capacity := 11000, weight := 4 }

structure Lighting where
  pQr : ℚ
  pC4 : ℚ
  pC8 : ℚ

/-- The generator keeps 53 of the 64 bits, which an `f64` holds exactly. -/
def nextF64 (rng : UInt64) : ℚ × UInt64 :=
  let next := rng * 6364136223846793005 + 1442695040888963407
  ((next >>> 11).toNat / 2 ^ 53, next)

structure Peers (crates : Crates) where
  sEph : KeyPair crates
  sId : KeyPair crates
  rEph : KeyPair crates
  rId : KeyPair crates
  sid : Octets 8

def keysFor (mode : Mode) (p : Peers crates) : SessionKey × SessionKey :=
  match mode with
  | .pair =>
      (derivePair .sender p.sEph p.rEph.publicKey p.sid,
        derivePair .receiver p.rEph p.sEph.publicKey p.sid)
  | .session =>
      (deriveSession .sender p.sEph p.sId p.rEph.publicKey p.rId.publicKey p.sid,
        deriveSession .receiver p.rEph p.rId p.sEph.publicKey p.sId.publicKey p.sid)
  | .seal =>
      (sealSender p.sEph (some p.sId) p.rId.publicKey,
        sealReceiver p.rId p.sEph.publicKey (some p.sId.publicKey))
  | .open => (deriveOpen crates p.sid p.sEph.publicKey, deriveOpen crates p.sid p.sEph.publicKey)

def cfg (mode : Mode) (p : Peers crates) : TransmitConfig where
  mode := mode
  sessionId := p.sid
  sEphPub := p.sEph.publicKey
  codec := { CodecParams.default with palette := 8 }
  buildHash := buildHash crates (label "rabaska-harness")
  frameCapacity := rungC4.capacity
  senderAuth := mode = .seal

def expand (ladder : List Rung) : List Rung := ladder.flatMap fun r => List.replicate r.weight r

/-- The side of a turn that knows nothing of the receiver. -/
structure Display where
  tx : Transmitter
  rng : UInt64

def Lighting.chance (light : Lighting) (rung : Rung) : Frame → ℚ
  | .beacon _ => light.pQr
  | .symbol _ =>
      if rung.name = "QR v25" then light.pQr
      else if rung.name = "4-colour" then light.pC4
      else light.pC8

/-- The frame that a turn shows, when the camera reads it. -/
def Display.show (crates : Crates) (light : Lighting) (rung : Rung) (display : Display) :
    Option Frame × Display :=
  let (frame, tx) := display.tx.nextFrameAt crates rung.capacity
  let (draw, rng) := nextF64 display.rng
  (if light.chance rung frame < draw then none else some frame, { tx, rng })

structure State (crates : Crates) where
  display : Display
  rx : Receiver crates
  key : Option SessionKey

/-- What the receiver has delivered, checked against the payload and the confirmation. -/
def check (payload : Bytes) (tx : Transmitter) (rx : Receiver crates) (i : Nat) (plaintext : Bytes) :
    Option (Except String Nat) :=
  if plaintext ≠ payload then some (.error "reassembled payload differs")
  else
    match rx.completeFrame plaintext .ok with
    | none => none
    | some cf =>
        match Complete.decode crates cf with
        | .error .panic => none
        | .error (.err e) => some (.error e.display)
        | .ok parsed =>
            if parsed.hash8 ≠ tx.plaintextHash then some (.error "completion hash mismatch")
            else some (.ok (i + 1))

/-- One turn of the loop: it returns, or goes on with a state. `none` is a panic. -/
def turn (light : Lighting) (payload : Bytes) (rung : Rung) (i : Nat) (state : State crates) :
    Option (Except String Nat ⊕ State crates) :=
  let (frame, display) := state.display.show crates light rung
  match frame with
  | none => some (.inr { state with display })
  | some frame =>
      match state.rx.ingest frame.bytes with
      | none => none
      | some (.ok .beaconAcquired, rx) =>
          state.key.map fun key => .inr { display, rx := rx.setKey key, key := none }
      | some (.ok (.done plaintext), rx) => (check payload display.tx rx i plaintext).map .inl
      | some (.ok _, rx) => some (.inr { state with display, rx })
      | some (.error e, _) =>
          some (.inl (.error ("frame " ++ toString i ++ ": " ++ e.display)))

/-- The turns that are left, from turn `i` on. An empty schedule has no rung for any turn. -/
def loop (light : Lighting) (payload : Bytes) (schedule : List Rung) :
    Nat → Nat → State crates → Option (Except String Nat)
  | 0, _, _ => some (.error "did not converge")
  | left + 1, i, state => do
      let rung ← schedule[i % schedule.length]?
      match ← turn light payload rung i state with
      | .inl result => some result
      | .inr state => loop light payload schedule left (i + 1) state

def turns : Nat := 400000

def opening (mode : Mode) (payload : Bytes) (seed : UInt64) (p : Peers crates) (nonce : Octets 24) :
    Display where
  tx := Transmitter.new crates (keysFor mode p).1 nonce (cfg mode p) payload
  rng := seed

/-- One transfer over a ladder: how many frames were displayed until it was delivered. -/
def run (mode : Mode) (payload : Bytes) (ladder : List Rung) (light : Lighting) (seed : UInt64)
    (p : Peers crates) (nonce : Octets 24) : Option (Except String Nat) :=
  loop light payload (expand ladder) turns 0
    { display := opening mode payload seed p nonce
      rx := Receiver.new crates
      key := some (keysFor mode p).2 }

end Rabaska.Harness
