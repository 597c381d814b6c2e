import Rabaska.ShellCore

/-! Which codes the shell acts on: the executable model of how `onFrame`, `beSender` and `scanOneFrame`
in `app.js` go on from a code, less the frames that a sender shows meanwhile. -/

namespace Rabaska.Shell

open Pipeline Wasm

variable {crates : Crates}

inductive Rejection where
  | noIdentity
  | noPayload
  | trapped
  | refused (message : String)
  deriving DecidableEq, Repr

/-- How the last turn of the frame loop ended. Only an armed loop is given another frame. -/
inductive Loop where
  | armed
  | off
  | delivered
  | stopped
  | flipping (frame : Bytes)
  deriving DecidableEq, Repr

namespace Receiving

variable (shell : Receiving crates)

/-- A call that throws, `finish` included, is caught and the loop armed again. -/
def turn (found : Option Bytes) (finishes : Bool) : Loop :=
  if shell.stop || !shell.cameraOn then .off
  else
    match found with
    | none => .armed
    | some frame =>
        if shell.staged.isSome ∧ shell.encrypted ∧ frame[3]? = some 0x01 then .flipping frame
        else if shell.trapped then .armed
        else
          match shell.recv.ingest frame with
          | none => .armed
          | some (r, _) =>
              match r.kind with
              | .done => if finishes then .delivered else .armed
              | .error _ => if includes r.kind.text "authentication" then .stopped else .armed
              | _ => .armed

inductive Scan where
  | gone
  | waiting
  | caught (frame : Bytes)
  deriving DecidableEq, Repr

def scanOneFrame (wantType : UInt8) (found : Option Bytes) : Scan :=
  if shell.stop || !shell.cameraOn then .gone
  else
    match found with
    | some f => if f[3]? = some wantType then .caught f else .waiting
    | none => .waiting

end Receiving

structure Making (crates : Crates) where
  identity : Option (Crypto.KeyPair crates)
  buildHash : Bytes
  frameCapacity : Nat
  ephSecret : Octets 32
  sessionId : Octets 8
  nonce : Octets 24

/-- No request means nothing was scanned. There is no payload when it was taken back in the meantime. -/
def Making.beSender (making : Making crates) (payload pairReqBytes : Option Bytes) :
    Except Rejection Send :=
  match making.identity, payload with
  | none, _ => .error .noIdentity
  | some _, none => .error .noPayload
  | some identity, some payload =>
      match pairReqBytes with
      | none => .ok (Send.open crates payload making.buildHash making.frameCapacity making.ephSecret
          making.sessionId making.nonce)
      | some frame =>
          match Send.reply crates frame payload (some identity) none making.buildHash
              making.frameCapacity making.ephSecret making.nonce with
          | none => .error .trapped
          | some (.error message) => .error (.refused message)
          | some (.ok send) => .ok send

inductive Ending where
  | gone
  | aborted (reveal : Bytes) (message : Option String)
  | threw (message : String)
  | unconfirmed
  | checked (complete : Bytes) (good : Bool)
  deriving DecidableEq, Repr

/-- How far a call of `beSender` has come. It waits for the identity and for the wake lock before its
scans; with a request the timer has made it, which takes the payload back at the end. -/
inductive Stage where
  | loading (payload pairReqBytes : Option Bytes)
  | rejected (rejection : Rejection)
  | waking (send : Send) (scanned : Bool)
  | revealing (send : Send)
  | comparing (send : Send)
  | completing (send : Send)
  | ended (ending : Ending)

inductive Timer where
  | scanned (frame : Bytes)
  | unasked (payload : Bytes)
  deriving DecidableEq, Repr

/-- `armed` counts the callbacks of the frame loop that wait for a frame of the preview. Neither a flip
nor `send-open` takes one away, and the scans put their streams on the same preview. -/
structure Device (crates : Crates) where
  shell : Receiving crates
  armed : Nat
  timers : List Timer
  stages : List Stage

namespace Device

variable (device : Device crates)

def boot (shell : Receiving crates) : Device crates where
  shell := shell
  armed := 0
  timers := []
  stages := []

def schedule : Device crates :=
  if device.shell.stop || !device.shell.cameraOn then device else { device with armed := device.armed + 1 }

/-- One waiting callback is given a frame, with what `decode_qr` found in it; and the frame type that the
code is taken for. -/
def callback (found : Option Bytes) (finishes : Bool) : Option UInt8 × Device crates :=
  if device.armed = 0 then (none, device)
  else
    let shell := device.shell.onFrame found
    match device.shell.turn found finishes with
    | .armed => (none, { device with shell })
    | .flipping frame =>
        (some 0x01, { device with
          shell
          armed := device.armed - 1
          timers := device.timers ++ [.scanned frame] })
    | _ => (none, { device with shell, armed := device.armed - 1 })

def sendOpen : Device crates :=
  match device.shell.staged with
  | none => device
  | some payload =>
      { device with
        shell := { device.shell with stop := true, staged := none, encrypted := false }
        timers := device.timers ++ [.unasked payload] }

def fire (i : Nat) : Device crates :=
  match device.timers[i]? with
  | none => device
  | some timer =>
      { device with
        shell := { device.shell with stop := false }
        timers := device.timers.eraseIdx i
        stages := device.stages ++ [match timer with
          | .scanned frame => .loading device.shell.staged (some frame)
          | .unasked payload => .loading (some payload) none] }

def put (i : Nat) (stage : Stage) : Device crates := { device with stages := device.stages.set i stage }

def made (i : Nat) (making : Making crates) : Device crates :=
  match device.stages[i]? with
  | some (.loading payload pairReqBytes) =>
      device.put i (match making.beSender payload pairReqBytes with
        | .error rejection => .rejected rejection
        | .ok send => .waking send pairReqBytes.isSome)
  | _ => device

def awaitComplete (i : Nat) (send : Send) : Device crates :=
  device.put i (if device.shell.cameraOn then .completing send else .ended .unconfirmed)

def woken (i : Nat) : Device crates :=
  match device.stages[i]? with
  | some (.waking send scanned) =>
      let device := if scanned then { device with shell := { device.shell with staged := none } } else device
      if send.tx.held then
        device.put i (if device.shell.cameraOn then .revealing send else .ended .gone)
      else device.awaitComplete i send
  | _ => device

def halt (i : Nat) (ending : Ending) : Device crates :=
  { device with shell := { device.shell with stop := true } }.put i (.ended ending)

def takeReveal (i : Nat) (send : Send) (reveal : Bytes) : Device crates :=
  match send.acceptReveal crates reveal with
  | none => device.halt i (.aborted reveal none)
  | some (.error message, _) => device.halt i (.aborted reveal (some message))
  | some (.ok _, send) => device.put i (.comparing send)

def takeComplete (i : Nat) (send : Send) (complete : Bytes) : Device crates :=
  device.halt i (.checked complete (match send.verifyComplete crates complete with
    | some (.ok good) => good
    | _ => false))

/-- One turn of a scan, with what `decode_qr` found, and the frame type that the code is taken for. -/
def look (i : Nat) (found : Option Bytes) : Option UInt8 × Device crates :=
  match device.stages[i]? with
  | some (.revealing send) =>
      match device.shell.scanOneFrame 0x05 found with
      | .gone => (none, device.put i (.ended .gone))
      | .waiting => (none, device)
      | .caught reveal => (some 0x05, device.takeReveal i send reveal)
  | some (.completing send) =>
      match device.shell.scanOneFrame 0x04 found with
      | .gone => (none, device.put i (.ended .gone))
      | .waiting => (none, device)
      | .caught complete => (some 0x04, device.takeComplete i send complete)
  | _ => (none, device)

def confirm (i : Nat) : Device crates :=
  match device.stages[i]? with
  | some (.comparing send) =>
      match send.release with
      | (.error message, _) => device.put i (.ended (.threw message))
      | (.ok (), send) => device.awaitComplete i send
  | _ => device

def block (i : Nat) (message : String) : Device crates :=
  match device.stages[i]? with
  | some (.revealing _) => device.put i (.ended (.threw message))
  | some (.completing _) => device.put i (.ended (.threw message))
  | _ => device

/-- The rest of the app sets what the loop reads, at any time and to anything; and the camera may be
started, and the loop armed, at any time. -/
inductive Event (crates : Crates) where
  | callback (found : Option Bytes) (finishes : Bool)
  | look (i : Nat) (found : Option Bytes)
  | assign (stop cameraOn : Bool) (staged : Option Bytes) (encrypted : Bool)
  | schedule
  | sendOpen
  | fire (i : Nat)
  | made (i : Nat) (making : Making crates)
  | woken (i : Nat)
  | confirm (i : Nat)
  | block (i : Nat) (message : String)

def step : Event crates → Option UInt8 × Device crates
  | .callback found finishes => device.callback found finishes
  | .look i found => device.look i found
  | .assign stop cameraOn staged encrypted =>
      (none, { device with shell := { device.shell with stop, cameraOn, staged, encrypted } })
  | .schedule => (none, device.schedule)
  | .sendOpen => (none, device.sendOpen)
  | .fire i => (none, device.fire i)
  | .made i making => (none, device.made i making)
  | .woken i => (none, device.woken i)
  | .confirm i => (none, device.confirm i)
  | .block i message => (none, device.block i message)

end Device

end Rabaska.Shell
