import Rabaska.CheckpointCore

/-! The camera and its switch: the executable model of `startCamera`, `stopCamera`, `openCamera`,
`closeCamera`, `schedule`, the switch's handler and the streams of `scanOneFrame` in `app.js`, with the
calls that wait for the browser and less what only changes hints and the sighting view. -/

namespace Rabaska.Shell

open Wasm

variable {crates : Crates}

inductive Wait where
  | device
  | preview (stream : Nat)
  | wakeLock
  deriving DecidableEq, Repr

structure Start where
  wait : Wait
  switched : Bool
  deriving DecidableEq, Repr

/-- How far a call of `scanOneFrame` has come. -/
inductive Sight where
  | device
  | preview (stream : Nat)
  | looking (stream : Nat)
  deriving DecidableEq, Repr

/-- Streams are numbered as the browser hands them out; those in `running` have a live track. `armed`
counts the callbacks that wait for a frame, and `leaving` the timers that flips and `send-open` have
set. -/
structure Camera (crates : Crates) where
  shell : Receiving crates
  receiving : Bool
  stream : Option Nat
  srcObject : Option Nat
  handedOut : Nat
  running : List Nat
  starts : List Start
  scans : List Sight
  armed : Nat
  leaving : Nat
  failed : Bool

namespace Camera

variable (camera : Camera crates)

def asleep : Bool := camera.shell.stop || !camera.shell.cameraOn

def streaming : Bool := camera.stream.any fun s => s ∈ camera.running

def closeCamera (stream : Option Nat) : Camera crates :=
  { camera with running := camera.running.filter fun s => some s ≠ stream }

def schedule : Camera crates :=
  if camera.asleep then camera else { camera with armed := camera.armed + 1 }

def startCamera (switched : Bool) : Camera crates :=
  if camera.streaming || camera.shell.stop || !camera.receiving || !camera.shell.cameraOn then camera
  else { camera with starts := camera.starts ++ [{ wait := .device, switched }] }

def stopCamera : Camera crates := { camera.closeCamera camera.stream with stream := none }

def boot (shell : Receiving crates) : Camera crates :=
  startCamera
    { shell, receiving := true, stream := none, srcObject := none, handedOut := 0, running := []
      starts := [], scans := [], armed := 0, leaving := 0, failed := false } false

def resolve (i : Nat) : Camera crates :=
  match camera.starts[i]? with
  | none => camera
  | some start =>
      match start.wait with
      | .device =>
          { camera with
            srcObject := some camera.handedOut
            handedOut := camera.handedOut + 1
            running := camera.running ++ [camera.handedOut]
            starts := camera.starts.set i { start with wait := .preview camera.handedOut } }
      | .preview s =>
          { camera with
            stream := some s
            starts := camera.starts.set i { start with wait := .wakeLock } }
      | .wakeLock => schedule { camera with starts := camera.starts.eraseIdx i }

/-- What the caller makes of a call that has thrown: the switch is put back, and `main` ends. -/
def refused (start : Start) : Camera crates :=
  if start.switched then { camera with shell := { camera.shell with cameraOn := false } }
  else { camera with failed := true }

def deny (i : Nat) : Camera crates :=
  match camera.starts[i]? with
  | some start =>
      match start.wait with
      | .device => refused { camera with starts := camera.starts.eraseIdx i } start
      | _ => camera
  | none => camera

def balk (i : Nat) : Camera crates :=
  match camera.starts[i]? with
  | some start =>
      match start.wait with
      | .preview _ => refused { camera with starts := camera.starts.eraseIdx i } start
      | _ => camera
  | none => camera

/-- One callback is given a frame. A frame without dimensions counts as one without a code. `finish`
closes what the preview shows before anything in it may throw. -/
def callback (found : Option Bytes) (finishes : Bool) : Option Loop × Camera crates :=
  if camera.armed = 0 then (none, camera)
  else
    let loop := camera.shell.turn found finishes
    let fired := { camera with shell := camera.shell.onFrame found, armed := camera.armed - 1 }
    (some loop, match loop with
      | .armed =>
          let next := if Installed.delivers (camera.shell.heard found) then
            fired.closeCamera fired.srcObject else fired
          { next with armed := camera.armed }
      | .delivered => fired.closeCamera fired.srcObject
      | .stopped => fired.closeCamera fired.stream
      | .flipping _ => { fired.closeCamera fired.stream with leaving := camera.leaving + 1 }
      | _ => fired)

def switch : Camera crates :=
  let camera := { camera with shell := { camera.shell with cameraOn := !camera.shell.cameraOn } }
  if camera.shell.cameraOn then camera.startCamera true else camera.stopCamera

def sendOpen : Camera crates :=
  if camera.shell.staged.isNone then camera
  else
    { camera.stopCamera with
      shell := { camera.shell with stop := true, staged := none, encrypted := false }
      leaving := camera.leaving + 1 }

def leave : Camera crates :=
  if camera.leaving = 0 then camera
  else { camera with shell := { camera.shell with stop := false }, leaving := camera.leaving - 1 }

/-- `beSender` scans for one frame, and has taken over the role before. -/
def scan : Camera crates :=
  if camera.receiving || !camera.shell.cameraOn then camera
  else { camera with scans := camera.scans ++ [.device] }

def scanOpens (i : Nat) : Camera crates :=
  match camera.scans[i]? with
  | some .device =>
      { camera with
        srcObject := some camera.handedOut
        handedOut := camera.handedOut + 1
        running := camera.running ++ [camera.handedOut]
        scans := camera.scans.set i (.preview camera.handedOut) }
  | some (.preview s) => { camera with scans := camera.scans.set i (.looking s) }
  | _ => camera

/-- A scan that ends closes its stream. One that is refused the device or the preview throws before it
has a stream to close. -/
def scanEnds (i : Nat) : Camera crates :=
  let ended := { camera with scans := camera.scans.eraseIdx i }
  match camera.scans[i]? with
  | some (.looking s) => ended.closeCamera (some s)
  | _ => ended

/-- What the person does, what the browser does, and that `beSender` has taken over the role. A track can
also end by itself. -/
inductive Event where
  | switch
  | resolve (i : Nat)
  | deny (i : Nat)
  | balk (i : Nat)
  | frame (found : Option Bytes) (finishes : Bool)
  | unplug (s : Nat)
  | stage (staged : Option Bytes) (encrypted : Bool)
  | sendOpen
  | leave
  | send
  | scan
  | scanOpens (i : Nat)
  | scanEnds (i : Nat)
  deriving DecidableEq, Repr

def step : Event → Option Loop × Camera crates
  | .switch => (none, camera.switch)
  | .resolve i => (none, camera.resolve i)
  | .deny i => (none, camera.deny i)
  | .balk i => (none, camera.balk i)
  | .frame found finishes => camera.callback found finishes
  | .unplug s => (none, camera.closeCamera (some s))
  | .stage staged encrypted =>
      (none, { camera with shell := { camera.shell with staged, encrypted } })
  | .sendOpen => (none, camera.sendOpen)
  | .leave => (none, camera.leave)
  | .send => (none, { camera with receiving := false })
  | .scan => (none, camera.scan)
  | .scanOpens i => (none, camera.scanOpens i)
  | .scanEnds i => (none, camera.scanEnds i)

end Camera

end Rabaska.Shell
