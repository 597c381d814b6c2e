import Rabaska.LadderCore
import Rabaska.RouterCore

/-! Two devices face to face: the executable model of `beSender` in `app.js` once it has a sender, with
its display loop and its two scans, in front of the receiving shell. A screen is the bytes of the code
on it. -/

namespace Rabaska.Shell

open Pipeline Wasm

variable {crates : Crates}

/-- What the core says to the code that `decode_qr` found, when the frame loop hands it one. -/
def Receiving.heard (shell : Receiving crates) (found : Option Bytes) : Option IngestResult :=
  if shell.stop || !shell.cameraOn then none
  else
    match found with
    | none => none
    | some frame =>
        if shell.staged.isSome ∧ shell.encrypted ∧ frame[3]? = some 0x01 then none
        else if shell.trapped then none
        else (shell.recv.ingest frame).map Prod.fst

inductive Phase where
  | revealing
  | comparing
  | completing
  | ended (ending : Ending)
  deriving DecidableEq, Repr

/-- A sending device. The display loop and the scans work on one `send`; the loop runs until it finds
the device stopped. -/
structure Sending (crates : Crates) where
  shell : Receiving crates
  display : Display
  ticking : Bool
  phase : Phase

namespace Sending

section Screen

variable (fits : Qr.Fits) (sending : Sending crates)

def tick : Sending crates :=
  if !sending.ticking then sending
  else if sending.shell.stop then { sending with ticking := false }
  else
    let (shown, display) := sending.display.tick crates fits
    { sending with shell := { sending.shell with display := shown.frame.bytes }, display }

end Screen

variable (sending : Sending crates)

def awaitComplete : Sending crates :=
  { sending with phase := if sending.shell.cameraOn then .completing else .ended .unconfirmed }

def scans : Sending crates :=
  if sending.display.send.tx.held then
    { sending with phase := if sending.shell.cameraOn then .revealing else .ended .gone }
  else sending.awaitComplete

/-- The display loop starts first and unconditionally. -/
def start (fits : Qr.Fits) (shell : Receiving crates) (send : Send) : Sending crates :=
  scans (tick fits { shell, display := beSender send, ticking := true, phase := .revealing })

def halt (ending : Ending) : Sending crates :=
  { sending with shell := { sending.shell with stop := true }, phase := .ended ending }

def takeReveal (reveal : Bytes) : Sending crates :=
  match sending.display.send.acceptReveal crates reveal with
  | none => sending.halt (.aborted reveal none)
  | some (.error message, _) => sending.halt (.aborted reveal (some message))
  | some (.ok digits, send) =>
      { sending with
        shell := { sending.shell with sas := some digits }
        display := { sending.display with send }
        phase := .comparing }

def takeComplete (complete : Bytes) : Sending crates :=
  sending.halt (.checked complete (match sending.display.send.verifyComplete crates complete with
    | some (.ok good) => good
    | _ => false))

def look (found : Option Bytes) : Sending crates :=
  match sending.phase with
  | .revealing =>
      match sending.shell.scanOneFrame 0x05 found with
      | .gone => { sending with phase := .ended .gone }
      | .waiting => sending
      | .caught reveal => sending.takeReveal reveal
  | .completing =>
      match sending.shell.scanOneFrame 0x04 found with
      | .gone => { sending with phase := .ended .gone }
      | .waiting => sending
      | .caught complete => sending.takeComplete complete
  | _ => sending

def confirm : Sending crates :=
  match sending.phase with
  | .comparing =>
      match sending.display.send.release with
      | (.error message, _) => { sending with phase := .ended (.threw message) }
      | (.ok (), send) => awaitComplete { sending with display := { sending.display with send } }
  | _ => sending

end Sending

structure Pairing (crates : Crates) where
  receiver : Receiving crates
  sender : Sending crates

namespace Pairing

/-- A camera reads the other screen or, when it is not sharp, nothing. Either camera can be switched at
any time. -/
inductive Event where
  | tick
  | receiverLooks (sharp : Bool)
  | senderLooks (sharp : Bool)
  | confirm
  | receiverCamera (on : Bool)
  | senderCamera (on : Bool)
  deriving DecidableEq, Repr

def glimpse (screen : Bytes) (sharp : Bool) : Option Bytes := if sharp then some screen else none

variable (fits : Qr.Fits) (pairing : Pairing crates)

def step : Event → Option IngestResult × Pairing crates
  | .tick => (none, { pairing with sender := pairing.sender.tick fits })
  | .receiverLooks sharp =>
      let found := glimpse pairing.sender.shell.display sharp
      (pairing.receiver.heard found, { pairing with receiver := pairing.receiver.onFrame found })
  | .senderLooks sharp =>
      (none, { pairing with sender := pairing.sender.look (glimpse pairing.receiver.display sharp) })
  | .confirm => (none, { pairing with sender := pairing.sender.confirm })
  | .receiverCamera on =>
      (none, { pairing with receiver := { pairing.receiver with cameraOn := on } })
  | .senderCamera on =>
      (none, { pairing with
        sender := { pairing.sender with shell := { pairing.sender.shell with cameraOn := on } } })

/-- Where somebody stands between the two, either camera is shown anything at all, and the digits are
confirmed by somebody who has compared them. -/
inductive Contact where
  | tick
  | receiverLooks (found : Option Bytes)
  | senderLooks (found : Option Bytes)
  | compare
  | receiverCamera (on : Bool)
  | senderCamera (on : Bool)
  deriving DecidableEq, Repr

def contact : Contact → Option IngestResult × Pairing crates
  | .tick => (none, { pairing with sender := pairing.sender.tick fits })
  | .receiverLooks found =>
      (pairing.receiver.heard found, { pairing with receiver := pairing.receiver.onFrame found })
  | .senderLooks found => (none, { pairing with sender := pairing.sender.look found })
  | .compare =>
      (none, { pairing with sender := if pairing.sender.shell.sas = pairing.receiver.sas then
        pairing.sender.confirm else pairing.sender })
  | .receiverCamera on =>
      (none, { pairing with receiver := { pairing.receiver with cameraOn := on } })
  | .senderCamera on =>
      (none, { pairing with
        sender := { pairing.sender with shell := { pairing.sender.shell with cameraOn := on } } })

/-- A receiver that has just shown its code, and the device that has read it and found a sender for it. -/
def facing (session : Session crates) (shell : Receiving crates) (send : Send) : Pairing crates where
  receiver := beReceiver session none true
  sender := Sending.start fits shell send

end Pairing

end Rabaska.Shell
