import Rabaska.Library.Durable
import Rabaska.PairingCore
import Rabaska.TextCore

/-! A transfer that outlives the page: the executable model of how `beReceiver` and `finish` in `app.js`
read, write and delete the checkpoint. -/

namespace Rabaska

open Call Wire Pipeline

namespace Wasm.Receive

variable {crates : Crates} (recv : Receive crates)

/-- `session_id`, nothing before the beacon. -/
def sessionId : Option (List Char) := recv.rx.beacon.map fun b => hex4 b.sessionId

def checkpoint : List Bytes := recv.rx.seen

end Wasm.Receive

namespace Shell

open Wasm Durable

variable {crates : Crates}

/-- What stands under `CHECKPOINT_KEY`. The packets are arrays of numbers, each of which becomes a
`Uint8Array` again. -/
structure Record where
  session : JsValue
  packets : List Bytes
  deriving DecidableEq

inductive Resumed (crates : Crates) where
  | resumed (recv : Receive crates)
  | discarded
  | trapped

/-- What becomes of a new receiver and the record that was read. An empty session counts as none. -/
def resume (recv : Receive crates) : Option Record → Resumed crates
  | none => .resumed recv
  | some record =>
      if record.session ≠ .string [] ∧ record.packets ≠ [] then
        match recv.restoreJs record.session (record.packets.map .uint8Array) with
        | .ok recv => .resumed recv
        | .error (.err _) => .discarded
        | .error .panic => .trapped
      else .resumed recv

/-- A page that shows the app: `receiving` is `state.role === 'receive'`, and `timer` whether the
checkpoint is written every two seconds. -/
structure Page (crates : Crates) where
  shell : Receiving crates
  receiving : Bool
  timer : Bool

/-- The app on a device: its store of checkpoints and at most one page. -/
structure Installed (crates : Crates) where
  checkpoints : Store (Option Record)
  page : Option (Page crates)

namespace Installed

def fresh (crates : Crates) : Installed crates where
  checkpoints := { stored := none, queue := [] }
  page := none

variable (installed : Installed crates)

/-- A record that is not restored is deleted, and a call that traps leaves a receiver that cannot be
called any more. -/
def launch (session : Session crates) (cameraOn : Bool) : Installed crates :=
  let shell := beReceiver session none cameraOn
  let shown (shell : Receiving crates) : Option (Page crates) :=
    some { shell, receiving := true, timer := true }
  match resume shell.recv installed.checkpoints.stored with
  | .resumed recv => { installed with page := shown { shell with recv } }
  | .discarded => { checkpoints := installed.checkpoints.write none, page := shown shell }
  | .trapped =>
      { checkpoints := installed.checkpoints.write none, page := shown { shell with trapped := true } }

def delivers (r : Option IngestResult) : Bool := r.any fun r => r.kind = .done

/-- One turn of the frame loop. `finish` deletes the checkpoint last, behind calls that may throw. -/
def look (page : Page crates) (found : Option Bytes) (finishes : Bool) : Installed crates :=
  let shell := page.shell.onFrame found
  if delivers (page.shell.heard found) && finishes then
    { checkpoints := installed.checkpoints.write none, page := some { page with shell, timer := false } }
  else { installed with page := some { page with shell } }

/-- One turn of the timer. -/
def saved (page : Page crates) : Installed crates :=
  if !page.timer || !page.receiving || page.shell.trapped then installed
  else
    match page.shell.recv.sessionId with
    | none => installed
    | some session =>
        if page.shell.recv.checkpoint = [] then installed
        else
          let record := { session := .string session, packets := page.shell.recv.checkpoint : Record }
          { installed with checkpoints := installed.checkpoints.write (some record) }

/-- The rest of the app sets what the page reads, at any time and to anything; a crash can come at any
time, and a write is committed or lost in it. -/
inductive Event (crates : Crates) where
  | launch (session : Session crates) (cameraOn : Bool)
  | frame (found : Option Bytes) (finishes : Bool)
  | assign (stop cameraOn : Bool) (staged : Option Bytes) (encrypted receiving : Bool)
  | interval
  | commit
  | crash

def step : Event crates → Option IngestResult × Installed crates
  | .launch session cameraOn =>
      match installed.page with
      | none => (none, installed.launch session cameraOn)
      | some _ => (none, installed)
  | .frame found finishes =>
      match installed.page with
      | none => (none, installed)
      | some page => (page.shell.heard found, installed.look page found finishes)
  | .assign stop cameraOn staged encrypted receiving =>
      match installed.page with
      | none => (none, installed)
      | some page =>
          let shell := { page.shell with stop, cameraOn, staged, encrypted }
          (none, { installed with page := some { page with shell, receiving } })
  | .interval =>
      match installed.page with
      | none => (none, installed)
      | some page => (none, installed.saved page)
  | .commit => (none, { installed with checkpoints := installed.checkpoints.commit })
  | .crash => (none, { checkpoints := installed.checkpoints.crash, page := none })

end Installed

end Shell

end Rabaska
