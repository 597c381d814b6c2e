import Rabaska.WasmCore

/-! The receiving half of the shell: the executable model of `beReceiver` in `app.js`, less what only
changes hints, sounds and the sighting view. -/

namespace Rabaska.Shell

open Pipeline Wasm

variable {crates : Crates}

def includes (text part : String) : Bool :=
  text.toList.tails.any part.toList.isPrefixOf

/-- What the frame loop reads and writes. A call that traps ends all calls after it, so `recv` is
what the last call that returned has left. -/
structure Receiving (crates : Crates) where
  recv : Receive crates
  trapped : Bool
  stop : Bool
  cameraOn : Bool
  staged : Option Bytes
  -- `sendChoice === 'encrypted'`.
  encrypted : Bool
  sasShown : Bool
  sas : Option String
  display : Bytes

def beReceiver (session : Session crates) (saved : Option (Octets 4 × List Bytes))
    (cameraOn : Bool) : Receiving crates where
  recv := match saved with
    | some (savedSession, packets) =>
        if packets ≠ [] then (Receive.new session).restore savedSession packets
        else Receive.new session
    | none => Receive.new session
  trapped := false
  stop := false
  cameraOn := cameraOn
  staged := none
  encrypted := false
  sasShown := false
  sas := none
  display := session.pairReq

namespace Receiving

variable (shell : Receiving crates)

def showSas (sas : String) : Receiving crates :=
  { shell with sasShown := true, sas := some sas, display := shell.recv.sessionReveal }

def finish (payload : Bytes) : Receiving crates :=
  match shell.recv.completeFrame payload true with
  | some complete => { shell with display := complete }
  | none => shell

/-- An empty string counts as no digits. -/
def heed (r : IngestResult) : Receiving crates :=
  match r.kind with
  | .beacon =>
      match r.sas with
      | some sas => if sas ≠ "" ∧ shell.sasShown = false then shell.showSas sas else shell
      | none => shell
  | .done =>
      match r.payload with
      | some payload => shell.finish payload
      | none => shell
  | .error _ => if includes r.kind.text "authentication" then { shell with stop := true } else shell
  | _ => shell

/-- One turn of the frame loop, with what `decode_qr` found. A request in front of a staged payload
hands the device to the sender. -/
def onFrame (found : Option Bytes) : Receiving crates :=
  if shell.stop || !shell.cameraOn then shell
  else
    match found with
    | none => shell
    | some frame =>
        if shell.staged.isSome ∧ shell.encrypted ∧ frame[3]? = some 0x01 then
          { shell with stop := true, encrypted := false }
        else if shell.trapped then shell
        else
          match shell.recv.ingest frame with
          | none => { shell with trapped := true }
          | some (r, recv) => heed { shell with recv } r

/-- The rest of the app sets what the loop reads, at any time and to anything. -/
inductive Event where
  | frame (found : Option Bytes)
  | assign (stop cameraOn : Bool) (staged : Option Bytes) (encrypted : Bool)

def step : Event → Unit × Receiving crates
  | .frame found => ((), shell.onFrame found)
  | .assign stop cameraOn staged encrypted => ((), { shell with stop, cameraOn, staged, encrypted })

end Receiving

end Rabaska.Shell
