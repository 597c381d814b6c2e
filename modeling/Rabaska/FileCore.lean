import Rabaska.PayloadCore
import Rabaska.ShellCore

/-! The file that goes in on one device and the file that comes out on the other: the executable model
of `stageSend` and of what `finish` puts on the page in `app.js`. -/

namespace Rabaska

open Pipeline Wire

variable {crates : Crates}

def Wasm.Receive.mode (recv : Wasm.Receive crates) : Option Mode := recv.rx.beacon.map Beacon.mode

namespace Shell

/-- A file of the browser, or a pasted text. What has no name or no known type has the empty one. -/
structure File where
  body : Bytes
  name : List Char
  mime : List Char

/-- What there is to save. -/
structure Download where
  body : Bytes
  name : List Char
  mime : List Char
  openWarning : Bool
  deriving DecidableEq, Repr

/-- `||` on texts: nothing and the empty text count as false. -/
def either (text : Option (List Char)) (other : List Char) : List Char :=
  match text with
  | none => other
  | some text => if text = [] then other else text

namespace Receiving

variable (shell : Receiving crates)

/-- How it is sent is to be chosen anew. -/
def stageSend (file : File) : Receiving crates :=
  { shell with staged := some (Payload.wrap file.body file.name file.mime), encrypted := false }

/-- What `finish` offers, after it has painted the confirmation. -/
def download (payload : Bytes) : Download :=
  let p := Payload.unwrap payload
  { body := p.body
    name := either p.name "rabaska-payload.bin".toList
    mime := either p.mime "application/octet-stream".toList
    openWarning := shell.recv.mode = some .open }

end Receiving

end Shell

end Rabaska
