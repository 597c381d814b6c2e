import Rabaska.WasmCore

/-! The display of the sending device: the executable model of `capacity` in `qr.rs`, and of `LADDER`,
`SCHEDULE` and the ticks of `beSender` in `app.js`. -/

namespace Rabaska

namespace Qr

inductive Ecc where
  | low
  | medium
  | quartile
  | high
  deriving DecidableEq, Repr

/-- Whether qrcodegen finds room for so many bytes in a code of a version and correction level. -/
abbrev Fits := Nat → UInt8 → Ecc → Bool

def search (fits : Nat → Bool) (lo hi : Nat) : Nat :=
  if lo < hi then
    let mid := (lo + hi + 1) / 2
    if fits mid then search fits mid hi else search fits lo (mid - 1)
  else lo
termination_by hi - lo

def capacity (fits : Fits) (version : UInt8) (ecc : Ecc) : Nat :=
  search (fun len => fits len version ecc) 0 3000

def qrCapacity (fits : Fits) (version ecc : UInt8) : Nat :=
  capacity fits version <|
    match ecc with
    | 0 => .low
    | 1 => .medium
    | 2 => .quartile
    | _ => .high

end Qr

namespace Shell

open Wasm

structure Rung where
  version : UInt8
  ecc : UInt8
  weight : Nat
  deriving DecidableEq, Repr

def ladder : List Rung := [
  { version := 40, ecc := 0, weight := 3 },
  { version := 30, ecc := 1, weight := 2 },
  { version := 25, ecc := 1, weight := 1 }]

def schedule : List Rung := ladder.flatMap fun r => List.replicate r.weight r

def rungAt (i : Nat) : Rung := schedule.get ⟨i % schedule.length, Nat.mod_lt _ (by decide)⟩

def beaconEcc : UInt8 := 3

structure Shown where
  rung : Rung
  frame : FrameOut
  ecc : UInt8
  deriving DecidableEq, Repr

/-- The sender on display, and how many ticks have shown something. -/
structure Display where
  send : Send
  i : Nat

def beSender (send : Send) : Display := { send, i := 0 }

namespace Display

variable (crates : Crates) (fits : Qr.Fits) (display : Display)

def tick : Shown × Display :=
  let rung := rungAt display.i
  let (f, send) := display.send.nextFrame crates (Qr.qrCapacity fits rung.version rung.ecc)
  ({ rung, frame := f, ecc := if f.robust then beaconEcc else rung.ecc }, { send, i := display.i + 1 })

def after : Nat → Display
  | 0 => display
  | ticks + 1 => (tick crates fits (after ticks)).2

def shown (ticks : Nat) : Shown := (tick crates fits (display.after crates fits ticks)).1

def released : Display :=
  { display with send := { display.send with tx := display.send.tx.release } }

end Display

end Shell

end Rabaska
