import Rabaska.LadderCore

/-! Codes and their sizes: the executable model of `plan_symbol_size` and `encode_luma` in `qr.rs`.
Real numbers are exact, and `none` is a division by zero. -/

namespace Rabaska.Qr

open Call Wire

/-- `&[usize]`: its length is a `usize` itself. -/
structure Slice where
  items : List Nat
  length_lt : items.length < 2 ^ 64

def f64Max : ℚ := (2 ^ 53 - 1) * 2 ^ 971

/-- Division of integers and, for the fraction, of the numbers they become as `f64`. -/
def quotient (left right : Nat) : Option Nat := if right = 0 then none else some (left / right)

def fraction (left right : Nat) : Option ℚ := if right = 0 then none else some (left / right)

structure Tally where
  waste : ℚ
  usable : Bool
  deriving DecidableEq, Repr

/-- The loop over the capacities; a rung that carries no packet ends it. -/
def tally (packet : Nat) : List Nat → Tally → Option Tally
  | [], sum => some sum
  | raw :: rest, sum => do
      let cap := raw - symbolOverhead
      let n ← quotient cap packet
      if n = 0 then some { sum with waste := f64Max }
      else
        let wasted ← fraction (cap - n * packet) cap
        tally packet rest { waste := sum.waste + wasted, usable := true }

structure Plan where
  best : Nat
  bestWaste : ℚ
  deriving DecidableEq, Repr

def consider (capacities : List Nat) (plan : Plan) (s : Nat) : Option Plan := do
  let sum ← tally (s + 4) capacities { waste := 0, usable := false }
  if sum.usable ∧ sum.waste < plan.bestWaste then some { best := s, bestWaste := sum.waste }
  else some plan

def planSymbolSize (capacities : Slice) (min max : Nat) : Option Nat := do
  let plan ← (List.range' min (max + 1 - min)).foldlM (consider capacities.items)
    { best := min, bestWaste := f64Max }
  some plan.best

/-! Rendering. -/

/-- `qrcodegen::QrCode`: the modules on a side, and by column and row which of them are dark. -/
structure QrCode where
  size : Nat
  getModule : Nat → Nat → Bool

structure Rendered where
  luma : Bytes
  width : Nat
  height : Nat
  modules : Nat
  deriving DecidableEq, Repr

/-- A `usize` of a release build, which has 32 bits under wasm32: what does not fit wraps around. -/
def usize (bits n : Nat) : Nat := n % 2 ^ bits

/-- `vec![value; size]`, which panics when it is larger than `isize::MAX`. -/
def filled {α : Type} (bits size : Nat) (value : α) : Outcome Error (List α) :=
  if size < 2 ^ (bits - 1) then .ok (List.replicate size value) else panicked

/-- The two inner loops: one dark module. -/
def darken (bits side scale x0 y0 : Nat) (luma : Bytes) : Outcome Error Bytes :=
  (List.range' y0 (usize bits (y0 + scale) - y0)).foldlM (fun luma y =>
    let row := usize bits (y * side)
    (List.range' x0 (usize bits (x0 + scale) - x0)).foldlM (fun luma x =>
      store luma (usize bits (row + x)) 0) luma) luma

/-- `encodeBinary` is qrcodegen's. -/
def encodeLuma (bits : Nat) (encodeBinary : Bytes → Ecc → Option QrCode) (data : Bytes) (ecc : Ecc)
    (scale quiet : Nat) : Outcome Error Rendered :=
  match encodeBinary data ecc with
  | none => fail (.truncated 0 data.length)
  | some code => do
      let modules := code.size
      let side := usize bits (usize bits (modules + usize bits (2 * quiet)) * scale)
      let luma ← filled bits (usize bits (side * side)) 255
      let luma ← (List.range modules).foldlM (fun luma my =>
        (List.range modules).foldlM (fun luma mx =>
          if !code.getModule mx my then .ok luma
          else
            let x0 := usize bits (usize bits (mx + quiet) * scale)
            let y0 := usize bits (usize bits (my + quiet) * scale)
            darken bits side scale x0 y0 luma) luma) luma
      .ok { luma, width := side, height := side, modules }

def level : UInt8 → Ecc
  | 0 => .low
  | 1 => .medium
  | 2 => .quartile
  | _ => .high

def renderQr (encodeBinary : Bytes → Ecc → Option QrCode) (data : Bytes) (ecc : UInt8) (scale : Nat) :
    Outcome String Rendered :=
  match encodeLuma 32 encodeBinary data (level ecc) scale 4 with
  | .ok rendered => .ok rendered
  | .error (.err error) => fail error.display
  | .error .panic => panicked

end Rabaska.Qr
