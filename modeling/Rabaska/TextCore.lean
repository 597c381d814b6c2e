import Rabaska.WasmCore

/-! Texts at the boundary: the executable model of `base32_groups`, `hex4`, `decode_sid4` and
`Receive::restore` in `wasm.rs`. A `str` is the list of its characters. -/

namespace Rabaska.Wasm

open Call Wire Crypto

/-! The typed form of a key. -/

def A : List Char := "ABCDEFGHIJKLMNOPQRSTUVWXYZ234567".toList

theorem length_A : A.length = 32 := rfl

theorem low5_lt (bits : UInt32) : (bits &&& 0x1F).toNat < A.length := by
  rw [UInt32.toNat_and, length_A]
  exact Nat.lt_of_le_of_lt Nat.and_le_right (by decide)

theorem byte_high_lt (b : UInt8) : (b >>> 3).toNat < A.length := by
  have bound := b.toNat_lt
  have shifted : (b >>> 3).toNat = b.toNat / 2 ^ 3 := by
    rw [UInt8.toNat_shiftRight, Nat.shiftRight_eq_div_pow]
    rfl
  rw [shifted, length_A]
  omega

theorem byte_low_lt (b : UInt8) : (b &&& 0x1F).toNat < A.length := by
  rw [UInt8.toNat_and, length_A]
  exact Nat.lt_of_le_of_lt Nat.and_le_right (by decide)

def pick (bits : UInt32) : Char := A.get ⟨(bits &&& 0x1F).toNat, low5_lt bits⟩

def checkPair (b : UInt8) : List Char :=
  [A.get ⟨(b >>> 3).toNat, byte_high_lt b⟩, A.get ⟨(b &&& 0x1F).toNat, byte_low_lt b⟩]

structure Typed where
  out : List Char
  count : Nat
  deriving DecidableEq, Repr

def Typed.push (typed : Typed) (c : Char) : Typed where
  out := (if typed.count > 0 ∧ typed.count % 4 = 0 then typed.out ++ ['-'] else typed.out) ++ [c]
  count := typed.count + 1

/-- The inner loop: while five bits are left in the buffer, their letter goes out. -/
def emit (bits : UInt32) : Nat → Typed → Nat × Typed
  | n + 5, typed => emit bits n (typed.push (pick (bits >>> UInt32.ofNat n)))
  | n, typed => (n, typed)

structure Buffer where
  bits : UInt32
  n : Nat
  typed : Typed

def Buffer.take (buffer : Buffer) (b : UInt8) : Buffer :=
  let bits := (buffer.bits <<< 8) ||| b.toUInt32
  let (n, typed) := emit bits (buffer.n + 8) buffer.typed
  { bits, n, typed }

def base32Groups (crates : Crates) (key : Octets 32) : List Char :=
  let buffer := key.bytes.foldl Buffer.take { bits := 0, n := 0, typed := { out := [], count := 0 } }
  let typed :=
    if buffer.n > 0 then buffer.typed.push (pick (buffer.bits <<< UInt32.ofNat (5 - buffer.n)))
    else buffer.typed
  typed.out ++ '-' :: ((idHint crates key).bytes.take 2).flatMap checkPair

/-! A session prefix in hexadecimal. -/

def hex4 (sid : Octets 8) : List Char :=
  (sid.bytes.take 4).flatMap fun b => (lowerHex 2 b.toNat).toList

/-- `char::to_digit(16)`. -/
def toDigit (c : Char) : Option Nat :=
  if '0' ≤ c ∧ c ≤ '9' then some (c.toNat - '0'.toNat)
  else if 'a' ≤ c ∧ c ≤ 'f' then some (c.toNat - 'a'.toNat + 10)
  else if 'A' ≤ c ∧ c ≤ 'F' then some (c.toNat - 'A'.toNat + 10)
  else none

def addDigit (result : Nat) (c : Char) : Option Nat := do
  let digit ← toDigit c
  if result * 16 + digit < 256 then some (result * 16 + digit) else none

/-- `u8::from_str_radix(src, 16)`: a plus sign may stand in front of the digits, a sign alone is no
number, and neither is what does not fit a byte. -/
def fromStrRadix (src : List Char) : Option UInt8 :=
  match src with
  | [] => none
  | ['+'] => none
  | ['-'] => none
  | '+' :: digits => (digits.foldlM addDigit 0).map UInt8.ofNat
  | digits => (digits.foldlM addDigit 0).map UInt8.ofNat

def badSid : String := "session id must be 8 hex characters"

/-- One turn of the loop of `decode_sid4`. -/
def sidByte (hex : List Char) (i : Nat) : Outcome String UInt8 := do
  let digits ← Utf8.slice hex (i * 2) (i * 2 + 2)
  match fromStrRadix digits with
  | some b => .ok b
  | none => fail badSid

def decodeSid4 (hex : List Char) : Outcome String (Octets 4) := do
  ensure ((Utf8.encode hex).length = 8) badSid
  let out ← (List.range 4).mapM (sidByte hex)
  Octets.ofSlice 4 out

/-- What may stand in a record that was read back. -/
inductive JsValue where
  | string (text : List Char)
  | uint8Array (bytes : Bytes)
  | other
  deriving DecidableEq

def JsValue.asString : JsValue → Option (List Char)
  | .string text => some text
  | _ => none

def JsValue.dynInto : JsValue → Option Bytes
  | .uint8Array bytes => some bytes
  | _ => none

/-- `Receive::restore`, with the items of the array it is given. -/
def Receive.restoreJs {crates : Crates} (recv : Receive crates) (sessionHex : JsValue)
    (packets : List JsValue) : Outcome String (Receive crates) :=
  match sessionHex.asString with
  | none => .ok recv
  | some hex => do
      let sid ← decodeSid4 hex
      .ok (recv.restore sid (packets.filterMap JsValue.dynInto))

end Rabaska.Wasm
