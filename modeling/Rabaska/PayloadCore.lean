import Rabaska.Library.Octets
import Rabaska.Library.Trim

/-! The payload envelope: the executable model of `payload.rs`. -/

namespace Rabaska

structure Payload where
  body : Bytes
  name : Option (List Char)
  mime : Option (List Char)
  deriving DecidableEq

namespace Payload

open Trim

/-- `char::is_control`: the Unicode category Cc. -/
def isControl (c : Char) : Bool := c.toNat < 0x20 || (0x7f ≤ c.toNat && c.toNat ≤ 0x9f)

/-- `char::is_whitespace`: the Unicode property White_Space. -/
def isWhitespace (c : Char) : Bool :=
  (0x09 ≤ c.toNat && c.toNat ≤ 0x0d) || c.toNat = 0x20 || c.toNat = 0x85 || c.toNat = 0xa0 ||
    c.toNat = 0x1680 || (0x2000 ≤ c.toNat && c.toNat ≤ 0x200a) || c.toNat = 0x2028 ||
    c.toNat = 0x2029 || c.toNat = 0x202f || c.toNat = 0x205f || c.toNat = 0x3000

def isDot (c : Char) : Bool := c == '.'

def isSeparator (c : Char) : Bool := c == '/' || c == '\\'

def trim (text : List Char) : List Char := trimMatches isWhitespace text

def splitOnce (c : Char) (text : List Char) : Option (List Char × List Char) :=
  if c ∈ text then some (text.takeWhile (· != c), (text.dropWhile (· != c)).tail) else none

def rsplitOnce (c : Char) (text : List Char) : Option (List Char × List Char) :=
  if c ∈ text then some ((text.rdropWhile (· != c)).dropLast, text.rtakeWhile (· != c)) else none

def magic : Bytes := [0x52, 0x42, 0x4B, 0x50]
def version : UInt8 := 1
def fixed : Nat := 7

def maxName : Nat := 96
def maxMime : Nat := 64

/-- `trim().trim_matches('.').trim()`. -/
def bare (text : List Char) : List Char := trim (trimMatches isDot (trim text))

def cleaned (raw : List Char) : List Char :=
  (raw.rtakeWhile fun c => !isSeparator c).filter fun c => !isControl c

def stemAndExt (trimmed : List Char) : List Char × Option (List Char) :=
  match rsplitOnce '.' trimmed with
  | some (s, e) => if e ≠ [] ∧ e.length ≤ 16 then (s, some e) else (trimmed, none)
  | none => (trimmed, none)

def cut (trimmed : List Char) : List Char :=
  match stemAndExt trimmed with
  | (stem, some e) => stem.take (maxName - (e.length + 1)) ++ '.' :: e
  | (stem, none) => stem.take maxName

def safeName (raw : List Char) : Option (List Char) :=
  let trimmed := bare (cleaned raw)
  if trimmed = [] then none
  else if trimmed.length ≤ maxName then some trimmed
  else
    let out := bare (cut trimmed)
    if out = [] then none else some out

def isTokenChar (c : Char) : Bool :=
  c.isAlphanum || ['!', '#', '$', '&', '^', '_', '.', '+', '-'].contains c

def tokenOk (s : List Char) : Bool := s ≠ [] && s.all isTokenChar

def safePrefix : List (List Char) := ["image/".toList, "audio/".toList, "video/".toList]
def safeExact : List (List Char) := ["text/plain".toList, "application/pdf".toList]

def safeMime (raw : List Char) : Option (List Char) :=
  let base := (trim (raw.takeWhile (· != ';'))).map Char.toLower
  if base = [] ∨ maxMime < (Utf8.encode base).length then none
  else do
    let (ty, sub) ← splitOnce '/' base
    if !tokenOk ty || !tokenOk sub then none
    else if base = "image/svg+xml".toList then none
    else if safePrefix.any (fun front => front.isPrefixOf base) || safeExact.contains base then
      some base
    else none

/-- Attach a name and a type to a body. The lengths are written as `len() as u8`. -/
def wrap (body : Bytes) (name mime : List Char) : Bytes :=
  let n := Utf8.encode ((safeName name).getD [])
  let m := Utf8.encode ((safeMime mime).getD [])
  body ++ n ++ m ++ [UInt8.ofNat n.length, UInt8.ofNat m.length, version] ++ magic

def fields (raw : Bytes) : Option (Bytes × Bytes × Bytes) :=
  if short : raw.length < fixed then none
  else if raw.drop (raw.length - 4) ≠ magic ∨
      raw.get ⟨raw.length - 5, by simp only [fixed] at short; omega⟩ ≠ version then none
  else
    let nameLen := (raw.get ⟨raw.length - fixed, by simp only [fixed] at short ⊢; omega⟩).toNat
    let mimeLen := (raw.get ⟨raw.length - fixed + 1, by simp only [fixed] at short ⊢; omega⟩).toNat
    let trailer := fixed + nameLen + mimeLen
    if trailer > raw.length then none
    else
      let split := raw.length - trailer
      some (raw.take split, (raw.take (split + nameLen)).drop split,
        (raw.take (split + nameLen + mimeLen)).drop (split + nameLen))

/-- Split a received payload into body and metadata; what is not a trailer is all body. -/
def unwrap (raw : Bytes) : Payload :=
  match fields raw with
  | none => { body := raw, name := none, mime := none }
  | some (body, name, mime) =>
      { body
        name := Utf8.decode name >>= safeName
        mime := Utf8.decode mime >>= safeMime }

end Payload

end Rabaska
