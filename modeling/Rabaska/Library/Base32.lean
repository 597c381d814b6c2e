import Rabaska.Library.Octets

/-!
Numerals with the most significant digit first, and base 32 text as RFC 4648 reads it: the letters
are groups of five bits, and what is left of the last group after the last whole byte is zero.
-/

namespace Radix

def value (base : Nat) (digits : List Nat) : Nat :=
  digits.foldl (fun sum digit => sum * base + digit) 0

def digits (base : Nat) : Nat → Nat → List Nat
  | 0, _ => []
  | width + 1, number => digits base width (number / base) ++ [number % base]

variable {base : Nat}

@[simp] theorem value_snoc (front : List Nat) (digit : Nat) :
    value base (front ++ [digit]) = value base front * base + digit := by
  simp [value]

/-- Writing the number again that digits spell gives the digits back. -/
theorem digits_value {numeral : List Nat} (small : ∀ digit ∈ numeral, digit < base) :
    digits base numeral.length (value base numeral) = numeral := by
  induction numeral using List.reverseRecOn with
  | nil => rfl
  | append_singleton front digit ih =>
      have last : digit < base := small digit (by simp)
      have high : (value base front * base + digit) / base = value base front := by
        rw [Nat.mul_comm, Nat.mul_add_div (Nat.zero_lt_of_lt last), Nat.div_eq_of_lt last,
          Nat.add_zero]
      have low : (value base front * base + digit) % base = digit := by
        rw [Nat.mul_comm, Nat.mul_add_mod, Nat.mod_eq_of_lt last]
      rw [value_snoc, List.length_append, List.length_singleton, digits, high, low,
        ih fun other member => small other (List.mem_append_left _ member)]

end Radix

namespace Base32

open Radix

def alphabet : List Char := "ABCDEFGHIJKLMNOPQRSTUVWXYZ234567".toList

def letter (group : Fin 32) : Char := alphabet.get (group.cast rfl)

def group? (c : Char) : Option Nat := alphabet.findIdx? (· == c)

theorem group?_letter (group : Fin 32) : group? (letter group) = some group.val := by
  revert group
  decide

theorem letter_mem (group : Fin 32) : letter group ∈ alphabet := List.get_mem ..

def decode (text : List Char) : Option Bytes := do
  let groups ← text.mapM group?
  let spare := 5 * groups.length % 8
  if value 32 groups % 2 ^ spare = 0 then
    some ((digits 256 (5 * groups.length / 8) (value 32 groups / 2 ^ spare)).map UInt8.ofNat)
  else none

theorem mapM_letter (groups : List (Fin 32)) :
    (groups.map letter).mapM group? = some (groups.map Fin.val) := by
  induction groups with
  | nil => rfl
  | cons group rest ih => simp [group?_letter, ih]

/-- Letters that spell the number of some bytes, moved up by the spare bits, are read as those
bytes. -/
theorem decode_spelled {groups : List (Fin 32)} {bytes : Bytes} {spare : Nat} (short : spare < 8)
    (width : 5 * groups.length = 8 * bytes.length + spare)
    (spelled : value 32 (groups.map Fin.val) = value 256 (bytes.map UInt8.toNat) * 2 ^ spare) :
    decode (groups.map letter) = some bytes := by
  have rest : 5 * groups.length % 8 = spare := by omega
  have count : 5 * groups.length / 8 = bytes.length := by omega
  have zero : value 32 (groups.map Fin.val) % 2 ^ spare = 0 := by
    rw [spelled, Nat.mul_mod_left]
  have number : value 32 (groups.map Fin.val) / 2 ^ spare = value 256 (bytes.map UInt8.toNat) := by
    rw [spelled, Nat.mul_div_cancel _ (Nat.two_pow_pos spare)]
  have small : ∀ digit ∈ bytes.map UInt8.toNat, digit < 256 := by
    intro digit member
    obtain ⟨byte, -, rfl⟩ := List.mem_map.mp member
    exact byte.toNat_lt
  have written := digits_value small
  rw [List.length_map] at written
  simp only [decode, mapM_letter, Option.bind_eq_bind, Option.bind_some, List.length_map, rest, zero,
    if_true, number, count]
  rw [written, List.map_map, show UInt8.ofNat ∘ UInt8.toNat = id from funext fun _ => by simp,
    List.map_id]

end Base32
