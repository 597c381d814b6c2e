import Mathlib

/-!
A shift register with feedback: bits enter at its low end, and what leaves there comes back as the
polynomial. Whatever the polynomial, the register is linear in what it holds; with a polynomial that
reaches its top bit it never forgets, and a short burst of bits never cancels out.
-/

namespace ShiftRegister

variable {w : Nat} {polynomial : BitVec w}

def shift (polynomial register : BitVec w) : BitVec w :=
  if register.getLsbD 0 then (register >>> 1) ^^^ polynomial else register >>> 1

def single (bit : Bool) : BitVec w := BitVec.setWidth w (BitVec.ofBool bit)

def feed (polynomial : BitVec w) (register : BitVec w) (bits : List Bool) : BitVec w :=
  bits.foldl (fun register bit => shift polynomial (register ^^^ single bit)) register

def pack : List Bool → BitVec w
  | [] => 0
  | bit :: bits => single bit ^^^ (pack bits <<< 1)

theorem feed_append (register : BitVec w) (front back : List Bool) :
    feed polynomial register (front ++ back) = feed polynomial (feed polynomial register front) back :=
  List.foldl_append

theorem shift_xor (first second : BitVec w) :
    shift polynomial (first ^^^ second) = shift polynomial first ^^^ shift polynomial second := by
  apply BitVec.eq_of_getLsbD_eq
  intro i bound
  simp only [shift, BitVec.getLsbD_xor, BitVec.ushiftRight_xor_distrib]
  cases first.getLsbD 0 <;> cases second.getLsbD 0 <;>
    cases feedback : polynomial.getLsbD i <;>
      simp [BitVec.getLsbD_xor, feedback]

theorem shift_shiftLeft {register : BitVec w} (clear : register.getLsbD (w - 1) = false) :
    shift polynomial (register <<< 1) = register := by
  have low : (register <<< 1).getLsbD 0 = false := by simp
  rw [shift, low]
  apply BitVec.eq_of_getLsbD_eq
  intro i bound
  simp only [Bool.false_eq_true, if_false, BitVec.getLsbD_ushiftRight, BitVec.getLsbD_shiftLeft]
  by_cases top : i = w - 1
  · rw [top, clear]
    simp
    omega
  · simp [show 1 + i < w by omega]

theorem getLsbD_pack (bits : List Bool) {i : Nat} (bound : i < w) :
    (pack bits : BitVec w).getLsbD i = bits[i]?.getD false := by
  induction bits generalizing i with
  | nil => simp [pack]
  | cons bit bits ih =>
      rw [pack, BitVec.getLsbD_xor, BitVec.getLsbD_shiftLeft, single, BitVec.getLsbD_setWidth,
        BitVec.getLsbD_ofBool]
      cases i with
      | zero => simp [bound]
      | succ i => simp [bound, ih (Nat.lt_of_succ_lt bound)]

/-- Up to as many bits as the register holds may as well be there from the start. -/
theorem feed_eq (register : BitVec w) {bits : List Bool} (short : bits.length ≤ w) :
    feed polynomial register bits = (shift polynomial)^[bits.length] (register ^^^ pack bits) := by
  induction bits generalizing register with
  | nil => simp [feed, pack]
  | cons bit bits ih =>
      have clear : (pack bits : BitVec w).getLsbD (w - 1) = false := by
        rw [List.length_cons] at short
        rw [getLsbD_pack bits (by omega), List.getElem?_eq_none (by omega)]
        rfl
      have entered : shift polynomial (register ^^^ pack (bit :: bits)) =
          shift polynomial (register ^^^ single bit) ^^^ pack bits := by
        rw [pack, ← BitVec.xor_assoc, shift_xor, shift_shiftLeft clear]
      rw [List.length_cons, Function.iterate_succ_apply, entered]
      exact ih _ (Nat.le_of_succ_le short)

theorem pack_inj {first second : List Bool} (sized : first.length = second.length)
    (short : first.length ≤ w) (same : (pack first : BitVec w) = pack second) : first = second := by
  refine List.ext_getElem sized fun i inFirst inSecond => ?_
  have read := congrArg (fun register : BitVec w => register.getLsbD i) same
  rw [getLsbD_pack first (by omega), getLsbD_pack second (by omega)] at read
  simpa [inFirst, inSecond] using read

/-! A polynomial that reaches the top bit. -/

section Top

variable (top : polynomial.getLsbD (w - 1) = true)

include top

theorem shift_eq_zero {register : BitVec w} (empty : shift polynomial register = 0) : register = 0 := by
  by_cases low : register.getLsbD 0 = true
  · -- The polynomial has set the top bit, which the shift itself leaves clear.
    rw [shift, if_pos low] at empty
    have last := congrArg (fun register : BitVec w => register.getLsbD (w - 1)) empty
    have gone : register.getLsbD (1 + (w - 1)) = false := BitVec.getLsbD_of_ge _ _ (by omega)
    simp only [BitVec.getLsbD_xor, BitVec.getLsbD_ushiftRight, gone, top] at last
    simp at last
  · rw [shift, if_neg low] at empty
    apply BitVec.eq_of_getLsbD_eq
    intro i bound
    cases i with
    | zero => simpa using low
    | succ i =>
        have next := congrArg (fun register : BitVec w => register.getLsbD i) empty
        simpa [BitVec.getLsbD_ushiftRight, Nat.add_comm 1 i] using next

theorem shift_injective : Function.Injective (shift polynomial) := by
  intro first second same
  have cancelled : shift polynomial (first ^^^ second) = 0 := by
    rw [shift_xor, same, BitVec.xor_self]
    rfl
  exact BitVec.xor_eq_zero_iff.mp (shift_eq_zero top cancelled)

theorem feed_injective (bits : List Bool) :
    Function.Injective fun register => feed polynomial register bits := by
  intro first second same
  induction bits generalizing first second with
  | nil => exact same
  | cons bit bits ih =>
      have entered := shift_injective top (ih same)
      exact (BitVec.xor_left_inj _).mp entered

/-- Two inputs that leave the same register behind do not differ in a short burst alone. -/
theorem burst_eq {register : BitVec w} {front burst other back : List Bool}
    (sized : burst.length = other.length) (short : burst.length ≤ w)
    (same : feed polynomial register (front ++ burst ++ back) =
      feed polynomial register (front ++ other ++ back)) : burst = other := by
  simp only [feed_append] at same
  have met := feed_injective top back same
  generalize feed polynomial register front = reached at met
  rw [feed_eq reached short, feed_eq reached (sized.symm.trans_le short), ← sized] at met
  have packed := (shift_injective top).iterate _ met
  exact pack_inj sized short ((BitVec.xor_right_inj _).mp packed)

end Top

end ShiftRegister
