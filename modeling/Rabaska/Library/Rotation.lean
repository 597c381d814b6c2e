import Mathlib

/-! A cursor that goes round a ring, in strides that repeat. -/

namespace Rotation

def moved (stride : Nat → Nat) : Nat → Nat
  | 0 => 0
  | turn + 1 => moved stride turn + stride turn

variable {stride : Nat → Nat} {period : Nat}

theorem moved_add_period (periodic : ∀ turn, stride (turn + period) = stride turn) (turn : Nat) :
    moved stride (turn + period) = moved stride turn + moved stride period := by
  induction turn with
  | zero => simp [moved]
  | succ turn ih =>
      calc moved stride (turn + 1 + period)
          = moved stride (turn + period) + stride (turn + period) := by
            rw [Nat.add_right_comm]
            rfl
        _ = moved stride (turn + 1) + moved stride period := by
            rw [ih, periodic, moved]
            omega

theorem moved_add_periods (periodic : ∀ turn, stride (turn + period) = stride turn) (turn rounds : Nat) :
    moved stride (turn + period * rounds) = moved stride turn + moved stride period * rounds := by
  induction rounds with
  | zero => simp
  | succ rounds ih =>
      calc moved stride (turn + period * (rounds + 1))
          = moved stride (turn + period * rounds + period) := by rw [Nat.mul_succ, Nat.add_assoc]
        _ = moved stride (turn + period * rounds) + moved stride period :=
            moved_add_period periodic _
        _ = moved stride turn + moved stride period * (rounds + 1) := by
            rw [ih, Nat.mul_succ, Nat.add_assoc]

theorem reaches_multiple (distance : Nat) {size : Nat} (positive : 0 < size) (times : Nat) :
    ∃ round < size, distance * round % size = distance.gcd size * times % size := by
  have one : ∃ round, distance * round % size = distance.gcd size % size := by
    by_cases proper : distance.gcd size < size
    · obtain ⟨round, -, reached⟩ := Nat.exists_mul_mod_eq_gcd proper
      exact ⟨round, reached.trans (Nat.mod_eq_of_lt proper).symm⟩
    · have whole : distance.gcd size = size :=
        Nat.le_antisymm (Nat.gcd_le_right distance positive) (Nat.le_of_not_lt proper)
      exact ⟨0, by simp [whole]⟩
  obtain ⟨round, reached⟩ := one
  refine ⟨round * times % size, Nat.mod_lt _ positive, ?_⟩
  calc distance * (round * times % size) % size
      = distance * round % size * (times % size) % size := by
        rw [Nat.mul_mod, Nat.mod_mod, ← Nat.mul_mod, ← Nat.mul_assoc, Nat.mul_mod]
    _ = distance.gcd size * times % size := by rw [reached, ← Nat.mul_mod]

/-- A window that is as wide as what its stride and the ring share comes past every place. -/
theorem passes {distance width size : Nat} (positive : 0 < size) (wide : distance.gcd size ≤ width)
    (start place : Nat) : ∃ round < size, ∃ offset < width,
      (start + distance * round + offset) % size = place % size := by
  have shared : 0 < distance.gcd size := Nat.gcd_pos_of_pos_right distance positive
  -- A place that is behind the start and is the same one on the ring.
  obtain ⟨ahead, behind⟩ : ∃ ahead, start + ahead = place + size * start :=
    ⟨place + size * start - start, by
      have wrapped : start ≤ size * start := Nat.le_mul_of_pos_left start positive
      omega⟩
  obtain ⟨round, bound, reached⟩ := reaches_multiple distance positive (ahead / distance.gcd size)
  refine ⟨round, bound, ahead % distance.gcd size, (Nat.mod_lt _ shared).trans_le wide, ?_⟩
  calc (start + distance * round + ahead % distance.gcd size) % size
      = (start + distance.gcd size * (ahead / distance.gcd size) + ahead % distance.gcd size) % size := by
        have moved : distance * round ≡ distance.gcd size * (ahead / distance.gcd size) [MOD size] := reached
        exact (moved.add_left start).add_right _
    _ = (place + size * start) % size := by
        rw [Nat.add_assoc, Nat.div_add_mod, behind]
    _ = place % size := Nat.add_mul_mod_self_left place size start

/-- The items of the ring in order, round and round from its first one. -/
def Rounds {α : Type} (ring sent : List α) : Prop :=
  ∀ position < sent.length, sent[position]? = ring[position % ring.length]?

theorem Rounds.append {α : Type} {ring sent more : List α} (rounds : Rounds ring sent)
    (onward : ∀ offset < more.length,
      more[offset]? = ring[(sent.length + offset) % ring.length]?) : Rounds ring (sent ++ more) := by
  intro position bound
  rw [List.length_append] at bound
  by_cases before : position < sent.length
  · rw [List.getElem?_append_left before]
    exact rounds position before
  · obtain ⟨offset, rfl⟩ := Nat.exists_eq_add_of_le (Nat.le_of_not_lt before)
    rw [List.getElem?_append_right (Nat.le_add_right _ _), Nat.add_sub_cancel_left]
    exact onward offset (by omega)

theorem Rounds.opens {α : Type} {ring sent : List α} (rounds : Rounds ring sent)
    (whole : ring.length ≤ sent.length) : ring <+: sent := by
  rw [List.prefix_iff_getElem?]
  intro position bound
  rw [rounds position (bound.trans_le whole), Nat.mod_eq_of_lt bound, List.getElem?_eq_getElem bound]

/-- Round a ring, every place lies ahead of every other. -/
theorem place_ahead {size place : Nat} (base : Nat) (inside : place < size) :
    ∃ offset < size, (base + offset) % size = place := by
  have positive : 0 < size := by omega
  have behind := Nat.mod_lt base positive
  refine ⟨(place + (size - base % size)) % size, Nat.mod_lt _ positive, ?_⟩
  have split := Nat.div_add_mod base size
  calc (base + (place + (size - base % size)) % size) % size
      = (base + (place + (size - base % size))) % size := Nat.add_mod_mod _ _ _
    _ = (place + size * (base / size + 1)) % size := by
        congr 1
        rw [Nat.mul_add, Nat.mul_one]
        omega
    _ = place := by rw [Nat.add_mul_mod_self_left, Nat.mod_eq_of_lt inside]

/-- A count that starts again at zero passes a multiple of `n` within `n` counts. -/
theorem multiple_ahead {count size n : Nat} (positive : 0 < n) (inside : count < size) :
    ∃ ahead < n, (count + ahead) % size % n = 0 := by
  have rest := Nat.mod_lt count positive
  by_cases reached : count % n = 0
  · exact ⟨0, positive, by rw [Nat.add_zero, Nat.mod_eq_of_lt inside, reached]⟩
  by_cases crossed : size ≤ count + (n - count % n)
  · refine ⟨size - count, by omega, ?_⟩
    rw [Nat.add_sub_cancel' (Nat.le_of_lt inside), Nat.mod_self, Nat.zero_mod]
  · refine ⟨n - count % n, by omega, ?_⟩
    have whole : count + (n - count % n) = n * (count / n) + n := by
      have split := Nat.div_add_mod count n
      omega
    rw [Nat.mod_eq_of_lt (Nat.lt_of_not_le crossed), whole, Nat.add_mod_right, Nat.mul_mod_right]

end Rotation
