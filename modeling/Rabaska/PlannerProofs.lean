import Rabaska.Library.Contest
import Rabaska.QrCore

/-! The symbol size that is planned is the best there is: every rung carries a packet of it, and the
least is left over. -/

namespace Rabaska.Qr

open Wire Contest

/-- A packet is the symbol and a payload id of four bytes. -/
def Carries (s raw : Nat) : Prop := s + 4 ≤ raw - symbolOverhead

instance (s raw : Nat) : Decidable (Carries s raw) := inferInstanceAs (Decidable (_ ≤ _))

def Serves (capacities : List Nat) (s : Nat) : Prop := ∀ raw ∈ capacities, Carries s raw

instance (capacities : List Nat) (s : Nat) : Decidable (Serves capacities s) :=
  inferInstanceAs (Decidable (∀ _ ∈ _, _))

def wasted (s raw : Nat) : ℚ :=
  ((raw - symbolOverhead) % (s + 4) : Nat) / (raw - symbolOverhead : Nat)

def totalWaste (capacities : List Nat) (s : Nat) : ℚ := (capacities.map (wasted s)).sum

/-- What the sizes compete by: a size that leaves a rung dead scores the sentinel. -/
def score (capacities : List Nat) (s : Nat) : ℚ :=
  if capacities ≠ [] ∧ Serves capacities s then totalWaste capacities s else f64Max

theorem wasted_le_one (s raw : Nat) : wasted s raw ≤ 1 := by
  have part : (raw - symbolOverhead) % (s + 4) ≤ raw - symbolOverhead := Nat.mod_le _ _
  exact div_le_one_of_le₀ (by exact_mod_cast part) (Nat.cast_nonneg _)

theorem totalWaste_le_length (capacities : List Nat) (s : Nat) :
    totalWaste capacities s ≤ capacities.length := by
  induction capacities with
  | nil => simp [totalWaste]
  | cons raw rest ih =>
      have first := wasted_le_one s raw
      simp only [totalWaste, List.map_cons, List.sum_cons, List.length_cons, Nat.cast_succ] at ih ⊢
      linarith

theorem totalWaste_lt_f64Max (capacities : Slice) (s : Nat) :
    totalWaste capacities.items s < f64Max := by
  have total := totalWaste_le_length capacities.items s
  have length : (capacities.items.length : ℚ) < 2 ^ 64 := by exact_mod_cast capacities.length_lt
  have far : (2 : ℚ) ^ 64 ≤ f64Max :=
    calc (2 : ℚ) ^ 64 ≤ 2 ^ 971 := pow_le_pow_right₀ (by norm_num) (by norm_num)
      _ ≤ f64Max := le_mul_of_one_le_left (by positivity) (by norm_num)
  exact lt_of_le_of_lt total (lt_of_lt_of_le length far)

theorem score_lt_iff (capacities : Slice) (s : Nat) :
    score capacities.items s < f64Max ↔ capacities.items ≠ [] ∧ Serves capacities.items s := by
  unfold score
  split
  · rename_i serves
    exact iff_of_true (totalWaste_lt_f64Max capacities s) serves
  · rename_i fails
    exact iff_of_false (lt_irrefl _) fails

/-! One size: what the loop over the capacities comes to. -/

theorem Carries.packets {s raw : Nat} (carries : Carries s raw) :
    (raw - symbolOverhead) / (s + 4) ≠ 0 := (Nat.div_pos carries (Nat.succ_pos _)).ne'

theorem Carries.room {s raw : Nat} (carries : Carries s raw) : raw - symbolOverhead ≠ 0 := by
  unfold Carries at carries
  omega

theorem tally_serves {capacities : List Nat} {s : Nat} (serves : Serves capacities s) (sum : Tally) :
    tally (s + 4) capacities sum = some
      { waste := sum.waste + totalWaste capacities s
        usable := sum.usable || !capacities.isEmpty } := by
  induction capacities generalizing sum with
  | nil => simp [tally, totalWaste]
  | cons raw rest ih =>
      obtain ⟨carries, serves⟩ := List.forall_mem_cons.mp serves
      have leftover : raw - symbolOverhead - (raw - symbolOverhead) / (s + 4) * (s + 4) =
          (raw - symbolOverhead) % (s + 4) := by
        rw [Nat.mul_comm]
        exact (Nat.mod_eq_sub ..).symm
      simp [tally, quotient, fraction, carries.packets, carries.room, leftover, ih serves, totalWaste,
        wasted, add_assoc]

theorem tally_dead {capacities : List Nat} {s : Nat} (dead : ¬Serves capacities s) (sum : Tally) :
    ∃ usable, tally (s + 4) capacities sum = some { waste := f64Max, usable } := by
  induction capacities generalizing sum with
  | nil => exact absurd (by simp [Serves]) dead
  | cons raw rest ih =>
      by_cases carries : Carries s raw
      · have behind : ¬Serves rest s := fun serves =>
          dead (List.forall_mem_cons.mpr ⟨carries, serves⟩)
        obtain ⟨usable, counted⟩ := ih behind _
        exact ⟨usable, by simpa [tally, quotient, fraction, carries.packets, carries.room] using counted⟩
      · have none : (raw - symbolOverhead) / (s + 4) = 0 := Nat.div_eq_of_lt (not_le.mp carries)
        exact ⟨sum.usable, by simp [tally, quotient, none]⟩

theorem consider_eq {capacities : List Nat} {plan : Plan} (bound : plan.bestWaste ≤ f64Max) (s : Nat) :
    consider capacities plan s = some
      { best := (challenge (score capacities) (plan.best, plan.bestWaste) s).1
        bestWaste := (challenge (score capacities) (plan.best, plan.bestWaste) s).2 } := by
  by_cases serves : Serves capacities s
  · by_cases empty : capacities = []
    · have outside : ¬f64Max < plan.bestWaste := not_lt.mpr bound
      subst empty
      simp [consider, tally, challenge, score, outside]
    · have scored : score capacities s = totalWaste capacities s := if_pos ⟨empty, serves⟩
      have usable : capacities.isEmpty = false := by simpa using empty
      simp only [consider, tally_serves serves, challenge, scored, usable]
      split <;> simp_all
  · obtain ⟨usable, counted⟩ := tally_dead serves { waste := 0, usable := false }
    have outside : ¬f64Max < plan.bestWaste := not_lt.mpr bound
    have scored : score capacities s = f64Max := if_neg fun both => serves both.2
    simp [consider, counted, challenge, scored, outside]

/-! All sizes: the search is a contest by that score. -/

theorem foldlM_consider {capacities : List Nat} (sizes : List Nat) {plan : Plan}
    (bound : plan.bestWaste ≤ f64Max) :
    sizes.foldlM (consider capacities) plan = some
      { best := (winner (score capacities) sizes (plan.best, plan.bestWaste)).1
        bestWaste := (winner (score capacities) sizes (plan.best, plan.bestWaste)).2 } := by
  induction sizes generalizing plan with
  | nil => rfl
  | cons s rest ih =>
      have kept : (challenge (score capacities) (plan.best, plan.bestWaste) s).2 ≤ f64Max := by
        unfold challenge
        split
        · rename_i lower
          exact lower.le.trans bound
        · exact bound
      rw [List.foldlM_cons, consider_eq bound, Option.bind_eq_bind, Option.bind_some, ih kept, winner,
        winner, List.foldl_cons]

structure Optimal (capacities : List Nat) (min max best : Nat) : Prop where
  lower : min ≤ best
  upper : best ≤ max
  serves : Serves capacities best
  least : ∀ s, min ≤ s → s ≤ max → Serves capacities s →
    totalWaste capacities best ≤ totalWaste capacities s
  first : ∀ s, min ≤ s → s ≤ max → Serves capacities s →
    totalWaste capacities s = totalWaste capacities best → best ≤ s

theorem mem_sizes {min max s : Nat} : s ∈ List.range' min (max + 1 - min) ↔ min ≤ s ∧ s ≤ max := by
  rw [List.mem_range'_1]
  omega

theorem Optimal.of_wins {capacities : Slice} {min max best : Nat}
    (wins : Wins (score capacities.items) (List.range' min (max + 1 - min)) f64Max best) :
    Optimal capacities.items min max best := by
  obtain ⟨nonempty, serves⟩ := (score_lt_iff capacities best).mp wins.below
  have scored : ∀ s, Serves capacities.items s →
      score capacities.items s = totalWaste capacities.items s := fun s fits => if_pos ⟨nonempty, fits⟩
  obtain ⟨lower, upper⟩ := mem_sizes.mp wins.member
  refine ⟨lower, upper, serves, fun s above below fits => ?_, fun s above below fits same => ?_⟩
  · rw [← scored s fits, ← scored best serves]
    exact wins.least s (mem_sizes.mpr ⟨above, below⟩)
  · rw [← scored s fits, ← scored best serves] at same
    exact wins.first s (mem_sizes.mpr ⟨above, below⟩) same

/-- The planner always returns, with the optimum where some size leaves no rung dead and with the
least size where none does. -/
theorem plan_optimal (capacities : Slice) (min max : Nat) :
    ∃ best, planSymbolSize capacities min max = some best ∧
      ((∃ s, min ≤ s ∧ s ≤ max ∧ Serves capacities.items s) →
        Optimal capacities.items min max best) ∧
      ((∀ s, min ≤ s → s ≤ max → ¬Serves capacities.items s) → best = min) := by
  have searched := @foldlM_consider capacities.items (List.range' min (max + 1 - min))
    { best := min, bestWaste := f64Max } le_rfl
  refine ⟨_, by rw [planSymbolSize, searched]; rfl, ?_⟩
  dsimp only
  rcases @winner_cases _ _ _ _ (score capacities.items) _ (min, f64Max)
    (List.pairwise_lt_range' (s := min) (n := max + 1 - min)) with ⟨out, kept⟩ | ⟨best, won, wins⟩
  · rw [kept]
    refine ⟨fun ⟨s, above, below, serves⟩ => ?_, fun _ => rfl⟩
    -- Nobody got below the sentinel although a size serves: there are no capacities at all.
    have slow := out s (mem_sizes.mpr ⟨above, below⟩)
    have empty : capacities.items = [] := by
      by_contra nonempty
      exact absurd ((score_lt_iff capacities s).mpr ⟨nonempty, serves⟩) (not_lt.mpr slow)
    rw [empty]
    exact ⟨le_rfl, above.trans below, by simp [Serves], fun _ _ _ _ => by simp [totalWaste],
      fun _ above _ _ _ => above⟩
  · rw [won]
    have optimal := Optimal.of_wins wins
    exact ⟨fun _ => optimal, fun none =>
      absurd optimal.serves (none best optimal.lower optimal.upper)⟩

end Rabaska.Qr
