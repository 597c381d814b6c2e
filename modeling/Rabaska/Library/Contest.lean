import Mathlib

/-!
A search that keeps the best item seen so far: an item takes the lead by scoring strictly less than
the leader, and the first score to beat is given.
-/

namespace Contest

variable {α β : Type} [LinearOrder α] [LinearOrder β]

def challenge (score : α → β) (leader : α × β) (item : α) : α × β :=
  if score item < leader.2 then (item, score item) else leader

def winner (score : α → β) (items : List α) (leader : α × β) : α × β :=
  items.foldl (challenge score) leader

/-- The least score below the one to beat, and of the items with that score the least. -/
structure Wins (score : α → β) (items : List α) (ceiling : β) (best : α) : Prop where
  member : best ∈ items
  below : score best < ceiling
  least : ∀ item ∈ items, score best ≤ score item
  first : ∀ item ∈ items, score item = score best → best ≤ item

variable {score : α → β} {items : List α} {ceiling : β} {item best : α}

theorem wins_head (below : score item < ceiling) (behind : ∀ other ∈ items, item < other)
    (out : ∀ other ∈ items, score item ≤ score other) : Wins score (item :: items) ceiling item := by
  refine ⟨List.mem_cons_self .., below, fun other member => ?_, fun other member _ => ?_⟩
  · rcases List.mem_cons.mp member with rfl | later
    · exact le_refl _
    · exact out other later
  · rcases List.mem_cons.mp member with rfl | later
    · exact le_refl _
    · exact (behind other later).le

/-- Whoever beats a bound that the item in front does not beat also beats that item. -/
theorem Wins.cons {bound : β} (wins : Wins score items bound best) (beaten : bound ≤ score item)
    (lower : bound ≤ ceiling) : Wins score (item :: items) ceiling best := by
  have under : score best < score item := lt_of_lt_of_le wins.below beaten
  refine ⟨List.mem_cons_of_mem _ wins.member, lt_of_lt_of_le wins.below lower,
    fun other member => ?_, fun other member same => ?_⟩
  · rcases List.mem_cons.mp member with rfl | later
    · exact under.le
    · exact wins.least other later
  · rcases List.mem_cons.mp member with rfl | later
    · exact absurd same under.ne'
    · exact wins.first other later same

/-- Over sorted items either nobody beats the first leader or the winner is the one described. -/
theorem winner_cases {leader : α × β} (sorted : items.Pairwise (· < ·)) :
    ((∀ item ∈ items, leader.2 ≤ score item) ∧ winner score items leader = leader) ∨
      ∃ best, winner score items leader = (best, score best) ∧ Wins score items leader.2 best := by
  induction items generalizing leader with
  | nil => exact .inl ⟨by simp, rfl⟩
  | cons item rest ih =>
      obtain ⟨behind, sorted⟩ := List.pairwise_cons.mp sorted
      rw [winner, List.foldl_cons, ← winner]
      by_cases lower : score item < leader.2
      · rw [show challenge score leader item = (item, score item) from if_pos lower]
        right
        rcases @ih (item, score item) sorted with ⟨out, kept⟩ | ⟨best, won, wins⟩
        · exact ⟨item, kept, wins_head lower behind out⟩
        · exact ⟨best, won, wins.cons le_rfl lower.le⟩
      · have slower : leader.2 ≤ score item := not_lt.mp lower
        rw [show challenge score leader item = leader from if_neg lower]
        rcases @ih leader sorted with ⟨out, kept⟩ | ⟨best, won, wins⟩
        · exact .inl ⟨List.forall_mem_cons.mpr ⟨slower, out⟩, kept⟩
        · exact .inr ⟨best, won, wins.cons slower le_rfl⟩

end Contest
