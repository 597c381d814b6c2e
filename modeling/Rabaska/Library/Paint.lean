import Rabaska.Library.Call

/-!
Loops that write one value into a buffer: which positions hold it afterwards, the others being as they
were.
-/

namespace Paint

open Call

variable {ε α ι : Type}

/-- On every buffer of the size the writes stay inside it, and they reach exactly the region. -/
def Paints (size : Nat) (value : α) (brush : List α → Outcome ε (List α)) (region : Set Nat) : Prop :=
  ∀ before, before.length = size → ∃ after, brush before = .ok after ∧ after.length = size ∧
    (∀ position ∈ region, after[position]? = some value) ∧
    ∀ position ∉ region, after[position]? = before[position]?

variable {size : Nat} {value : α}

theorem paints_nothing : Paints size value (fun buffer => (.ok buffer : Outcome ε (List α))) ∅ :=
  fun before sized => ⟨before, rfl, sized, by simp, fun _ _ => rfl⟩

theorem paints_store {position : Nat} (inside : position < size) :
    Paints size value (fun buffer => (store buffer position value : Outcome ε (List α)))
      {position} := by
  intro before sized
  refine ⟨before.set position value, store_ok (by rwa [sized]), by rw [List.length_set, sized], ?_, ?_⟩
  · rintro _ rfl
    rw [List.getElem?_set_self (by rwa [sized])]
  · intro other outside
    rw [List.getElem?_set_ne]
    exact fun same => outside same.symm

theorem foldlM_length {items : List ι} {turn : List α → ι → Outcome ε (List α)} {before after : List α}
    (each : ∀ buffer item next, turn buffer item = .ok next → next.length = buffer.length)
    (looped : items.foldlM turn before = .ok after) : after.length = before.length := by
  induction items generalizing before with
  | nil =>
      obtain rfl : before = after := Except.ok.inj looped
      rfl
  | cons item rest ih =>
      rw [List.foldlM_cons] at looped
      cases turned : turn before item with
      | error fault => simp [turned] at looped
      | ok middle =>
          rw [turned] at looped
          exact (ih looped).trans (each before item middle turned)

theorem store_length {buffer next : List α} {position : Nat} {item : α}
    (stored : (store buffer position item : Outcome ε (List α)) = .ok next) :
    next.length = buffer.length := by
  unfold store at stored
  split at stored
  · obtain rfl := Except.ok.inj stored
    exact List.length_set
  · simp [panicked] at stored

/-- A loop paints what its turns paint, in whatever order and however often. -/
theorem paints_foldlM {items : List ι} {turn : List α → ι → Outcome ε (List α)}
    {region : ι → Set Nat}
    (each : ∀ item ∈ items, Paints size value (fun buffer => turn buffer item) (region item)) :
    Paints size value (fun buffer => items.foldlM turn buffer) (⋃ item ∈ items, region item) := by
  induction items with
  | nil =>
      rw [show (⋃ item ∈ ([] : List ι), region item) = ∅ by simp]
      exact paints_nothing
  | cons item rest ih =>
      obtain ⟨first, behind⟩ := List.forall_mem_cons.mp each
      intro before sized
      obtain ⟨middle, turned, kept, reached, left⟩ := first before sized
      obtain ⟨after, looped, same, within, outside⟩ := ih behind middle kept
      refine ⟨after, ?_, same, ?_, ?_⟩
      · change (item :: rest).foldlM turn before = .ok after
        rw [List.foldlM_cons, show turn before item = .ok middle from turned]
        exact looped
      · intro position member
        by_cases later : position ∈ ⋃ item ∈ rest, region item
        · exact within position later
        · rw [outside position later]
          refine reached position ?_
          simp only [Set.mem_iUnion, List.mem_cons, not_exists] at member later
          obtain ⟨other, rfl | below, here⟩ := member
          · exact here
          · exact absurd here (later other below)
      · intro position missed
        simp only [Set.mem_iUnion, List.mem_cons, not_exists] at missed
        rw [outside position, left position (missed item (.inl rfl))]
        simp only [Set.mem_iUnion, not_exists]
        exact fun other below => missed other (.inr below)

end Paint
