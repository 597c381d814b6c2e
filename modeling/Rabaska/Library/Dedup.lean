import Mathlib

/-! Taking the items of a stream whose keys have not been seen before. -/

namespace Dedup

variable {α κ : Type} [DecidableEq κ] (key : α → Option κ)

/-- The items whose key is neither known nor the key of an earlier item. -/
def fresh (known : Finset κ) : List α → List α
  | [] => []
  | item :: items =>
      match key item with
      | none => fresh known items
      | some k => if k ∈ known then fresh known items else item :: fresh (insert k known) items

def learn (known : Finset κ) (items : List α) : Finset κ := known ∪ (items.filterMap key).toFinset

variable {key}

@[simp] theorem learn_nil (known : Finset κ) : learn key known [] = known := by
  simp [learn]

theorem mem_learn {known : Finset κ} {items : List α} {k : κ} :
    k ∈ learn key known items ↔ k ∈ known ∨ ∃ item ∈ items, key item = some k := by
  simp [learn]

theorem learn_append (known : Finset κ) (front back : List α) :
    learn key known (front ++ back) = learn key (learn key known front) back := by
  simp [learn, List.filterMap_append, Finset.union_assoc]

/-! One item: without a key, with a known one, with a new one. -/

theorem fresh_keyless {known : Finset κ} {item : α} (keyless : key item = none) (items : List α) :
    fresh key known (item :: items) = fresh key known items := by
  simp [fresh, keyless]

theorem fresh_known {known : Finset κ} {item : α} {k : κ} (keyed : key item = some k)
    (member : k ∈ known) (items : List α) :
    fresh key known (item :: items) = fresh key known items := by
  simp [fresh, keyed, member]

theorem fresh_new {known : Finset κ} {item : α} {k : κ} (keyed : key item = some k)
    (absent : k ∉ known) (items : List α) :
    fresh key known (item :: items) = item :: fresh key (insert k known) items := by
  simp [fresh, keyed, absent]

theorem learn_keyless {known : Finset κ} {item : α} (keyless : key item = none) (items : List α) :
    learn key known (item :: items) = learn key known items := by
  simp [learn, keyless]

theorem learn_known {known : Finset κ} {item : α} {k : κ} (keyed : key item = some k)
    (member : k ∈ known) (items : List α) :
    learn key known (item :: items) = learn key known items := by
  ext other
  simp only [mem_learn, List.exists_mem_cons_iff, keyed, Option.some_inj]
  constructor
  · rintro (before | rfl | later)
    · exact .inl before
    · exact .inl member
    · exact .inr later
  · rintro (before | later)
    · exact .inl before
    · exact .inr (.inr later)

theorem learn_new {known : Finset κ} {item : α} {k : κ} (keyed : key item = some k)
    (items : List α) : learn key known (item :: items) = learn key (insert k known) items := by
  simp [learn, keyed]

/-! Whole streams. -/

theorem fresh_append (known : Finset κ) (front back : List α) :
    fresh key known (front ++ back) = fresh key known front ++ fresh key (learn key known front) back := by
  induction front generalizing known with
  | nil => simp [fresh]
  | cons item front ih =>
      rw [List.cons_append]
      cases keyed : key item with
      | none => rw [fresh_keyless keyed, fresh_keyless keyed, learn_keyless keyed, ih]
      | some k =>
          by_cases member : k ∈ known
          · rw [fresh_known keyed member, fresh_known keyed member, learn_known keyed member, ih]
          · rw [fresh_new keyed member, fresh_new keyed member, learn_new keyed, ih, List.cons_append]

theorem mem_fresh {known : Finset κ} {items : List α} {item : α}
    (member : item ∈ fresh key known items) :
    item ∈ items ∧ ∃ k, key item = some k ∧ k ∉ known := by
  induction items generalizing known with
  | nil => simp [fresh] at member
  | cons first items ih =>
      cases keyed : key first with
      | none =>
          rw [fresh_keyless keyed] at member
          exact ⟨List.mem_cons_of_mem first (ih member).1, (ih member).2⟩
      | some k =>
          by_cases present : k ∈ known
          · rw [fresh_known keyed present] at member
            exact ⟨List.mem_cons_of_mem first (ih member).1, (ih member).2⟩
          · rw [fresh_new keyed present] at member
            rcases List.mem_cons.mp member with rfl | rest
            · exact ⟨List.mem_cons_self, k, keyed, present⟩
            · obtain ⟨inside, other, found, absent⟩ := ih rest
              exact ⟨List.mem_cons_of_mem first inside, other, found,
                fun known => absent (Finset.mem_insert_of_mem known)⟩

theorem learn_fresh (known : Finset κ) (items : List α) :
    learn key known (fresh key known items) = learn key known items := by
  induction items generalizing known with
  | nil => rfl
  | cons item items ih =>
      cases keyed : key item with
      | none => rw [fresh_keyless keyed, learn_keyless keyed, ih]
      | some k =>
          by_cases member : k ∈ known
          · rw [fresh_known keyed member, learn_known keyed member, ih]
          · rw [fresh_new keyed member, learn_new keyed, learn_new keyed, ih]

theorem fresh_fresh (known : Finset κ) (items : List α) :
    fresh key known (fresh key known items) = fresh key known items := by
  induction items generalizing known with
  | nil => rfl
  | cons item items ih =>
      cases keyed : key item with
      | none => rw [fresh_keyless keyed, ih]
      | some k =>
          by_cases member : k ∈ known
          · rw [fresh_known keyed member, ih]
          · rw [fresh_new keyed member, fresh_new keyed member, ih]

theorem fresh_self_append {items : List α} (known : Finset κ) (more : List α)
    (own : fresh key known items = items) :
    fresh key known (items ++ fresh key (learn key known items) more) =
      items ++ fresh key (learn key known items) more := by
  rw [fresh_append, own, fresh_fresh]

theorem keys_fresh_nodup (known : Finset κ) (items : List α) :
    ((fresh key known items).map key).Nodup := by
  induction items generalizing known with
  | nil => exact List.nodup_nil
  | cons item items ih =>
      cases keyed : key item with
      | none =>
          rw [fresh_keyless keyed]
          exact ih known
      | some k =>
          by_cases member : k ∈ known
          · rw [fresh_known keyed member]
            exact ih known
          · rw [fresh_new keyed member, List.map_cons]
            refine List.nodup_cons.mpr ⟨fun again => ?_, ih _⟩
            obtain ⟨other, inside, same⟩ := List.mem_map.mp again
            obtain ⟨-, k', found, absent⟩ := mem_fresh inside
            obtain rfl : k' = k := Option.some_inj.mp (found.symm.trans (same.trans keyed))
            exact absent (Finset.mem_insert_self _ _)

theorem fresh_nodup (known : Finset κ) (items : List α) : (fresh key known items).Nodup :=
  (keys_fresh_nodup known items).of_map key

theorem card_learn (known : Finset κ) (items : List α) :
    (learn key known items).card = known.card + (fresh key known items).length := by
  induction items generalizing known with
  | nil => simp [fresh]
  | cons item items ih =>
      cases keyed : key item with
      | none => rw [fresh_keyless keyed, learn_keyless keyed, ih]
      | some k =>
          by_cases member : k ∈ known
          · rw [fresh_known keyed member, learn_known keyed member, ih]
          · rw [fresh_new keyed member, learn_new keyed, ih, Finset.card_insert_of_notMem member,
              List.length_cons]
            omega

end Dedup
