import Mathlib

/-! Trimming both ends of a text, and texts that are runs of items of given kinds. -/

namespace Trim

variable {α : Type} {p : α → Bool}

def trimMatches (p : α → Bool) (text : List α) : List α := (text.dropWhile p).rdropWhile p

theorem trimMatches_reverse (p : α → Bool) (text : List α) :
    trimMatches p text.reverse = (trimMatches p text).reverse := by
  induction text with
  | nil => rfl
  | cons item rest ih =>
      cases kind : p item
      · have kept : rest.reverse.dropWhile p ++ [item] ≠ [] := by simp
        have back : (rest.reverse ++ [item]).dropWhile p = rest.reverse.dropWhile p ++ [item] := by
          rw [List.dropWhile_append]
          split
          · rename_i empty
            rw [List.isEmpty_iff.mp empty]
            simp [kind]
          · rfl
        rw [trimMatches, trimMatches, List.reverse_cons, back, List.dropWhile_cons_of_neg (by simp [kind]),
          List.rdropWhile_concat_neg p _ item (by simp [kind]), List.rdropWhile, List.reverse_reverse,
          List.reverse_cons, back]
      · have back : trimMatches p (rest.reverse ++ [item]) = trimMatches p rest.reverse := by
          rw [trimMatches, trimMatches, List.dropWhile_append]
          split
          · rename_i empty
            rw [List.isEmpty_iff.mp empty, List.dropWhile_cons_of_pos kind, List.dropWhile_nil]
          · rw [List.rdropWhile_concat_pos p _ item kind]
        rw [List.reverse_cons, back, ih]
        simp [trimMatches, kind]

theorem trimMatches_split (p : α → Bool) (text : List α) :
    ∃ front back, text = front ++ trimMatches p text ++ back ∧
      (∀ item ∈ front, p item) ∧ ∀ item ∈ back, p item := by
  refine ⟨text.takeWhile p, (text.dropWhile p).rtakeWhile p, ?_, ?_, ?_⟩
  · rw [trimMatches, List.append_assoc, List.rdropWhile_append_rtakeWhile,
      List.takeWhile_append_dropWhile]
  · intro item member
    exact List.mem_takeWhile_imp member
  · intro item member
    exact List.mem_rtakeWhile_imp member

theorem trimMatches_within (p : α → Bool) (text : List α) : trimMatches p text <:+: text := by
  obtain ⟨front, back, split, -, -⟩ := trimMatches_split p text
  exact ⟨front, back, split.symm⟩

theorem head_trimMatches {text : List α} {item : α} (first : item ∈ (trimMatches p text).head?) :
    p item = false := by
  have back : (trimMatches p text).head? = (text.dropWhile p).head? := by
    obtain ⟨rest, split⟩ := List.rdropWhile_prefix p (text.dropWhile p)
    change trimMatches p text ++ rest = _ at split
    cases kept : trimMatches p text with
    | nil => simp [kept] at first
    | cons other others => rw [← split, kept]; rfl
  rw [back] at first
  have kind := List.head?_dropWhile_not p text
  rw [Option.mem_def] at first
  simpa [first] using kind

theorem getLast_trimMatches {text : List α} {item : α}
    (last : item ∈ (trimMatches p text).getLast?) : p item = false := by
  rw [← List.head?_reverse, ← trimMatches_reverse] at last
  exact head_trimMatches last

theorem dropWhile_eq_self {text : List α} (first : ∀ item ∈ text.head?, p item = false) :
    text.dropWhile p = text := by
  cases text with
  | nil => rfl
  | cons item rest => exact List.dropWhile_cons_of_neg (by simp [first item rfl])

theorem trimMatches_eq_dropWhile {text : List α} (last : ∀ item ∈ text.getLast?, p item = false) :
    trimMatches p text = text.dropWhile p := by
  rw [trimMatches, List.rdropWhile_eq_self_iff]
  intro kept
  obtain ⟨front, split⟩ := List.dropWhile_suffix (l := text) p
  have same : text.getLast? = some ((text.dropWhile p).getLast kept) := by
    rw [← List.getLast?_eq_some_getLast kept, ← List.getLast?_append_of_ne_nil front kept, split]
  simp [last _ same]

theorem trimMatches_eq_self_iff (text : List α) : trimMatches p text = text ↔
    (∀ item ∈ text.head?, p item = false) ∧ ∀ item ∈ text.getLast?, p item = false := by
  constructor
  · intro same
    refine ⟨fun item first => ?_, fun item last => ?_⟩
    · rw [← same] at first
      exact head_trimMatches first
    · rw [← same] at last
      exact getLast_trimMatches last
  · rintro ⟨first, last⟩
    rw [trimMatches_eq_dropWhile last, dropWhile_eq_self first]

theorem trimMatches_eq_nil (text : List α) :
    trimMatches p text = [] ↔ ∀ item ∈ text, p item := by
  constructor
  · intro empty
    obtain ⟨front, back, split, fronts, backs⟩ := trimMatches_split p text
    rw [empty, List.append_nil] at split
    intro item member
    rw [split, List.mem_append] at member
    exact member.elim (fronts item) (backs item)
  · intro all
    rw [trimMatches, List.dropWhile_eq_nil_iff.mpr all, List.rdropWhile_nil]

theorem dropWhile_trimMatches (text rest : List α) (kept : trimMatches p text ≠ []) :
    ∃ back, (text ++ rest).dropWhile p = trimMatches p text ++ (back ++ rest) ∧
      ∀ item ∈ back, p item := by
  obtain ⟨front, back, split, fronts, backs⟩ := trimMatches_split p text
  refine ⟨back, ?_, backs⟩
  obtain ⟨item, others, shape⟩ := List.exists_cons_of_ne_nil kept
  have kind : p item = false := head_trimMatches (show item ∈ (trimMatches p text).head? by rw [shape]; rfl)
  conv_lhs => rw [split]
  rw [List.append_assoc, List.append_assoc, List.dropWhile_append_of_pos fronts, shape,
    List.cons_append, List.dropWhile_cons_of_neg (by simp [kind])]

/-! Skipping runs of items of given kinds, each of which may be empty. -/

def skip (kinds : List (α → Bool)) (text : List α) : List α :=
  kinds.foldl (fun rest kind => rest.dropWhile kind) text

theorem skip_cons (kind : α → Bool) (kinds : List (α → Bool)) (text : List α) :
    skip (kind :: kinds) text = skip kinds (text.dropWhile kind) := rfl

theorem skip_snoc (kind : α → Bool) (kinds : List (α → Bool)) (text : List α) :
    skip (kinds ++ [kind]) text = (skip kinds text).dropWhile kind := by
  simp [skip, List.foldl_append]

theorem skip_suffix (kinds : List (α → Bool)) (text : List α) : skip kinds text <:+ text := by
  induction kinds generalizing text with
  | nil => exact List.suffix_rfl
  | cons kind kinds ih => exact (ih (text.dropWhile kind)).trans (List.dropWhile_suffix kind)

theorem skip_append {kinds : List (α → Bool)} {text : List α} (rest : List α)
    (skipped : skip kinds text = []) : skip kinds (text ++ rest) <:+ rest := by
  induction kinds generalizing text with
  | nil =>
      obtain rfl : text = [] := skipped
      exact List.suffix_rfl
  | cons kind kinds ih =>
      rw [skip_cons] at skipped ⊢
      rw [List.dropWhile_append]
      split
      · exact (skip_suffix kinds _).trans (List.dropWhile_suffix kind)
      · exact ih skipped

theorem skip_nil (kinds : List (α → Bool)) : skip kinds [] = [] :=
  List.suffix_nil.mp (skip_suffix kinds [])

theorem skip_append_kept {kinds : List (α → Bool)} {text : List α} (rest : List α)
    (kept : skip kinds text ≠ []) : skip kinds (text ++ rest) = skip kinds text ++ rest := by
  induction kinds generalizing text with
  | nil => rfl
  | cons kind kinds ih =>
      rw [skip_cons] at kept
      have inner : text.dropWhile kind ≠ [] := by
        intro empty
        rw [empty, skip_nil] at kept
        exact kept rfl
      rw [skip_cons, skip_cons, List.dropWhile_append, if_neg (by simpa using inner), ih kept]

theorem dropWhile_within {piece text : List α} (kind : α → Bool) (inside : piece <:+: text) :
    piece.dropWhile kind <:+: text.dropWhile kind := by
  obtain ⟨front, back, rfl⟩ := inside
  have tail : piece.dropWhile kind <:+: (piece ++ back).dropWhile kind := by
    rw [List.dropWhile_append]
    split
    · rename_i empty
      rw [List.isEmpty_iff.mp empty]
      exact List.nil_infix
    · exact (List.prefix_append _ _).isInfix
  rw [List.append_assoc, List.dropWhile_append]
  split
  · exact tail
  · exact tail.trans ((List.dropWhile_suffix kind).trans (List.suffix_append _ _)).isInfix

theorem skip_within {kinds : List (α → Bool)} {piece text : List α} (inside : piece <:+: text)
    (skipped : skip kinds text = []) : skip kinds piece = [] := by
  induction kinds generalizing piece text with
  | nil =>
      obtain rfl : text = [] := skipped
      exact List.infix_nil.mp inside
  | cons kind kinds ih => exact ih (dropWhile_within kind inside) skipped

theorem skip_trimMatches (kinds : List (α → Bool)) (text : List α) :
    skip (p :: kinds ++ [p]) text = [] ↔ skip kinds (trimMatches p text) = [] := by
  constructor
  · intro skipped
    have whole : (trimMatches p text).dropWhile p = trimMatches p text := by
      cases kept : trimMatches p text with
      | nil => rfl
      | cons item rest =>
          have kind : p item = false :=
            head_trimMatches (show item ∈ (trimMatches p text).head? by rw [kept]; rfl)
          rw [List.dropWhile_cons_of_neg (by simp [kind])]
    have inner := skip_within (trimMatches_within p text) skipped
    rw [List.cons_append, skip_cons, whole, skip_snoc, List.dropWhile_eq_nil_iff] at inner
    by_contra left
    obtain ⟨front, split⟩ := skip_suffix kinds (trimMatches p text)
    have last : (skip kinds (trimMatches p text)).getLast left ∈ (trimMatches p text).getLast? := by
      rw [Option.mem_def, ← List.getLast?_eq_some_getLast left,
        ← List.getLast?_append_of_ne_nil front left, split]
    have kind := inner _ (List.getLast_mem left)
    simp [getLast_trimMatches last] at kind
  · intro skipped
    rw [List.cons_append, skip_cons, skip_snoc, List.dropWhile_eq_nil_iff]
    by_cases kept : trimMatches p text = []
    · intro item member
      have all := (trimMatches_eq_nil text).mp kept
      exact all item ((List.dropWhile_suffix p).subset ((skip_suffix kinds _).subset member))
    · obtain ⟨back, reached, kinded⟩ := dropWhile_trimMatches text [] kept
      rw [List.append_nil, List.append_nil] at reached
      rw [reached]
      intro item member
      exact kinded item ((skip_append back skipped).subset member)

theorem foldl_trimMatches_eq_skip {kinds : List (α → Bool)} {text : List α}
    (last : ∀ item ∈ text.getLast?, ∀ kind ∈ kinds, kind item = false) :
    kinds.foldl (fun kept kind => trimMatches kind kept) text = skip kinds text := by
  induction kinds generalizing text with
  | nil => rfl
  | cons kind kinds ih =>
      have trimmed : trimMatches kind text = text.dropWhile kind :=
        trimMatches_eq_dropWhile fun item final => last item final kind List.mem_cons_self
      rw [List.foldl_cons, trimmed, skip_cons]
      refine ih fun item final other member => last item ?_ other (List.mem_cons_of_mem _ member)
      obtain ⟨front, split⟩ := List.dropWhile_suffix (l := text) kind
      rw [← split]
      exact List.mem_getLast?_append_of_mem_getLast? final

/-! A text whose ends are of none of the kinds, in the middle of others. -/

theorem dropWhile_append_solid {front core : List α} (first : ∀ item ∈ core.head?, p item = false) :
    (front ++ core).dropWhile p = front.dropWhile p ++ core := by
  rw [List.dropWhile_append]
  split
  · rename_i empty
    rw [List.isEmpty_iff.mp empty, dropWhile_eq_self first, List.nil_append]
  · rfl

theorem trimMatches_around {front core back : List α} (first : ∀ item ∈ core.head?, p item = false)
    (last : ∀ item ∈ core.getLast?, p item = false) (kept : core ≠ []) :
    trimMatches p (front ++ core ++ back) = front.dropWhile p ++ core ++ back.rdropWhile p := by
  have left : (front ++ core ++ back).dropWhile p = front.dropWhile p ++ (core ++ back) := by
    rw [List.append_assoc, dropWhile_append_solid]
    rwa [List.head?_append_of_ne_nil _ kept]
  have turned : core.reverse ≠ [] := List.reverse_ne_nil_iff.mpr kept
  rw [trimMatches, left, List.rdropWhile, List.reverse_append, List.reverse_append, List.append_assoc,
    dropWhile_append_solid, List.reverse_append, List.reverse_append, List.reverse_reverse,
    List.reverse_reverse]
  · rfl
  · rwa [List.head?_append_of_ne_nil _ turned, List.head?_reverse]

theorem foldl_trimMatches_around {kinds : List (α → Bool)} {front core back : List α}
    (first : ∀ item ∈ core.head?, ∀ kind ∈ kinds, kind item = false)
    (last : ∀ item ∈ core.getLast?, ∀ kind ∈ kinds, kind item = false) (kept : core ≠ []) :
    kinds.foldl (fun kept kind => trimMatches kind kept) (front ++ core ++ back) =
      skip kinds front ++ core ++ (skip kinds back.reverse).reverse := by
  induction kinds generalizing front back with
  | nil => simp [skip]
  | cons kind kinds ih =>
      rw [List.foldl_cons, trimMatches_around (fun item opening => first item opening kind List.mem_cons_self)
        (fun item final => last item final kind List.mem_cons_self) kept, ih
        (fun item opening other member => first item opening other (List.mem_cons_of_mem _ member))
        (fun item final other member => last item final other (List.mem_cons_of_mem _ member)),
        skip_cons, skip_cons, List.rdropWhile, List.reverse_reverse]

theorem skip_append_spent {kinds : List (α → Bool)} {text rest : List α} (skipped : skip kinds text = [])
    (first : ∀ item ∈ rest.head?, ∀ kind ∈ kinds, kind item = false) : skip kinds (text ++ rest) = rest := by
  induction kinds generalizing text with
  | nil =>
      obtain rfl : text = [] := skipped
      rfl
  | cons kind kinds ih =>
      rw [skip_cons, dropWhile_append_solid fun item opening => first item opening kind List.mem_cons_self]
      exact ih skipped fun item opening other member =>
        first item opening other (List.mem_cons_of_mem _ member)

/-- Skipping one kind after the other from the left reaches what trimming them one after the other
keeps. -/
theorem skip_append_trimMatches (kinds : List (α → Bool)) (text rest : List α)
    (kept : kinds.foldl (fun kept kind => trimMatches kind kept) text ≠ []) :
    ∃ back, skip kinds (text ++ rest) =
      kinds.foldl (fun kept kind => trimMatches kind kept) text ++ (back ++ rest) := by
  induction kinds generalizing text rest with
  | nil => exact ⟨[], rfl⟩
  | cons kind kinds ih =>
      have inner : trimMatches kind text ≠ [] := by
        intro empty
        rw [List.foldl_cons, empty] at kept
        apply kept
        clear ih kept empty
        induction kinds with
        | nil => rfl
        | cons other kinds ih => exact ih
      obtain ⟨back, reached, -⟩ := dropWhile_trimMatches text rest inner
      rw [skip_cons, reached]
      obtain ⟨further, skipped⟩ := ih (trimMatches kind text) (back ++ rest) kept
      exact ⟨further ++ back, by rw [skipped, List.append_assoc]; rfl⟩

end Trim
