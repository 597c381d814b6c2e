import Mathlib

/-!
Calls that return a value, return an error or panic, and the slice operations of
byte-handling code that panic outside their bounds.
-/

namespace Call

inductive Fault (ε : Type) where
  | panic
  | err (error : ε)
  deriving DecidableEq, Repr

/-- The outcome of a function whose result type is `Result<α, ε>` and which may panic. -/
abbrev Outcome (ε α : Type) := Except (Fault ε) α

variable {ε α β : Type}

def fail (error : ε) : Outcome ε α := .error (.err error)

def panicked : Outcome ε α := .error .panic

def Panics (outcome : Outcome ε α) : Prop := outcome = panicked

instance [DecidableEq ε] [DecidableEq α] (outcome : Outcome ε α) : Decidable (Panics outcome) :=
  inferInstanceAs (Decidable (outcome = panicked))

def ensure (condition : Prop) [Decidable condition] (error : ε) : Outcome ε Unit :=
  if condition then .ok () else fail error

theorem panics_bind (first : Outcome ε α) (second : α → Outcome ε β) :
    Panics (first >>= second) ↔ Panics first ∨ ∃ value, first = .ok value ∧ Panics (second value) := by
  cases first with
  | ok value => simp [bind, Except.bind, Panics, panicked]
  | error fault => simp [bind, Except.bind, Panics, panicked]

@[simp] theorem ok_bind (value : α) (second : α → Outcome ε β) :
    ((.ok value : Outcome ε α) >>= second) = second value := rfl

@[simp] theorem error_bind (fault : Fault ε) (second : α → Outcome ε β) :
    ((.error fault : Outcome ε α) >>= second) = .error fault := rfl

@[simp] theorem fail_bind (error : ε) (second : α → Outcome ε β) :
    ((fail error : Outcome ε α) >>= second) = fail error := rfl

theorem of_bind_ok {first : Outcome ε α} {second : α → Outcome ε β} {value : β}
    (returned : (first >>= second) = .ok value) :
    ∃ middle, first = .ok middle ∧ second middle = .ok value := by
  cases first with
  | ok middle => exact ⟨middle, rfl, returned⟩
  | error fault => simp at returned

@[simp] theorem ensure_bind (condition : Prop) [Decidable condition] (error : ε)
    (second : Unit → Outcome ε β) :
    (ensure condition error >>= second) = if condition then second () else fail error := by
  unfold ensure
  split <;> rfl

@[simp] theorem not_panics_ok (value : α) : ¬Panics (.ok value : Outcome ε α) := by
  simp [Panics, panicked]

@[simp] theorem not_panics_fail (error : ε) : ¬Panics (fail error : Outcome ε α) := by
  simp [Panics, panicked, fail]

@[simp] theorem panics_panicked : Panics (panicked : Outcome ε α) := rfl

/-! Indexing, slicing and chunking, each with the bound whose failure is a panic. -/

def index (items : List α) (position : Nat) : Outcome ε α :=
  match items[position]? with
  | some item => .ok item
  | none => panicked

def slice (items : List α) (start stop : Nat) : Outcome ε (List α) :=
  if start ≤ stop ∧ stop ≤ items.length then .ok ((items.take stop).drop start) else panicked

def store (items : List α) (position : Nat) (item : α) : Outcome ε (List α) :=
  if position < items.length then .ok (items.set position item) else panicked

def sub (left right : Nat) : Outcome ε Nat :=
  if right ≤ left then .ok (left - right) else panicked

def chunks (size : Nat) (items : List α) : List (List α) :=
  (List.range (items.length / size)).map fun position => (items.drop (position * size)).take size

/-- `chunks_exact`, which refuses a chunk size of zero by panicking. -/
def chunksExact (size : Nat) (items : List α) : Outcome ε (List (List α)) :=
  if size = 0 then panicked else .ok (chunks size items)

theorem index_ok {items : List α} {position : Nat} (bound : position < items.length) :
    (index items position : Outcome ε α) = .ok items[position] := by
  simp [index, bound]

theorem slice_ok {items : List α} {start stop : Nat} (ordered : start ≤ stop)
    (bound : stop ≤ items.length) :
    (slice items start stop : Outcome ε (List α)) = .ok ((items.take stop).drop start) := by
  simp [slice, ordered, bound]

theorem store_ok {items : List α} {position : Nat} {item : α} (bound : position < items.length) :
    (store items position item : Outcome ε (List α)) = .ok (items.set position item) := by
  simp [store, bound]

theorem sub_ok {left right : Nat} (ordered : right ≤ left) :
    (sub left right : Outcome ε Nat) = .ok (left - right) := by
  simp [sub, ordered]

theorem panics_chunksExact (size : Nat) (items : List α) :
    Panics (chunksExact size items : Outcome ε (List (List α))) ↔ size = 0 := by
  simp only [chunksExact]
  split <;> simp_all

/-! Which errors a call may return, read off from its parts in order. -/

def FailsWith (Said : ε → Prop) (outcome : Outcome ε α) : Prop :=
  ∀ error, outcome = fail error → Said error

section

variable {Said : ε → Prop}

theorem failsWith_ok (value : α) : FailsWith Said (.ok value : Outcome ε α) := by
  simp [FailsWith, fail]

theorem failsWith_panicked : FailsWith Said (panicked : Outcome ε α) := by
  simp [FailsWith, fail, panicked]

theorem failsWith_fail {error : ε} (said : Said error) : FailsWith Said (fail error : Outcome ε α) := by
  rintro other ⟨rfl⟩
  exact said

theorem FailsWith.bind {first : Outcome ε α} {second : α → Outcome ε β}
    (here : FailsWith Said first) (behind : ∀ value, FailsWith Said (second value)) :
    FailsWith Said (first >>= second) := by
  cases first with
  | ok value => exact behind value
  | error fault =>
      rintro error ⟨rfl⟩
      exact here error rfl

theorem failsWith_ensure {condition : Prop} [Decidable condition] {error : ε} (said : Said error) :
    FailsWith Said (ensure condition error) := by
  unfold ensure
  split
  · exact failsWith_ok ()
  · exact failsWith_fail said

theorem failsWith_index (items : List α) (position : Nat) :
    FailsWith Said (index items position : Outcome ε α) := by
  unfold index
  split
  · exact failsWith_ok _
  · exact failsWith_panicked

theorem failsWith_slice (items : List α) (start stop : Nat) :
    FailsWith Said (slice items start stop : Outcome ε (List α)) := by
  unfold slice
  split
  · exact failsWith_ok _
  · exact failsWith_panicked

theorem failsWith_sub (left right : Nat) : FailsWith Said (sub left right : Outcome ε Nat) := by
  unfold sub
  split
  · exact failsWith_ok _
  · exact failsWith_panicked

theorem failsWith_chunksExact (size : Nat) (items : List α) :
    FailsWith Said (chunksExact size items : Outcome ε (List (List α))) := by
  unfold chunksExact
  split
  · exact failsWith_panicked
  · exact failsWith_ok _

end

/-! Reading behind something already written: both offsets move by its length. -/

theorem slice_skip (front items : List α) {start stop : Nat} (past : front.length ≤ start)
    (ordered : start ≤ stop) :
    (slice (front ++ items) start stop : Outcome ε (List α)) =
      slice items (start - front.length) (stop - front.length) := by
  have bounds : (start ≤ stop ∧ stop ≤ (front ++ items).length) ↔
      (start - front.length ≤ stop - front.length ∧ stop - front.length ≤ items.length) := by
    rw [List.length_append]
    omega
  simp only [slice, bounds, List.take_append, List.drop_append,
    List.take_of_length_le (show front.length ≤ stop by omega), List.drop_eq_nil_of_le past,
    List.nil_append]

theorem index_skip (front items : List α) {position : Nat} (past : front.length ≤ position) :
    (index (front ++ items) position : Outcome ε α) = index items (position - front.length) := by
  simp [index, List.getElem?_append_right past]

@[simp] theorem index_here (item : α) (items : List α) :
    (index (item :: items) 0 : Outcome ε α) = .ok item := rfl

@[simp] theorem index_cons (item : α) (items : List α) {position : Nat} (past : 1 ≤ position) :
    (index (item :: items) position : Outcome ε α) = index items (position - 1) :=
  index_skip [item] items past

theorem chunks_flatten (size : Nat) (positive : 0 < size) (pieces : List (List α))
    (sized : ∀ piece ∈ pieces, piece.length = size) : chunks size pieces.flatten = pieces := by
  have total : pieces.flatten.length = pieces.length * size := by
    rw [List.length_flatten, List.map_congr_left sized]
    simp
  unfold chunks
  rw [total, Nat.mul_div_cancel _ positive]
  apply List.ext_getElem
  · simp
  · intro position _ bound
    simp only [List.getElem_map, List.getElem_range]
    have front : (pieces.take position).flatten.length = position * size := by
      rw [List.length_flatten, List.map_congr_left (fun piece member => sized piece
        (List.mem_of_mem_take member))]
      simp [Nat.min_eq_left (Nat.le_of_lt bound)]
    have split : pieces.flatten =
        (pieces.take position).flatten ++ (pieces[position] ++ (pieces.drop (position + 1)).flatten) := by
      rw [← List.flatten_cons, ← List.drop_eq_getElem_cons bound, ← List.flatten_append,
        List.take_append_drop]
    have width := sized pieces[position] (List.getElem_mem bound)
    rw [split, ← front, List.drop_left, List.take_append_of_le_length (by omega),
      List.take_of_length_le (by omega)]

theorem chunks_cons (size : Nat) (positive : 0 < size) {items : List α} (room : size ≤ items.length) :
    chunks size items = items.take size :: chunks size (items.drop size) := by
  have count : items.length / size = (items.length - size) / size + 1 :=
    Nat.div_eq_sub_div positive room
  simp only [chunks, count, List.length_drop, List.range_succ_eq_map, List.map_cons, List.map_map,
    Nat.zero_mul, List.drop_zero, List.cons.injEq, true_and]
  refine List.map_congr_left fun position _ => ?_
  simp only [Function.comp_apply, List.drop_drop, Nat.succ_mul, Nat.add_comm]

/-- Chunking items that divide evenly cuts them into as many pieces of the size, and loses none. -/
theorem chunks_exact {size count : Nat} (positive : 0 < size) {items : List α}
    (even : items.length = count * size) :
    (chunks size items).flatten = items ∧ (chunks size items).length = count ∧
      ∀ piece ∈ chunks size items, piece.length = size := by
  induction count generalizing items with
  | zero =>
      have empty : items = [] := List.length_eq_zero_iff.mp (by simpa using even)
      subst empty
      simp [chunks]
  | succ count ih =>
      rw [Nat.succ_mul] at even
      have room : size ≤ items.length := by omega
      obtain ⟨flat, number, sized⟩ := @ih (items.drop size) (by rw [List.length_drop]; omega)
      rw [chunks_cons size positive room]
      refine ⟨?_, by rw [List.length_cons, number], ?_⟩
      · rw [List.flatten_cons, flat, List.take_append_drop]
      · intro piece member
        rcases List.mem_cons.mp member with rfl | rest
        · rw [List.length_take, Nat.min_eq_left room]
        · exact sized piece rest

end Call
