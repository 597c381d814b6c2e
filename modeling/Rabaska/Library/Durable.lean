import Mathlib

/-! A store that is written behind: writes wait in a queue and are committed in their order, and a crash
loses those that still wait. -/

namespace Durable

variable {α β : Type}

structure Store (α : Type) where
  stored : α
  queue : List α
  deriving DecidableEq, Repr

namespace Store

variable (store : Store α)

def write (value : α) : Store α := { store with queue := store.queue ++ [value] }

def commit : Store α :=
  match store.queue with
  | [] => store
  | value :: queue => { stored := value, queue }

def crash : Store α := { store with queue := [] }

/-- What is stored, and what is on its way there. -/
def values : List α := store.stored :: store.queue

/-- What is stored when nothing waits any more. -/
def settled : α := store.values.getLast (List.cons_ne_nil _ _)

variable {store} {value : α}

theorem values_write : (store.write value).values = store.values ++ [value] := rfl

@[simp] theorem settled_write : (store.write value).settled = value := by
  simp [settled, values_write]

theorem commit_cases (store : Store α) : store.commit = store ∨
    ∃ value queue, store.queue = value :: queue ∧ store.commit = { stored := value, queue } := by
  cases waiting : store.queue with
  | nil => exact .inl (by simp [commit, waiting])
  | cons value queue => exact .inr ⟨value, queue, rfl, by simp [commit, waiting]⟩

theorem values_commit (store : Store α) : store.commit.values <:+ store.values := by
  rcases store.commit_cases with same | ⟨value, queue, waiting, committed⟩
  · rw [same]
  · refine ⟨[store.stored], ?_⟩
    rw [committed, values, values, waiting]
    rfl

@[simp] theorem settled_commit : store.commit.settled = store.settled := by
  rcases store.commit_cases with same | ⟨value, queue, waiting, committed⟩
  · rw [same]
  · simp [settled, values, waiting, committed]

theorem values_crash (store : Store α) : store.crash.values <+: store.values := ⟨store.queue, rfl⟩

/-! Measured by what it keeps, every write keeps what the ones before it keep, and a bound keeps what
all of them do. -/

variable [Preorder β] {measure : α → β} {top higher : β}

def Rising (measure : α → β) (top : β) (store : Store α) : Prop :=
  (store.values.map measure ++ [top]).Pairwise (· ≤ ·)

theorem rising_idle (measure : α → β) (value : α) :
    Rising measure (measure value) { stored := value, queue := [] } := by
  simp [Rising, values]

theorem Rising.below (rising : store.Rising measure top) {value : α} (member : value ∈ store.values) :
    measure value ≤ top :=
  (List.pairwise_append.mp rising).2.2 _ (List.mem_map_of_mem member) top (List.mem_singleton_self top)

theorem Rising.raise (rising : store.Rising measure top) (above : top ≤ higher) :
    store.Rising measure higher := by
  obtain ⟨ordered, -, -⟩ := List.pairwise_append.mp rising
  refine List.pairwise_append.mpr ⟨ordered, List.pairwise_singleton _ _, fun kept member last same => ?_⟩
  obtain ⟨value, inside, rfl⟩ := List.mem_map.mp member
  rw [List.mem_singleton.mp same]
  exact (rising.below inside).trans above

theorem Rising.write (rising : store.Rising measure top) (above : top ≤ measure value) :
    (store.write value).Rising measure (measure value) := by
  have raised := rising.raise above
  rw [Rising, values_write, List.map_append]
  refine List.pairwise_append.mpr ⟨raised, List.pairwise_singleton _ _, fun kept member last same => ?_⟩
  rw [List.mem_singleton.mp same]
  rcases List.mem_append.mp member with before | now
  · obtain ⟨value, inside, rfl⟩ := List.mem_map.mp before
    exact raised.below inside
  · rw [List.mem_singleton.mp now]

theorem Rising.commit (rising : store.Rising measure top) : store.commit.Rising measure top := by
  have fewer := ((values_commit store).sublist.map measure).append (List.Sublist.refl [top])
  exact rising.sublist fewer

/-- What is stored stays below whatever is committed later. -/
theorem Rising.stored_commit (rising : store.Rising measure top) :
    measure store.stored ≤ measure store.commit.stored := by
  rcases store.commit_cases with same | ⟨value, queue, waiting, committed⟩
  · rw [same]
  · rw [committed]
    rw [Rising, values, waiting] at rising
    exact (List.pairwise_cons.mp rising).1 _ (by simp)

end Store

end Durable
