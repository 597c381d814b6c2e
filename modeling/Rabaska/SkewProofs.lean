import Rabaska.SkewCore

/-! Healing a mixed set of files by reloading: how often it is tried hangs on whether the record of the
first try is kept and read. -/

namespace Rabaska.Shell

/-- A run of page loads, and what a load does in one of them. -/
abbrev Boots := Machine.Run (Machine.total main)

def Skewed (trace : List (Load × Boot)) : Prop := ∀ event ∈ trace, buildsAgree event.1 = false

instance (trace : List (Load × Boot)) : Decidable (Skewed trace) :=
  inferInstanceAs (Decidable (∀ _ ∈ _, _))

def reloads (trace : List (Load × Boot)) : Nat := trace.countP fun event => event.2 = .reloaded

/-- One automatic reload at most, and whatever load comes behind it stops with the message. -/
structure HealsOnce (trace : List (Load × Boot)) : Prop where
  once : reloads trace ≤ 1
  stops : ∀ front load back, trace = front ++ (load, .reloaded) :: back →
    ∀ later ∈ back, later.2 = .stopped mixedSet

/-- The record was there before the loads and one of them at most cannot read it; or it was not, and
there is a single load, or the first one keeps it and all later ones read it. -/
def Remembered (entry : Option String) : List Load → Prop
  | [] => True
  | load :: rest =>
      if entry = some "1" then (load :: rest).countP (fun load => load.storage = .getItemThrows) ≤ 1
      else rest = [] ∨ load.storage = .working ∧ ∀ later ∈ rest, later.storage ≠ .getItemThrows

variable {entry final next : Option String} {load : Load} {boot : Boot} {trace : List (Load × Boot)}

/-! One load. -/

theorem main_skewed (skewed : buildsAgree load = false) : main entry load = healSkew load.storage entry := by
  simp [main, skewed]

theorem healSkew_set (storage : Storage) : healSkew storage (some "1") =
    (if storage = .getItemThrows then .reloaded else .stopped mixedSet, some "1") := by
  cases storage <;> rfl

theorem healSkew_unset (unset : entry ≠ some "1") (storage : Storage) :
    healSkew storage entry = (.reloaded, if storage = .working then some "1" else entry) := by
  cases storage <;> simp [healSkew, unset]

theorem healSkew_stops {storage : Storage} (ended : (healSkew storage entry).1 ≠ .reloaded) :
    (healSkew storage entry).1 = .stopped mixedSet := by
  by_cases set : entry = some "1"
  · subst set
    rw [healSkew_set] at ended ⊢
    split at ended <;> simp_all
  · rw [healSkew_unset set] at ended
    exact absurd rfl ended

/-! All of them. -/

theorem stops_of_skewed (run : Boots entry trace final) (skewed : Skewed trace)
    {event : Load × Boot} (member : event ∈ trace) (ended : event.2 ≠ .reloaded) :
    event.2 = .stopped mixedSet := by
  obtain ⟨front, back, rfl⟩ := List.append_of_mem member
  obtain ⟨load, boot⟩ := event
  obtain ⟨before, after, -, booted, -⟩ := run.event
  have answer : main before load = (boot, after) := Option.some_inj.mp booted
  rw [main_skewed (skewed (load, boot) member)] at answer
  have stopped := @healSkew_stops before load.storage
  rw [answer] at stopped
  exact stopped ended

theorem healsOnce_iff (run : Boots entry trace final) (skewed : Skewed trace) :
    HealsOnce trace ↔ reloads trace ≤ 1 := by
  refine ⟨HealsOnce.once, fun once => ⟨once, fun front load back split later member => ?_⟩⟩
  subst split
  refine stops_of_skewed run skewed (by simp [member]) fun again => ?_
  have more : 0 < reloads back := List.countP_pos_iff.mpr ⟨later, member, by simp [again]⟩
  simp only [reloads, List.countP_append, List.countP_cons] at once more
  simp at once
  omega

theorem boots_cons (run : Boots entry ((load, boot) :: trace) final)
    (skewed : Skewed ((load, boot) :: trace)) :
    ∃ next, healSkew load.storage entry = (boot, next) ∧ Boots next trace final ∧ Skewed trace := by
  obtain ⟨here, behind⟩ := List.forall_mem_cons.mp skewed
  cases run with
  | cons booted rest =>
      have answer := Option.some_inj.mp booted
      rw [main_skewed here] at answer
      exact ⟨_, answer, rest, behind⟩

/-- With the record in place a load reloads exactly when it cannot read it. -/
theorem reloads_set (run : Boots (some "1") trace final) (skewed : Skewed trace) :
    reloads trace = (trace.map Prod.fst).countP fun load => load.storage = .getItemThrows := by
  induction trace with
  | nil => rfl
  | cons event trace ih =>
      obtain ⟨load, boot⟩ := event
      obtain ⟨next, healed, rest, behind⟩ := boots_cons run skewed
      rw [healSkew_set] at healed
      obtain ⟨rfl, rfl⟩ := Prod.mk.inj healed
      have later := ih rest behind
      rw [reloads, List.countP_cons, ← reloads, later, List.map_cons, List.countP_cons]
      by_cases blind : load.storage = .getItemThrows <;> simp [blind]

theorem reloads_unset (unset : entry ≠ some "1") (run : Boots entry ((load, boot) :: trace) final)
    (skewed : Skewed ((load, boot) :: trace)) :
    reloads ((load, boot) :: trace) = reloads trace + 1 ∧
      Boots (if load.storage = .working then some "1" else entry) trace final ∧ Skewed trace := by
  obtain ⟨next, healed, rest, behind⟩ := boots_cons run skewed
  rw [healSkew_unset unset] at healed
  obtain ⟨rfl, rfl⟩ := Prod.mk.inj healed
  exact ⟨by simp [reloads], rest, behind⟩

/-- Loads of a mixed set heal once at most exactly when the record of the first try is kept and read. -/
theorem heals_once_iff (run : Boots entry trace final) (skewed : Skewed trace) :
    HealsOnce trace ↔ Remembered entry (trace.map Prod.fst) := by
  rw [healsOnce_iff run skewed]
  cases trace with
  | nil => exact iff_of_true (Nat.zero_le _) trivial
  | cons event trace =>
      obtain ⟨load, boot⟩ := event
      by_cases set : entry = some "1"
      · subst set
        rw [reloads_set run skewed]
        simp [Remembered]
      · obtain ⟨first, rest, behind⟩ := reloads_unset set run skewed
        rw [first]
        simp only [List.map_cons, Remembered, if_neg set, List.map_eq_nil_iff]
        by_cases kept : load.storage = .working
        · rw [if_pos kept] at rest
          have none : reloads trace + 1 ≤ 1 ↔
              ∀ later ∈ trace.map Prod.fst, later.storage ≠ .getItemThrows := by
            rw [Nat.succ_le_succ_iff, Nat.le_zero, reloads_set rest behind, List.countP_eq_zero]
            simp
          rw [none]
          constructor
          · exact fun heard => .inr ⟨kept, heard⟩
          · rintro (rfl | ⟨-, heard⟩)
            · simp
            · exact heard
        · rw [if_neg kept] at rest
          cases trace with
          | nil => simp [reloads]
          | cons event trace =>
              obtain ⟨second, -, -⟩ := reloads_unset set rest behind
              simp [second, kept]

def mixedLoad (storage : Storage) : Load where
  build := "a1"
  glueBuild := some "b2"
  wasmBuild := some "b2"
  storage := storage

theorem reload_loops : ∃ trace final, Boots none trace final ∧ Skewed trace ∧
    trace.map Prod.fst = List.replicate 3 (mixedLoad .getItemThrows) ∧ ¬HealsOnce trace := by
  refine ⟨List.replicate 3 (mixedLoad .getItemThrows, .reloaded), none,
    .cons rfl (.cons rfl (.cons rfl (.nil none))), by decide, rfl, fun heals => ?_⟩
  exact absurd heals.once (by decide)

theorem heals_once_kept : ∃ trace final, Boots none trace final ∧
    trace.map Prod.fst = [mixedLoad .working, mixedLoad .setItemThrows] ∧ HealsOnce trace := by
  have run : Boots none [(mixedLoad .working, .reloaded),
      (mixedLoad .setItemThrows, .stopped mixedSet)] (some "1") := .cons rfl (.cons rfl (.nil _))
  exact ⟨_, _, run, rfl, (heals_once_iff run (by decide)).mpr (.inr ⟨rfl, by decide⟩)⟩

end Rabaska.Shell
