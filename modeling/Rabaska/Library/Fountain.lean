import Rabaska.Library.Machine

/-! Collecting a fountain-coded object: an abstract receiver that knows only which packets it was
offered, and when it completes. -/

namespace Fountain

variable {α : Type}

/-- Which sets of packets suffice to rebuild the object. -/
structure Code (α : Type) where
  Suffices : Set α → Prop
  mono : ∀ {few many : Set α}, few ⊆ many → Suffices few → Suffices many
  not_empty : ¬Suffices ∅

inductive Event (α : Type) where
  | announced
  | offered (packets : Set α)

inductive Answer where
  | ignored
  | acquired
  | progress
  | complete

structure Collector (α : Type) where
  acquired : Bool
  gathered : Set α
  done : Bool

def Collector.new : Collector α := { acquired := false, gathered := ∅, done := false }

open Classical in
noncomputable def step (code : Code α) (collector : Collector α) :
    Event α → Answer × Collector α
  | .announced =>
      if collector.done ∨ collector.acquired then (.ignored, collector)
      else (.acquired, { collector with acquired := true })
  | .offered packets =>
      let gathered := collector.gathered ∪ packets
      if collector.done then (.ignored, collector)
      else if ¬collector.acquired then (.ignored, { collector with gathered })
      else if code.Suffices gathered then (.complete, { collector with gathered, done := true })
      else (.progress, { collector with gathered })

/-! What a step does, case by case. -/

theorem step_done (code : Code α) {collector : Collector α} (finished : collector.done = true)
    (event : Event α) : step code collector event = (.ignored, collector) := by
  cases event <;> simp [step, finished]

theorem step_announced_again (code : Code α) {collector : Collector α}
    (heard : collector.acquired = true) : step code collector .announced = (.ignored, collector) := by
  simp [step, heard]

theorem step_announced_first (code : Code α) {collector : Collector α}
    (running : collector.done = false) (unheard : collector.acquired = false) :
    step code collector .announced = (.acquired, { collector with acquired := true }) := by
  simp [step, running, unheard]

theorem step_offered_early (code : Code α) {collector : Collector α} (packets : Set α)
    (running : collector.done = false) (unheard : collector.acquired = false) :
    step code collector (.offered packets) =
      (.ignored, { collector with gathered := collector.gathered ∪ packets }) := by
  simp [step, running, unheard]

theorem step_offered_enough (code : Code α) {collector : Collector α} {packets : Set α}
    (running : collector.done = false) (heard : collector.acquired = true)
    (enough : code.Suffices (collector.gathered ∪ packets)) :
    step code collector (.offered packets) =
      (.complete, { collector with gathered := collector.gathered ∪ packets, done := true }) := by
  simp [step, running, heard, enough]

theorem step_offered_lacking (code : Code α) {collector : Collector α} {packets : Set α}
    (running : collector.done = false) (heard : collector.acquired = true)
    (lacking : ¬code.Suffices (collector.gathered ∪ packets)) :
    step code collector (.offered packets) =
      (.progress, { collector with gathered := collector.gathered ∪ packets }) := by
  simp [step, running, heard, lacking]

theorem step_finished_iff (code : Code α) (collector : Collector α) (event : Event α) :
    (step code collector event).2.done = true ↔
      collector.done = true ∨ (step code collector event).1 = .complete := by
  cases running : collector.done with
  | true => simp [step_done code running, running]
  | false =>
      cases event with
      | announced =>
          cases heard : collector.acquired with
          | true => simp [step_announced_again code heard, running]
          | false => simp [step_announced_first code running heard, running]
      | offered packets =>
          cases heard : collector.acquired with
          | false => simp [step_offered_early code packets running heard, running]
          | true =>
              by_cases enough : code.Suffices (collector.gathered ∪ packets)
              · simp [step_offered_enough code running heard enough]
              · simp [step_offered_lacking code running heard enough, running]

theorem step_heard_iff (code : Code α) (collector : Collector α) (event : Event α) :
    ((step code collector event).1 = .acquired → collector.acquired = false) ∧
      ((step code collector event).2.acquired = true ↔
        collector.acquired = true ∨ (step code collector event).1 = .acquired) := by
  cases running : collector.done with
  | true => simp [step_done code running]
  | false =>
      cases event with
      | announced =>
          cases heard : collector.acquired with
          | true => simp [step_announced_again code heard, heard]
          | false => simp [step_announced_first code running heard]
      | offered packets =>
          cases heard : collector.acquired with
          | false => simp [step_offered_early code packets running heard, heard]
          | true =>
              by_cases enough : code.Suffices (collector.gathered ∪ packets)
              · simp [step_offered_enough code running heard enough, heard]
              · simp [step_offered_lacking code running heard enough, heard]

theorem step_announced_running (code : Code α) {collector : Collector α}
    (running : collector.done = false) : (step code collector .announced).2.done = false := by
  cases heard : collector.acquired with
  | true => rwa [step_announced_again code heard]
  | false => rwa [step_announced_first code running heard]

theorem step_announced_heard (code : Code α) {collector : Collector α}
    (running : collector.done = false) : (step code collector .announced).2.acquired = true := by
  cases heard : collector.acquired with
  | true => rwa [step_announced_again code heard]
  | false => rw [step_announced_first code running heard]

/-! The events that came before, and what they decide. -/

def offeredBy (events : List (Event α)) : Set α :=
  {packet | ∃ packets, .offered packets ∈ events ∧ packet ∈ packets}

/-- The event that completes: packets that suffice with all offered before, once the object has
been announced. -/
def Ready (code : Code α) (past : List (Event α)) : Event α → Prop
  | .announced => False
  | .offered packets => .announced ∈ past ∧ code.Suffices (offeredBy past ∪ packets)

def WasReady (code : Code α) (events : List (Event α)) : Prop :=
  ∃ past event rest, events = past ++ event :: rest ∧ Ready code past event

theorem offeredBy_snoc_offered (past : List (Event α)) (packets : Set α) :
    offeredBy (past ++ [.offered packets]) = offeredBy past ∪ packets := by
  ext packet
  constructor
  · rintro ⟨others, member, inside⟩
    rcases List.mem_append.mp member with before | last
    · exact .inl ⟨others, before, inside⟩
    · obtain rfl : others = packets := by simpa using last
      exact .inr inside
  · rintro (⟨others, before, inside⟩ | inside)
    · exact ⟨others, List.mem_append_left _ before, inside⟩
    · exact ⟨packets, by simp, inside⟩

theorem offeredBy_snoc_announced (past : List (Event α)) :
    offeredBy (past ++ [.announced]) = offeredBy past := by
  ext packet
  simp [offeredBy]

theorem wasReady_snoc (code : Code α) (past : List (Event α)) (event : Event α) :
    WasReady code (past ++ [event]) ↔ WasReady code past ∨ Ready code past event := by
  constructor
  · rintro ⟨before, ready, rest, split, holds⟩
    rcases List.eq_nil_or_concat rest with rfl | ⟨others, last, rfl⟩
    · obtain ⟨rfl, same⟩ := List.append_inj' split rfl
      obtain rfl := List.singleton_inj.mp same
      exact .inr holds
    · rw [List.concat_eq_append, ← List.cons_append, ← List.append_assoc] at split
      obtain ⟨rfl, -⟩ := List.append_inj' split rfl
      exact .inl ⟨before, ready, others, rfl, holds⟩
  · rintro (⟨before, ready, rest, rfl, holds⟩ | holds)
    · exact ⟨before, ready, rest ++ [event], by simp, holds⟩
    · exact ⟨past, event, [], rfl, holds⟩

/-- The collector's state says what has happened so far. -/
structure Reflects (code : Code α) (past : List (Event α)) (collector : Collector α) : Prop where
  done : collector.done = true ↔ WasReady code past
  acquired : collector.done = false → (collector.acquired = true ↔ .announced ∈ past)
  gathered : collector.done = false → collector.gathered = offeredBy past

theorem reflects_new (code : Code α) : Reflects code [] Collector.new := by
  refine ⟨?_, fun _ => by simp [Collector.new], fun _ => by simp [Collector.new, offeredBy]⟩
  simp [Collector.new, WasReady]

def Verdict (code : Code α) (past : List (Event α)) (event : Event α) (answer : Answer) : Prop :=
  (WasReady code past → answer = .ignored) ∧
    (¬WasReady code past → (answer = .complete ↔ Ready code past event))

theorem reflects_finished {code : Code α} {past : List (Event α)} {collector : Collector α}
    (reflects : Reflects code past collector) (event : Event α) (finished : collector.done = true) :
    Reflects code (past ++ [event]) (step code collector event).2 ∧
      Verdict code past event (step code collector event).1 := by
  have was := reflects.done.mp finished
  have still : WasReady code (past ++ [event]) := (wasReady_snoc code past event).mpr (.inl was)
  rw [step_done code finished]
  refine ⟨⟨⟨fun _ => still, fun _ => finished⟩, ?_, ?_⟩, fun _ => rfl, fun fresh => absurd was fresh⟩
  · intro running
    simp [finished] at running
  · intro running
    simp [finished] at running

theorem reflects_announced {code : Code α} {past : List (Event α)} {collector : Collector α}
    (reflects : Reflects code past collector) (running : collector.done = false) :
    Reflects code (past ++ [.announced]) (step code collector .announced).2 ∧
      Verdict code past .announced (step code collector .announced).1 := by
  have fresh : ¬WasReady code past := by
    rw [← reflects.done]
    simp [running]
  have never : ¬WasReady code (past ++ [.announced]) := by
    rw [wasReady_snoc]
    exact not_or.mpr ⟨fresh, fun ready => ready⟩
  have gathered := (reflects.gathered running).trans (offeredBy_snoc_announced past).symm
  cases heard : collector.acquired with
  | true =>
      rw [step_announced_again code heard]
      refine ⟨⟨by simp [running, never], fun _ => by simp [heard], fun _ => gathered⟩,
        fun was => absurd was fresh, fun _ => ?_⟩
      simp [Ready]
  | false =>
      rw [step_announced_first code running heard]
      refine ⟨⟨by simp [running, never], fun _ => by simp, fun _ => gathered⟩,
        fun was => absurd was fresh, fun _ => ?_⟩
      simp [Ready]

theorem reflects_offered {code : Code α} {past : List (Event α)} {collector : Collector α}
    (reflects : Reflects code past collector) (packets : Set α) (running : collector.done = false) :
    Reflects code (past ++ [.offered packets]) (step code collector (.offered packets)).2 ∧
      Verdict code past (.offered packets) (step code collector (.offered packets)).1 := by
  have fresh : ¬WasReady code past := by
    rw [← reflects.done]
    simp [running]
  have was : WasReady code (past ++ [.offered packets]) ↔ Ready code past (.offered packets) := by
    rw [wasReady_snoc, or_iff_right fresh]
  have ready : Ready code past (.offered packets) ↔
      collector.acquired = true ∧ code.Suffices (collector.gathered ∪ packets) := by
    rw [reflects.acquired running, reflects.gathered running]
    rfl
  have announced : .announced ∈ past ++ [.offered packets] ↔ .announced ∈ past := by simp
  have gathered : collector.gathered ∪ packets = offeredBy (past ++ [.offered packets]) := by
    rw [offeredBy_snoc_offered, reflects.gathered running]
  rw [Verdict, ready]
  cases heard : collector.acquired with
  | false =>
      rw [step_offered_early code packets running heard]
      refine ⟨⟨?_, fun _ => ?_, fun _ => gathered⟩, fun happened => absurd happened fresh, fun _ => by simp⟩
      · rw [was, ready]
        simp [running, heard]
      · rw [announced, ← reflects.acquired running]
  | true =>
      by_cases enough : code.Suffices (collector.gathered ∪ packets)
      · rw [step_offered_enough code running heard enough]
        refine ⟨⟨?_, ?_, ?_⟩, fun happened => absurd happened fresh, fun _ => by simp [enough]⟩
        · rw [was, ready]
          simp [heard, enough]
        · intro unfinished
          simp at unfinished
        · intro unfinished
          simp at unfinished
      · rw [step_offered_lacking code running heard enough]
        refine ⟨⟨?_, fun _ => ?_, fun _ => gathered⟩, fun happened => absurd happened fresh,
          fun _ => by simp [enough]⟩
        · rw [was, ready]
          simp [running, enough]
        · rw [announced, ← reflects.acquired running]

theorem step_reflects {code : Code α} {past : List (Event α)} {collector : Collector α}
    (reflects : Reflects code past collector) (event : Event α) :
    Reflects code (past ++ [event]) (step code collector event).2 ∧
      Verdict code past event (step code collector event).1 := by
  cases running : collector.done with
  | true => exact reflects_finished reflects event running
  | false =>
      cases event with
      | announced => exact reflects_announced reflects running
      | offered packets => exact reflects_offered reflects packets running

theorem run_reflects {code : Code α} {final : Collector α} {trace : List (Event α × Answer)}
    (run : Machine.Run (Machine.total (step code)) Collector.new trace final) :
    Reflects code (trace.map Prod.fst) final := by
  refine run.history (fun past => Reflects code (past.map Prod.fst)) ?_ (reflects_new code)
  intro past before event answer after reflects stepped
  obtain rfl : (step code before event).2 = after := congrArg Prod.snd (Option.some_inj.mp stepped)
  rw [List.map_append]
  exact (step_reflects reflects event).1

/-- In every run, each answer is the verdict on the events before it. -/
theorem run_verdict {code : Code α} {final : Collector α} {front back : List (Event α × Answer)}
    {event : Event α} {answer : Answer}
    (run : Machine.Run (Machine.total (step code)) Collector.new (front ++ (event, answer) :: back) final) :
    Verdict code (front.map Prod.fst) event answer := by
  obtain ⟨before, after, first, stepped, -⟩ := run.event
  obtain rfl : (step code before event).1 = answer := congrArg Prod.fst (Option.some_inj.mp stepped)
  exact (step_reflects (run_reflects first) event).2

end Fountain
