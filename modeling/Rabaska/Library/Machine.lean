import Mathlib

/-! Runs of a step function that answers each input with an output, or crashes. -/

namespace Machine

variable {σ τ ι ο : Type}

inductive Run (step : σ → ι → Option (ο × σ)) : σ → List (ι × ο) → σ → Prop
  | nil (state) : Run step state [] state
  | cons {state input output next trace final} : step state input = some (output, next) →
      Run step next trace final → Run step state ((input, output) :: trace) final

def total (step : σ → ι → ο × σ) (state : σ) (input : ι) : Option (ο × σ) := some (step state input)

variable {step : σ → ι → Option (ο × σ)} {state middle final : σ} {front back : List (ι × ο)}

theorem Run.split (run : Run step state (front ++ back) final) :
    ∃ middle, Run step state front middle ∧ Run step middle back final := by
  induction front generalizing state with
  | nil => exact ⟨state, .nil state, run⟩
  | cons event front ih =>
      cases run with
      | cons stepped rest =>
          obtain ⟨middle, first, second⟩ := ih rest
          exact ⟨middle, .cons stepped first, second⟩

theorem Run.event {input : ι} {output : ο}
    (run : Run step state (front ++ (input, output) :: back) final) :
    ∃ before after, Run step state front before ∧ step before input = some (output, after) ∧
      Run step after back final := by
  obtain ⟨before, first, second⟩ := run.split
  cases second with
  | cons stepped rest => exact ⟨before, _, first, stepped, rest⟩

theorem Run.once (turn : σ → ι → ο × σ) (state : σ) (input : ι) :
    Run (total turn) state [(input, (turn state input).1)] (turn state input).2 := .cons rfl (.nil _)

theorem Run.append (first : Run step state front middle) (second : Run step middle back final) :
    Run step state (front ++ back) final := by
  induction first with
  | nil => exact second
  | cons stepped _ ih => exact .cons stepped (ih second)

/-- What holds of the empty past at the start and is kept by every step holds of the whole past at
the end of every run. -/
theorem Run.history (Inv : List (ι × ο) → σ → Prop)
    (kept : ∀ past before input output after, Inv past before →
      step before input = some (output, after) → Inv (past ++ [(input, output)]) after)
    (start : Inv [] state) (run : Run step state front final) : Inv front final := by
  suffices general : ∀ past, Inv past state → Inv (past ++ front) final from general [] start
  clear start
  induction run with
  | nil =>
      intro past start
      rwa [List.append_nil]
  | cons stepped _ ih =>
      intro past start
      have rest := ih _ (kept _ _ _ _ _ start stepped)
      rwa [List.append_assoc, List.singleton_append] at rest

theorem Run.invariant (Inv : σ → Prop) (kept : ∀ before input output after, Inv before →
      step before input = some (output, after) → Inv after)
    (start : Inv state) (run : Run step state front final) : Inv final :=
  run.history (fun _ => Inv) (fun _ => kept) start

/-- The same where every event of the run is as said. -/
theorem Run.history_on (Meets : ι × ο → Prop) (Inv : List (ι × ο) → σ → Prop)
    (kept : ∀ past before input output after, Meets (input, output) → Inv past before →
      step before input = some (output, after) → Inv (past ++ [(input, output)]) after)
    (start : Inv [] state) (meets : ∀ event ∈ front, Meets event) (run : Run step state front final) :
    Inv front final := by
  refine run.history (fun past now => (∀ event ∈ past, Meets event) → Inv past now) ?_
    (fun _ => start) meets
  intro past before input output after earlier stepped all
  have last := all (input, output) (by simp)
  exact kept past before input output after last
    (earlier fun event member => all event (List.mem_append_left _ member)) stepped

theorem Run.invariant_on (Meets : ι × ο → Prop) (Inv : σ → Prop)
    (kept : ∀ before input output after, Meets (input, output) → Inv before →
      step before input = some (output, after) → Inv after)
    (start : Inv state) (meets : ∀ event ∈ front, Meets event) (run : Run step state front final) :
    Inv final :=
  run.history_on Meets (fun _ => Inv) (fun _ => kept) start meets

def Attains (step : σ → ι → Option (ο × σ)) (Goal : σ → Prop) (state : σ) : Prop :=
  ∃ trace final, Run step state trace final ∧ Goal final

theorem Attains.here {Goal : σ → Prop} (goal : Goal state) : Attains step Goal state :=
  ⟨[], state, .nil state, goal⟩

theorem Attains.after {Goal : σ → Prop} {input : ι} {output : ο}
    (stepped : step state input = some (output, middle)) (attains : Attains step Goal middle) :
    Attains step Goal state := by
  obtain ⟨trace, final, run, goal⟩ := attains
  exact ⟨_, final, .cons stepped run, goal⟩

theorem Attains.trans {Middle Goal : σ → Prop} (attains : Attains step Middle state)
    (onward : ∀ middle, Middle middle → Attains step Goal middle) : Attains step Goal state := by
  obtain ⟨front, middle, first, reached⟩ := attains
  obtain ⟨back, final, second, goal⟩ := onward middle reached
  exact ⟨_, final, first.append second, goal⟩

theorem Attains.mono {Middle Goal : σ → Prop} (attains : Attains step Middle state)
    (weaker : ∀ state, Middle state → Goal state) : Attains step Goal state :=
  attains.trans fun _ reached => .here (weaker _ reached)

/-- The trace is a run from the state, and every step of it is as said. -/
def Along (step : σ → ι → Option (ο × σ)) (Meets : σ → ι → ο → σ → Prop) : σ → List (ι × ο) → Prop
  | _, [] => True
  | state, (input, output) :: trace => ∃ next, step state input = some (output, next) ∧
      Meets state input output next ∧ Along step Meets next trace

theorem along_cons_iff {Meets : σ → ι → ο → σ → Prop} {input : ι} {output : ο} {next : σ}
    {trace : List (ι × ο)} (stepped : step state input = some (output, next)) :
    Along step Meets state ((input, output) :: trace) ↔
      Meets state input output next ∧ Along step Meets next trace := by
  constructor
  · rintro ⟨other, again, meets, rest⟩
    obtain ⟨-, rfl⟩ := Prod.mk.inj (Option.some_inj.mp (stepped.symm.trans again))
    exact ⟨meets, rest⟩
  · rintro ⟨meets, rest⟩
    exact ⟨next, stepped, meets, rest⟩

theorem Along.invariant {First Second : σ → ι → ο → σ → Prop} {trace : List (ι × ο)} (Inv : σ → Prop)
    (kept : ∀ before input output after, Inv before → step before input = some (output, after) →
      First before input output after → Second before input output after ∧ Inv after)
    (start : Inv state) (along : Along step First state trace) : Along step Second state trace := by
  induction trace generalizing state with
  | nil => trivial
  | cons event trace ih =>
      obtain ⟨next, stepped, first, rest⟩ := along
      obtain ⟨second, after⟩ := kept _ _ _ _ start stepped first
      exact ⟨next, stepped, second, ih after rest⟩

theorem Along.and {First Second : σ → ι → ο → σ → Prop} {trace : List (ι × ο)}
    (first : Along step First state trace) (second : Along step Second state trace) :
    Along step (fun before input output after => First before input output after ∧
      Second before input output after) state trace := by
  induction trace generalizing state with
  | nil => trivial
  | cons event trace ih =>
      obtain ⟨next, stepped, here, rest⟩ := first
      obtain ⟨also, others⟩ := (along_cons_iff stepped).mp second
      exact ⟨next, stepped, ⟨here, also⟩, ih rest others⟩

theorem Along.mono {First Second : σ → ι → ο → σ → Prop} {trace : List (ι × ο)}
    (along : Along step First state trace) (weaker : ∀ before input output after,
      First before input output after → Second before input output after) :
    Along step Second state trace :=
  along.invariant (fun _ => True) (fun _ _ _ _ _ _ first => ⟨weaker _ _ _ _ first, trivial⟩) trivial

theorem Run.along {Meets : ι → Prop} {trace : List (ι × ο)} (run : Run step state trace final)
    (meets : ∀ event ∈ trace, Meets event.1) :
    Along step (fun _ input _ _ => Meets input) state trace := by
  induction run with
  | nil => trivial
  | cons stepped _ ih =>
      obtain ⟨now, later⟩ := List.forall_mem_cons.mp meets
      exact ⟨_, stepped, now, ih later⟩

theorem Run.invariant_along {Meets : σ → ι → ο → σ → Prop} {trace : List (ι × ο)} (Inv : σ → Prop)
    (kept : ∀ before input output after, Inv before → Meets before input output after →
      step before input = some (output, after) → Inv after)
    (start : Inv state) (along : Along step Meets state trace) (run : Run step state trace final) :
    Inv final := by
  induction run with
  | nil => exact start
  | cons stepped _ ih =>
      obtain ⟨meets, rest⟩ := (along_cons_iff stepped).mp along
      exact ih (kept _ _ _ _ start meets stepped) rest

/-- Two things are the same to say of every step of a run when they are of each step from a state
that the second has kept in order. -/
theorem along_iff {First Second : σ → ι → ο → σ → Prop} (Inv : σ → Prop)
    (kept : ∀ before input output after, Inv before → step before input = some (output, after) →
      (First before input output after ↔ Second before input output after) ∧
        (Second before input output after → Inv after))
    (start : Inv state) (trace : List (ι × ο)) :
    Along step First state trace ↔ Along step Second state trace := by
  induction trace generalizing state with
  | nil => exact Iff.rfl
  | cons event trace ih =>
      obtain ⟨input, output⟩ := event
      constructor
      · rintro ⟨next, stepped, first, rest⟩
        obtain ⟨same, keeps⟩ := kept state input output next start stepped
        have second := same.mp first
        exact ⟨next, stepped, second, (ih (keeps second)).mp rest⟩
      · rintro ⟨next, stepped, second, rest⟩
        obtain ⟨same, keeps⟩ := kept state input output next start stepped
        exact ⟨next, stepped, same.mpr second, (ih (keeps second)).mpr rest⟩

/-- Each of the inputs, in the state it finds, is as said. -/
def Throughout (step : σ → ι → Option (ο × σ)) (Meets : σ → ι → Prop) : σ → List ι → Prop
  | _, [] => True
  | state, input :: inputs => Meets state input ∧
      ∀ output next, step state input = some (output, next) → Throughout step Meets next inputs

/-- Inputs that each meet a condition are those with a run of good steps, when the condition says of
each input whether its step is a good one, and good steps keep the state in order. -/
theorem exists_along_iff {Good : σ → ι → ο → σ → Prop} {Meets : σ → ι → Prop} (Inv : σ → Prop)
    (kept : ∀ before input, Inv before →
      (Meets before input ↔ ∃ output after, step before input = some (output, after) ∧
        Good before input output after) ∧
      ∀ output after, Meets before input → step before input = some (output, after) → Inv after)
    (start : Inv state) (inputs : List ι) :
    (∃ trace, trace.map Prod.fst = inputs ∧ Along step Good state trace) ↔
      Throughout step Meets state inputs := by
  induction inputs generalizing state with
  | nil =>
      constructor
      · exact fun _ => trivial
      · exact fun _ => ⟨[], rfl, trivial⟩
  | cons input inputs ih =>
      obtain ⟨decides, keeps⟩ := kept state input start
      constructor
      · rintro ⟨trace, shape, along⟩
        obtain ⟨⟨_, output⟩, trace, rfl, rfl, rfl⟩ := List.map_eq_cons_iff.mp shape
        obtain ⟨next, stepped, good, rest⟩ := along
        have meets := decides.mpr ⟨output, next, stepped, good⟩
        refine ⟨meets, fun other after again => ?_⟩
        obtain ⟨rfl, rfl⟩ := Prod.mk.inj (Option.some_inj.mp (stepped.symm.trans again))
        exact (ih (keeps _ _ meets stepped)).mp ⟨trace, rfl, rest⟩
      · rintro ⟨meets, rest⟩
        obtain ⟨output, next, stepped, good⟩ := decides.mp meets
        obtain ⟨trace, rfl, along⟩ := (ih (keeps _ _ meets stepped)).mpr (rest _ _ stepped)
        exact ⟨(input, output) :: trace, rfl, next, stepped, good, along⟩

/-- A trace without the events that are dropped, each judged by the events before it. -/
def prune (drop : List (ι × ο) → ι × ο → Bool) : List (ι × ο) → List (ι × ο) → List (ι × ο)
  | _, [] => []
  | past, event :: trace =>
      let rest := prune drop (past ++ [event]) trace
      if drop past event then rest else event :: rest

/-- When dropped events do not leave a relation between states, and the others are answered alike in
related states, a run is still one without the dropped events. -/
theorem Run.pruned {drop : List (ι × ο) → ι × ο → Bool} {trace : List (ι × ο)}
    (Rel : List (ι × ο) → σ → σ → Prop)
    (dropped : ∀ past before other input output after rest, Rel past before other →
      step before input = some (output, after) → Run step after rest final →
      drop past (input, output) = true → Rel (past ++ [(input, output)]) after other)
    (kept : ∀ past before other input output after rest, Rel past before other →
      step before input = some (output, after) → Run step after rest final →
      ∃ next, step other input = some (output, next) ∧ Rel (past ++ [(input, output)]) after next)
    {past : List (ι × ο)} {other : σ} (start : Rel past state other) (run : Run step state trace final) :
    ∃ last, Run step other (prune drop past trace) last ∧ Rel (past ++ trace) final last := by
  induction run generalizing past other with
  | nil state => exact ⟨other, .nil other, by rwa [List.append_nil]⟩
  | @cons state input output next trace final stepped run ih =>
      have shape : past ++ (input, output) :: trace = past ++ [(input, output)] ++ trace := by simp
      rw [prune, shape]
      by_cases drops : drop past (input, output) = true
      · rw [if_pos drops]
        exact ih dropped kept (dropped _ _ _ _ _ _ _ start stepped run drops)
      · rw [if_neg drops]
        obtain ⟨after, answered, related⟩ := kept _ _ _ _ _ _ _ start stepped run
        obtain ⟨last, rest, ends⟩ := ih dropped kept related
        exact ⟨last, .cons answered rest, ends⟩

/-- Two machines in lock step: when the second never crashes and every allowed input to the first
is answered like its image, then the first has a run on all allowed inputs, with a run of the second
beside it. -/
theorem follows {ι' κ : Type} {shadowStep : τ → ι' → κ × τ} (image : ι → ι') (Allowed : ι → Prop)
    (Rel : σ → τ → Prop) (Answers : ο → κ → Prop)
    (kept : ∀ before shadow input, Allowed input → Rel before shadow →
      ∃ output after, step before input = some (output, after) ∧
        Answers output (shadowStep shadow (image input)).1 ∧
        Rel after (shadowStep shadow (image input)).2)
    {shadow : τ} (start : Rel state shadow) (inputs : List ι) (allowed : ∀ input ∈ inputs, Allowed input) :
    ∃ trace final shadowTrace last, Run step state trace final ∧
      Run (total shadowStep) shadow shadowTrace last ∧ trace.map Prod.fst = inputs ∧
      List.Forall₂ (fun event other => other.1 = image event.1 ∧ Answers event.2 other.2)
        trace shadowTrace := by
  induction inputs generalizing state shadow with
  | nil => exact ⟨[], state, [], shadow, .nil state, .nil shadow, rfl, .nil⟩
  | cons input inputs ih =>
      obtain ⟨now, later⟩ := List.forall_mem_cons.mp allowed
      obtain ⟨output, after, stepped, answers, related⟩ := kept state shadow input now start
      obtain ⟨trace, final, shadowTrace, last, run, shadowRun, shape, matched⟩ := ih related later
      exact ⟨_, final, _, last, .cons stepped run, .cons rfl shadowRun, congrArg (input :: ·) shape,
        .cons ⟨rfl, answers⟩ matched⟩

theorem forall₂_split {α β : Type} {R : α → β → Prop} {front back : List α} {item : α}
    {others : List β} (matched : List.Forall₂ R (front ++ item :: back) others) :
    ∃ front' other back', others = front' ++ other :: back' ∧ List.Forall₂ R front front' ∧
      R item other := by
  induction front generalizing others with
  | nil =>
      cases matched with
      | cons related rest => exact ⟨[], _, _, rfl, .nil, related⟩
  | cons first front ih =>
      cases matched with
      | cons related rest =>
          obtain ⟨front', other, back', rfl, fronts, found⟩ := ih rest
          exact ⟨_ :: front', other, back', rfl, .cons related fronts, found⟩

def execute (step : σ → ι → Option (ο × σ)) (state : σ) : List ι → Option (List ο × σ)
  | [] => some ([], state)
  | input :: inputs =>
      match step state input with
      | none => none
      | some (output, next) => (execute step next inputs).map fun (outputs, final) =>
          (output :: outputs, final)

theorem execute_run {inputs : List ι} {outputs : List ο}
    (executed : execute step state inputs = some (outputs, final)) :
    Run step state (inputs.zip outputs) final ∧ inputs.length = outputs.length := by
  induction inputs generalizing state outputs with
  | nil =>
      obtain ⟨rfl, rfl⟩ := Prod.mk.inj (Option.some_inj.mp executed)
      exact ⟨.nil _, rfl⟩
  | cons input inputs ih =>
      simp only [execute] at executed
      split at executed
      · simp at executed
      · rename_i output next stepped
        obtain ⟨⟨others, last⟩, rest, same⟩ := Option.map_eq_some_iff.mp executed
        obtain ⟨rfl, rfl⟩ := Prod.mk.inj same
        obtain ⟨run, sized⟩ := ih rest
        exact ⟨.cons stepped run, congrArg (· + 1) sized⟩

theorem Run.executes {trace : List (ι × ο)} (run : Run step state trace final) :
    execute step state (trace.map Prod.fst) = some (trace.map Prod.snd, final) := by
  induction run with
  | nil => rfl
  | cons stepped _ ih => simp [execute, stepped, ih]

/-- Two states that answer alike and stay as they are, until an input that takes both to one state. -/
theorem execute_until {other : σ} (Decides : ι → Prop)
    (quiet : ∀ input, ¬Decides input → ∃ answer : Option ο,
      step state input = answer.map (fun output => (output, state)) ∧
        step other input = answer.map fun output => (output, other))
    (decides : ∀ input, Decides input → step state input = step other input) (inputs : List ι) :
    (execute step state inputs).map Prod.fst = (execute step other inputs).map Prod.fst ∧
      ((∃ input ∈ inputs, Decides input) → execute step state inputs = execute step other inputs) := by
  induction inputs with
  | nil => exact ⟨rfl, by simp⟩
  | cons input inputs ih =>
      by_cases now : Decides input
      · have same : execute step state (input :: inputs) = execute step other (input :: inputs) := by
          rw [execute, execute, decides input now]
        exact ⟨congrArg _ same, fun _ => same⟩
      · obtain ⟨answer, first, second⟩ := quiet input now
        obtain ⟨outputs, states⟩ := ih
        cases answer with
        | none => simp [execute, first, second]
        | some output =>
            simp only [execute, first, second, Option.map_some, Option.map_map, List.exists_mem_cons_iff,
              now, false_or]
            refine ⟨?_, fun later => by rw [states later]⟩
            have mapped := congrArg (Option.map (output :: ·)) outputs
            rwa [Option.map_map, Option.map_map] at mapped

/-- Inputs on which what is looked at in the outputs can be computed have a run. -/
theorem run_of_view {β : Type} (step : σ → ι → Option (ο × σ)) (state : σ) (inputs : List ι)
    (view : ο → β) (views : List β)
    (computed : (execute step state inputs).map (fun result => result.1.map view) = some views) :
    ∃ trace final, Run step state trace final ∧ trace.map Prod.fst = inputs ∧
      trace.map (fun event => view event.2) = views := by
  obtain ⟨⟨outputs, final⟩, executed, rfl⟩ := Option.map_eq_some_iff.mp computed
  obtain ⟨run, sized⟩ := execute_run executed
  refine ⟨_, final, run, List.map_fst_zip (Nat.le_of_eq sized), ?_⟩
  calc (inputs.zip outputs).map (fun event => view event.2)
      = ((inputs.zip outputs).map Prod.snd).map view := List.map_map.symm
    _ = outputs.map view := by rw [List.map_snd_zip (Nat.le_of_eq sized.symm)]

theorem foldlM_invariant {turn : σ → ι → Option σ} (Inv : σ → Prop) {items : List ι} {state final : σ}
    (kept : ∀ before item after, Inv before → turn before item = some after → Inv after)
    (start : Inv state) (folded : items.foldlM turn state = some final) : Inv final := by
  induction items generalizing state with
  | nil =>
      obtain rfl : state = final := Option.some_inj.mp folded
      exact start
  | cons item items ih =>
      rw [List.foldlM_cons] at folded
      obtain ⟨next, turned, rest⟩ := Option.bind_eq_some_iff.mp folded
      exact ih (kept _ _ _ start turned) rest

end Machine
