import Rabaska.CameraCore
import Rabaska.RouterProofs

/-! One camera, one preview, one owner: what the switch and the frame loop keep of it, and what turning
the switch off too early does. -/

namespace Rabaska.Shell.Camera

open Wasm

variable {crates : Crates} {camera next : Camera crates}

/-- At most one stream runs, and it is the one on the preview; when no start is under way the switch can
reach it, and the loop is armed for it. -/
structure Owned (camera : Camera crates) : Prop where
  single : camera.starts.length ≤ 1
  held : ∀ s ∈ camera.running, camera.running = [s] ∧ camera.srcObject = some s ∧ camera.asleep = false
  named : camera.starts = [] → ∀ s ∈ camera.running, camera.stream = some s ∧ 0 < camera.armed
  waits : ∀ start ∈ camera.starts, camera.asleep = false ∧ match start.wait with
    | .device => camera.running = []
    | .preview s => ∀ t ∈ camera.running, t = s
    | .wakeLock => ∀ t ∈ camera.running, camera.stream = some t

theorem owned_dark (idle : camera.starts = []) (dark : camera.running = []) : Owned camera := by
  refine ⟨by simp [idle], ?_, ?_, ?_⟩
  · simp [dark]
  · simp [dark]
  · simp [idle]

theorem closeCamera_dark {stream : Option Nat} (all : ∀ s ∈ camera.running, stream = some s) :
    (camera.closeCamera stream).running = [] := by
  simp only [closeCamera, List.filter_eq_nil_iff, decide_eq_true_eq, not_not]
  intro s member
  exact (all s member).symm

theorem Owned.close_cases (owned : Owned camera) (stream : Option Nat) :
    (camera.closeCamera stream).running = [] ∨ (camera.closeCamera stream).running = camera.running := by
  cases shape : camera.running with
  | nil => exact .inl (by simp [closeCamera, shape])
  | cons s rest =>
      have alone := (owned.held s (by simp [shape])).1
      rw [shape] at alone
      obtain rfl : rest = [] := by simpa using alone
      by_cases same : some s = stream
      · exact .inl (by simp [closeCamera, shape, same])
      · exact .inr (by simp [closeCamera, shape, same])

theorem Owned.of_running (owned : Owned camera) (starts : next.starts = camera.starts)
    (asleep : next.asleep = camera.asleep) (stream : next.stream = camera.stream)
    (srcObject : next.srcObject = camera.srcObject) (armed : camera.armed ≤ next.armed)
    (running : next.running = [] ∨ next.running = camera.running) : Owned next := by
  rcases running with dark | same
  · refine ⟨by rw [starts]; exact owned.single, by simp [dark], by simp [dark], ?_⟩
    intro start member
    rw [starts] at member
    refine ⟨asleep.trans (owned.waits start member).1, ?_⟩
    split <;> simp [dark]
  · refine ⟨by rw [starts]; exact owned.single, ?_, ?_, ?_⟩
    · rw [same, srcObject, asleep]
      exact owned.held
    · rw [starts, same, stream]
      intro idle s member
      obtain ⟨named, waiting⟩ := owned.named idle s member
      exact ⟨named, Nat.lt_of_lt_of_le waiting armed⟩
    · rw [starts, same, stream, asleep]
      exact owned.waits

theorem Owned.dark_of_asleep (owned : Owned camera) (asleep : camera.asleep = true) :
    camera.running = [] := by
  refine List.eq_nil_iff_forall_not_mem.mpr fun s member => ?_
  exact absurd (asleep.symm.trans (owned.held s member).2.2) (by simp)

/-! Starts. -/

theorem starts_single (single : camera.starts.length ≤ 1) {i : Nat} {start : Start}
    (found : camera.starts[i]? = some start) : i = 0 ∧ camera.starts = [start] := by
  obtain ⟨inside, same⟩ := List.getElem?_eq_some_iff.mp found
  obtain rfl : i = 0 := by omega
  obtain ⟨only, shape⟩ := List.length_eq_one_iff.mp (show camera.starts.length = 1 by omega)
  refine ⟨rfl, ?_⟩
  simp only [shape, List.getElem_cons_zero] at same
  rw [shape, same]

theorem Owned.start (owned : Owned camera) (switched : Bool) (idle : camera.starts = []) :
    Owned (camera.startCamera switched) := by
  unfold startCamera
  split
  · exact owned
  · rename_i opens
    simp only [Bool.or_eq_true, not_or, Bool.not_eq_true, Bool.not_eq_false'] at opens
    obtain ⟨⟨⟨streaming, running⟩, -⟩, on⟩ := opens
    have dark : camera.running = [] := by
      refine List.eq_nil_iff_forall_not_mem.mpr fun s member => ?_
      simp [Camera.streaming, (owned.named idle s member).1, member] at streaming
    have awake : camera.asleep = false := by simp [asleep, running, on]
    refine ⟨by simp [idle], by simp [dark], by simp [idle], ?_⟩
    intro start member
    obtain rfl : start = { wait := .device, switched } := by simpa [idle] using member
    exact ⟨awake, dark⟩

theorem Owned.resolve (owned : Owned camera) (i : Nat) : Owned (camera.resolve i) := by
  unfold Camera.resolve
  split
  · exact owned
  · rename_i start found
    obtain ⟨rfl, starts⟩ := starts_single owned.single found
    obtain ⟨awake, waiting⟩ := owned.waits start (by simp [starts])
    split
    · rename_i wait
      rw [wait] at waiting
      have dark : camera.running = [] := waiting
      refine ⟨by simp [starts], ?_, by simp [starts], ?_⟩
      · intro s member
        obtain rfl : s = camera.handedOut := by simpa [dark] using member
        exact ⟨by simp [dark], rfl, awake⟩
      · intro other member
        obtain rfl : other = { start with wait := .preview camera.handedOut } := by
          simpa [starts] using member
        exact ⟨awake, by simp [dark]⟩
    · rename_i s wait
      rw [wait] at waiting
      refine ⟨by simp [starts], owned.held, by simp [starts], ?_⟩
      intro other member
      obtain rfl : other = { start with wait := .wakeLock } := by simpa [starts] using member
      exact ⟨awake, fun t running => by rw [waiting t running]⟩
    · rename_i wait
      rw [wait] at waiting
      have armed : schedule { camera with starts := camera.starts.eraseIdx 0 } =
          { camera with starts := [], armed := camera.armed + 1 } := by
        simp only [schedule, starts, List.eraseIdx_cons_zero]
        exact if_neg (by simpa [asleep] using awake)
      rw [armed]
      refine ⟨by simp, owned.held, fun _ s member => ⟨waiting s member, Nat.succ_pos _⟩, by simp⟩

theorem Owned.deny (owned : Owned camera) (i : Nat) : Owned (camera.deny i) := by
  unfold Camera.deny
  split
  · rename_i start found
    obtain ⟨rfl, starts⟩ := starts_single owned.single found
    split
    · rename_i wait
      have waiting := (owned.waits start (by simp [starts])).2
      rw [wait] at waiting
      have dark : camera.running = [] := waiting
      unfold refused
      split
      · exact owned_dark (by simp [starts]) dark
      · exact owned_dark (by simp [starts]) dark
    · exact owned
  · exact owned

-- Nothing awaited, nothing to resolve, deny or refuse.

theorem resolve_idle (idle : camera.starts = []) (i : Nat) : camera.resolve i = camera := by
  simp [Camera.resolve, idle]

theorem deny_idle (idle : camera.starts = []) (i : Nat) : camera.deny i = camera := by
  simp [Camera.deny, idle]

theorem balk_idle (idle : camera.starts = []) (i : Nat) : camera.balk i = camera := by
  simp [Camera.balk, idle]

/-! The frame loop. -/

theorem Owned.ends (owned : Owned camera) (idle : camera.starts = []) {stream : Option Nat}
    (starts : next.starts = camera.starts) (running : next.running = (camera.closeCamera stream).running)
    (all : stream = camera.stream ∨ stream = camera.srcObject) : Owned next := by
  refine owned_dark (starts.trans idle) (running.trans (closeCamera_dark fun s member => ?_))
  rcases all with rfl | rfl
  · exact (owned.named idle s member).1
  · exact (owned.held s member).2.1

theorem Owned.callback (owned : Owned camera) (found : Option Bytes) (finishes : Bool)
    (calm : camera.starts ≠ [] → (camera.callback found finishes).1 = none ∨
      (camera.callback found finishes).1 = some .armed) :
    Owned (camera.callback found finishes).2 := by
  by_cases waiting : camera.armed = 0
  · rw [Camera.callback, if_pos waiting]
    exact owned
  · simp only [Camera.callback, waiting, if_false] at calm ⊢
    have idle (ended : camera.shell.turn found finishes ≠ .armed) : camera.starts = [] := by
      by_contra busy
      exact ended (by simpa using calm busy)
    cases asleep : camera.asleep with
    | true =>
        have off : camera.shell.turn found finishes = .off := if_pos asleep
        rw [off]
        exact owned_dark (idle (by simp [off])) (owned.dark_of_asleep asleep)
    | false =>
        rcases camera.shell.turn_cases asleep found finishes with
          ⟨frame, -, -, flips⟩ | ⟨-, ⟨armed, awake⟩ | ⟨delivered | stopped, -⟩⟩
        · rw [flips]
          exact owned.ends (idle (by simp [flips])) rfl rfl (.inl rfl)
        · rw [armed]
          dsimp only
          split
          · exact owned.of_running rfl (awake.trans asleep.symm) rfl rfl (Nat.le_refl _)
              (owned.close_cases camera.srcObject)
          · exact owned.of_running rfl (awake.trans asleep.symm) rfl rfl (Nat.le_refl _) (.inr rfl)
        · rw [delivered]
          exact owned.ends (idle (by simp [delivered])) rfl rfl (.inr rfl)
        · rw [stopped]
          exact owned.ends (idle (by simp [stopped])) rfl rfl (.inl rfl)

/-! The switch and the ways out of the role. -/

theorem Owned.switch (owned : Owned camera) (idle : camera.starts = []) : Owned camera.switch := by
  unfold Camera.switch
  dsimp only
  split
  · rename_i on
    have dark : camera.running = [] := by
      refine owned.dark_of_asleep ?_
      simp only [Bool.not_eq_true'] at on
      simp [asleep, on]
    have turned : Owned { camera with
        shell := { camera.shell with cameraOn := !camera.shell.cameraOn } } := owned_dark idle dark
    exact turned.start true idle
  · refine owned_dark idle (closeCamera_dark fun s member => ?_)
    exact (owned.named idle s member).1

theorem Owned.sendOpen (owned : Owned camera) (idle : camera.starts = []) : Owned camera.sendOpen := by
  unfold Camera.sendOpen
  split
  · exact owned
  · exact owned.ends idle rfl rfl (.inl rfl)

theorem Owned.leave (owned : Owned camera) : Owned camera.leave := by
  unfold Camera.leave
  split
  · exact owned
  · by_cases asleep : camera.asleep = true
    · have idle : camera.starts = [] := by
        refine List.eq_nil_iff_forall_not_mem.mpr fun start member => ?_
        exact absurd (asleep.symm.trans (owned.waits start member).1) (by simp)
      exact owned_dark idle (owned.dark_of_asleep asleep)
    · refine owned.of_running rfl ?_ rfl rfl (Nat.le_refl _) (.inr rfl)
      simp only [Camera.asleep, Bool.or_eq_true, not_or, Bool.not_eq_true] at asleep ⊢
      simp [asleep.1]

def Undisturbed (before : Camera crates) (event : Event) (loop : Option Loop) (_ : Camera crates) : Prop :=
  before.starts ≠ [] → match event with
    | .switch | .sendOpen | .balk _ => False
    | .frame _ _ => loop = none ∨ loop = some .armed
    | _ => True

def Kept (camera : Camera crates) : Prop := camera.receiving = true → Owned camera ∧ camera.scans = []

theorem callback_role (camera : Camera crates) (found : Option Bytes) (finishes : Bool) :
    (camera.callback found finishes).2.receiving = camera.receiving ∧
      (camera.callback found finishes).2.scans = camera.scans := by
  unfold Camera.callback
  split
  · exact ⟨rfl, rfl⟩
  · dsimp only
    split
    · split <;> exact ⟨rfl, rfl⟩
    · exact ⟨rfl, rfl⟩
    · exact ⟨rfl, rfl⟩
    · exact ⟨rfl, rfl⟩
    · exact ⟨rfl, rfl⟩

theorem startCamera_role (camera : Camera crates) (switched : Bool) :
    (camera.startCamera switched).receiving = camera.receiving ∧
      (camera.startCamera switched).scans = camera.scans := by
  unfold startCamera
  split <;> exact ⟨rfl, rfl⟩

theorem refused_role (camera : Camera crates) (start : Start) :
    (camera.refused start).receiving = camera.receiving ∧ (camera.refused start).scans = camera.scans := by
  unfold refused
  split <;> exact ⟨rfl, rfl⟩

theorem schedule_role (camera : Camera crates) :
    camera.schedule.receiving = camera.receiving ∧ camera.schedule.scans = camera.scans := by
  unfold schedule
  split <;> exact ⟨rfl, rfl⟩

theorem step_role (camera : Camera crates) (event : Event)
    (receiving : (camera.step event).2.receiving = true) :
    camera.receiving = true ∧ (camera.scans = [] → (camera.step event).2.scans = []) := by
  have kept {next : Camera crates} (after : next.receiving = true)
      (same : next.receiving = camera.receiving ∧ next.scans = camera.scans) :
      camera.receiving = true ∧ (camera.scans = [] → next.scans = []) :=
    ⟨same.1.symm.trans after, fun none => same.2.trans none⟩
  cases event with
  | switch =>
      refine kept receiving ?_
      simp only [Camera.step, Camera.switch]
      split
      · exact startCamera_role _ true
      · exact ⟨rfl, rfl⟩
  | resolve i =>
      refine kept receiving ?_
      simp only [Camera.step, Camera.resolve]
      split
      · exact ⟨rfl, rfl⟩
      · split
        · exact ⟨rfl, rfl⟩
        · exact ⟨rfl, rfl⟩
        · exact schedule_role _
  | deny i =>
      refine kept receiving ?_
      simp only [Camera.step, Camera.deny]
      split
      · split
        · exact refused_role _ _
        · exact ⟨rfl, rfl⟩
      · exact ⟨rfl, rfl⟩
  | balk i =>
      refine kept receiving ?_
      simp only [Camera.step, Camera.balk]
      split
      · split
        · exact refused_role _ _
        · exact ⟨rfl, rfl⟩
      · exact ⟨rfl, rfl⟩
  | frame found finishes => exact kept receiving (callback_role camera found finishes)
  | unplug s => exact kept receiving ⟨rfl, rfl⟩
  | stage staged encrypted => exact kept receiving ⟨rfl, rfl⟩
  | sendOpen =>
      refine kept receiving ?_
      simp only [Camera.step, Camera.sendOpen]
      split <;> exact ⟨rfl, rfl⟩
  | leave =>
      refine kept receiving ?_
      simp only [Camera.step, Camera.leave]
      split <;> exact ⟨rfl, rfl⟩
  | send => simp [Camera.step] at receiving
  | scan =>
      have before : camera.receiving = true := by
        simp only [Camera.step, Camera.scan] at receiving
        split at receiving <;> exact receiving
      refine kept receiving ?_
      simp [Camera.step, Camera.scan, before]
  | scanOpens i =>
      have before : camera.receiving = true := by
        simp only [Camera.step, Camera.scanOpens] at receiving
        split at receiving <;> exact receiving
      exact ⟨before, fun none => by simp [Camera.step, Camera.scanOpens, none]⟩
  | scanEnds i =>
      have before : camera.receiving = true := by
        simp only [Camera.step, Camera.scanEnds] at receiving
        split at receiving <;> exact receiving
      exact ⟨before, fun none => by simp [Camera.step, Camera.scanEnds, none]⟩

theorem Kept.step (kept : Kept camera) {event : Event} {loop : Option Loop}
    (stepped : camera.step event = (loop, next)) (undisturbed : Undisturbed camera event loop next) :
    Kept next := by
  obtain ⟨rfl, rfl⟩ := Prod.mk.inj stepped
  intro receiving
  obtain ⟨before, scans⟩ := step_role camera event receiving
  obtain ⟨owned, dark⟩ := kept before
  refine ⟨?_, scans dark⟩
  have idle (disturbs : event = .switch ∨ event = .sendOpen ∨ ∃ i, event = .balk i) :
      camera.starts = [] := by
    by_contra busy
    have disturbed := undisturbed busy
    rcases disturbs with rfl | rfl | ⟨i, rfl⟩ <;> exact disturbed
  cases event with
  | switch => exact owned.switch (idle (.inl rfl))
  | resolve i => exact owned.resolve i
  | deny i => exact owned.deny i
  | balk i =>
      simp only [balk_idle (idle (.inr (.inr ⟨i, rfl⟩)))]
      exact owned
  | frame found finishes => exact owned.callback found finishes undisturbed
  | unplug s =>
      exact owned.of_running rfl rfl rfl rfl (Nat.le_refl _) (owned.close_cases (some s))
  | stage staged encrypted => exact owned.of_running rfl rfl rfl rfl (Nat.le_refl _) (.inr rfl)
  | sendOpen => exact owned.sendOpen (idle (.inr (.inl rfl)))
  | leave => exact owned.leave
  | send => simp at receiving
  | scan =>
      simp only [Camera.scan, before, Bool.true_or, if_true]
      exact owned
  | scanOpens i =>
      simp only [Camera.scanOpens, dark, List.getElem?_nil]
      exact owned
  | scanEnds i =>
      simp only [Camera.scanEnds, dark, List.getElem?_nil]
      exact owned.of_running rfl rfl rfl rfl (Nat.le_refl _) (.inr rfl)

theorem boot_kept (shell : Receiving crates) : Kept (boot shell) := by
  refine fun _ => ⟨(owned_dark rfl rfl).start false rfl, ?_⟩
  unfold boot startCamera
  split <;> rfl

theorem run_kept {shell : Receiving crates} {trace : List (Event × Option Loop)} {final : Camera crates}
    (run : Machine.Run (Machine.total step) (boot shell) trace final)
    (undisturbed : Machine.Along (Machine.total step) Undisturbed (boot shell) trace) : Kept final := by
  refine run.invariant_along Kept ?_ (boot_kept shell) undisturbed
  intro before event loop after kept calm stepped
  exact kept.step (Option.some_inj.mp stepped) calm

structure Lit (switched : Bool) (s : Nat) (camera : Camera crates) : Prop where
  running : s ∈ camera.running
  stream : camera.stream = some s
  idle : camera.starts = []
  cameraOn : camera.shell.cameraOn = switched
  going : camera.shell.stop = false
  fresh : s < camera.handedOut
  apart : ∀ sight ∈ camera.scans, sight ≠ .preview s ∧ sight ≠ .looking s

theorem mem_closeCamera {s : Nat} {stream : Option Nat} (running : s ∈ camera.running)
    (other : some s ≠ stream) : s ∈ (camera.closeCamera stream).running :=
  List.mem_filter.mpr ⟨running, by simpa using other⟩

theorem Lit.scanOpens {switched : Bool} {s : Nat} (lit : Lit switched s camera) (i : Nat) :
    Lit switched s (camera.scanOpens i) := by
  unfold Camera.scanOpens
  split
  · refine ⟨List.mem_append_left _ lit.running, lit.stream, lit.idle, lit.cameraOn, lit.going,
      Nat.lt_succ_of_lt lit.fresh, fun sight member => ?_⟩
    rcases List.mem_or_eq_of_mem_set member with before | rfl
    · exact lit.apart sight before
    · have fresh := lit.fresh
      simp only [ne_eq, Sight.preview.injEq, reduceCtorEq, not_false_eq_true, and_true]
      omega
  · rename_i t opens
    refine ⟨lit.running, lit.stream, lit.idle, lit.cameraOn, lit.going, lit.fresh, fun sight member => ?_⟩
    rcases List.mem_or_eq_of_mem_set member with before | rfl
    · exact lit.apart sight before
    · have other := (lit.apart _ (List.mem_of_getElem? opens)).1
      simpa using other
  · exact lit

theorem Lit.scanEnds {switched : Bool} {s : Nat} (lit : Lit switched s camera) (i : Nat) :
    Lit switched s (camera.scanEnds i) := by
  have fewer : ∀ sight ∈ camera.scans.eraseIdx i, sight ≠ .preview s ∧ sight ≠ .looking s :=
    fun sight member => lit.apart sight (List.eraseIdx_subset member)
  unfold Camera.scanEnds
  dsimp only
  split
  · rename_i t looking
    have other := (lit.apart _ (List.mem_of_getElem? looking)).2
    refine ⟨mem_closeCamera lit.running ?_, lit.stream, lit.idle, lit.cameraOn, lit.going, lit.fresh, fewer⟩
    rintro ⟨rfl⟩
    exact other rfl
  · exact ⟨lit.running, lit.stream, lit.idle, lit.cameraOn, lit.going, lit.fresh, fewer⟩

def Quiet (s : Nat) : Event → Prop
  | .switch | .sendOpen => False
  | .unplug t => t ≠ s
  | _ => True

def Event.fires : Event → Nat
  | .frame _ _ => 1
  | _ => 0

theorem Lit.step_quiet {switched : Bool} {s : Nat} {event : Event} {loop : Option Loop}
    (lit : Lit switched s camera) (deaf : switched = false ∨ camera.armed = 0) (quiet : Quiet s event)
    (stepped : camera.step event = (loop, next)) :
    Lit switched s next ∧ next.armed = camera.armed - event.fires ∧ (camera.armed = 0 → loop = none) := by
  obtain ⟨rfl, rfl⟩ := Prod.mk.inj stepped
  have ⟨running, stream, idle, cameraOn, going, fresh, apart⟩ := lit
  cases event with
  | switch => exact quiet.elim
  | sendOpen => exact quiet.elim
  | resolve i =>
      simp only [resolve_idle idle]
      exact ⟨lit, rfl, fun _ => trivial⟩
  | deny i =>
      simp only [deny_idle idle]
      exact ⟨lit, rfl, fun _ => trivial⟩
  | balk i =>
      simp only [balk_idle idle]
      exact ⟨lit, rfl, fun _ => trivial⟩
  | frame found finishes =>
      by_cases unarmed : camera.armed = 0
      · simp only [Camera.callback, unarmed, if_true]
        exact ⟨lit, by simp, fun _ => trivial⟩
      · obtain rfl : switched = false := deaf.resolve_right unarmed
        have off : camera.shell.turn found finishes = .off := by simp [Receiving.turn, cameraOn]
        have kept : camera.shell.onFrame found = camera.shell := by simp [Receiving.onFrame, cameraOn]
        simp only [Camera.callback, unarmed, if_false, off, kept]
        exact ⟨⟨running, stream, idle, cameraOn, going, fresh, apart⟩, rfl, fun none => none.elim⟩
  | unplug t =>
      have other : t ≠ s := quiet
      refine ⟨⟨mem_closeCamera running ?_, stream, idle, cameraOn, going, fresh, apart⟩, rfl, fun _ => rfl⟩
      simpa using other.symm
  | stage staged encrypted =>
      exact ⟨⟨running, stream, idle, cameraOn, going, fresh, apart⟩, rfl, fun _ => rfl⟩
  | leave =>
      simp only [Camera.leave]
      split
      · exact ⟨lit, rfl, fun _ => trivial⟩
      · exact ⟨⟨running, stream, idle, cameraOn, rfl, fresh, apart⟩, rfl, fun _ => trivial⟩
  | send => exact ⟨⟨running, stream, idle, cameraOn, going, fresh, apart⟩, rfl, fun _ => rfl⟩
  | scan =>
      simp only [Camera.scan]
      split
      · exact ⟨lit, rfl, fun _ => trivial⟩
      · refine ⟨⟨running, stream, idle, cameraOn, going, fresh, fun sight member => ?_⟩, rfl,
          fun _ => trivial⟩
        rcases List.mem_append.mp member with before | now
        · exact apart sight before
        · obtain rfl := List.mem_singleton.mp now
          simp
  | scanOpens i =>
      refine ⟨lit.scanOpens i, ?_, fun _ => rfl⟩
      simp only [Camera.scanOpens]
      split <;> rfl
  | scanEnds i =>
      refine ⟨lit.scanEnds i, ?_, fun _ => rfl⟩
      simp only [Camera.scanEnds]
      split <;> rfl

theorem Lit.run_quiet {switched : Bool} {s : Nat} {trace : List (Event × Option Loop)}
    (run : Machine.Run (Machine.total step) camera trace next) (lit : Lit switched s camera)
    (deaf : switched = false ∨ camera.armed = 0) (quiet : ∀ event ∈ trace, Quiet s event.1) :
    Lit switched s next ∧ next.armed = camera.armed - (trace.map fun event => event.1.fires).sum ∧
      (camera.armed = 0 → ∀ event ∈ trace, event.2 = none) := by
  induction run with
  | nil => exact ⟨lit, rfl, by simp⟩
  | cons stepped _ ih =>
      obtain ⟨now, later⟩ := List.forall_mem_cons.mp quiet
      obtain ⟨kept, fired, silent⟩ := lit.step_quiet deaf now (Option.some_inj.mp stepped)
      obtain ⟨ends, drained, unheard⟩ := ih kept (deaf.imp_right fun unarmed => by omega) later
      refine ⟨ends, ?_, fun unarmed => ?_⟩
      · rw [drained, fired, List.map_cons, List.sum_cons, Nat.sub_sub]
      · exact List.forall_mem_cons.mpr ⟨silent unarmed, unheard (by omega)⟩

theorem started {switched : Bool} (waiting : camera.starts = [{ wait := .device, switched }]) :
    ((camera.resolve 0).resolve 0).resolve 0 = schedule { camera with
      stream := some camera.handedOut
      srcObject := some camera.handedOut
      handedOut := camera.handedOut + 1
      running := camera.running ++ [camera.handedOut]
      starts := [] } := by
  obtain ⟨shell, receiving, stream, srcObject, handedOut, running, starts, armed, leaving, failed⟩ := camera
  obtain rfl : starts = [{ wait := .device, switched }] := waiting
  rfl

theorem Owned.early_switch (owned : Owned camera) (unscanned : camera.scans = []) {switched : Bool}
    (waiting : camera.starts = [{ wait := .device, switched }]) :
    Lit false camera.handedOut (((camera.switch.resolve 0).resolve 0).resolve 0) ∧
      (((camera.switch.resolve 0).resolve 0).resolve 0).armed = camera.armed := by
  obtain ⟨awake, dark⟩ := owned.waits _ (by rw [waiting]; exact List.mem_singleton_self _)
  have dark : camera.running = [] := dark
  simp only [asleep, Bool.or_eq_false_iff, Bool.not_eq_false'] at awake
  obtain ⟨going, on⟩ := awake
  have off : camera.switch = { camera with
      shell := { camera.shell with cameraOn := false }
      stream := none } := by
    simp [Camera.switch, on, stopCamera, closeCamera, dark]
  have goes : camera.switch.starts = [{ wait := .device, switched }] := by rw [off]; exact waiting
  have unarmed (camera : Camera crates) (off : camera.shell.cameraOn = false) :
      camera.schedule = camera := by simp [schedule, asleep, off]
  rw [started goes, off, unarmed _ rfl]
  exact ⟨⟨by simp, rfl, rfl, rfl, going, Nat.lt_succ_self _, by simp [unscanned]⟩, rfl⟩

/-- Turning the switch off while a start waits for the device does not end the start: the device is
opened, and runs behind a switch that is off. Turned on again, the switch finds it running and does not
arm the loop, so that from then on nothing in front of the camera is heard, as long as the switch and
`send-open` are left alone and the track does not end. -/
theorem early_switch_deafens {shell : Receiving crates} {switched : Bool}
    {trace off on : List (Event × Option Loop)} {final dark deaf : Camera crates}
    (run : Machine.Run (Machine.total step) (boot shell) trace final)
    (undisturbed : Machine.Along (Machine.total step) Undisturbed (boot shell) trace)
    (receiving : final.receiving = true) (waiting : final.starts = [{ wait := .device, switched }])
    (early : Machine.Run (Machine.total step) (((final.switch.resolve 0).resolve 0).resolve 0) off dark)
    (quiet : ∀ event ∈ off, Quiet final.handedOut event.1)
    (drained : final.armed ≤ (off.map fun event => event.1.fires).sum)
    (late : Machine.Run (Machine.total step) dark.switch on deaf)
    (still : ∀ event ∈ on, Quiet final.handedOut event.1) :
    final.handedOut ∈ dark.running ∧ dark.shell.cameraOn = false ∧
      final.handedOut ∈ deaf.running ∧ deaf.shell.cameraOn = true ∧ deaf.shell.stop = false ∧
      ∀ event ∈ on, event.2 = none := by
  obtain ⟨owned, unscanned⟩ := run_kept run undisturbed receiving
  obtain ⟨opened, armed⟩ := owned.early_switch unscanned waiting
  obtain ⟨behind, left, -⟩ := opened.run_quiet early (.inl rfl) quiet
  have unarmed : dark.armed = 0 := by omega
  have again : dark.switch = { dark with shell := { dark.shell with cameraOn := true } } := by
    simp [Camera.switch, startCamera, Camera.streaming, behind.cameraOn, behind.stream, behind.running]
  have relit : Lit true final.handedOut dark.switch := by
    rw [again]
    exact ⟨behind.running, behind.stream, behind.idle, rfl, behind.going, behind.fresh, behind.apart⟩
  have silent : dark.switch.armed = 0 := by rw [again]; exact unarmed
  obtain ⟨ends, -, unheard⟩ := relit.run_quiet late (.inr silent) still
  exact ⟨behind.running, behind.cameraOn, ends.running, ends.cameraOn, ends.going, unheard silent⟩

theorem early_switch_deafens_restarted :
    ∃ (trace off on : List (Event × Option Loop)) (final dark deaf : Camera Crates.sample),
      Machine.Run (Machine.total step) (boot (beReceiver sampleSession none true)) trace final ∧
      trace.map Prod.fst = [.resolve 0, .resolve 0, .resolve 0, .switch, .switch] ∧
      Machine.Run (Machine.total step) (((final.switch.resolve 0).resolve 0).resolve 0) off dark ∧
      off.map Prod.fst = [.frame none false] ∧ Machine.Run (Machine.total step) dark.switch on deaf ∧
      on.map Prod.fst = [.frame (some Send.sampleSend.tx.beaconBytes) false] ∧
      1 ∈ dark.running ∧ dark.shell.cameraOn = false ∧
      1 ∈ deaf.running ∧ deaf.shell.cameraOn = true ∧ deaf.shell.stop = false ∧
      ∀ event ∈ on, event.2 = none := by
  have run : Machine.Run (Machine.total step) (boot (beReceiver sampleSession none true))
      [(.resolve 0, none), (.resolve 0, none), (.resolve 0, none), (.switch, none), (.switch, none)] _ :=
    .cons rfl (.cons rfl (.cons rfl (.cons rfl (.cons rfl (.nil _)))))
  let final := ((((boot (beReceiver sampleSession none true)).resolve 0).resolve 0).resolve 0).switch.switch
  let behind := ((final.switch.resolve 0).resolve 0).resolve 0
  have early := Machine.Run.once step behind (.frame none false)
  have late := Machine.Run.once step (behind.step (.frame none false)).2.switch
    (.frame (some Send.sampleSend.tx.beaconBytes) false)
  have deafens := early_switch_deafens run ?_ rfl rfl early (by simp [Quiet]) (Nat.le_refl 1) late
    (by simp [Quiet])
  · exact ⟨_, _, _, _, _, _, run, rfl, early, rfl, late, rfl, deafens⟩
  · refine ⟨_, rfl, fun _ => trivial, _, rfl, fun _ => trivial, _, rfl, fun _ => trivial, ?_⟩
    exact ⟨_, rfl, fun busy => busy rfl, _, rfl, fun busy => busy rfl, trivial⟩

/-! A callback that waits when the switch goes off still waits when it comes on. -/

def restart (camera : Camera crates) : Camera crates :=
  ((camera.switch.switch.resolve 0).resolve 0).resolve 0

structure Listening (camera : Camera crates) (armed : Nat) : Prop where
  owned : Owned camera
  idle : camera.starts = []
  awake : camera.asleep = false
  receiving : camera.receiving = true
  armed : camera.armed = armed

theorem Listening.restart {armed : Nat} (listening : Listening camera armed) :
    Listening camera.restart (armed + 1) := by
  obtain ⟨owned, idle, awake, receiving, rfl⟩ := listening
  have off := owned.switch idle
  simp only [asleep, Bool.or_eq_false_iff, Bool.not_eq_false'] at awake
  obtain ⟨going, on⟩ := awake
  have dark : (camera.closeCamera camera.stream).running = [] :=
    closeCamera_dark fun s member => (owned.named idle s member).1
  have turned : camera.switch = { camera with
      shell := { camera.shell with cameraOn := false }
      stream := none
      running := [] } := by
    rw [← dark]
    simp [Camera.switch, on, stopCamera, closeCamera]
  have waiting : camera.switch.switch = { camera with
      shell := { camera.shell with cameraOn := true }
      stream := none
      running := []
      starts := [{ wait := .device, switched := true }] } := by
    rw [turned]
    simp [Camera.switch, startCamera, Camera.streaming, going, receiving, idle]
  have ends : camera.restart = { camera with
      shell := { camera.shell with cameraOn := true }
      stream := some camera.handedOut
      srcObject := some camera.handedOut
      handedOut := camera.handedOut + 1
      running := [camera.handedOut]
      starts := []
      armed := camera.armed + 1 } := by
    have goes : camera.switch.switch.starts = [{ wait := .device, switched := true }] := by rw [waiting]
    rw [Camera.restart, started goes, waiting]
    simp [schedule, asleep, going]
  refine ⟨?_, ?_, ?_, ?_, ?_⟩
  · exact (((off.switch (by rw [turned]; exact idle)).resolve 0).resolve 0).resolve 0
  · rw [ends]
  · rw [ends]; simp [asleep, going]
  · rw [ends]; exact receiving
  · rw [ends]

theorem Listening.restarts {armed : Nat} (listening : Listening camera armed) (n : Nat) :
    Listening (Camera.restart^[n] camera) (armed + n) := by
  induction n with
  | zero => exact listening
  | succ n ih =>
      rw [Function.iterate_succ_apply']
      exact ih.restart

theorem armed_step {event : Event} {loop : Option Loop} (idle : camera.starts = [])
    (awake : camera.asleep = false) (stepped : camera.step event = (loop, next))
    (alone : event ≠ .switch ∧ event ≠ .sendOpen) (goes : loop = none ∨ loop = some .armed) :
    next.starts = [] ∧ next.asleep = false ∧ next.armed = camera.armed := by
  obtain ⟨rfl, rfl⟩ := Prod.mk.inj stepped
  cases event with
  | switch => exact absurd rfl alone.1
  | sendOpen => exact absurd rfl alone.2
  | resolve i =>
      simp only [resolve_idle idle]
      exact ⟨idle, awake, trivial⟩
  | deny i =>
      simp only [deny_idle idle]
      exact ⟨idle, awake, trivial⟩
  | balk i =>
      simp only [balk_idle idle]
      exact ⟨idle, awake, trivial⟩
  | frame found finishes =>
      by_cases unarmed : camera.armed = 0
      · simp only [Camera.callback, unarmed, if_true]
        exact ⟨idle, awake, trivial⟩
      · simp only [Camera.callback, unarmed, if_false, reduceCtorEq, Option.some_inj, false_or] at goes
        simp only [Camera.callback, unarmed, if_false, goes]
        rcases camera.shell.turn_cases awake found finishes with
          ⟨frame, -, -, flips⟩ | ⟨-, ⟨-, heard⟩ | ⟨delivered | stopped, -⟩⟩
        · simp [flips] at goes
        · split
          · exact ⟨idle, heard, trivial⟩
          · exact ⟨idle, heard, trivial⟩
        · simp [delivered] at goes
        · simp [stopped] at goes
  | unplug s => exact ⟨idle, awake, rfl⟩
  | stage staged encrypted => exact ⟨idle, awake, rfl⟩
  | leave =>
      simp only [asleep, Bool.or_eq_false_iff, Bool.not_eq_false'] at awake
      simp only [Camera.leave]
      split
      · exact ⟨idle, by simp [asleep, awake], rfl⟩
      · exact ⟨idle, by simp [asleep, awake.2], rfl⟩
  | send => exact ⟨idle, awake, rfl⟩
  | scan =>
      simp only [Camera.scan]
      split <;> exact ⟨idle, awake, rfl⟩
  | scanOpens i =>
      simp only [Camera.scanOpens]
      split <;> exact ⟨idle, awake, rfl⟩
  | scanEnds i =>
      simp only [Camera.scanEnds]
      split <;> exact ⟨idle, awake, rfl⟩

/-- Each time the switch of a listening receiver is turned off and on, one more callback waits for every
frame, and as long as the loops go on none of them is ever taken away. -/
theorem switching_multiplies {shell : Receiving crates} {trace on : List (Event × Option Loop)}
    {final after : Camera crates} {s : Nat}
    (run : Machine.Run (Machine.total step) (boot shell) trace final)
    (undisturbed : Machine.Along (Machine.total step) Undisturbed (boot shell) trace)
    (running : s ∈ final.running) (idle : final.starts = []) (receiving : final.receiving = true) (n : Nat)
    (onward : Machine.Run (Machine.total step) (restart^[n] final) on after)
    (alone : ∀ event ∈ on, event.1 ≠ .switch ∧ event.1 ≠ .sendOpen)
    (goes : ∀ event ∈ on, event.2 = none ∨ event.2 = some .armed) :
    0 < final.armed ∧ after.armed = final.armed + n := by
  obtain ⟨owned, -⟩ := run_kept run undisturbed receiving
  refine ⟨(owned.named idle s running).2, ?_⟩
  have listening : Listening final final.armed :=
    ⟨owned, idle, (owned.held s running).2.2, receiving, rfl⟩
  have more := listening.restarts n
  let Kept (camera : Camera crates) : Prop :=
    camera.starts = [] ∧ camera.asleep = false ∧ camera.armed = final.armed + n
  have kept : Kept after := by
    refine onward.invariant_on (fun event => (event.1 ≠ .switch ∧ event.1 ≠ .sendOpen) ∧
      (event.2 = none ∨ event.2 = some .armed)) Kept ?_ ⟨more.idle, more.awake, more.armed⟩
      fun event member => ⟨alone event member, goes event member⟩
    rintro before input output next ⟨left, going⟩ ⟨still, awake, armed⟩ stepped
    obtain ⟨idle, awake, same⟩ := armed_step still awake (Option.some_inj.mp stepped) left going
    exact ⟨idle, awake, same.trans armed⟩
  exact kept.2.2

theorem switching_multiplies_twice : ∃ (trace on : List (Event × Option Loop)),
    ∃ final after : Camera Crates.sample,
      Machine.Run (Machine.total step) (boot (beReceiver sampleSession none true)) trace final ∧
      trace.map Prod.fst = [.resolve 0, .resolve 0, .resolve 0] ∧ on = [(.frame none false, some .armed)] ∧
      Machine.Run (Machine.total step) (restart^[2] final) on after ∧
      0 < final.armed ∧ after.armed = final.armed + 2 := by
  have run : Machine.Run (Machine.total step) (boot (beReceiver sampleSession none true))
      [(.resolve 0, none), (.resolve 0, none), (.resolve 0, none)] _ :=
    .cons rfl (.cons rfl (.cons rfl (.nil _)))
  have heard : ((restart^[2] ((((boot (beReceiver sampleSession none true)).resolve 0).resolve 0).resolve
      0)).step (.frame none false)).1 = some .armed := by decide +kernel
  have onward := Machine.Run.once step (restart^[2] ((((boot (beReceiver sampleSession none
    true)).resolve 0).resolve 0).resolve 0)) (.frame none false)
  rw [heard] at onward
  refine ⟨_, _, _, _, run, rfl, rfl, onward,
    switching_multiplies run ?_ (List.mem_singleton_self 0) rfl rfl 2 onward (by simp) (by simp)⟩
  exact ⟨_, rfl, fun _ => trivial, _, rfl, fun _ => trivial, _, rfl, fun _ => trivial, trivial⟩

end Rabaska.Shell.Camera
