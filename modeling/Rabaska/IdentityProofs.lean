import Rabaska.IdentityCore
import Rabaska.Library.Machine

/-! The identity a device keeps: what one first visit stores is what every visit after it finds, and what
two first visits at a time can do to each other. -/

namespace Rabaska.Shell.Identities

open Wasm Crypto Durable

variable {crates : Crates} {subtle : Subtle} {identities next : Identities crates subtle}
variable {key : subtle.CryptoKey} {stored : Wrapped}

theorem sample_round (key : UInt8) (iv : Octets 12) (message : Bytes) :
    Subtle.sample.decrypt key iv (Subtle.sample.encrypt key iv message) = some message := by
  simp [Subtle.sample]

theorem fromSecret_bytes (secret : Octets 32) :
    Identity.fromSecret crates secret.bytes = .ok (KeyPair.fromBytes crates secret) := by
  simp [Identity.fromSecret]

theorem unwrap_encrypt {iv : Octets 12} (secret : Octets 32)
    (round : ∀ message, subtle.decrypt key iv (subtle.encrypt key iv message) = some message) :
    Slots.unwrap crates key { iv, ct := subtle.encrypt key iv secret.bytes } =
      some (KeyPair.fromBytes crates secret) := by
  simp [Slots.unwrap, round, fromSecret_bytes, Except.toOption]

/-! Once both are stored nothing is written any more, and every call ends as the two of them say. -/

def ended : Option (KeyPair crates) → Loading crates subtle
  | some id => .loaded id
  | none => .failed

theorem ended_ne_wrap (id : Option (KeyPair crates)) : (ended id : Loading crates subtle) ≠ .wrap := by
  cases id with
  | none => simp [ended]
  | some id => simp [ended]

def Reads (key : subtle.CryptoKey) (stored : Wrapped) (caller : Caller crates subtle) : Prop :=
  caller.writing = false ∧ (caller.load = .wrap ∨ caller.load = .device key ∨
    caller.load = ended (Slots.unwrap crates key stored))

structure Stored (key : subtle.CryptoKey) (stored : Wrapped) (identities : Identities crates subtle) :
    Prop where
  identity : identities.identity =
    { stored := { wrap := some key, device := some stored }, queue := [] }
  reads : ∀ caller ∈ identities.callers, Reads key stored caller

theorem Stored.advance (kept : Stored key stored identities) {caller : Caller crates subtle}
    (reads : Reads key stored caller) (made : subtle.CryptoKey) (secret : Octets 32) (iv : Octets 12) :
    ∃ load, identities.advance made secret iv caller.load = (load, none) ∧
      Reads key stored { caller with load } ∧
      (caller.load = .wrap → load = .device key) ∧
      (caller.load ≠ .wrap → load = ended (Slots.unwrap crates key stored)) := by
  obtain ⟨idle, here | here | here⟩ := reads
  · refine ⟨.device key, ?_, ⟨idle, .inr (.inl rfl)⟩, fun _ => rfl, fun other => absurd here other⟩
    rw [here]
    simp [Identities.advance, kept.identity]
  · refine ⟨ended (Slots.unwrap crates key stored), ?_, ⟨idle, .inr (.inr rfl)⟩, ?_, fun _ => rfl⟩
    · rw [here]
      simp only [Identities.advance, kept.identity]
      cases Slots.unwrap crates key stored with
      | none => rfl
      | some id => rfl
    · simp [here]
  · refine ⟨ended (Slots.unwrap crates key stored), ?_, ⟨idle, .inr (.inr rfl)⟩, ?_, fun _ => rfl⟩
    · rw [here]
      cases Slots.unwrap crates key stored with
      | none => rfl
      | some id => rfl
    · exact fun waits => absurd (here.symm.trans waits) (ended_ne_wrap _)

theorem Stored.turn_eq (kept : Stored key stored identities) {i : Nat} {caller : Caller crates subtle}
    (found : identities.callers[i]? = some caller) (made : subtle.CryptoKey) (secret : Octets 32)
    (iv : Octets 12) :
    ∃ load, identities.turn i made secret iv =
        { identities with callers := identities.callers.set i { caller with load } } ∧
      Reads key stored { caller with load } ∧ (caller.load = .wrap → load = .device key) ∧
      (caller.load ≠ .wrap → load = ended (Slots.unwrap crates key stored)) := by
  obtain ⟨load, advances, reads, goes⟩ := kept.advance (kept.reads caller (List.mem_of_getElem? found))
    made secret iv
  refine ⟨load, ?_, reads, goes⟩
  simp [Identities.turn, found, kept.identity, advances]

theorem Stored.set (kept : Stored key stored identities) {caller : Caller crates subtle}
    (reads : Reads key stored caller) (i : Nat) :
    Stored key stored { identities with callers := identities.callers.set i caller } := by
  refine ⟨kept.identity, fun other member => ?_⟩
  rcases List.mem_or_eq_of_mem_set member with before | rfl
  · exact kept.reads other before
  · exact reads

theorem Stored.step (kept : Stored key stored identities) (event : Event subtle) :
    Stored key stored (identities.step event).2 := by
  cases event with
  | begin =>
      refine ⟨kept.identity, fun caller member => ?_⟩
      rcases List.mem_append.mp member with before | new
      · exact kept.reads caller before
      · obtain rfl := List.mem_singleton.mp new
        exact ⟨rfl, .inl rfl⟩
  | turn i made secret iv =>
      cases found : identities.callers[i]? with
      | none =>
          have same : identities.turn i made secret iv = identities := by simp [Identities.turn, found]
          simp only [Identities.step, same]
          exact kept
      | some caller =>
          obtain ⟨load, turned, reads, -⟩ := kept.turn_eq found made secret iv
          simp only [Identities.step, turned]
          exact kept.set reads i
  | commit =>
      refine ⟨by simp [Identities.step, Identities.commit, kept.identity, Store.commit], ?_⟩
      intro caller member
      obtain ⟨before, inside, rfl⟩ := List.mem_map.mp member
      exact ⟨rfl, (kept.reads before inside).2⟩
  | close i =>
      simp only [Identities.step, Identities.close]
      split
      · exact kept
      · rename_i caller found
        have idle := (kept.reads caller (List.mem_of_getElem? found)).1
        refine ⟨by simp [idle, kept.identity], fun other member => ?_⟩
        exact kept.reads other (List.mem_of_mem_eraseIdx member)
  | crash => exact ⟨by simp [Identities.step, Identities.crash, kept.identity, Store.crash], by
      simp [Identities.step, Identities.crash]⟩

theorem Stored.run {trace : List (Event subtle × Unit)} (kept : Stored key stored identities)
    (run : Machine.Run (Machine.total Identities.step) identities trace next) : Stored key stored next := by
  induction run with
  | nil => exact kept
  | cons stepped _ ih =>
      obtain rfl := congrArg Prod.snd (Option.some_inj.mp stepped)
      exact ih (kept.step _)

/-- Two turns end a call. -/
theorem Stored.turns (kept : Stored key stored identities) {i : Nat} {caller : Caller crates subtle}
    (found : identities.callers[i]? = some caller) (first second : subtle.CryptoKey)
    (secret : Octets 32) (iv : Octets 12) :
    ((identities.turn i first secret iv).turn i second secret iv).callers[i]? =
      some { load := ended (Slots.unwrap crates key stored), writing := false } := by
  obtain ⟨load, turned, reads, starts, ends⟩ := kept.turn_eq found first secret iv
  have inside := (List.getElem?_eq_some_iff.mp found).1
  have here : (identities.turn i first secret iv).callers[i]? = some { caller with load } := by
    rw [turned]
    simp [inside]
  have still : Stored key stored (identities.turn i first secret iv) := by
    rw [turned]
    exact kept.set reads i
  obtain ⟨last, again, done, -, goes⟩ := still.turn_eq here second secret iv
  have moved : load ≠ .wrap := by
    by_cases waits : caller.load = .wrap
    · simp [starts waits]
    · rw [ends waits]
      exact ended_ne_wrap _
  have idle : caller.writing = false := reads.1
  obtain ⟨within, -⟩ := List.getElem?_eq_some_iff.mp here
  rw [again, goes moved]
  simp [within, idle]

/-! One first visit at a time. -/

/-- The stations of a first visit, and what it leaves. -/
inductive Sound : Identities crates subtle → Prop
  | empty (callers : List (Caller crates subtle))
      (lone : callers = [] ∨ callers = [{ load := .wrap, writing := false }] ∨
      callers = [{ load := .makingWrap, writing := false }]) :
      Sound { identity := { stored := Slots.empty, queue := [] }, callers }
  | wrapping (key : subtle.CryptoKey) :
      Sound {
        identity := { stored := Slots.empty, queue := [{ wrap := some key, device := none }] }
        callers := [{ load := .device key, writing := true }] }
  | wrapped (key : subtle.CryptoKey) (callers : List (Caller crates subtle))
      (lone : callers = [] ∨ callers = [{ load := .wrap, writing := false }] ∨
      callers = [{ load := .device key, writing := false }] ∨
      callers = [{ load := .makingDevice key, writing := false }]) :
      Sound { identity := { stored := { wrap := some key, device := none }, queue := [] }, callers }
  | storing (key : subtle.CryptoKey) (stored : Wrapped) (id : KeyPair crates)
      (callers : List (Caller crates subtle)) (opens : Slots.unwrap crates key stored = some id)
      (pair : callers = [{ load := .loaded id, writing := true }] ∨
        callers = [{ load := .loaded id, writing := true }, { load := .wrap, writing := false }]) :
      Sound {
        identity := {
          stored := { wrap := some key, device := none }
          queue := [{ wrap := some key, device := some stored }] }
        callers }
  | kept (key : subtle.CryptoKey) (stored : Wrapped) (id : KeyPair crates)
      (identities : Identities crates subtle) (opens : Slots.unwrap crates key stored = some id)
      (both : Stored key stored identities) : Sound identities

/-- A call is begun when no other is under way, or when the identity is stored. -/
def Alone (before : Identities crates subtle) (event : Event subtle) (_ : Unit)
    (_ : Identities crates subtle) : Prop :=
  match event with
  | .begin => (∀ caller ∈ before.callers, caller.done) ∨ before.identity.stored.device ≠ none
  | _ => True

theorem Sound.begin (sound : Sound identities) (alone : Alone identities .begin () next) :
    Sound (identities.step .begin).2 := by
  cases sound with
  | empty callers lone =>
      rcases lone with rfl | rfl | rfl
      · exact .empty _ (by simp)
      · simp [Alone, Caller.done, Slots.empty] at alone
      · simp [Alone, Caller.done, Slots.empty] at alone
  | wrapping key => simp [Alone, Caller.done, Slots.empty] at alone
  | wrapped key callers lone =>
      rcases lone with rfl | rfl | rfl | rfl
      · exact .wrapped key _ (by simp)
      · simp [Alone, Caller.done] at alone
      · simp [Alone, Caller.done] at alone
      · simp [Alone, Caller.done] at alone
  | storing key stored id callers opens pair =>
      rcases pair with rfl | rfl
      · exact .storing key stored id _ opens (by simp)
      · simp [Alone, Caller.done] at alone
  | kept key stored id _ opens both => exact .kept key stored id _ opens (both.step .begin)

theorem Sound.turn (sound : Sound identities)
    (round : ∀ key iv message, subtle.decrypt key iv (subtle.encrypt key iv message) = some message)
    (i : Nat) (made : subtle.CryptoKey) (secret : Octets 32) (iv : Octets 12) :
    Sound (identities.step (.turn i made secret iv)).2 := by
  cases sound with
  | empty callers lone =>
      rcases lone with rfl | rfl | rfl
      · exact .empty _ (by simp)
      · cases i with
        | zero => exact .empty _ (by simp)
        | succ i => exact .empty _ (by simp)
      · cases i with
        | zero => exact .wrapping made
        | succ i => exact .empty _ (by simp)
  | wrapping key =>
      cases i with
      | zero => exact .wrapping key
      | succ i => exact .wrapping key
  | wrapped key callers lone =>
      rcases lone with rfl | rfl | rfl | rfl
      · exact .wrapped key _ (by simp)
      · cases i with
        | zero => exact .wrapped key _ (by simp)
        | succ i => exact .wrapped key _ (by simp)
      · cases i with
        | zero => exact .wrapped key _ (by simp)
        | succ i => exact .wrapped key _ (by simp)
      · cases i with
        | zero => exact .storing key _ _ _ (unwrap_encrypt secret (round key iv)) (by simp)
        | succ i => exact .wrapped key _ (by simp)
  | storing key stored id callers opens pair =>
      have waits (slots other : Slots subtle) :
          Identities.turn { identity := { stored := slots, queue := [other] }, callers } i made secret iv =
            { identity := { stored := slots, queue := [other] }, callers } := by
        simp [Identities.turn]
      simp only [Identities.step, waits]
      exact .storing key stored id callers opens pair
  | kept key stored id _ opens both => exact .kept key stored id _ opens (both.step _)

theorem Sound.commit (sound : Sound identities) : Sound (identities.step .commit).2 := by
  cases sound with
  | empty callers lone => exact .empty _ (by rcases lone with rfl | rfl | rfl <;> simp)
  | wrapping key => exact .wrapped key _ (by simp)
  | wrapped key callers lone => exact .wrapped key _ (by rcases lone with rfl | rfl | rfl | rfl <;> simp)
  | storing key stored id callers opens pair =>
      refine .kept key stored id _ opens ⟨rfl, fun caller member => ?_⟩
      obtain ⟨before, inside, rfl⟩ := List.mem_map.mp member
      rcases pair with rfl | rfl
      · obtain rfl := List.mem_singleton.mp inside
        exact ⟨rfl, .inr (.inr (by rw [opens]; rfl))⟩
      · rcases List.mem_pair.mp inside with rfl | rfl
        · exact ⟨rfl, .inr (.inr (by rw [opens]; rfl))⟩
        · exact ⟨rfl, .inl rfl⟩
  | kept key stored id _ opens both => exact .kept key stored id _ opens (both.step _)

theorem Sound.close (sound : Sound identities) (i : Nat) : Sound (identities.step (.close i)).2 := by
  cases sound with
  | empty callers lone =>
      rcases lone with rfl | rfl | rfl
      · exact .empty _ (by simp)
      · cases i with
        | zero => exact .empty _ (by simp)
        | succ i => exact .empty _ (by simp)
      · cases i with
        | zero => exact .empty _ (by simp)
        | succ i => exact .empty _ (by simp)
  | wrapping key =>
      cases i with
      | zero => exact .empty _ (by simp)
      | succ i => exact .wrapping key
  | wrapped key callers lone =>
      rcases lone with rfl | rfl | rfl | rfl
      · exact .wrapped key _ (by simp)
      · cases i with
        | zero => exact .wrapped key _ (by simp)
        | succ i => exact .wrapped key _ (by simp)
      · cases i with
        | zero => exact .wrapped key _ (by simp)
        | succ i => exact .wrapped key _ (by simp)
      · cases i with
        | zero => exact .wrapped key _ (by simp)
        | succ i => exact .wrapped key _ (by simp)
  | storing key stored id callers opens pair =>
      rcases pair with rfl | rfl
      · cases i with
        | zero => exact .wrapped key _ (by simp)
        | succ i => exact .storing key stored id _ opens (by simp)
      · match i with
        | 0 => exact .wrapped key _ (by simp)
        | 1 => exact .storing key stored id _ opens (by simp)
        | i + 2 => exact .storing key stored id _ opens (by simp)
  | kept key stored id _ opens both => exact .kept key stored id _ opens (both.step _)

theorem Sound.crash (sound : Sound identities) : Sound (identities.step .crash).2 := by
  cases sound with
  | empty callers lone => exact .empty _ (by simp)
  | wrapping key => exact .empty _ (by simp)
  | wrapped key callers lone => exact .wrapped key _ (by simp)
  | storing key stored id callers opens pair => exact .wrapped key _ (by simp)
  | kept key stored id _ opens both => exact .kept key stored id _ opens (both.step _)

theorem run_sound {trace : List (Event subtle × Unit)} {final : Identities crates subtle}
    (round : ∀ key iv message, subtle.decrypt key iv (subtle.encrypt key iv message) = some message)
    (run : Machine.Run (Machine.total step) (fresh crates subtle) trace final)
    (alone : Machine.Along (Machine.total step) Alone (fresh crates subtle) trace) : Sound final := by
  refine run.invariant_along Sound ?_ (.empty [] (.inl rfl)) alone
  intro before event output after sound lone stepped
  obtain rfl := congrArg Prod.snd (Option.some_inj.mp stepped)
  cases event with
  | begin => exact sound.begin lone
  | turn i made secret iv => exact sound.turn round i made secret iv
  | commit => exact sound.commit
  | close i => exact sound.close i
  | crash => exact sound.crash

/-- When first visits do not overlap, whatever is committed, closed or cut off, no call fails; and once
an identity is stored, then in every run from there, with any number of pages at a time, nothing is
written any more, no call ends with another identity, and two turns end a call with this one. -/
theorem identity_kept {trace : List (Event subtle × Unit)} {final : Identities crates subtle}
    (round : ∀ key iv message, subtle.decrypt key iv (subtle.encrypt key iv message) = some message)
    (run : Machine.Run (Machine.total step) (fresh crates subtle) trace final)
    (alone : Machine.Along (Machine.total step) Alone (fresh crates subtle) trace) :
    (∀ caller ∈ final.callers, caller.load ≠ .failed) ∧
    (final.identity.stored.device ≠ none → ∃ id, ∀ {later last},
      Machine.Run (Machine.total step) final later last →
        last.identity = final.identity ∧
        (∀ caller ∈ last.callers, caller.load ≠ .failed ∧
          ∀ other, caller.load = .loaded other → other = id) ∧
        ∀ i first second secret iv, i < last.callers.length →
          ((last.turn i first secret iv).turn i second secret iv).callers[i]? =
            some { load := .loaded id, writing := false }) := by
  cases run_sound round run alone with
  | empty callers lone =>
      refine ⟨?_, fun some => absurd rfl some⟩
      rcases lone with rfl | rfl | rfl <;> simp
  | wrapping key => exact ⟨by simp, fun some => absurd rfl some⟩
  | wrapped key callers lone =>
      refine ⟨?_, fun some => absurd rfl some⟩
      rcases lone with rfl | rfl | rfl | rfl <;> simp
  | storing key stored id callers opens pair =>
      refine ⟨?_, fun some => absurd rfl some⟩
      rcases pair with rfl | rfl <;> simp
  | kept key stored id _ opens both =>
      have ends {identities : Identities crates subtle} (both : Stored key stored identities) :
          ∀ caller ∈ identities.callers, caller.load ≠ .failed ∧
            ∀ other, caller.load = .loaded other → other = id := by
        intro caller member
        rcases (both.reads caller member).2 with here | here | here
        · simp [here]
        · simp [here]
        · simp [here, opens, ended, eq_comm]
      refine ⟨fun caller member => (ends both caller member).1, fun _ => ⟨id, ?_⟩⟩
      intro later last onward
      have still := both.run onward
      refine ⟨still.identity.trans both.identity.symm, ends still, fun i first second secret iv inside => ?_⟩
      rw [still.turns (List.getElem?_eq_getElem inside) first second secret iv, opens, ended]

theorem identity_kept_cutOff : ∃ trace, ∃ final : Identities Crates.sample Subtle.sample,
    Machine.Run (Machine.total step) (fresh Crates.sample Subtle.sample) trace final ∧
      final.identity.queue = [] ∧ final.callers.length = 1 ∧ ∃ id, ∀ {later last},
        Machine.Run (Machine.total step) final later last →
          last.identity = final.identity ∧
          (∀ caller ∈ last.callers, caller.load ≠ .failed ∧
            ∀ other, caller.load = .loaded other → other = id) ∧
          ∀ i first second secret iv, i < last.callers.length →
            ((last.turn i first secret iv).turn i second secret iv).callers[i]? =
              some { load := .loaded id, writing := false } := by
  let draw (key : UInt8) : Event Subtle.sample :=
    .turn 0 key (Octets.replicate 32 key) (Octets.replicate 12 0)
  -- The first visit is cut off before its key is committed.
  have run : Machine.Run (Machine.total step) (fresh Crates.sample Subtle.sample)
      [(.begin, ()), (draw 7, ()), (draw 7, ()), (.crash, ()), (.begin, ()), (draw 8, ()), (draw 8, ()),
        (.commit, ()), (draw 9, ()), (draw 9, ()), (.begin, ()), (.commit, ()), (.close 0, ())] _ :=
    .cons rfl (.cons rfl (.cons rfl (.cons rfl (.cons rfl (.cons rfl (.cons rfl (.cons rfl (.cons rfl
      (.cons rfl (.cons rfl (.cons rfl (.cons rfl (.nil _)))))))))))))
  have kept := (identity_kept sample_round run ?_).2 (Option.some_ne_none _)
  · exact ⟨_, _, run, rfl, rfl, kept⟩
  · refine ⟨_, rfl, .inl (List.forall_mem_nil _), _, rfl, trivial, _, rfl, trivial, _, rfl, trivial, ?_⟩
    refine ⟨_, rfl, .inl (List.forall_mem_nil _), _, rfl, trivial, _, rfl, trivial, ?_⟩
    refine ⟨_, rfl, trivial, _, rfl, trivial, _, rfl, trivial, ?_⟩
    exact ⟨_, rfl, .inl (List.forall_mem_singleton.mpr trivial), _, rfl, trivial, _, rfl, trivial, trivial⟩

/-! Two first visits at a time. -/

/-- Two calls, and everything that is written is committed. -/
structure Beside (i j : Nat) (slots : Slots subtle) (first second : Loading crates subtle)
    (identities : Identities crates subtle) : Prop where
  identity : identities.identity = { stored := slots, queue := [] }
  first : identities.callers[i]?.map Caller.load = some first
  second : identities.callers[j]?.map Caller.load = some second

theorem Beside.swap {i j : Nat} {slots : Slots subtle} {first second : Loading crates subtle}
    (beside : Beside i j slots first second identities) : Beside j i slots second first identities :=
  ⟨beside.identity, beside.second, beside.first⟩

/-- One of the two goes on alone, and what it writes is committed. -/
theorem Beside.goes {i j : Nat} {slots : Slots subtle} {first second : Loading crates subtle}
    (beside : Beside i j slots first second identities) (other : i ≠ j) (made : subtle.CryptoKey)
    (secret : Octets 32) (iv : Octets 12) {load : Loading crates subtle} {written : Option (Slots subtle)}
    (advances : identities.advance made secret iv first = (load, written)) :
    Machine.Attains (Machine.total step) (Beside i j (written.getD slots) load second) identities := by
  obtain ⟨caller, found, rfl⟩ := Option.map_eq_some_iff.mp beside.first
  have inside := (List.getElem?_eq_some_iff.mp found).1
  cases written with
  | none =>
      have turned : identities.turn i made secret iv =
          { identities with callers := identities.callers.set i { caller with load } } := by
        simp [Identities.turn, found, beside.identity, advances]
      refine ⟨_, _, Machine.Run.once Identities.step identities (.turn i made secret iv), ?_, ?_, ?_⟩
      · simpa [Identities.step, turned] using beside.identity
      · simp [Identities.step, turned, inside]
      · simpa [Identities.step, turned, other] using beside.second
  | some more =>
      have turned : identities.turn i made secret iv =
          { identity := identities.identity.write more
            callers := identities.callers.set i { load, writing := true } } := by
        simp [Identities.turn, found, beside.identity, advances]
      refine ⟨_, _, (Machine.Run.once Identities.step identities (.turn i made secret iv)).append
        (Machine.Run.once Identities.step _ .commit), ?_, ?_, ?_⟩
      · simp [Identities.step, turned, Identities.commit, beside.identity, Store.write, Store.commit]
      · simp [Identities.step, turned, Identities.commit, inside]
      · have second := beside.second
        simp only [Option.map_eq_some_iff] at second ⊢
        obtain ⟨sitting, there, same⟩ := second
        refine ⟨{ sitting with writing := false }, ?_, same⟩
        simp [Identities.step, turned, Identities.commit, other, there]

/-- Whenever two calls have both found no key, of whatever pages and with whatever they draw, they may
both end with an identity and leave a secret under a key that is not the one stored; and then, after
any crash and however often the app is opened, every call fails and nothing is written any more. -/
theorem racing_visits_brick {i j : Nat} (other : i ≠ j)
    (beside : Beside i j Slots.empty .makingWrap .makingWrap identities)
    (keyA keyB : subtle.CryptoKey) (secretA secretB : Octets 32) (ivA ivB : Octets 12)
    (wrong : subtle.decrypt keyB ivA (subtle.encrypt keyA ivA secretA.bytes) = none) :
    ∃ trace final, Machine.Run (Machine.total step) identities trace final ∧
      final.callers[i]?.map Caller.load = some (.loaded (KeyPair.fromBytes crates secretA)) ∧
      final.callers[j]?.map Caller.load = some (.loaded (KeyPair.fromBytes crates secretB)) ∧
      ∀ {later last}, Machine.Run (Machine.total step) final.crash later last →
        last.identity = final.identity ∧
        (∀ caller ∈ last.callers, ∀ id, caller.load ≠ .loaded id) ∧
        ∀ i first second secret iv, i < last.callers.length →
          ((last.turn i first secret iv).turn i second secret iv).callers[i]? =
            some { load := .failed, writing := false } := by
  let blobA : Wrapped := { iv := ivA, ct := subtle.encrypt keyA ivA secretA.bytes }
  let blobB : Wrapped := { iv := ivB, ct := subtle.encrypt keyB ivB secretB.bytes }
  let idA := KeyPair.fromBytes crates secretA
  let idB := KeyPair.fromBytes crates secretB
  -- A's key is written before B's, and B's secret before A's.
  have keyed : Machine.Attains (Machine.total step)
      (Beside i j { wrap := some keyA, device := none } (.device keyA) .makingWrap) identities := by
    have makes : identities.advance keyA secretA ivA .makingWrap =
        (.device keyA, some { wrap := some keyA, device := none }) := by
      simp only [Identities.advance, beside.identity]
      rfl
    exact beside.goes other keyA secretA ivA makes
  have rekeyed : Machine.Attains (Machine.total step)
      (Beside i j { wrap := some keyB, device := none } (.device keyA) (.device keyB)) identities := by
    refine keyed.trans fun middle beside => ?_
    have makes : middle.advance keyB secretB ivB .makingWrap =
        (.device keyB, some { wrap := some keyB, device := none }) := by
      simp only [Identities.advance, beside.identity]
    exact (beside.swap.goes other.symm keyB secretB ivB makes).mono fun _ => Beside.swap
  have bare : Machine.Attains (Machine.total step)
      (Beside i j { wrap := some keyB, device := none } (.makingDevice keyA) (.makingDevice keyB))
      identities := by
    refine rekeyed.trans fun middle beside => ?_
    have misses : middle.advance keyA secretA ivA (.device keyA) = (.makingDevice keyA, none) := by
      simp only [Identities.advance, beside.identity]
    refine (beside.goes other keyA secretA ivA misses).trans fun middle beside => ?_
    have misses : middle.advance keyB secretB ivB (.device keyB) = (.makingDevice keyB, none) := by
      simp only [Identities.advance, beside.identity]
      rfl
    exact (beside.swap.goes other.symm keyB secretB ivB misses).mono fun _ => Beside.swap
  have stored : Machine.Attains (Machine.total step)
      (Beside i j { wrap := some keyB, device := some blobB } (.makingDevice keyA) (.loaded idB))
      identities := by
    refine bare.trans fun middle beside => ?_
    have makes : middle.advance keyB secretB ivB (.makingDevice keyB) =
        (.loaded idB, some { wrap := some keyB, device := some blobB }) := by
      simp only [Identities.advance, beside.identity]
      rfl
    exact (beside.swap.goes other.symm keyB secretB ivB makes).mono fun _ => Beside.swap
  have bricked : Machine.Attains (Machine.total step)
      (Beside i j { wrap := some keyB, device := some blobA } (.loaded idA) (.loaded idB)) identities := by
    refine stored.trans fun middle beside => ?_
    have makes : middle.advance keyA secretA ivA (.makingDevice keyA) =
        (.loaded idA, some { wrap := some keyB, device := some blobA }) := by
      simp only [Identities.advance, beside.identity]
      rfl
    exact beside.goes other keyA secretA ivA makes
  obtain ⟨trace, final, run, ends⟩ := bricked
  have refuses : Slots.unwrap crates keyB blobA = none := by simp [Slots.unwrap, blobA, wrong]
  have both : Stored keyB blobA final.crash := by
    refine ⟨?_, by simp [Identities.crash]⟩
    simp [Identities.crash, ends.identity, Store.crash]
  refine ⟨trace, final, run, ends.first, ends.second, fun onward => ?_⟩
  have still := both.run onward
  refine ⟨still.identity.trans ends.identity.symm, fun caller member id => ?_, ?_⟩
  · rcases (still.reads caller member).2 with here | here | here
    · simp [here]
    · simp [here]
    · simp [here, refuses, ended]
  · intro k first second secret iv inside
    rw [still.turns (List.getElem?_eq_getElem inside) first second secret iv, refuses, ended]

theorem racing_visits_brick_opened :
    ∃ opening identities trace, ∃ final : Identities Crates.sample Subtle.sample,
      Machine.Run (Machine.total step) (fresh Crates.sample Subtle.sample) opening identities ∧
      Machine.Run (Machine.total step) identities trace final ∧
      final.callers[0]?.map Caller.load =
        some (.loaded (KeyPair.fromBytes Crates.sample (Octets.replicate 32 1))) ∧
      final.callers[1]?.map Caller.load =
        some (.loaded (KeyPair.fromBytes Crates.sample (Octets.replicate 32 2))) ∧
      ∀ {later last}, Machine.Run (Machine.total step) final.crash later last →
        last.identity = final.identity ∧
        (∀ caller ∈ last.callers, ∀ id, caller.load ≠ .loaded id) ∧
        ∀ i first second secret iv, i < last.callers.length →
          ((last.turn i first secret iv).turn i second secret iv).callers[i]? =
            some { load := .failed, writing := false } := by
  let draw (i : Nat) : Event Subtle.sample :=
    .turn i (0 : UInt8) (Octets.replicate 32 0) (Octets.replicate 12 0)
  let pages := ((fresh Crates.sample Subtle.sample).step .begin).2.step .begin |>.2
  let opened := (pages.step (draw 0)).2.step (draw 1) |>.2
  have opening : Machine.Run (Machine.total step) (fresh Crates.sample Subtle.sample)
      [(.begin, ()), (.begin, ()), (draw 0, ()), (draw 1, ())] opened :=
    .cons rfl (.cons rfl (.cons rfl (.cons rfl (.nil _))))
  let keyA : Subtle.sample.CryptoKey := (7 : UInt8)
  let keyB : Subtle.sample.CryptoKey := (8 : UInt8)
  have beside : Beside 0 1 Slots.empty .makingWrap .makingWrap opened := ⟨rfl, rfl, rfl⟩
  obtain ⟨trace, final, run, first, second, bricked⟩ := racing_visits_brick (by decide) beside keyA keyB
    (Octets.replicate 32 1) (Octets.replicate 32 2) (Octets.replicate 12 3) (Octets.replicate 12 4)
    (by decide)
  exact ⟨_, _, trace, final, opening, run, first, second, bricked⟩

end Rabaska.Shell.Identities
