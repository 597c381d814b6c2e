import Rabaska.SurvivalProofs

/-! A transfer in PAIR mode does not outlive the page: every launch has keys of its own, so what an earlier
one has saved completes an object that it cannot open. -/

namespace Rabaska

open Call Wire Crypto

variable {crates : Crates} {code : Fountain.Code Bytes} {key : SessionKey} {tx : Transmitter}
  {object payload : Bytes}

namespace Pipeline

open Receiver

variable {rx : Receiver crates} {collector : Fountain.Collector Bytes}

theorem Live.scans (genuine : PacketPool tx.packets)
    (reconstructs : Reconstructs crates code tx.beacon.oti tx.packets object)
    (live : Live code key tx object rx collector) (heard : collector.acquired = true)
    {packets : List Bytes} (member : ∀ p ∈ packets, p ∈ tx.packets) :
    ∃ next out, rx.absorb packets = some (next.conclude tx.beacon out) ∧ next.key = some key ∧
      next.beacon = some tx.beacon ∧
      (code.Suffices (collector.gathered ∪ {p | p ∈ packets}) → out = some object) ∧
      (¬code.Suffices (collector.gathered ∪ {p | p ∈ packets}) → out = none ∧ next.done = rx.done ∧
        Live code key tx object next
          { collector with gathered := collector.gathered ∪ {p | p ∈ packets} }) := by
  have known : rx.beacon = some tx.beacon := by rw [live.beacon, heard]; rfl
  have drained : Collecting code tx.beacon.oti tx.packets object { rx with pending := [] } none := by
    obtain ⟨inPool, nodup, ids, opened, waiting, finished⟩ := live.collecting heard
    exact ⟨inPool, nodup, ids, opened, waiting, finished⟩
  have inside : ∀ p ∈ rx.queued tx.beacon packets, p ∈ tx.packets := by
    intro p queued
    rcases mem_queued queued with parked | now
    · exact (live.parked _ parked).2
    · exact member p now
  obtain ⟨next, out, folded, collecting, seen⟩ :=
    foldlM_collecting genuine reconstructs drained _ inside
  have kept := foldlM_untouched folded
  have all : collector.gathered ∪ {p | p ∈ packets} = {p | p ∈ next.seen} := by
    ext p
    rw [live.gathered, Set.mem_union, Set.mem_ofPred_eq, Set.mem_ofPred_eq, Set.mem_ofPred_eq, seen,
      live.queued, List.mem_append, or_assoc]
  refine ⟨next, out, absorb_eq known folded, kept.key.trans (live.key heard), kept.beacon.trans known, ?_⟩
  rw [all]
  cases out with
  | some ct =>
      obtain ⟨rfl, enough⟩ := collecting.finished ct rfl
      exact ⟨fun _ => rfl, fun lacking => absurd enough lacking⟩
  | none =>
      obtain ⟨lacking, -⟩ := collecting.waiting rfl
      refine ⟨fun enough => absurd enough lacking, fun _ => ⟨rfl, kept.done, ?_⟩⟩
      have empty : next.pending = [] := kept.pending
      refine ⟨by rw [kept.beacon]; exact live.beacon, fun _ => kept.key.trans (live.key heard),
        fun _ => collecting, fun unheard => ?_, by simp [empty], by simp [empty]⟩
      exact absurd (heard.symm.trans unheard) (by simp)

theorem Live.parks (live : Live code key tx object rx collector) (unheard : collector.acquired = false)
    {sf : SymbolFrame} (session : sf.sid4 = sid4 tx.beacon.sessionId)
    (member : ∀ p ∈ sf.packets, p ∈ tx.packets) :
    rx.beacon = none ∧ Live code key tx object
      { rx with pending := rx.pending ++ sf.packets.map fun p => (sf.sid4, p) }
      { collector with gathered := collector.gathered ∪ {p | p ∈ sf.packets} } := by
  have unknown : rx.beacon = none := by rw [live.beacon, unheard]; rfl
  refine ⟨unknown, live.beacon, live.key, fun heard => ?_, live.unheard, ?_, ?_⟩
  · exact absurd (unheard.symm.trans heard) (by simp)
  · intro entry parked
    rcases List.mem_append.mp parked with before | now
    · exact live.parked entry before
    · obtain ⟨p, inside, rfl⟩ := List.mem_map.mp now
      exact ⟨session, member p inside⟩
  · ext p
    simp [live.gathered, or_assoc]

theorem Tracks.tries (genuine : PacketPool tx.packets)
    (reconstructs : Reconstructs crates code tx.beacon.oti tx.packets object) (sound : Sound crates tx)
    {error : Error} (refuses : openObject crates key tx.beacon object = .error error) {frame : Frame}
    (drawn : tx.Genuine crates frame) (tracks : Tracks code key tx object rx collector)
    (running : collector.done = false) :
    ∃ result after, drive key rx frame = some (result, after) ∧
      ((Fountain.step code collector (image crates frame)).1 = .complete →
        result = .error error ∧ after.beacon = some tx.beacon) ∧
      ((Fountain.step code collector (image crates frame)).1 ≠ .complete →
        Answers payload result (Fountain.step code collector (image crates frame)).1 ∧
        Tracks code key tx object after (Fountain.step code collector (image crates frame)).2) := by
  have unfinished := tracks.done.trans running
  have live := tracks.live unfinished
  cases drawn with
  | beacon =>
      obtain ⟨result, after, driven, answers, next⟩ :=
        @Tracks.beacon _ code key tx object reconstructs sound payload rx collector unfinished
          tracks.done live
      refine ⟨result, after, driven, fun complete => ?_, fun _ => ⟨answers, next⟩⟩
      have still := Fountain.step_announced_running code running
      exact absurd ((Fountain.step_finished_iff code collector .announced).mpr (.inr complete))
        (by simp [still])
  | symbol sf session len kept count member =>
      have wellFormed := sound.wellFormed len count member
      rw [image, carried_symbol wellFormed]
      have read : rx.ingest (Frame.symbol (sf.encode crates)).bytes = rx.ingestSymbol sf :=
        Receiver.ingest_symbol unfinished wellFormed
      cases heard : collector.acquired with
      | false =>
          obtain ⟨unknown, parked⟩ := live.parks heard session member
          have early := read.trans (Receiver.ingestSymbol_early unknown sf)
          refine ⟨_, _, drive_of_ingest early (by simp), ?_⟩
          rw [Fountain.step_offered_early code _ running heard]
          exact ⟨by simp, fun _ => ⟨rfl, tracks.done, fun _ => parked⟩⟩
      | true =>
          have known : rx.beacon = some tx.beacon := by rw [live.beacon, heard]; rfl
          obtain ⟨next, out, absorbed, keyed, beacon, opened, waits⟩ :=
            live.scans genuine reconstructs heard member
          have ingested := (read.trans (Receiver.ingestSymbol_known known session)).trans absorbed
          by_cases enough : code.Suffices (collector.gathered ∪ {p | p ∈ sf.packets})
          · have refused : next.conclude tx.beacon out = (.error error, next) := by
              simp [conclude, opened enough, keyed, refuses]
            rw [refused] at ingested
            refine ⟨_, _, drive_of_ingest ingested (by simp), fun _ => ⟨rfl, beacon⟩, ?_⟩
            rw [Fountain.step_offered_enough code running heard enough]
            exact fun incomplete => absurd rfl incomplete
          · obtain ⟨rfl, unchanged, still⟩ := waits enough
            have progress : next.conclude tx.beacon none =
                (.ok (.progress next.received next.needed), next) := rfl
            rw [progress] at ingested
            refine ⟨_, _, drive_of_ingest ingested (by simp), ?_⟩
            rw [Fountain.step_offered_lacking code running heard enough]
            exact ⟨by simp, fun _ => ⟨⟨_, _, rfl⟩, unchanged.trans tracks.done, fun _ => still⟩⟩

end Pipeline

namespace Shell

open Pipeline Wasm Durable Receiver

/-! A launch in front of a sender that has replied to another one. -/

/-- A PAIR transfer, and a session whose key does not open its object. -/
structure Estranged (crates : Crates) (code : Fountain.Code Bytes) (session : Session crates)
    (tx : Transmitter) (object : Bytes) : Prop where
  mode : tx.beacon.mode = .pair
  genuine : PacketPool tx.packets
  reconstructs : Reconstructs crates code tx.beacon.oti tx.packets object
  sound : Sound crates tx
  refuses : Receiver.openObject crates (session.pairKey tx.beacon) tx.beacon object = .error .authFailed

variable (code tx object) (session : Session crates)

structure Strays (recv : Receive crates) (collector : Fountain.Collector Bytes) : Prop where
  bound : Receive.Bound session recv
  collects : Collects code (session.pairKey tx.beacon) tx object recv.rx collector

structure Tried (recv : Receive crates) (collector : Fountain.Collector Bytes)
    (event : Fountain.Event Bytes) (r : IngestResult) (next : Receive crates) : Prop where
  stocked : Stocked tx next.rx
  retains : ∀ p ∈ retained recv.rx, p ∈ retained next.rx
  refused : (Fountain.step code collector event).1 = .complete → r.kind = .error Error.authFailed.display
  taken : (Fountain.step code collector event).1 ≠ .complete → (∀ msg, r.kind ≠ .error msg) ∧
    r.kind ≠ .done ∧ Strays code tx object session next (Fountain.step code collector event).2

variable {code tx object session} {recv : Receive crates} {collector : Fountain.Collector Bytes}

theorem Strays.acquired (estranged : Estranged crates code session tx object)
    (strays : Strays code tx object session recv collector) {frame : Frame}
    (drawn : tx.Genuine crates frame) {rx : Receiver crates}
    (fed : recv.rx.ingest frame.bytes = some (.ok .beaconAcquired, rx))
    (incomplete : (Fountain.step code collector (image crates frame)).1 ≠ .complete)
    (tracks : Tracks code (session.pairKey tx.beacon) tx object (rx.setKey (session.pairKey tx.beacon))
      (Fountain.step code collector (image crates frame)).2) :
    ∃ r next, recv.ingest frame.bytes = some (r, next) ∧
      Tried code tx object session recv collector (image crates frame) r next := by
  obtain ⟨unknown, -, b, -, known⟩ := Receiver.ingest_acquired fed
  obtain rfl : b = tx.beacon := by
    have running : (rx.setKey (session.pairKey tx.beacon)).done = false :=
      show rx.done = false from acquired_running fed
    have live : rx.beacon = _ := (tracks.live running).beacon
    rw [known] at live
    split at live
    · exact Option.some_inj.mp live
    · simp at live
  have own : ∀ b, rx.beacon = some b → b = tx.beacon := by
    rintro b held
    exact Option.some_inj.mp (held.symm.trans known)
  obtain ⟨stocked, retains⟩ :=
    strays.collects.stocks estranged.genuine estranged.sound drawn fed own
  have derived := @Receive.deriveAndSet_pair _ session { recv with rx } _ strays.bound.own
    (strays.bound.unkeyed unknown) known estranged.mode
  have ingested : recv.ingest frame.bytes = some (Receive.answer { recv with rx } (.ok .beaconAcquired)) := by
    simp [Receive.ingest, fed]
  simp only [Receive.answer, derived] at ingested
  have keyed : Stocked tx (rx.setKey (session.pairKey tx.beacon)) :=
    ⟨stocked.sane.of_same rfl rfl rfl rfl rfl rfl, ⟨stocked.pooled.parked, stocked.pooled.seen⟩,
      stocked.drained, stocked.own⟩
  have bound := (Receive.ingest_heeds strays.bound ingested).bound
  exact ⟨_, _, ingested, keyed, retains, fun complete => absurd complete incomplete,
    fun _ => ⟨by simp, by simp, bound, keyed, tracks⟩⟩

theorem Strays.take (estranged : Estranged crates code session tx object)
    (strays : Strays code tx object session recv collector) (running : collector.done = false)
    {frame : Frame} (drawn : tx.Genuine crates frame) :
    ∃ r next, recv.ingest frame.bytes = some (r, next) ∧
      Tried code tx object session recv collector (image crates frame) r next := by
  obtain ⟨result, after, driven, refused, taken⟩ := @Tracks.tries _ code _ tx object [] recv.rx collector
    estranged.genuine estranged.reconstructs estranged.sound _ estranged.refuses _ drawn
    strays.collects.tracks running
  rcases drive_cases driven with ⟨rfl, rx, fed, rfl⟩ | ⟨other, fed⟩
  · have incomplete : (Fountain.step code collector (image crates frame)).1 ≠ .complete :=
      fun complete => by simpa using (refused complete).1
    exact strays.acquired estranged drawn fed incomplete (taken incomplete).2
  · obtain ⟨stocked, retains⟩ := strays.collects.stocks estranged.genuine estranged.sound drawn fed
      (strays.collects.toStocked.beacon fed other)
    have ingested : recv.ingest frame.bytes = some (Receive.answer { recv with rx := after } result) := by
      simp [Receive.ingest, fed]
    by_cases complete : (Fountain.step code collector (image crates frame)).1 = .complete
    · obtain ⟨rfl, -⟩ := refused complete
      exact ⟨_, _, ingested, stocked, retains, fun _ => rfl, fun incomplete => absurd complete incomplete⟩
    · obtain ⟨answers, tracks⟩ := taken complete
      have bound := (Receive.ingest_heeds strays.bound ingested).bound
      cases told : (Fountain.step code collector (image crates frame)).1 with
      | ignored =>
          rw [told] at answers
          obtain rfl : result = .ok .ignored := answers
          exact ⟨_, _, ingested, stocked, retains, fun impossible => absurd impossible complete,
            fun _ => ⟨by simp, by simp, bound, stocked, tracks⟩⟩
      | acquired =>
          rw [told] at answers
          exact absurd answers other
      | progress =>
          rw [told] at answers
          obtain ⟨received, needed, rfl⟩ := answers
          exact ⟨_, _, ingested, stocked, retains, fun impossible => absurd impossible complete,
            fun _ => ⟨by simp, by simp, bound, stocked, tracks⟩⟩
      | complete => exact absurd told complete

/-! The page. -/

theorem heed_refusal (shell : Receiving crates) {r : IngestResult}
    (refused : r.kind = .error Error.authFailed.display) : shell.heed r = { shell with stop := true } := by
  have heard : includes r.kind.text "authentication" = true := by
    rw [refused]
    decide
  unfold Receiving.heed
  rw [refused] at heard ⊢
  simp only [heard, if_true]

namespace Installed

variable (code tx object session) in
/-- A page that collects until it fails to open the object, and is stopped then. What it restored stays
stored. -/
structure Lost (stock : Set Bytes) (past : List (Event crates × Option IngestResult))
    (installed : Installed crates) (page : Page crates) (collector : Fountain.Collector Bytes) : Prop where
  on : installed.page = some page
  alive : page.shell.trapped = false
  reflects : Fountain.Reflects code (.offered stock :: heardIn past) collector
  undelivered : ∀ event r, (event, some r) ∈ past → r.kind ≠ .done
  refused : (∃ event r, (event, some r) ∈ past ∧ r.kind = .error Error.authFailed.display) ↔
    collector.done = true
  stocked : Stocked tx page.shell.recv.rx
  rising : installed.checkpoints.Rising (kept tx) {p | p ∈ retained page.shell.recv.rx}
  stays : stock ⊆ kept tx installed.checkpoints.stored
  stopped : collector.done = true → page.shell.stop = true
  strays : collector.done = false → (page.shell.stop || !page.shell.cameraOn) = false ∧
    Strays code tx object session page.shell.recv collector

variable {stock : Set Bytes} {past : List (Event crates × Option IngestResult)}
  {installed : Installed crates} {page : Page crates}

theorem told_snoc {Says : Kind → Prop} (event : Event crates) (answer : Option IngestResult) :
    (∃ event' r, (event', some r) ∈ past ++ [(event, answer)] ∧ Says r.kind) ↔
      (∃ event' r, (event', some r) ∈ past ∧ Says r.kind) ∨ ∃ r, answer = some r ∧ Says r.kind := by
  constructor
  · rintro ⟨event', r, member, told⟩
    rcases List.mem_append.mp member with before | now
    · exact .inl ⟨event', r, before, told⟩
    · obtain ⟨rfl, rfl⟩ := Prod.mk.inj (List.mem_singleton.mp now)
      exact .inr ⟨r, rfl, told⟩
  · rintro (⟨event', r, before, told⟩ | ⟨r, rfl, told⟩)
    · exact ⟨event', r, List.mem_append_left _ before, told⟩
    · exact ⟨event, r, by simp, told⟩

theorem Lost.silent (lost : Lost code tx object session stock past installed page collector)
    {event : Event crates} {next : Installed crates} {collector' : Fountain.Collector Bytes}
    (on : next.page = some page)
    (reflects : Fountain.Reflects code (.offered stock :: heardIn (past ++ [(event, none)])) collector')
    (same : collector' = collector)
    (rising : next.checkpoints.Rising (kept tx) {p | p ∈ retained page.shell.recv.rx})
    (stays : stock ⊆ kept tx next.checkpoints.stored) :
    Lost code tx object session stock (past ++ [(event, none)]) next page collector' := by
  subst same
  refine ⟨on, lost.alive, reflects, fun event' r member => lost.undelivered event' r (by simpa using member),
    ?_, lost.stocked, rising, stays, lost.stopped, lost.strays⟩
  rw [@told_snoc _ past (fun kind => kind = .error Error.authFailed.display)]
  simpa using lost.refused

theorem Lost.unheard (lost : Lost code tx object session stock past installed page collector)
    {event : Event crates} (quiet : event.shown = none) :
    Fountain.Reflects code (.offered stock :: heardIn (past ++ [(event, none)])) collector := by
  rw [heardIn_snoc, quiet]
  simpa using lost.reflects

theorem Lost.heard (sound : Sound crates tx)
    (lost : Lost code tx object session stock past installed page collector) {frame : Frame}
    (drawn : tx.Genuine crates frame) (finishes : Bool) (answer : Option IngestResult) :
    Fountain.Reflects code
      (.offered stock :: heardIn (past ++ [(.frame (some frame.bytes) finishes, answer)]))
      (Fountain.step code collector (image crates frame)).2 := by
  have said : ((Event.frame (some frame.bytes) finishes : Event crates).shown.bind
      (imageOf crates)).toList = [image crates frame] := by
    simp [Event.shown, imageOf_genuine sound drawn]
  rw [heardIn_snoc, said, ← List.cons_append]
  exact (Fountain.step_reflects lost.reflects (image crates frame)).1

theorem look_undelivered {found : Option Bytes} {finishes : Bool} (on : installed.page = some page)
    (undelivered : ∀ r, page.shell.heard found = some r → r.kind ≠ .done) :
    installed.step (.frame found finishes) = (page.shell.heard found,
      { installed with page := some { page with shell := page.shell.onFrame found } }) := by
  have none : delivers (page.shell.heard found) = false := by
    cases heard : page.shell.heard found with
    | none => rfl
    | some r => simpa [delivers] using undelivered r heard
  simp [step, on, look, none]

theorem Lost.look (estranged : Estranged crates code session tx object)
    (lost : Lost code tx object session stock past installed page collector)
    (running : collector.done = false) {frame : Frame} (drawn : tx.Genuine crates frame)
    (finishes : Bool) :
    ∃ page collector, Lost code tx object session stock
      (past ++ [(.frame (some frame.bytes) finishes,
        (installed.step (.frame (some frame.bytes) finishes)).1)])
      (installed.step (.frame (some frame.bytes) finishes)).2 page collector := by
  obtain ⟨awake, strays⟩ := lost.strays running
  obtain ⟨r, next, ingested, tried⟩ := strays.take estranged running drawn
  obtain ⟨heard, shown⟩ := frame_heeded awake lost.alive (genuine_mark estranged.sound drawn) ingested
  have unfinished : r.kind ≠ .done := by
    by_cases complete : (Fountain.step code collector (image crates frame)).1 = .complete
    · rw [tried.refused complete]
      simp
    · exact (tried.taken complete).2.1
  have refusal : r.kind = .error Error.authFailed.display ↔
      (Fountain.step code collector (image crates frame)).1 = .complete := by
    constructor
    · intro failed
      by_contra incomplete
      exact (tried.taken incomplete).1 _ failed
    · exact tried.refused
  rw [@look_undelivered _ installed page _ finishes lost.on
    (by rintro other told; rwa [← Option.some_inj.mp (heard.symm.trans told)]), heard, shown]
  have recv := heed_recv { page.shell with recv := next } r
  refine ⟨_, _, rfl, ?_, lost.heard estranged.sound drawn finishes _, ?_, ?_, ?_, ?_, lost.stays, ?_, ?_⟩
  · rw [Receiving.heed_trapped]
    exact lost.alive
  · intro event other member
    rcases List.mem_append.mp member with before | now
    · exact lost.undelivered event other before
    · obtain ⟨-, same⟩ := Prod.mk.inj (List.mem_singleton.mp now)
      rwa [Option.some_inj.mp same]
  · rw [@told_snoc _ past (fun kind => kind = .error Error.authFailed.display),
      Fountain.step_finished_iff, lost.refused]
    simp [refusal]
  · dsimp only
    rw [recv]
    exact tried.stocked
  · dsimp only
    rw [recv]
    exact lost.rising.raise tried.retains
  · intro done
    have complete := ((Fountain.step_finished_iff code collector _).mp done).resolve_left (by simp [running])
    rw [heed_refusal _ (tried.refused complete)]
  · intro still
    have incomplete : (Fountain.step code collector (image crates frame)).1 ≠ .complete := by
      intro complete
      exact absurd ((Fountain.step_finished_iff code collector _).mpr (.inr complete)) (by simp [still])
    obtain ⟨accepted, -, strays⟩ := tried.taken incomplete
    obtain ⟨stop, camera⟩ := heed_awake { page.shell with recv := next } accepted
    refine ⟨by rw [stop, camera]; exact awake, ?_⟩
    dsimp only
    rw [recv]
    exact strays

theorem Lost.frame (estranged : Estranged crates code session tx object)
    (lost : Lost code tx object session stock past installed page collector) {found : Option Bytes}
    {finishes : Bool} (sees : Sees crates tx (.frame found finishes)) :
    ∃ page collector, Lost code tx object session stock
      (past ++ [(.frame found finishes, (installed.step (.frame found finishes)).1)])
      (installed.step (.frame found finishes)).2 page collector := by
  have ignored (quiet : page.shell.heard found = none) (same : page.shell.onFrame found = page.shell) :
      installed.step (.frame found finishes) = (none, { installed with page := some page }) := by
    rw [look_undelivered lost.on (by simp [quiet]), quiet, same]
  cases found with
  | none =>
      rw [ignored (by simp [Receiving.heard]) (by simp [Receiving.onFrame])]
      exact ⟨page, collector, lost.silent rfl (lost.unheard rfl) rfl lost.rising lost.stays⟩
  | some bytes =>
      obtain ⟨frame, drawn, rfl⟩ := sees bytes rfl
      cases done : collector.done with
      | false => exact lost.look estranged done drawn finishes
      | true =>
          have asleep : (page.shell.stop || !page.shell.cameraOn) = true := by simp [lost.stopped done]
          rw [ignored (by simp [Receiving.heard, asleep]) (by simp [Receiving.onFrame, asleep])]
          refine ⟨page, _, lost.silent rfl (lost.heard estranged.sound drawn finishes none) ?_ lost.rising
            lost.stays⟩
          rw [Fountain.step_done code done]

theorem Lost.saved (lost : Lost code tx object session stock past installed page collector) :
    (installed.saved page).page = some page ∧
      (installed.saved page).checkpoints.Rising (kept tx) {p | p ∈ retained page.shell.recv.rx} ∧
      stock ⊆ kept tx (installed.saved page).checkpoints.stored := by
  rcases saved_cases installed page with same | ⟨-, b, known, record, named, seen, nonempty, saved⟩
  · rw [same]
    exact ⟨lost.on, lost.rising, lost.stays⟩
  obtain rfl : b = tx.beacon := lost.stocked.own b known
  have all : kept tx (some record) = {p | p ∈ retained page.shell.recv.rx} := by
    rw [seen] at nonempty
    rw [kept_session named, seen, retained, lost.stocked.drained nonempty]
    rfl
  rw [saved, ← all]
  refine ⟨lost.on, lost.rising.write ?_, lost.stays⟩
  rw [all]

theorem lost_step (estranged : Estranged crates code session tx object)
    (lost : Lost code tx object session stock past installed page collector) {event : Event crates}
    (attends : Attends crates tx event) :
    ∃ page collector, Lost code tx object session stock (past ++ [(event, (installed.step event).1)])
      (installed.step event).2 page collector := by
  obtain ⟨sees, stays⟩ := attends
  cases event with
  | launch session cameraOn => exact stays.elim
  | assign stop cameraOn staged encrypted receiving => exact stays.elim
  | crash => exact stays.elim
  | frame found finishes => exact lost.frame estranged sees
  | interval =>
      obtain ⟨on, rising, kept⟩ := lost.saved
      simp only [Installed.step, lost.on]
      exact ⟨page, collector, lost.silent on (lost.unheard rfl) rfl rising kept⟩
  | commit =>
      refine ⟨page, collector, lost.silent lost.on (lost.unheard rfl) rfl lost.rising.commit ?_⟩
      exact lost.stays.trans lost.rising.stored_commit

theorem run_lost {start final : Installed crates} {trace : List (Event crates × Option IngestResult)}
    (estranged : Estranged crates code session tx object)
    (begun : Lost code tx object session stock [] start page collector)
    (attends : ∀ event ∈ trace, Attends crates tx event.1)
    (run : Machine.Run (Machine.total step) start trace final) :
    ∃ page collector, Lost code tx object session stock trace final page collector := by
  refine run.history_on (fun event => Attends crates tx event.1)
    (fun past installed => ∃ page collector,
      Lost code tx object session stock past installed page collector) ?_ ⟨page, collector, begun⟩ attends
  rintro past before event answer after attended ⟨page, collector, lost⟩ stepped
  obtain ⟨rfl, rfl⟩ := Prod.mk.inj (Option.some_inj.mp stepped)
  exact lost_step estranged lost attended

/-! The launch. -/

theorem collected_genuine (uniform : Uniform crates tx) {frames : List Bytes}
    (genuine : ∀ bytes ∈ frames, ∃ frame, tx.Genuine crates frame ∧ frame.bytes = bytes) {sid : Octets 8}
    {record : Record} (collected : record.Collected crates frames sid) :
    sid4 sid = sid4 tx.beacon.sessionId ∧ ∀ p ∈ record.packets, p ∈ tx.packets := by
  have brought (p : Bytes) (member : p ∈ record.packets) :
      sid4 tx.beacon.sessionId = sid4 sid ∧ p ∈ tx.packets := by
    obtain ⟨-, bytes, came, sf, decoded, named, inside⟩ := collected.carried p member
    obtain ⟨frame, drawn, rfl⟩ := genuine bytes came
    exact brings_uniform uniform drawn ⟨sf, decoded, named, inside⟩
  obtain ⟨p, member⟩ := List.exists_mem_of_ne_nil _ collected.nonempty
  exact ⟨(brought p member).1.symm, fun p member => (brought p member).2⟩

theorem beReceiver_parks (uniform : Uniform crates tx) {frames : List Bytes}
    (genuine : ∀ bytes ∈ frames, ∃ frame, tx.Genuine crates frame ∧ frame.bytes = bytes)
    {stored : Option Record} {sid : Octets 8}
    (collected : ∀ record, stored = some record → record.Collected crates frames sid) :
    ∃ packets : List Bytes, (∀ p ∈ packets, p ∈ tx.packets) ∧ kept tx stored = {p | p ∈ packets} ∧
      (beReceiver session (restored stored sid) true).recv = { Receive.new session with
        rx := { Receiver.new crates with
          pending := packets.map fun p => (sid4 tx.beacon.sessionId, p) } } := by
  cases stored with
  | none => exact ⟨[], by simp, by simp [kept_none], rfl⟩
  | some record =>
      have own := collected record rfl
      obtain ⟨same, inside⟩ := collected_genuine uniform genuine own
      obtain ⟨text, packets⟩ := record
      obtain rfl : text = .string (hex4 sid) := own.session
      refine ⟨packets, inside, ?_, ?_⟩
      · rw [kept_string, decodeSid4_hex4, same]
        simp
      · have nonempty : packets ≠ [] := own.nonempty
        simp [beReceiver, restored, nonempty, Receive.restore, Receive.new, Receiver.restore,
          Receiver.hold, Receiver.new, same]

theorem launch_lost (uniform : Uniform crates tx) {frames : List Bytes}
    (genuine : ∀ bytes ∈ frames, ∃ frame, tx.Genuine crates frame ∧ frame.bytes = bytes)
    (before : Kept frames installed) (cut : installed.page = none) (session : Session crates) :
    ∃ page collector, Lost code tx object session (kept tx installed.checkpoints.stored) []
      (installed.launch session true) page collector := by
  obtain ⟨sid, collected⟩ := before.stored
  obtain ⟨packets, inside, same, parks⟩ := @beReceiver_parks _ _ session uniform _ genuine _ _ collected
  have collects := @collects_parked crates code (session.pairKey tx.beacon) tx object _ inside
  rw [← same] at collects
  have reflects := (Fountain.step_reflects (Fountain.reflects_new code)
    (.offered (kept tx installed.checkpoints.stored))).1
  have unfinished : (Fountain.step code .new (.offered (kept tx installed.checkpoints.stored))).2.done =
      false := by
    rw [Fountain.step_offered_early code _ rfl rfl]
    rfl
  have bound : Receive.Bound session (beReceiver session (restored installed.checkpoints.stored sid)
      true).recv := by
    rw [parks]
    exact ⟨rfl, fun _ => rfl, by simp [Receiver.new]⟩
  have idle : installed.checkpoints = { stored := installed.checkpoints.stored, queue := [] } := by
    rw [← before.idle cut]
  rw [launch_collected collected]
  refine ⟨_, _, rfl, rfl, reflects, by simp, by simp [unfinished], ?_, ?_, Set.Subset.refl _, ?_, fun _ =>
    ⟨rfl, bound, ?_⟩⟩
  · dsimp only
    rw [parks]
    exact collects.toStocked
  · have all : {p | p ∈ retained (beReceiver session (restored installed.checkpoints.stored sid)
        true).recv.rx} = kept tx installed.checkpoints.stored := by
      rw [parks, same]
      simp [retained, Function.comp_def, Receiver.new]
    dsimp only
    rw [all, idle]
    exact Store.rising_idle (kept tx) _
  · exact fun done => absurd (unfinished.symm.trans done) (by simp)
  · dsimp only
    rw [parks]
    exact collects

/-! What a sender has replied. -/

section Replied

variable {buildHash : Bytes} {identity : Option (KeyPair crates)} {frameCapacity : Nat}
  {ephSecret : Octets 32} {nonce : Octets 24}

/-- A sender has replied to one session of an app that only this sender is held in front of. Wherever the
app was cut off, the next launch delivers nothing of it: as soon as the beacon and enough packets have
come, stored before or shown now, it reports that the authentication failed and stops, and what is stored
stays stored for the launch after it. -/
theorem reload_refused (sendable : Sendable crates code (sentKey session ephSecret) nonce
      (sentCfg session identity buildHash frameCapacity ephSecret) payload)
    {send : Send} (replied : Send.reply crates session.pairReq payload identity none buildHash
      frameCapacity ephSecret nonce = some (.ok send))
    {now final : Installed crates} {before trace : List (Event crates × Option IngestResult)}
    (sees : ∀ event ∈ before, Sees crates send.tx event.1)
    (past : Machine.Run (Machine.total step) (fresh crates) before now) (cut : now.page = none)
    {other : Session crates}
    (locked : crates.xchachaDecrypt (other.pairKey send.tx.beacon) send.tx.beacon.nonce
      send.tx.beacon.aad (Transmitter.ciphertext crates (sentKey session ephSecret) nonce
        (sentCfg session identity buildHash frameCapacity ephSecret) payload) = none)
    {answer : Option IngestResult}
    (run : Machine.Run (Machine.total step) now ((.launch other true, answer) :: trace) final)
    (attends : ∀ event ∈ trace, Attends crates send.tx event.1) :
    (∀ event r, (event, some r) ∈ trace → r.kind ≠ .done) ∧
    ((∃ event r, (event, some r) ∈ trace ∧ r.kind = .error Error.authFailed.display) ↔
      Fountain.WasReady code (.offered (kept send.tx now.checkpoints.stored) :: heardIn trace)) ∧
    (Fountain.WasReady code (.offered (kept send.tx now.checkpoints.stored) :: heardIn trace) →
      ∃ page, final.page = some page ∧ page.shell.stop = true) ∧
    kept send.tx now.checkpoints.stored ⊆ kept send.tx final.checkpoints.stored := by
  obtain rfl := Except.ok.inj (Option.some_inj.mp (replied.symm.trans
    (Send.reply_encoded session.request payload identity buildHash frameCapacity ephSecret nonce)))
  obtain ⟨encodes, positive, sized⟩ := @sound_new crates (sentKey session ephSecret) nonce
    (sentCfg session identity buildHash frameCapacity ephSecret) payload sendable.genuine.sized
  have estranged : Estranged crates code other (Send.pairSend crates session.request payload identity
      buildHash frameCapacity ephSecret nonce).tx (Transmitter.ciphertext crates
        (sentKey session ephSecret) nonce
        (sentCfg session identity buildHash frameCapacity ephSecret) payload) := by
    refine ⟨rfl, sendable.genuine, sendable.reconstructs, ⟨encodes, positive, sized⟩, ?_⟩
    rw [Receiver.openObject, Crypto.decrypt, locked]
    rfl
  have genuine : ∀ bytes ∈ shownIn before, ∃ frame,
      (Send.pairSend crates session.request payload identity buildHash frameCapacity ephSecret
        nonce).tx.Genuine crates frame ∧ frame.bytes = bytes := by
    intro bytes member
    obtain ⟨⟨event, said⟩, came, shown⟩ := List.mem_flatMap.mp member
    cases event with
    | frame found finishes => exact sees _ came bytes (Option.mem_toList.mp shown)
    | _ => simp [Event.shown] at shown
  obtain ⟨page, collector, begun⟩ := @launch_lost _ code _ (Transmitter.ciphertext crates
    (sentKey session ephSecret) nonce (sentCfg session identity buildHash frameCapacity ephSecret) payload)
    _ estranged.sound.uniform _ genuine (run_kept past) cut other
  cases run with
  | cons stepped rest =>
      simp only [Machine.total, Installed.step, cut] at stepped
      obtain ⟨-, rfl⟩ := Prod.mk.inj (Option.some_inj.mp stepped)
      obtain ⟨page, collector, lost⟩ := run_lost estranged begun attends rest
      refine ⟨lost.undelivered, lost.refused.trans lost.reflects.done, fun ready => ?_, lost.stays⟩
      exact ⟨page, lost.on, lost.stopped (lost.reflects.done.mpr ready)⟩

end Replied

/-! A reply of two packets, cut off after the first. -/

def repliedSession : Session patientCrates :=
  Session.new none (Octets.replicate 32 3) (Octets.replicate 8 4) (Octets.replicate 16 6)

def laterSession : Session patientCrates :=
  Session.new none (Octets.replicate 32 5) (Octets.replicate 8 9) (Octets.replicate 16 7)

def patientReply : Send :=
  Send.pairSend patientCrates repliedSession.request samplePlaintext none [] 100 (Octets.replicate 32 8)
    sampleNonce

def replyCut : List (Event patientCrates) :=
  [.launch repliedSession true, .frame (some patientReply.tx.beaconBytes) true,
    .frame (some ((soleSymbol patientReply.tx 0).encode patientCrates)) true, .interval, .commit, .crash]

def replyAgain : List (Event patientCrates) :=
  [.frame (some patientReply.tx.beaconBytes) true,
    .frame (some ((soleSymbol patientReply.tx 1).encode patientCrates)) true]

theorem reply_sendable : Sendable patientCrates twoPackets
    (sentKey repliedSession (Octets.replicate 32 8)) sampleNonce
    (sentCfg repliedSession none [] 100 (Octets.replicate 32 8)) samplePlaintext := by
  refine patient_sendable (by decide) ⟨⟨148, by decide, by decide, by decide +kernel⟩, by decide +kernel⟩ ?_
  exact ⟨patientReply.tx.packets.get ⟨0, by decide +kernel⟩, List.get_mem _ _,
    patientReply.tx.packets.get ⟨1, by decide +kernel⟩, List.get_mem _ _, by decide +kernel⟩

theorem sees_replyCut : ∀ event ∈ replyCut, Sees patientCrates patientReply.tx event := by
  intro event member
  simp only [replyCut, List.mem_cons, List.not_mem_nil, or_false] at member
  rcases member with rfl | rfl | rfl | rfl | rfl | rfl
  · trivial
  · exact sees_beacon _ true
  · exact sees_sole (by decide +kernel) true
  · trivial
  · trivial
  · trivial

set_option maxRecDepth 100000 in
theorem reload_refused_replyCut : ∃ before now trace final,
    Machine.Run (Machine.total step) (fresh patientCrates) before now ∧ before.map Prod.fst = replyCut ∧
      Machine.Run (Machine.total step) now ((.launch laterSession true, none) :: trace) final ∧
      trace.map Prod.fst = replyAgain ∧
      (∀ event r, (event, some r) ∈ trace → r.kind ≠ .done) ∧
      (∃ event r, (event, some r) ∈ trace ∧ r.kind = .error Error.authFailed.display) ∧
      Fountain.WasReady twoPackets
        (.offered (kept patientReply.tx now.checkpoints.stored) :: heardIn trace) := by
  obtain ⟨whole, final, run, inputs, views⟩ := Machine.run_of_view (Machine.total step)
    (fresh patientCrates) (replyCut ++ .launch laterSession true :: replyAgain)
    (Option.map IngestResult.kind)
    [none, some .beacon, some .progress, none, none, none, none, some .beacon,
      some (.error Error.authFailed.display)] (by decide +kernel)
  obtain ⟨before, rest, rfl, first, later⟩ := List.map_eq_append_iff.mp inputs
  obtain ⟨⟨launch, answer⟩, trace, rfl, rfl, again⟩ := List.map_eq_cons_iff.mp later
  obtain ⟨now, past, onward⟩ := run.split
  have computed : (Machine.execute (Machine.total step) (fresh patientCrates) replyCut).map
      (fun result => result.2.page.isNone) = some true := by
    decide +kernel
  rw [← first, past.executes] at computed
  have cut : now.page = none := Option.isNone_iff_eq_none.mp (Option.some_inj.mp computed)
  have silent : answer = none := by
    cases onward with
    | cons stepped rest =>
        simp only [Machine.total, Installed.step, cut] at stepped
        exact (Prod.mk.inj (Option.some_inj.mp stepped)).1.symm
  subst silent
  have attends : ∀ event ∈ trace, Attends patientCrates patientReply.tx event.1 := by
    refine sees_inputs again fun event member => ?_
    simp only [replyAgain, List.mem_cons, List.not_mem_nil, or_false] at member
    rcases member with rfl | rfl
    · exact ⟨sees_beacon _ true, trivial⟩
    · exact ⟨sees_sole (by decide +kernel) true, trivial⟩
  have failed : ∃ event r, (event, some r) ∈ trace ∧ r.kind = .error Error.authFailed.display := by
    have sized : before.length = 6 := by simpa [replyCut] using congrArg List.length first
    have last : (trace.map fun event => event.2.map IngestResult.kind) =
        [some .beacon, some (.error Error.authFailed.display)] := by
      have tail := congrArg (List.drop 7) views
      rwa [List.map_append, List.drop_append, List.length_map, sized, List.drop_eq_nil_of_le
        (by simp [sized])] at tail
    obtain ⟨⟨event, answer⟩, member, answered⟩ := List.mem_map.mp
      (last ▸ List.mem_cons_of_mem _ (List.mem_singleton_self _))
    obtain ⟨r, rfl, same⟩ := Option.map_eq_some_iff.mp answered
    exact ⟨event, r, member, same⟩
  obtain ⟨undelivered, told, -⟩ := reload_refused reply_sendable
    (Send.reply_encoded repliedSession.request samplePlaintext none [] 100 (Octets.replicate 32 8)
      sampleNonce)
    (sees_inputs first sees_replyCut) past cut (by decide +kernel) onward attends
  exact ⟨before, now, trace, final, past, first, onward, again, undelivered, failed, told.mp failed⟩

end Installed

end Shell

end Rabaska
