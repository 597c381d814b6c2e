import Rabaska.AccountingProofs
import Rabaska.AcquisitionProofs
import Rabaska.CheckpointCore
import Rabaska.ResumeProofs
import Rabaska.SessionIdProofs
import Rabaska.ShellProofs

/-! What a checkpoint holds: whatever the camera saw and wherever the app was cut off, packets of one
session, and never one of a transfer that is over. -/

namespace Rabaska.Shell

open Call Wire Pipeline Wasm Durable Receiver

variable {crates : Crates} {frames : List Bytes}

/-! Where the packets of a receiver came from. -/

/-- The frames that a camera has read, as calls of receivers. -/
def fed (frames : List Bytes) : List (Input × Option (Except Error Ingest)) :=
  frames.map fun frame => (.ingest frame, none)

/-- A receiver whose packets the frames carried, each under its session. -/
structure Gathered (crates : Crates) (frames : List Bytes) (rx : Receiver crates) : Prop where
  sane : Sane rx
  traced : Traced (fed frames) rx

theorem Gathered.key {rx : Receiver crates} (gathered : Gathered crates frames rx)
    (key : Crypto.SessionKey) : Gathered crates frames (rx.setKey key) :=
  ⟨gathered.sane.of_same rfl rfl rfl rfl rfl rfl, gathered.traced.parked, gathered.traced.seen⟩

theorem Gathered.ingest {rx next : Receiver crates} {frame : Bytes} {result : Except Error Ingest}
    (gathered : Gathered crates frames rx) (ingested : rx.ingest frame = some (result, next)) :
    Gathered crates (frames ++ [frame]) next := by
  have stepped : rx.respond (.ingest frame) = some (some result, next) := by
    simp [respond, ingested]
  have steps := respond_steps gathered.sane.opened stepped
  have traced := @Traced.steps _ _ _ _ _ none gathered.sane gathered.traced steps
  refine ⟨gathered.sane.steps steps, ?_⟩
  rwa [fed, List.map_append]

theorem Gathered.mono {more : List Bytes} {rx : Receiver crates}
    (gathered : Gathered crates frames rx) : Gathered crates (frames ++ more) rx := by
  have inside : fed frames ⊆ fed (frames ++ more) := by
    rw [fed, fed, List.map_append]
    exact List.subset_append_left _ _
  refine ⟨gathered.sane, fun session p member => ?_, fun p member => ?_⟩
  · obtain ⟨event, came, brings⟩ := gathered.traced.parked session p member
    exact ⟨event, inside came, brings⟩
  · obtain ⟨b, known, event, came, brings⟩ := gathered.traced.seen p member
    exact ⟨b, known, event, inside came, brings⟩

theorem deriveAndSet_rx (recv : Receive crates) : recv.deriveAndSet.2.rx = recv.rx ∨
    ∃ key, recv.deriveAndSet.2.rx = recv.rx.setKey key := by
  unfold Receive.deriveAndSet
  split
  · exact .inl rfl
  · split
    · exact .inl rfl
    · split
      · exact .inl rfl
      · split
        · exact .inl rfl
        · exact .inr ⟨_, rfl⟩

theorem Gathered.call {recv next : Receive crates} {frame : Bytes} {r : IngestResult}
    (gathered : Gathered crates frames recv.rx) (ingested : recv.ingest frame = some (r, next)) :
    Gathered crates (frames ++ [frame]) next.rx := by
  rcases Receive.ingest_split ingested with ⟨rx, fed, same⟩ | ⟨inner, rx, fed, -, -, rfl⟩
  · have last : (Receive.answer { recv with rx } (.ok .beaconAcquired)).2 = next := congrArg Prod.snd same
    rw [← last, Receive.answer_acquired_beacon]
    rcases deriveAndSet_rx { recv with rx } with kept | ⟨key, keyed⟩
    · rw [kept]
      exact gathered.ingest fed
    · rw [keyed]
      exact (gathered.ingest fed).key key
  · exact gathered.ingest fed

theorem Gathered.frame {shell : Receiving crates} (gathered : Gathered crates frames shell.recv.rx)
    (found : Option Bytes) :
    Gathered crates (frames ++ found.toList) (shell.onFrame found).recv.rx := by
  have still := @gathered.mono _ _ found.toList
  unfold Receiving.onFrame
  split
  · exact still
  · cases found with
    | none => exact still
    | some frame =>
        dsimp only
        split
        · exact still
        · split
          · exact still
          · cases ingested : shell.recv.ingest frame with
            | none => exact still
            | some answer =>
                obtain ⟨r, recv⟩ := answer
                rw [heed_recv]
                exact gathered.call ingested

/-! Records. -/

/-- Distinct packets that the frames carried under one session. -/
structure Record.Collected (crates : Crates) (frames : List Bytes) (sid : Octets 8) (record : Record) :
    Prop where
  session : record.session = .string (hex4 sid)
  nonempty : record.packets ≠ []
  distinct : (record.packets.map (List.take 4)).Nodup
  carried : ∀ p ∈ record.packets, 4 ≤ p.length ∧ ∃ frame ∈ frames, ∃ sf,
    SymbolFrame.decode crates frame = .ok sf ∧ sf.sid4 = sid4 sid ∧ p ∈ sf.packets

theorem Record.Collected.mono {sid : Octets 8} {record : Record} {more : List Bytes}
    (collected : record.Collected crates frames sid) :
    record.Collected crates (frames ++ more) sid := by
  refine ⟨collected.session, collected.nonempty, collected.distinct, fun p member => ?_⟩
  obtain ⟨long, frame, came, rest⟩ := collected.carried p member
  exact ⟨long, frame, List.mem_append_left _ came, rest⟩

theorem hex4_ne (sid : Octets 8) : hex4 sid ≠ [] := by
  intro empty
  have parsed := decodeSid4_hex4 sid
  rw [empty] at parsed
  simp [decodeSid4, Utf8.encode, fail] at parsed

/-- A record of a session is parked under its prefix. -/
theorem resume_collected {recv : Receive crates} {sid : Octets 8} {record : Record}
    (session : record.session = .string (hex4 sid)) (nonempty : record.packets ≠ []) :
    resume recv (some record) = .resumed (recv.restore (sid4 sid) record.packets) := by
  have taken : (record.packets.map JsValue.uint8Array).filterMap JsValue.dynInto = record.packets := by
    rw [List.filterMap_map]
    exact List.filterMap_some
  have read : record.session ≠ .string [] ∧ record.packets ≠ [] := by
    rw [session]
    exact ⟨fun same => hex4_ne sid (JsValue.string.inj same), nonempty⟩
  simp only [resume, read, ne_eq, not_false_eq_true, and_self, if_true]
  simp only [Receive.restoreJs, session, JsValue.asString, decodeSid4_hex4, ok_bind, taken]

theorem Gathered.record {rx : Receiver crates} (gathered : Gathered crates frames rx) {b : Beacon}
    (known : rx.beacon = some b) {record : Record} (session : record.session = .string (hex4 b.sessionId))
    (seen : record.packets = rx.seen) (nonempty : record.packets ≠ []) :
    record.Collected crates frames b.sessionId := by
  have accounted := gathered.sane.accounted
  refine ⟨session, nonempty, by rw [seen]; exact accounted.distinct, fun p member => ?_⟩
  rw [seen] at member
  refine ⟨accounted.identified p member, ?_⟩
  obtain ⟨other, same, event, came, brings⟩ := gathered.traced.seen p member
  obtain rfl := Option.some_inj.mp (known.symm.trans same)
  obtain ⟨frame, inside, rfl⟩ := List.mem_map.mp came
  exact ⟨frame, inside, brings⟩

/-! Launching. -/

/-- The receiver that a launch starts from what is stored: the record is parked, as `restore` does. -/
def restored (stored : Option Record) (sid : Octets 8) : Option (Octets 4 × List Bytes) :=
  stored.map fun record => (sid4 sid, record.packets)

theorem launch_collected {installed : Installed crates} {sid : Octets 8}
    (collected : ∀ record, installed.checkpoints.stored = some record →
      record.Collected crates frames sid) (session : Session crates) (cameraOn : Bool) :
    installed.launch session cameraOn =
      let shell := beReceiver session (restored installed.checkpoints.stored sid) cameraOn
      { installed with page := some { shell, receiving := true, timer := true } } := by
  cases stored : installed.checkpoints.stored with
  | none => simp [Installed.launch, stored, resume, restored, beReceiver]
  | some record =>
      have own := collected record stored
      simp only [Installed.launch, stored, resume_collected own.session own.nonempty, restored,
        Option.map_some, beReceiver, own.nonempty, ne_eq, not_false_eq_true, if_true]

theorem beReceiver_gathered {session : Session crates} {sid : Octets 8} {stored : Option Record}
    (collected : ∀ record, stored = some record → record.Collected crates frames sid) (cameraOn : Bool) :
    Gathered crates frames (beReceiver session (restored stored sid) cameraOn).recv.rx := by
  have empty : Gathered crates frames (Receiver.new crates) :=
    ⟨sane_new, by simp [Receiver.new], by simp [Receiver.new]⟩
  cases stored with
  | none => exact empty
  | some record =>
      have own := collected record rfl
      have parks : (beReceiver session (restored (some record) sid) cameraOn).recv.rx =
          { Receiver.new crates with pending := record.packets.map fun p => (sid4 sid, p) } := by
        simp [beReceiver, restored, own.nonempty, Receive.restore, Receive.new, Receiver.restore,
          Receiver.hold, Receiver.new]
      rw [parks]
      refine ⟨empty.sane.of_same rfl rfl rfl rfl rfl rfl, fun prefix4 p member => ?_, empty.traced.seen⟩
      obtain ⟨q, inside, same⟩ := List.mem_map.mp member
      obtain ⟨rfl, rfl⟩ := Prod.mk.inj same
      obtain ⟨-, frame, came, brings⟩ := own.carried q inside
      exact ⟨_, List.mem_map_of_mem came, brings⟩

/-! Runs of an installed app. -/

namespace Installed

def Event.shown : Event crates → Option Bytes
  | .frame found _ => found
  | _ => none

/-- The frames that a run has shown to a camera. -/
def shownIn (trace : List (Event crates × Option IngestResult)) : List Bytes :=
  trace.flatMap fun event => event.1.shown.toList

structure Kept (frames : List Bytes) (installed : Installed crates) : Prop where
  records : ∀ record, some record ∈ installed.checkpoints.values →
    ∃ sid, record.Collected crates frames sid
  idle : installed.page = none → installed.checkpoints.queue = []
  page : ∀ page, installed.page = some page → Gathered crates frames page.shell.recv.rx
  erased : ∀ page, installed.page = some page → page.timer = false →
    installed.checkpoints.settled = none

theorem kept_fresh : Kept [] (fresh crates) :=
  ⟨by simp [fresh, Store.values], fun _ => rfl, by simp [fresh], by simp [fresh]⟩

variable {installed : Installed crates}

theorem Kept.written {value : Option Record} {record : Record} (kept : Kept frames installed)
    (collected : ∀ record, value = some record → ∃ sid, record.Collected crates frames sid)
    (member : some record ∈ (installed.checkpoints.write value).values) :
    ∃ sid, record.Collected crates frames sid := by
  rw [Store.values_write] at member
  rcases List.mem_append.mp member with before | now
  · exact kept.records record before
  · exact collected record (List.mem_singleton.mp now).symm

theorem Kept.stored (kept : Kept frames installed) : ∃ sid, ∀ record,
    installed.checkpoints.stored = some record → record.Collected crates frames sid := by
  cases stored : installed.checkpoints.stored with
  | none => exact ⟨Octets.replicate 8 0, by simp⟩
  | some record =>
      obtain ⟨sid, collected⟩ := kept.records record (by simp [Store.values, stored])
      refine ⟨sid, fun other same => ?_⟩
      rwa [← Option.some_inj.mp same]

theorem Kept.launch (kept : Kept frames installed) (session : Session crates) (cameraOn : Bool) :
    Kept frames (installed.launch session cameraOn) := by
  obtain ⟨sid, collected⟩ := kept.stored
  rw [launch_collected collected]
  refine ⟨kept.records, by simp, ?_, ?_⟩
  · rintro page ⟨rfl⟩
    exact beReceiver_gathered collected cameraOn
  · rintro page ⟨rfl⟩
    simp

theorem Kept.look (kept : Kept frames installed) {page : Page crates} (on : installed.page = some page)
    (found : Option Bytes) (finishes : Bool) :
    Kept (frames ++ found.toList) (installed.look page found finishes) := by
  have gathered := (kept.page page on).frame found
  have records : ∀ record, some record ∈ installed.checkpoints.values →
      ∃ sid, record.Collected crates (frames ++ found.toList) sid := by
    intro record member
    obtain ⟨sid, collected⟩ := kept.records record member
    exact ⟨sid, collected.mono⟩
  unfold Installed.look
  dsimp only
  split
  · refine ⟨fun record member => ?_, by simp, ?_, fun _ _ _ => Store.settled_write⟩
    · rw [Store.values_write] at member
      exact records record (by simpa using member)
    · rintro next ⟨rfl⟩
      exact gathered
  · refine ⟨records, by simp, ?_, ?_⟩
    · rintro next ⟨rfl⟩
      exact gathered
    · rintro next ⟨rfl⟩ ended
      exact kept.erased page on ended

/-- What one turn of the timer can do: nothing, or to write all that was seen under its session. -/
theorem saved_cases (installed : Installed crates) (page : Page crates) :
    installed.saved page = installed ∨ page.timer = true ∧ ∃ b, page.shell.recv.rx.beacon = some b ∧
      ∃ record : Record, record.session = .string (hex4 b.sessionId) ∧
        record.packets = page.shell.recv.rx.seen ∧ record.packets ≠ [] ∧
        installed.saved page =
          { installed with checkpoints := installed.checkpoints.write (some record) } := by
  unfold Installed.saved
  split
  · exact .inl rfl
  · rename_i writes
    have running : page.timer = true := by
      by_contra ended
      simp [ended] at writes
    split
    · exact .inl rfl
    · rename_i session named
      obtain ⟨b, known, rfl⟩ := Option.map_eq_some_iff.mp named
      split
      · exact .inl rfl
      · rename_i kept
        exact .inr ⟨running, b, known, _, rfl, rfl, kept, rfl⟩

theorem Kept.saved (kept : Kept frames installed) {page : Page crates}
    (on : installed.page = some page) : Kept frames (installed.saved page) := by
  rcases saved_cases installed page with same | ⟨running, b, known, record, session, seen, nonempty, saved⟩
  · rwa [same]
  · rw [saved]
    refine ⟨fun other => kept.written ?_, fun off => absurd (on.symm.trans off) (by simp), kept.page,
      fun other same ended => ?_⟩
    · rintro other ⟨rfl⟩
      exact ⟨b.sessionId, (kept.page page on).record known session seen nonempty⟩
    · obtain rfl := Option.some_inj.mp (on.symm.trans same)
      exact absurd (running.symm.trans ended) (by simp)

theorem Kept.step (kept : Kept frames installed) (event : Event crates) :
    Kept (frames ++ event.shown.toList) (installed.step event).2 := by
  cases event with
  | launch session cameraOn =>
      rw [show (Event.launch session cameraOn).shown.toList = [] from rfl, List.append_nil]
      cases on : installed.page with
      | none => simpa only [Installed.step, on] using kept.launch session cameraOn
      | some page => simpa only [Installed.step, on] using kept
  | frame found finishes =>
      cases on : installed.page with
      | none =>
          simp only [Installed.step, on]
          refine ⟨fun record member => ?_, kept.idle, by simp [on], by simp [on]⟩
          obtain ⟨sid, collected⟩ := kept.records record member
          exact ⟨sid, collected.mono⟩
      | some page =>
          simp only [Installed.step, on]
          exact kept.look on found finishes
  | assign stop cameraOn staged encrypted receiving =>
      rw [show (Event.assign stop cameraOn staged encrypted receiving : Event crates).shown.toList = []
        from rfl, List.append_nil]
      cases on : installed.page with
      | none => simpa only [Installed.step, on] using kept
      | some page =>
          simp only [Installed.step, on]
          refine ⟨kept.records, by simp, ?_, ?_⟩
          · rintro next ⟨rfl⟩
            exact kept.page page on
          · rintro next ⟨rfl⟩ ended
            exact kept.erased page on ended
  | interval =>
      rw [show (Event.interval : Event crates).shown.toList = [] from rfl, List.append_nil]
      cases on : installed.page with
      | none => simpa only [Installed.step, on] using kept
      | some page => simpa only [Installed.step, on] using kept.saved on
  | commit =>
      rw [show (Event.commit : Event crates).shown.toList = [] from rfl, List.append_nil]
      refine ⟨fun record member => ?_, fun off => ?_, kept.page, fun page on ended => ?_⟩
      · exact kept.records record ((Store.values_commit installed.checkpoints).subset member)
      · simp [Installed.step, Store.commit, kept.idle off]
      · rw [Installed.step, Store.settled_commit]
        exact kept.erased page on ended
  | crash =>
      rw [show (Event.crash : Event crates).shown.toList = [] from rfl, List.append_nil]
      refine ⟨fun record member => ?_, fun _ => rfl, by simp [Installed.step], by simp [Installed.step]⟩
      exact kept.records record ((Store.values_crash installed.checkpoints).subset member)

theorem run_kept {final : Installed crates} {trace : List (Event crates × Option IngestResult)}
    (run : Machine.Run (Machine.total step) (fresh crates) trace final) :
    Kept (shownIn trace) final := by
  refine run.history (fun past => Kept (shownIn past)) ?_ kept_fresh
  intro past before event answer after kept stepped
  obtain rfl : (before.step event).2 = after := congrArg Prod.snd (Option.some_inj.mp stepped)
  rw [shownIn, List.flatMap_append, List.flatMap_singleton]
  exact kept.step event

/-! A transfer that is over. -/

def patientOpen : Send :=
  Send.open patientCrates samplePlaintext [] 100 (Octets.replicate 32 8) (Octets.replicate 8 4) sampleNonce

def soleSymbol (tx : Transmitter) (number : Nat) : SymbolFrame where
  sid4 := sid4 tx.beacon.sessionId
  frameId := 1
  packetLen := tx.packetLen
  packets := (tx.packets.drop number).take 1

def patientLaunch : Event patientCrates :=
  .launch (Session.new none (Octets.replicate 32 3) (Octets.replicate 8 5) (Octets.replicate 16 6)) true

def cutOff : List (Event patientCrates) :=
  [patientLaunch, .frame (some patientOpen.tx.beaconBytes) true,
    .frame (some ((soleSymbol patientOpen.tx 0).encode patientCrates)) true, .interval, .commit, .crash]

set_option maxRecDepth 100000 in
theorem cutOff_executed : (Machine.execute (Machine.total step) (fresh patientCrates) cutOff).map
    (fun result => (result.2.checkpoints.stored, result.2.page.isNone)) =
      some (some { session := .string (hex4 patientOpen.tx.beacon.sessionId)
                   packets := patientOpen.tx.packets.take 1 }, true) := by
  decide +kernel

theorem cutOff_stored {trace : List (Event patientCrates × Option IngestResult)}
    {final : Installed patientCrates}
    (run : Machine.Run (Machine.total step) (fresh patientCrates) trace final)
    (inputs : trace.map Prod.fst = cutOff) : final.checkpoints.stored = some
      { session := .string (hex4 patientOpen.tx.beacon.sessionId)
        packets := patientOpen.tx.packets.take 1 } ∧ final.page = none := by
  have computed := cutOff_executed
  rw [← inputs, run.executes] at computed
  obtain ⟨stored, closed⟩ := Prod.mk.inj (Option.some_inj.mp computed)
  exact ⟨stored, Option.isNone_iff_eq_none.mp closed⟩

end Installed

end Rabaska.Shell
