import Rabaska.CheckpointProofs
import Rabaska.Convergence
import Rabaska.ForeignProofs
import Rabaska.PairingProofs

/-! A broadcast outlives the page: what was collected and saved is there again after a crash, and a launch
goes on from it. -/

namespace Rabaska

open Call Wire Crypto

variable {crates : Crates} {code : Fountain.Code Bytes} {key : SessionKey} {tx : Transmitter}
  {object payload : Bytes}

namespace Pipeline

open Receiver Dedup

theorem Receiver.Akin.setKey {session : Octets 4} {rx other : Receiver crates}
    (akin : Akin session rx other) (key : SessionKey) :
    Akin session (rx.setKey key) (other.setKey key) := by
  refine ⟨?_, akin.parked⟩
  rw [akin.same]
  rfl

/-! A receiver holds on to what it was given. -/

theorem mem_taken {pool : List Bytes} (genuine : PacketPool pool) {rx : Receiver crates} (sane : Sane rx)
    (seen : ∀ p ∈ rx.seen, p ∈ pool) {queued : List Bytes} (inside : ∀ p ∈ queued, p ∈ pool) {p : Bytes}
    (member : p ∈ queued) : p ∈ rx.seen ++ fresh payloadId rx.ids queued := by
  obtain ⟨id, identified, front⟩ := genuine.payloadId (inside p member)
  have known : id ∈ learn payloadId rx.ids (fresh payloadId rx.ids queued) := by
    rw [learn_fresh]
    exact mem_learn.mpr (.inr ⟨p, member, identified⟩)
  have same {q : Bytes} (pooled : q ∈ pool) (found : payloadId q = some id) : q = p := by
    obtain ⟨other, found', bytes⟩ := genuine.payloadId pooled
    obtain rfl := Option.some_inj.mp (found.symm.trans found')
    exact genuine.same pooled (inside p member) (bytes.symm.trans front)
  rcases mem_learn.mp known with before | ⟨q, new, found⟩
  · rw [sane.ids] at before
    rcases mem_learn.mp before with impossible | ⟨q, old, found⟩
    · simp at impossible
    · rw [← same (seen q old) found]
      exact List.mem_append_left _ old
  · rw [← same (inside q (mem_fresh new).1) found]
    exact List.mem_append_right _ new

variable (tx) in
structure Stocked (rx : Receiver crates) : Prop where
  sane : Sane rx
  pooled : Pooled tx.packets rx
  drained : rx.seen ≠ [] → rx.pending = []
  own : ∀ b, rx.beacon = some b → b = tx.beacon

variable (code key tx object) in
structure Collects (rx : Receiver crates) (collector : Fountain.Collector Bytes) : Prop
    extends Stocked tx rx where
  tracks : Tracks code key tx object rx collector

variable {rx next : Receiver crates} {collector : Fountain.Collector Bytes}

theorem Collects.takes (genuine : PacketPool tx.packets)
    (collects : Collects code key tx object rx collector) (running : rx.done = false)
    {packets : List Bytes} {result : Except Error Ingest} (inside : ∀ p ∈ packets, p ∈ tx.packets)
    (absorbed : rx.absorb packets = some (result, next)) : ∀ p ∈ retained rx, p ∈ retained next := by
  intro p held
  have live := collects.tracks.live running
  obtain ⟨b, known, -⟩ := absorb_cases absorbed
  obtain rfl := collects.own b known
  obtain ⟨dec, opened⟩ := collects.sane.opened _ known
  obtain ⟨dec', out, done, -, rfl⟩ := absorb_scanned known opened absorbed
  have pooled : ∀ p ∈ rx.queued tx.beacon packets, p ∈ tx.packets := by
    intro q queued
    rcases mem_queued queued with parked | now
    · exact collects.pooled.parked _ parked
    · exact inside q now
  rcases List.mem_append.mp held with parked | seen
  · have queued : p ∈ rx.queued tx.beacon packets := by
      rw [live.queued]
      exact List.mem_append_left _ parked
    exact List.mem_append_right _
      (mem_taken genuine collects.sane collects.pooled.seen pooled queued)
  · exact List.mem_append_right _ (List.mem_append_left _ seen)

theorem Collects.retains (genuine : PacketPool tx.packets) (sound : Sound crates tx)
    (collects : Collects code key tx object rx collector) {frame : Frame} (drawn : tx.Genuine crates frame)
    {result : Except Error Ingest} (ingested : rx.ingest frame.bytes = some (result, next)) :
    ∀ p ∈ retained rx, p ∈ retained next := by
  cases running : rx.done with
  | true =>
      rw [ingest_eq, running] at ingested
      obtain ⟨-, rfl⟩ := Prod.mk.inj (Option.some_inj.mp ingested)
      exact fun p held => held
  | false =>
      cases drawn with
      | beacon =>
          rw [Frame.bytes, sound.encodes, ingest_beacon running] at ingested
          rcases ingestBeacon_inv ingested with ⟨existing, -, rfl, -⟩ | ⟨-, -, dec, -, rfl⟩
          · exact fun p held => held
          · exact fun p held => held
      | symbol sf session len kept count member =>
          rw [Frame.bytes, ingest_symbol running (sound.wellFormed len count member)] at ingested
          rcases ingestSymbol_inv ingested with
            ⟨unknown, -, rfl⟩ | ⟨b, known, ⟨own, absorbed⟩ | ⟨foreign, -, rfl⟩⟩
          · intro p held
            rw [hold_early unknown, retained, List.map_append]
            rcases List.mem_append.mp held with parked | seen
            · exact List.mem_append_left _ (List.mem_append_left _ parked)
            · exact List.mem_append_right _ seen
          · exact collects.takes genuine running member absorbed
          · exact fun p held => held

theorem drained_ingest {frame : Bytes} {result : Except Error Ingest} (sane : Sane rx)
    (after : Sane next) (drained : rx.seen ≠ [] → rx.pending = [])
    (ingested : rx.ingest frame = some (result, next)) : next.seen ≠ [] → next.pending = [] := by
  intro seen
  by_cases known : rx.beacon = none
  · obtain ⟨-, unseen, running⟩ := sane.unheard known
    rcases ingest_unheard running known ingested with ⟨unknown, -⟩ | ⟨-, -, same, -⟩
    · exact absurd (after.unheard unknown).2.1 seen
    · exact absurd (same.trans unseen) seen
  · obtain ⟨-, empty | ⟨pending, same⟩⟩ := ingest_heard sane known ingested
    · exact empty
    · rw [pending]
      exact drained (same ▸ seen)

theorem Stocked.beacon (stocked : Stocked tx rx) {frame : Bytes} {result : Except Error Ingest}
    (ingested : rx.ingest frame = some (result, next)) (other : result ≠ .ok .beaconAcquired) :
    ∀ b, next.beacon = some b → b = tx.beacon := by
  intro b known
  exact stocked.own b ((Receiver.ingest_kept ingested other).1.symm.trans known)

theorem Collects.stocks (genuine : PacketPool tx.packets) (sound : Sound crates tx)
    (collects : Collects code key tx object rx collector) {frame : Frame} (drawn : tx.Genuine crates frame)
    {result : Except Error Ingest} (ingested : rx.ingest frame.bytes = some (result, next))
    (own : ∀ b, next.beacon = some b → b = tx.beacon) :
    Stocked tx next ∧ ∀ p ∈ retained rx, p ∈ retained next := by
  have feeds : Feeds crates tx.packets (.ingest frame.bytes) :=
    fun session p brings => (brings_uniform sound.uniform drawn brings).2
  have stepped : rx.respond (.ingest frame.bytes) = some (some result, next) := by
    simp [respond, ingested]
  have steps := respond_steps collects.sane.opened stepped
  have sane := collects.sane.steps steps
  refine ⟨⟨sane, collects.pooled.steps feeds steps, ?_, own⟩,
    collects.retains genuine sound drawn ingested⟩
  exact drained_ingest collects.sane sane collects.drained ingested

theorem Collects.step (genuine : PacketPool tx.packets)
    (reconstructs : Reconstructs crates code tx.beacon.oti tx.packets object)
    (sound : Sound crates tx) (opens : Receiver.openObject crates key tx.beacon object = .ok payload)
    (collects : Collects code key tx object rx collector) {frame : Frame}
    (drawn : tx.Genuine crates frame) :
    ∃ result after, drive key rx frame = some (result, after) ∧
      Answers payload result (Fountain.step code collector (image crates frame)).1 ∧
      Collects code key tx object after (Fountain.step code collector (image crates frame)).2 ∧
      ∀ p ∈ retained rx, p ∈ retained after := by
  obtain ⟨result, after, driven, answers, tracks⟩ :=
    Tracks.step genuine reconstructs sound opens drawn collects.tracks
  refine ⟨result, after, driven, answers, ?_⟩
  rcases drive_cases driven with ⟨-, next, fed, rfl⟩ | ⟨other, fed⟩
  · have running : (next.setKey key).done = false :=
      show next.done = false from Shell.acquired_running fed
    have live := (tracks.live running).beacon
    have own : ∀ b, next.beacon = some b → b = tx.beacon := by
      intro b known
      change next.beacon = _ at live
      rw [known] at live
      split at live
      · exact Option.some_inj.mp live
      · simp at live
    obtain ⟨stocked, retains⟩ := collects.stocks genuine sound drawn fed own
    exact ⟨⟨⟨stocked.sane.of_same rfl rfl rfl rfl rfl rfl, ⟨stocked.pooled.parked, stocked.pooled.seen⟩,
      stocked.drained, own⟩, tracks⟩, retains⟩
  · have own := collects.toStocked.beacon fed other
    obtain ⟨stocked, retains⟩ := collects.stocks genuine sound drawn fed own
    exact ⟨⟨stocked, tracks⟩, retains⟩

theorem collects_parked {packets : List Bytes} (inside : ∀ p ∈ packets, p ∈ tx.packets) :
    Collects code key tx object
      { Receiver.new crates with pending := packets.map fun p => (sid4 tx.beacon.sessionId, p) }
      (Fountain.step code .new (.offered {p | p ∈ packets})).2 := by
  rw [Fountain.step_offered_early code _ rfl rfl]
  refine ⟨⟨sane_new.of_same rfl rfl rfl rfl rfl rfl, ⟨?_, ?_⟩, ?_, ?_⟩, rfl, fun _ => ⟨rfl,
    by simp [Fountain.Collector.new], by simp [Fountain.Collector.new], fun _ => ⟨rfl, rfl⟩, ?_, ?_⟩⟩
  · intro entry member
    obtain ⟨p, kept, rfl⟩ := List.mem_map.mp member
    exact inside p kept
  · simp [Receiver.new]
  · simp [Receiver.new]
  · simp [Receiver.new]
  · intro entry member
    obtain ⟨p, kept, rfl⟩ := List.mem_map.mp member
    exact ⟨rfl, inside p kept⟩
  · ext p
    simp [Fountain.Collector.new, Receiver.new]

end Pipeline

namespace Shell

open Pipeline Wasm Durable Receiver

/-! The shell in front of a broadcast. -/

structure Broadcast (crates : Crates) (code : Fountain.Code Bytes) (tx : Transmitter)
    (object payload : Bytes) : Prop where
  mode : tx.beacon.mode = .open
  genuine : PacketPool tx.packets
  reconstructs : Reconstructs crates code tx.beacon.oti tx.packets object
  sound : Sound crates tx
  opens : Receiver.openObject crates (deriveOpen crates tx.beacon.sessionId tx.beacon.sEphPub)
    tx.beacon object = .ok payload

theorem deriveAndSet_open {recv : Receive crates} {b : Beacon} (unkeyed : recv.keyed = false)
    (known : recv.rx.beacon = some b) (mode : b.mode = .open) : recv.deriveAndSet = (.ok none,
      { recv with rx := recv.rx.setKey (deriveOpen crates b.sessionId b.sEphPub), keyed := true }) := by
  unfold Receive.deriveAndSet
  rw [unkeyed, known]
  simp only [Receive.agreementKey, deriveForMode, mode]
  rfl

variable (code tx object) in
structure Hosts (recv : Receive crates) (collector : Fountain.Collector Bytes) (o : Receiver crates) :
    Prop where
  akin : Akin (sid4 tx.beacon.sessionId) o recv.rx
  collects : Collects code (deriveOpen crates tx.beacon.sessionId tx.beacon.sEphPub) tx object o collector
  unkeyed : recv.rx.beacon = none → recv.keyed = false

variable {collector : Fountain.Collector Bytes} {recv : Receive crates} {o : Receiver crates}

structure Taken (code : Fountain.Code Bytes) (tx : Transmitter) (object payload : Bytes)
    (o : Receiver crates) (collector : Fountain.Collector Bytes) (event : Fountain.Event Bytes)
    (r : IngestResult) (next : Receive crates) (after : Receiver crates) : Prop where
  hosts : Hosts code tx object next (Fountain.step code collector event).2 after
  retains : ∀ p ∈ retained o, p ∈ retained after
  accepted : ∀ msg, r.kind ≠ .error msg
  delivers : r.kind = .done → r.payload = some payload
  completes : r.kind = .done ↔ (Fountain.step code collector event).1 = .complete

theorem Hosts.acquired (broadcast : Broadcast crates code tx object payload)
    (hosts : Hosts code tx object recv collector o) {bytes : Bytes} {next : Receiver crates}
    (fed : o.ingest bytes = some (.ok .beaconAcquired, next)) {event : Fountain.Event Bytes}
    (incomplete : (Fountain.step code collector event).1 ≠ .complete)
    (collects : Collects code (deriveOpen crates tx.beacon.sessionId tx.beacon.sEphPub) tx object
      (next.setKey (deriveOpen crates tx.beacon.sessionId tx.beacon.sEphPub))
      (Fountain.step code collector event).2)
    (retains : ∀ p ∈ retained o, p ∈ retained next) :
    ∃ r after, recv.ingest bytes = some (r, after) ∧ Taken code tx object payload o collector event r after
      (next.setKey (deriveOpen crates tx.beacon.sessionId tx.beacon.sEphPub)) := by
  obtain ⟨unknown, -, b, -, known⟩ := Receiver.ingest_acquired fed
  have beacon : recv.rx.beacon = o.beacon := by rw [hosts.akin.same]
  obtain ⟨rx, fed', akin⟩ := ingest_akin hosts.akin fed (by simp [unknown])
  have known' : rx.beacon = some b := by rw [akin.same, known]
  obtain rfl := collects.own b known
  have derived := @deriveAndSet_open _ { recv with rx } _ (hosts.unkeyed (beacon.trans unknown)) known'
    broadcast.mode
  have ingested : recv.ingest bytes = some (Receive.answer { recv with rx } (.ok .beaconAcquired)) := by
    simp [Receive.ingest, fed']
  simp only [Receive.answer, derived] at ingested
  refine ⟨_, _, ingested, ⟨akin.setKey _, collects, fun vanished => ?_⟩, retains, by simp, by simp,
    by simpa using incomplete⟩
  exact absurd (known'.symm.trans vanished) (by simp)

theorem Hosts.quiet (hosts : Hosts code tx object recv collector o) {bytes : Bytes}
    {result : Except Error Ingest} {next : Receiver crates} (fed : o.ingest bytes = some (result, next))
    (other : result ≠ .ok .beaconAcquired) {event : Fountain.Event Bytes}
    (answers : Answers payload result (Fountain.step code collector event).1)
    (collects : Collects code (deriveOpen crates tx.beacon.sessionId tx.beacon.sEphPub) tx object next
      (Fountain.step code collector event).2)
    (retains : ∀ p ∈ retained o, p ∈ retained next) :
    ∃ r after, recv.ingest bytes = some (r, after) ∧
      Taken code tx object payload o collector event r after next := by
  have own : ∀ b, o.beacon = some b → sid4 b.sessionId = sid4 tx.beacon.sessionId := by
    intro b known
    rw [hosts.collects.own b known]
  obtain ⟨rx, fed', akin⟩ := ingest_akin hosts.akin fed own
  have beacon : recv.rx.beacon = rx.beacon := by
    rw [hosts.akin.same, akin.same]
    exact (Receiver.ingest_kept fed other).1.symm
  have hosts' : Hosts code tx object { recv with rx } (Fountain.step code collector event).2 next :=
    ⟨akin, collects, fun unknown => hosts.unkeyed (beacon.trans unknown)⟩
  have ingested : recv.ingest bytes = some (Receive.answer { recv with rx } result) := by
    simp [Receive.ingest, fed']
  cases told : (Fountain.step code collector event).1 with
  | ignored =>
      rw [told] at answers
      obtain rfl : result = .ok .ignored := answers
      exact ⟨_, _, ingested, hosts', retains, by simp, by simp, by simp [told]⟩
  | acquired =>
      rw [told] at answers
      exact absurd answers other
  | progress =>
      rw [told] at answers
      obtain ⟨received, needed, rfl⟩ := answers
      exact ⟨_, _, ingested, hosts', retains, by simp, by simp, by simp [told]⟩
  | complete =>
      rw [told] at answers
      obtain rfl : result = .ok (.done payload) := answers
      exact ⟨_, _, ingested, hosts', retains, by simp, by simp, by simp [told]⟩

theorem Hosts.take (broadcast : Broadcast crates code tx object payload)
    (hosts : Hosts code tx object recv collector o) {frame : Frame} (drawn : tx.Genuine crates frame) :
    ∃ r next after, recv.ingest frame.bytes = some (r, next) ∧
      Taken code tx object payload o collector (image crates frame) r next after := by
  obtain ⟨result, after, driven, answers, collects, retains⟩ := hosts.collects.step broadcast.genuine
    broadcast.reconstructs broadcast.sound broadcast.opens drawn
  rcases drive_cases driven with ⟨rfl, next, fed, rfl⟩ | ⟨other, fed⟩
  · have incomplete : (Fountain.step code collector (image crates frame)).1 ≠ .complete := by
      intro told
      rw [told] at answers
      simp [Answers] at answers
    obtain ⟨r, next', ingested, taken⟩ := hosts.acquired broadcast fed incomplete collects retains
    exact ⟨r, next', _, ingested, taken⟩
  · obtain ⟨r, next', ingested, taken⟩ := hosts.quiet fed other answers collects retains
    exact ⟨r, next', _, ingested, taken⟩

/-! The page. -/

theorem frame_heeded {shell : Receiving crates} (awake : (shell.stop || !shell.cameraOn) = false)
    (alive : shell.trapped = false) {frame : Bytes} (other : frame[3]? ≠ some 0x01) {r : IngestResult}
    {next : Receive crates} (ingested : shell.recv.ingest frame = some (r, next)) :
    shell.heard (some frame) = some r ∧
      shell.onFrame (some frame) = Receiving.heed { shell with recv := next } r := by
  refine ⟨?_, ?_⟩
  · simp [Receiving.heard, awake, other, alive, ingested]
  · simp [Receiving.onFrame, awake, other, alive, ingested]

theorem heed_awake (shell : Receiving crates) {r : IngestResult} (accepted : ∀ msg, r.kind ≠ .error msg) :
    (shell.heed r).stop = shell.stop ∧ (shell.heed r).cameraOn = shell.cameraOn := by
  unfold Receiving.heed
  split
  · split
    · split <;> exact ⟨rfl, rfl⟩
    · exact ⟨rfl, rfl⟩
  · split
    · unfold Receiving.finish
      split <;> exact ⟨rfl, rfl⟩
    · exact ⟨rfl, rfl⟩
  · rename_i msg kind
    exact absurd kind (accepted msg)
  · exact ⟨rfl, rfl⟩

theorem genuine_mark (sound : Sound crates tx) {frame : Frame} (drawn : tx.Genuine crates frame) :
    frame.bytes[3]? ≠ some 0x01 := by
  cases drawn with
  | beacon =>
      rw [Frame.bytes, sound.encodes]
      exact fun same => absurd (Option.some_inj.mp same) (by decide)
  | symbol sf session len kept count member =>
      exact fun same => absurd (Option.some_inj.mp same) (by decide)

variable (tx) in
def kept (stored : Option Record) : Set Bytes :=
  {p | ∃ record hex, stored = some record ∧ record.session = .string hex ∧
    decodeSid4 hex = .ok (sid4 tx.beacon.sessionId) ∧ p ∈ record.packets}

variable (tx) in
structure Readable (stored : Option Record) : Prop where
  returns : ∀ record hex, stored = some record → record.session = .string hex →
    decodeSid4 hex ≠ panicked
  inPool : ∀ p ∈ kept tx stored, p ∈ tx.packets

theorem kept_none : kept tx none = ∅ := by
  ext p
  simp [kept]

theorem kept_string (hex : List Char) (packets : List Bytes) :
    kept tx (some { session := .string hex, packets }) =
      {p | decodeSid4 hex = .ok (sid4 tx.beacon.sessionId) ∧ p ∈ packets} := by
  ext p
  simp [kept]

theorem kept_other {record : Record} (other : ∀ hex, record.session ≠ .string hex) :
    kept tx (some record) = ∅ := by
  ext p
  simp [kept, other]

theorem kept_session {record : Record} (session : record.session = .string (hex4 tx.beacon.sessionId)) :
    kept tx (some record) = {p | p ∈ record.packets} := by
  ext p
  simp [kept, session, decodeSid4_hex4]

theorem parked_filter (sid : Octets 4) (packets : List Bytes) : ∃ own : List Bytes,
    ((packets.map fun p => (sid, p)).filter fun entry => entry.1 = sid4 tx.beacon.sessionId) =
      own.map (fun p => (sid4 tx.beacon.sessionId, p)) ∧
    {p | sid = sid4 tx.beacon.sessionId ∧ p ∈ packets} = {p | p ∈ own} := by
  by_cases same : sid = sid4 tx.beacon.sessionId
  · exact ⟨packets, by simp [same, List.filter_map, Function.comp_def], by simp [same]⟩
  · exact ⟨[], by simp [same, List.filter_map, Function.comp_def], by simp [same]⟩

variable (tx) in
def Parks (session : Session crates) (stored : Option Record) (recv : Receive crates) : Prop :=
  ∃ entries : List (Octets 4 × Bytes),
    recv = { Receive.new session with rx := { Receiver.new crates with pending := entries } } ∧
    ∃ own : List Bytes, (entries.filter fun entry => entry.1 = sid4 tx.beacon.sessionId) =
        own.map (fun p => (sid4 tx.beacon.sessionId, p)) ∧
      kept tx stored = {p | p ∈ own}

theorem parks_none {session : Session crates} {stored : Option Record} (empty : kept tx stored = ∅) :
    Parks tx session stored (Receive.new session) :=
  ⟨[], rfl, [], rfl, by simpa using empty⟩

theorem resume_readable (session : Session crates) {stored : Option Record}
    (readable : Readable tx stored) :
    (kept tx stored = ∅ ∧ resume (Receive.new session) stored = .discarded) ∨
      ∃ recv, resume (Receive.new session) stored = .resumed recv ∧ Parks tx session stored recv := by
  cases stored with
  | none => exact .inr ⟨_, rfl, parks_none kept_none⟩
  | some record =>
      obtain ⟨text, packets⟩ := record
      by_cases read : text ≠ .string [] ∧ packets ≠ []
      · cases text with
        | string hex =>
            cases decoded : decodeSid4 hex with
            | ok sid =>
                obtain ⟨own, filtered, same⟩ := @parked_filter tx sid packets
                refine .inr ⟨(Receive.new session).restore sid packets, ?_, packets.map fun p => (sid, p),
                  rfl, own, filtered, ?_⟩
                · simp [resume, read, Receive.restoreJs, JsValue.asString, decoded, List.filterMap_map,
                    Function.comp_def, JsValue.dynInto]
                · rw [kept_string, decoded, ← same]
                  simp
            | error fault =>
                cases fault with
                | panic => exact absurd decoded (readable.returns _ hex rfl rfl)
                | err message =>
                    refine .inl ⟨by simp [kept_string, decoded], ?_⟩
                    simp [resume, read, Receive.restoreJs, JsValue.asString, decoded]
        | uint8Array bytes =>
            exact .inr ⟨_, by simp [resume, read, Receive.restoreJs, JsValue.asString],
              parks_none (kept_other (by simp))⟩
        | other =>
            exact .inr ⟨_, by simp [resume, read, Receive.restoreJs, JsValue.asString],
              parks_none (kept_other (by simp))⟩
      · refine .inr ⟨_, by simp only [resume, read, if_false], parks_none ?_⟩
        ext p
        simp only [kept, Set.mem_ofPred_eq, Set.mem_empty_iff_false, iff_false]
        rintro ⟨record, hex, ⟨rfl⟩, named, decoded, member⟩
        refine read ⟨fun blank => ?_, List.ne_nil_of_mem member⟩
        obtain rfl : hex = [] := JsValue.string.inj (named.symm.trans blank)
        simp [decodeSid4, Utf8.encode, fail] at decoded

theorem readable_none : Readable tx none :=
  ⟨by simp, by simp [kept_none]⟩

theorem Parks.hosts {session : Session crates} {stored : Option Record} {recv : Receive crates}
    (parks : Parks tx session stored recv) (readable : Readable tx stored) :
    ∃ o : Receiver crates,
      Hosts code tx object recv (Fountain.step code .new (.offered (kept tx stored))).2 o ∧
        kept tx stored = {p | p ∈ retained o} := by
  obtain ⟨entries, rfl, own, filtered, same⟩ := parks
  have inside : ∀ p ∈ own, p ∈ tx.packets := by
    intro p member
    refine readable.inPool p ?_
    rwa [same]
  refine ⟨{ Receiver.new crates with pending := own.map fun p => (sid4 tx.beacon.sessionId, p) },
    ⟨⟨rfl, ?_⟩, ?_, fun _ => rfl⟩, ?_⟩
  · rw [filtered]
    simp [List.filter_map, Function.comp_def]
  · rw [same]
    exact collects_parked inside
  · rw [same]
    simp [retained, Function.comp_def, Receiver.new]

/-! Runs in front of one sender. -/

namespace Installed

variable (crates tx) in
def Sees : Event crates → Prop
  | .frame found _ => ∀ bytes, found = some bytes → ∃ frame, tx.Genuine crates frame ∧ frame.bytes = bytes
  | _ => True

variable (code tx object) in
structure Watching (page : Page crates) (collector : Fountain.Collector Bytes) (o : Receiver crates) :
    Prop where
  alive : page.shell.trapped = false
  hosts : Hosts code tx object page.shell.recv collector o

variable (code tx object) in
/-- What is stored, what is on its way there and what the page has collected: each has all of the one
before. -/
structure Survives (installed : Installed crates) : Prop where
  readable : ∀ value ∈ installed.checkpoints.values, Readable tx value
  idle : installed.page = none → installed.checkpoints.queue = []
  page : ∀ page, installed.page = some page → ∃ collector o, Watching code tx object page collector o ∧
    (page.timer = true → installed.checkpoints.Rising (kept tx) {p | p ∈ retained o})

variable {installed : Installed crates} {page : Page crates}

theorem launch_watching {session : Session crates} {cameraOn : Bool}
    (readable : Readable tx installed.checkpoints.stored) :
    ∃ page o, (installed.launch session cameraOn).page = some page ∧ page.timer = true ∧
      page.shell.stop = false ∧ page.shell.cameraOn = cameraOn ∧
      Watching code tx object page
        (Fountain.step code .new (.offered (kept tx installed.checkpoints.stored))).2 o ∧
      kept tx installed.checkpoints.stored = {p | p ∈ retained o} ∧
      ((installed.launch session cameraOn).checkpoints = installed.checkpoints ∨
        kept tx installed.checkpoints.stored = ∅ ∧
          (installed.launch session cameraOn).checkpoints = installed.checkpoints.write none) := by
  rcases resume_readable session readable with ⟨empty, discarded⟩ | ⟨recv, resumed, parks⟩
  · obtain ⟨o, hosts, same⟩ := @Parks.hosts crates code tx object session _ _ (parks_none empty) readable
    refine ⟨{ shell := beReceiver session none cameraOn, receiving := true, timer := true }, o, ?_, rfl,
      rfl, rfl, ⟨rfl, hosts⟩, same, .inr ⟨empty, ?_⟩⟩
    · simp [Installed.launch, beReceiver, discarded]
    · simp [Installed.launch, beReceiver, discarded]
  · obtain ⟨o, hosts, same⟩ := @Parks.hosts crates code tx object session _ _ parks readable
    refine ⟨{ shell := { beReceiver session none cameraOn with recv }, receiving := true, timer := true }, o,
      ?_, rfl, rfl, rfl, ⟨rfl, hosts⟩, same, .inl ?_⟩
    · simp [Installed.launch, beReceiver, resumed]
    · simp [Installed.launch, beReceiver, resumed]

theorem Survives.launch (survives : Survives code tx object installed) (off : installed.page = none)
    (session : Session crates) (cameraOn : Bool) :
    Survives code tx object (installed.launch session cameraOn) := by
  have readable := survives.readable _ (List.mem_cons_self : installed.checkpoints.stored ∈ _)
  obtain ⟨page, o, on, -, -, -, watching, same, store⟩ :=
    @launch_watching crates code tx object installed session cameraOn readable
  have idle : installed.checkpoints = { stored := installed.checkpoints.stored, queue := [] } := by
    rw [← survives.idle off]
  have rising := Store.rising_idle (kept tx) installed.checkpoints.stored
  rw [← idle] at rising
  rcases store with kept_as | ⟨empty, written⟩
  · refine ⟨by rw [kept_as]; exact survives.readable, by simp [on], fun other found => ?_⟩
    obtain rfl := Option.some_inj.mp (on.symm.trans found)
    refine ⟨_, o, watching, fun _ => ?_⟩
    rw [kept_as, ← same]
    exact rising
  · refine ⟨fun value member => ?_, by simp [on], fun other found => ?_⟩
    · rw [written, Store.values_write] at member
      rcases List.mem_append.mp member with before | now
      · exact survives.readable value before
      · rw [List.mem_singleton.mp now]
        exact readable_none
    · obtain rfl := Option.some_inj.mp (on.symm.trans found)
      refine ⟨_, o, watching, fun _ => ?_⟩
      have onward : kept tx installed.checkpoints.stored ≤ kept tx none := by rw [empty, kept_none]
      rw [written, ← same, empty, ← @kept_none tx]
      exact rising.write onward

structure Looked (code : Fountain.Code Bytes) (tx : Transmitter) (object payload : Bytes)
    (page : Page crates) (found : Option Bytes) (o : Receiver crates)
    (collector : Fountain.Collector Bytes) (after : Receiver crates) : Prop where
  watching : Watching code tx object { page with shell := page.shell.onFrame found } collector after
  retains : ∀ p ∈ retained o, p ∈ retained after
  accepted : ∀ r, page.shell.heard found = some r →
    (∀ msg, r.kind ≠ .error msg) ∧ (r.kind = .done → r.payload = some payload)

variable (tx) in
structure Heeded (code : Fountain.Code Bytes) (object payload : Bytes) (page : Page crates) (frame : Frame)
    (o : Receiver crates) (collector : Fountain.Collector Bytes) (r : IngestResult)
    (after : Receiver crates) : Prop where
  heard : page.shell.heard (some frame.bytes) = some r
  alive : (page.shell.onFrame (some frame.bytes)).trapped = false
  awake : (page.shell.onFrame (some frame.bytes)).stop = page.shell.stop ∧
    (page.shell.onFrame (some frame.bytes)).cameraOn = page.shell.cameraOn
  taken : Taken code tx object payload o collector (image crates frame) r
    (page.shell.onFrame (some frame.bytes)).recv after

theorem Watching.frame {collector : Fountain.Collector Bytes} {o : Receiver crates}
    (broadcast : Broadcast crates code tx object payload)
    (watching : Watching code tx object page collector o)
    (awake : (page.shell.stop || !page.shell.cameraOn) = false) {frame : Frame}
    (drawn : tx.Genuine crates frame) :
    ∃ r after, Heeded tx code object payload page frame o collector r after := by
  obtain ⟨r, next, after, ingested, taken⟩ := watching.hosts.take broadcast drawn
  obtain ⟨heard, shown⟩ :=
    frame_heeded awake watching.alive (genuine_mark broadcast.sound drawn) ingested
  refine ⟨r, after, heard, ?_, ?_, ?_⟩
  · rw [shown, Receiving.heed_trapped]
    exact watching.alive
  · rw [shown]
    exact heed_awake _ taken.accepted
  · rw [shown, heed_recv]
    exact taken

theorem Watching.look {collector : Fountain.Collector Bytes} {o : Receiver crates}
    (broadcast : Broadcast crates code tx object payload)
    (watching : Watching code tx object page collector o) {found : Option Bytes} {finishes : Bool}
    (sees : Sees crates tx (.frame found finishes)) :
    ∃ collector after, Looked code tx object payload page found o collector after := by
  have unheeded (quiet : page.shell.heard found = none) (same : page.shell.onFrame found = page.shell) :
      Looked code tx object payload page found o collector o := by
    refine ⟨?_, fun p held => held, by simp [quiet]⟩
    rw [same]
    exact watching
  cases found with
  | none =>
      refine ⟨collector, o, unheeded ?_ ?_⟩
      · simp [Receiving.heard]
      · simp [Receiving.onFrame]
  | some bytes =>
      cases awake : page.shell.stop || !page.shell.cameraOn with
      | true =>
          refine ⟨collector, o, unheeded ?_ ?_⟩
          · simp [Receiving.heard, awake]
          · simp [Receiving.onFrame, awake]
      | false =>
          obtain ⟨frame, drawn, rfl⟩ := sees bytes rfl
          obtain ⟨r, after, heeded⟩ := watching.frame broadcast awake drawn
          refine ⟨_, after, ⟨heeded.alive, heeded.taken.hosts⟩, heeded.taken.retains, fun other said => ?_⟩
          obtain rfl := Option.some_inj.mp (heeded.heard.symm.trans said)
          exact ⟨heeded.taken.accepted, heeded.taken.delivers⟩

theorem Survives.look (broadcast : Broadcast crates code tx object payload)
    (survives : Survives code tx object installed) (on : installed.page = some page)
    {found : Option Bytes} {finishes : Bool} (sees : Sees crates tx (.frame found finishes)) :
    Survives code tx object (installed.look page found finishes) ∧
      ∀ r, page.shell.heard found = some r →
        (∀ msg, r.kind ≠ .error msg) ∧ (r.kind = .done → r.payload = some payload) := by
  obtain ⟨collector, o, watching, rising⟩ := survives.page page on
  obtain ⟨collector', after, looked⟩ := watching.look broadcast sees
  refine ⟨?_, looked.accepted⟩
  unfold Installed.look
  dsimp only
  split
  · refine ⟨fun value member => ?_, by simp, ?_⟩
    · rw [Store.values_write] at member
      rcases List.mem_append.mp member with before | now
      · exact survives.readable value before
      · rw [List.mem_singleton.mp now]
        exact readable_none
    · rintro next ⟨rfl⟩
      exact ⟨collector', after, ⟨looked.watching.alive, looked.watching.hosts⟩, by simp⟩
  · refine ⟨survives.readable, by simp, ?_⟩
    rintro next ⟨rfl⟩
    exact ⟨collector', after, looked.watching, fun running => (rising running).raise looked.retains⟩

theorem Survives.saved (survives : Survives code tx object installed)
    (on : installed.page = some page) : Survives code tx object (installed.saved page) := by
  obtain ⟨collector, o, watching, rising⟩ := survives.page page on
  rcases saved_cases installed page with same | ⟨running, b, known, record, session, seen, nonempty, saved⟩
  · rwa [same]
  have akin := watching.hosts.akin
  have collects := watching.hosts.collects
  obtain rfl : b = tx.beacon := collects.own b (by rw [← known, akin.same])
  have drawn : record.packets = o.seen := by rw [seen, akin.same]
  have all : kept tx (some record) = {p | p ∈ retained o} := by
    rw [drawn] at nonempty
    rw [kept_session session, drawn, retained, collects.drained nonempty]
    rfl
  rw [saved]
  refine ⟨fun value member => ?_, fun off => absurd (on.symm.trans off) (by simp), ?_⟩
  · rw [Store.values_write] at member
    rcases List.mem_append.mp member with before | now
    · exact survives.readable value before
    · rw [List.mem_singleton.mp now]
      refine ⟨?_, fun p member => ?_⟩
      · rintro other hex ⟨rfl⟩ named
        rw [← JsValue.string.inj (session.symm.trans named), decodeSid4_hex4]
        simp [panicked]
      · rw [kept_session session, drawn] at member
        exact collects.pooled.seen p member
  · rintro other found
    obtain rfl := Option.some_inj.mp (on.symm.trans found)
    refine ⟨collector, o, watching, fun _ => ?_⟩
    have above : {p | p ∈ retained o} ≤ kept tx (some record) := by rw [all]
    rw [← all]
    exact (rising running).write above

theorem Survives.step (broadcast : Broadcast crates code tx object payload)
    (survives : Survives code tx object installed) {event : Event crates} (sees : Sees crates tx event) :
    Survives code tx object (installed.step event).2 ∧
      ∀ r, (installed.step event).1 = some r →
        (∀ msg, r.kind ≠ .error msg) ∧ (r.kind = .done → r.payload = some payload) := by
  cases event with
  | launch session cameraOn =>
      cases on : installed.page with
      | none =>
          simp only [Installed.step, on]
          exact ⟨survives.launch on session cameraOn, by simp⟩
      | some page =>
          simp only [Installed.step, on]
          exact ⟨survives, by simp⟩
  | frame found finishes =>
      cases on : installed.page with
      | none =>
          simp only [Installed.step, on]
          exact ⟨survives, by simp⟩
      | some page =>
          simp only [Installed.step, on]
          exact survives.look broadcast on sees
  | assign stop cameraOn staged encrypted receiving =>
      cases on : installed.page with
      | none =>
          simp only [Installed.step, on]
          exact ⟨survives, by simp⟩
      | some page =>
          simp only [Installed.step, on]
          refine ⟨⟨survives.readable, by simp, ?_⟩, by simp⟩
          rintro next ⟨rfl⟩
          obtain ⟨collector, o, watching, rising⟩ := survives.page page on
          exact ⟨collector, o, ⟨watching.alive, watching.hosts⟩, rising⟩
  | interval =>
      cases on : installed.page with
      | none =>
          simp only [Installed.step, on]
          exact ⟨survives, by simp⟩
      | some page =>
          simp only [Installed.step, on]
          exact ⟨survives.saved on, by simp⟩
  | commit =>
      refine ⟨⟨fun value member => ?_, fun off => ?_, fun page on => ?_⟩, by simp [Installed.step]⟩
      · exact survives.readable value ((Store.values_commit installed.checkpoints).subset member)
      · simp [Installed.step, Store.commit, survives.idle off]
      · obtain ⟨collector, o, watching, rising⟩ := survives.page page on
        exact ⟨collector, o, watching, fun running => (rising running).commit⟩
  | crash =>
      refine ⟨⟨fun value member => ?_, fun _ => rfl, by simp [Installed.step]⟩, by simp [Installed.step]⟩
      exact survives.readable value ((Store.values_crash installed.checkpoints).subset member)

/-! What is stored stays stored. -/

def Finishes (event : Event crates × Option IngestResult) : Prop :=
  ∃ found r, event = (.frame found true, some r) ∧ r.kind = .done

variable (code tx object) in
structure Keeps (packets : Set Bytes) (installed : Installed crates) : Prop where
  survives : Survives code tx object installed
  open_ended : ∀ page, installed.page = some page → page.timer = true
  stored : packets ⊆ kept tx installed.checkpoints.stored

theorem Keeps.step (broadcast : Broadcast crates code tx object payload) {packets : Set Bytes}
    (keeps : Keeps code tx object packets installed) {event : Event crates} (sees : Sees crates tx event)
    (unfinished : ¬Finishes (event, (installed.step event).1)) :
    Keeps code tx object packets (installed.step event).2 := by
  have survives := (keeps.survives.step broadcast sees).1
  cases event with
  | launch session cameraOn =>
      cases on : installed.page with
      | some page => simpa only [Installed.step, on] using keeps
      | none =>
          simp only [Installed.step, on] at survives ⊢
          have readable := keeps.survives.readable _
            (List.mem_cons_self : installed.checkpoints.stored ∈ _)
          obtain ⟨page, o, shown, running, -, -, -, -, store⟩ :=
            @launch_watching crates code tx object installed session cameraOn readable
          refine ⟨survives, fun other found => ?_, ?_⟩
          · rwa [← Option.some_inj.mp (shown.symm.trans found)]
          · rcases store with same | ⟨-, written⟩
            · rw [same]
              exact keeps.stored
            · rw [written]
              exact keeps.stored
  | frame found finishes =>
      cases on : installed.page with
      | none => simpa only [Installed.step, on] using keeps
      | some page =>
          simp only [Installed.step, on] at survives unfinished ⊢
          have running := keeps.open_ended page on
          have undelivered : (delivers (page.shell.heard found) && finishes) = false := by
            by_contra delivered
            simp only [Bool.not_eq_false, Bool.and_eq_true, delivers, Option.any_eq_true,
              decide_eq_true_eq] at delivered
            obtain ⟨⟨r, heard, done⟩, rfl⟩ := delivered
            exact unfinished ⟨found, r, by rw [heard], done⟩
          simp only [Installed.look, undelivered, Bool.false_eq_true, if_false] at survives ⊢
          exact ⟨survives, by rintro next ⟨rfl⟩; exact running, keeps.stored⟩
  | assign stop cameraOn staged encrypted receiving =>
      cases on : installed.page with
      | none => simpa only [Installed.step, on] using keeps
      | some page =>
          simp only [Installed.step, on] at survives ⊢
          exact ⟨survives, by rintro next ⟨rfl⟩; exact keeps.open_ended page on, keeps.stored⟩
  | interval =>
      cases on : installed.page with
      | none => simpa only [Installed.step, on] using keeps
      | some page =>
          simp only [Installed.step, on] at survives ⊢
          rcases saved_cases installed page with same | ⟨-, b, -, record, -, -, -, saved⟩
          · rwa [same]
          · rw [saved] at survives ⊢
            exact ⟨survives, keeps.open_ended, keeps.stored⟩
  | commit =>
      refine ⟨survives, keeps.open_ended, keeps.stored.trans ?_⟩
      cases on : installed.page with
      | none => simp [Installed.step, Store.commit, keeps.survives.idle on]
      | some page =>
          obtain ⟨collector, o, -, rising⟩ := keeps.survives.page page on
          exact (rising (keeps.open_ended page on)).stored_commit
  | crash => exact ⟨survives, by simp [Installed.step], keeps.stored⟩

/-! Delivery behind a launch. -/

variable (crates) in
def imageOf (bytes : Bytes) : Option (Fountain.Event Bytes) :=
  match read crates bytes with
  | .ok (.inl _) => some .announced
  | .ok (.inr sf) => some (.offered {p | p ∈ sf.packets})
  | .error _ => none

def heardIn (trace : List (Event crates × Option IngestResult)) : List (Fountain.Event Bytes) :=
  trace.filterMap fun event => event.1.shown.bind (imageOf crates)

theorem imageOf_genuine (sound : Sound crates tx) {frame : Frame} (drawn : tx.Genuine crates frame) :
    imageOf crates frame.bytes = some (image crates frame) := by
  cases drawn with
  | beacon =>
      have said := read_beacon (Beacon.decode_encode crates tx.beacon)
      rw [← sound.encodes] at said
      simp only [imageOf, Frame.bytes, said, image]
  | symbol sf session len kept count member =>
      have wellFormed := sound.wellFormed len count member
      have said := read_symbol (SymbolFrame.decode_encode crates sf wellFormed)
      simp only [imageOf, Frame.bytes, said, image, carried_symbol wellFormed]

variable (crates tx) in
def Attends (event : Event crates) : Prop :=
  Sees crates tx event ∧ match event with
    | .frame _ _ => True
    | .interval => True
    | .commit => True
    | _ => False

variable (code tx object payload) in
structure Attentive (restored : Set Bytes) (past : List (Event crates × Option IngestResult))
    (page : Page crates) (collector : Fountain.Collector Bytes) (o : Receiver crates) : Prop where
  watching : Watching code tx object page collector o
  awake : page.shell.stop = false ∧ page.shell.cameraOn = true
  reflects : Fountain.Reflects code (.offered restored :: heardIn past) collector
  delivered : (∃ event r, (event, some r) ∈ past ∧ r.kind = .done ∧ r.payload = some payload) ↔
    collector.done = true

variable {restored : Set Bytes} {past : List (Event crates × Option IngestResult)}
  {collector : Fountain.Collector Bytes} {o : Receiver crates}

theorem heardIn_snoc (past : List (Event crates × Option IngestResult)) (event : Event crates)
    (answer : Option IngestResult) :
    heardIn (past ++ [(event, answer)]) = heardIn past ++ (event.shown.bind (imageOf crates)).toList := by
  rw [heardIn, List.filterMap_append]
  cases said : event.shown.bind (imageOf crates) <;> simp [said, heardIn]

theorem delivered_snoc (event : Event crates) (answer : Option IngestResult) :
    (∃ event' r, (event', some r) ∈ past ++ [(event, answer)] ∧ r.kind = .done ∧
        r.payload = some payload) ↔
      (∃ event' r, (event', some r) ∈ past ∧ r.kind = .done ∧ r.payload = some payload) ∨
        ∃ r, answer = some r ∧ r.kind = .done ∧ r.payload = some payload := by
  constructor
  · rintro ⟨event', r, member, done⟩
    rcases List.mem_append.mp member with before | now
    · exact .inl ⟨event', r, before, done⟩
    · obtain ⟨rfl, rfl⟩ := Prod.mk.inj (List.mem_singleton.mp now)
      exact .inr ⟨r, rfl, done⟩
  · rintro (⟨event', r, before, done⟩ | ⟨r, rfl, done⟩)
    · exact ⟨event', r, List.mem_append_left _ before, done⟩
    · exact ⟨event, r, by simp, done⟩

theorem Attentive.idle (attentive : Attentive code tx object payload restored past page collector o)
    {event : Event crates} (silent : event.shown = none) :
    Attentive code tx object payload restored (past ++ [(event, none)]) page collector o := by
  refine ⟨attentive.watching, attentive.awake, ?_, ?_⟩
  · rw [heardIn_snoc, silent]
    simpa using attentive.reflects
  · rw [delivered_snoc]
    simpa using attentive.delivered

theorem Attentive.frame (broadcast : Broadcast crates code tx object payload)
    (attentive : Attentive code tx object payload restored past page collector o) {found : Option Bytes}
    {finishes : Bool} (sees : Sees crates tx (.frame found finishes)) :
    ∃ collector after, Attentive code tx object payload restored
      (past ++ [(.frame found finishes, page.shell.heard found)])
      { page with shell := page.shell.onFrame found } collector after := by
  obtain ⟨running, on⟩ := attentive.awake
  have awake : (page.shell.stop || !page.shell.cameraOn) = false := by simp [running, on]
  cases found with
  | none =>
      have quiet : page.shell.heard none = none := by simp [Receiving.heard]
      have same : page.shell.onFrame none = page.shell := by simp [Receiving.onFrame]
      rw [quiet, same]
      exact ⟨collector, o, attentive.idle rfl⟩
  | some bytes =>
      obtain ⟨frame, drawn, rfl⟩ := sees bytes rfl
      obtain ⟨r, after, heeded⟩ := attentive.watching.frame broadcast awake drawn
      refine ⟨_, after, ⟨heeded.alive, heeded.taken.hosts⟩, ?_, ?_, ?_⟩
      · exact ⟨heeded.awake.1.trans running, heeded.awake.2.trans on⟩
      · have said : ((Event.frame (some frame.bytes) finishes : Event crates).shown.bind
            (imageOf crates)).toList = [image crates frame] := by
          simp [Event.shown, imageOf_genuine broadcast.sound drawn]
        rw [heardIn_snoc, said, ← List.cons_append]
        exact (Fountain.step_reflects attentive.reflects (image crates frame)).1
      · have completes : (∃ other, some r = some other ∧ other.kind = .done ∧
            other.payload = some payload) ↔
              (Fountain.step code collector (image crates frame)).1 = .complete := by
          rw [← heeded.taken.completes]
          constructor
          · rintro ⟨other, ⟨rfl⟩, done, -⟩
            exact done
          · exact fun done => ⟨r, rfl, done, heeded.taken.delivers done⟩
        rw [heeded.heard, delivered_snoc, completes, Fountain.step_finished_iff, attentive.delivered]

theorem attentive_step (broadcast : Broadcast crates code tx object payload) {event : Event crates}
    (attends : Attends crates tx event) (on : installed.page = some page)
    (attentive : Attentive code tx object payload restored past page collector o) :
    ∃ page collector o, (installed.step event).2.page = some page ∧
      Attentive code tx object payload restored (past ++ [(event, (installed.step event).1)]) page
        collector o := by
  obtain ⟨sees, stays⟩ := attends
  cases event with
  | launch session cameraOn => exact stays.elim
  | assign stop cameraOn staged encrypted receiving => exact stays.elim
  | crash => exact stays.elim
  | commit => exact ⟨page, collector, o, on, attentive.idle rfl⟩
  | interval =>
      simp only [Installed.step, on]
      refine ⟨page, collector, o, ?_, attentive.idle rfl⟩
      rcases saved_cases installed page with same | ⟨-, b, -, record, -, -, -, saved⟩
      · rw [same, on]
      · rw [saved, on]
  | frame found finishes =>
      obtain ⟨collector, after, attentive⟩ := attentive.frame broadcast sees
      simp only [Installed.step, on, Installed.look]
      split
      · refine ⟨_, collector, after, rfl, ?_, attentive.awake, attentive.reflects, attentive.delivered⟩
        exact ⟨attentive.watching.alive, attentive.watching.hosts⟩
      · exact ⟨_, collector, after, rfl, attentive⟩

/-! What is sent by `Send.open`. -/

section Sent

variable {buildHash : Bytes} {frameCapacity : Nat} {ephSecret : Octets 32} {sessionId : Octets 8}
  {nonce : Octets 24}

variable (crates) in
def openKey (ephSecret : Octets 32) (sessionId : Octets 8) : SessionKey :=
  deriveOpen crates sessionId (KeyPair.fromBytes crates ephSecret).publicKey

variable (crates) in
def openCfg (buildHash : Bytes) (frameCapacity : Nat) (ephSecret : Octets 32) (sessionId : Octets 8) :
    TransmitConfig :=
  cfg .open sessionId (KeyPair.fromBytes crates ephSecret).publicKey buildHash frameCapacity false

theorem broadcast_open (sendable : Sendable crates code (openKey crates ephSecret sessionId) nonce
      (openCfg crates buildHash frameCapacity ephSecret sessionId) payload) :
    Broadcast crates code
      (Send.open crates payload buildHash frameCapacity ephSecret sessionId nonce).tx
      (Transmitter.ciphertext crates (openKey crates ephSecret sessionId) nonce
        (openCfg crates buildHash frameCapacity ephSecret sessionId) payload) payload where
  mode := rfl
  genuine := sendable.genuine
  reconstructs := sendable.reconstructs
  sound := sound_new sendable.genuine.sized
  opens := openObject_new _ _ _ sendable.short sendable.inflatable sendable.undoes sendable.inflates

/-- A device with no page, and no record of the sender's session that could stand in its way. -/
structure Unacquainted (tx : Transmitter) (installed : Installed crates) : Prop where
  closed : installed.page = none
  idle : installed.checkpoints.queue = []
  returns : ∀ record hex, installed.checkpoints.stored = some record → record.session = .string hex →
    decodeSid4 hex ≠ panicked
  foreign : kept tx installed.checkpoints.stored = ∅

theorem Unacquainted.survives {start : Installed crates} (unacquainted : Unacquainted tx start) :
    Survives code tx object start := by
  refine ⟨fun value member => ?_, fun _ => unacquainted.idle, fun page on => ?_⟩
  · rw [Store.values, unacquainted.idle] at member
    rw [List.mem_singleton.mp member]
    exact ⟨unacquainted.returns, by simp [unacquainted.foreign]⟩
  · exact absurd (unacquainted.closed.symm.trans on) (by simp)

theorem run_survives {start final : Installed crates}
    {trace : List (Event crates × Option IngestResult)}
    (broadcast : Broadcast crates code tx object payload) (unacquainted : Unacquainted tx start)
    (sees : ∀ event ∈ trace, Sees crates tx event.1)
    (run : Machine.Run (Machine.total step) start trace final) : Survives code tx object final := by
  refine run.invariant_on (fun event => Sees crates tx event.1) (Survives code tx object) ?_
    unacquainted.survives sees
  intro before event answer after seen survives stepped
  obtain rfl : (before.step event).2 = after := congrArg Prod.snd (Option.some_inj.mp stepped)
  exact (survives.step broadcast seen).1

theorem launch_attentive {now : Installed crates} (survives : Survives code tx object now)
    (session : Session crates) : ∃ page collector o, (now.launch session true).page = some page ∧
      Attentive code tx object payload (kept tx now.checkpoints.stored) [] page collector o := by
  have readable := survives.readable _ (List.mem_cons_self : now.checkpoints.stored ∈ _)
  obtain ⟨page, o, on, -, running, lens, watching, -, -⟩ :=
    @launch_watching crates code tx object now session true readable
  refine ⟨page, _, o, on, watching, ⟨running, lens⟩, ?_, ?_⟩
  · exact (Fountain.step_reflects (Fountain.reflects_new code) _).1
  · rw [Fountain.step_offered_early code _ rfl rfl]
    simp [Fountain.Collector.new]

theorem run_attentive {now final : Installed crates} (broadcast : Broadcast crates code tx object payload)
    {page : Page crates} (on : now.page = some page)
    (start : Attentive code tx object payload restored [] page collector o)
    {trace : List (Event crates × Option IngestResult)}
    (attends : ∀ event ∈ trace, Attends crates tx event.1)
    (run : Machine.Run (Machine.total step) now trace final) :
    ∃ page collector o, final.page = some page ∧
      Attentive code tx object payload restored trace page collector o := by
  refine run.history_on (fun event => Attends crates tx event.1)
    (fun past installed => ∃ page collector o, installed.page = some page ∧
      Attentive code tx object payload restored past page collector o) ?_
    ⟨page, collector, o, on, start⟩ attends
  rintro past before event answer after attended ⟨page, collector, o, on, attentive⟩ stepped
  obtain ⟨rfl, rfl⟩ := Prod.mk.inj (Option.some_inj.mp stepped)
  exact attentive_step broadcast attended on attentive

/-- Behind a launch, what was stored counts as received: the payload is delivered when and only when the
beacon and enough packets have come, stored before or shown now. -/
theorem broadcast_resumes (sendable : Sendable crates code (openKey crates ephSecret sessionId) nonce
      (openCfg crates buildHash frameCapacity ephSecret sessionId) payload) {send : Send}
    (sent : Send.open crates payload buildHash frameCapacity ephSecret sessionId nonce = send)
    {start now final : Installed crates} (unacquainted : Unacquainted send.tx start)
    {before trace : List (Event crates × Option IngestResult)}
    (sees : ∀ event ∈ before, Sees crates send.tx event.1)
    (past : Machine.Run (Machine.total step) start before now) (cut : now.page = none)
    (session : Session crates) {answer : Option IngestResult}
    (run : Machine.Run (Machine.total step) now ((.launch session true, answer) :: trace) final)
    (attends : ∀ event ∈ trace, Attends crates send.tx event.1) :
    (∃ event r, (event, some r) ∈ trace ∧ r.kind = .done ∧ r.payload = some payload) ↔
      Fountain.WasReady code (.offered (kept send.tx now.checkpoints.stored) :: heardIn trace) := by
  subst sent
  have broadcast := broadcast_open sendable
  have survives := run_survives broadcast unacquainted sees past
  obtain ⟨page, collector, o, on, start⟩ := launch_attentive survives session
  cases run with
  | cons stepped rest =>
      simp only [Machine.total, Installed.step, cut] at stepped
      obtain ⟨-, rfl⟩ := Prod.mk.inj (Option.some_inj.mp stepped)
      obtain ⟨page, collector, o, -, attentive⟩ := run_attentive broadcast on start attends rest
      rw [attentive.delivered]
      exact attentive.reflects.done

end Sent

/-! The broadcast that was cut off. -/

def twoPackets : Fountain.Code Bytes where
  Suffices packets := ∃ p ∈ packets, ∃ q ∈ packets, p ≠ q
  mono := by
    rintro few many inside ⟨p, first, q, second, other⟩
    exact ⟨p, inside first, q, inside second, other⟩
  not_empty := by simp

theorem feed_patient (fed : List Bytes) (count : Nat) :
    feed patientCrates count fed = some (count + fed.length) := by
  induction fed generalizing count with
  | nil => rfl
  | cons packet fed ih =>
      rw [List.length_cons, Nat.add_comm fed.length, ← Nat.add_assoc]
      exact ih (count + 1)

theorem patient_sendable {key : SessionKey} {nonce : Octets 24} {cfg : TransmitConfig} {plaintext : Bytes}
    (short : plaintext.length ≤ inflateLimit)
    (genuine : PacketPool (Transmitter.encoded patientCrates key nonce cfg plaintext).packets)
    (whole : twoPackets.Suffices
      {p | p ∈ (Transmitter.encoded patientCrates key nonce cfg plaintext).packets}) :
    Sendable patientCrates twoPackets key nonce cfg plaintext where
  short := Nat.lt_of_le_of_lt short (by decide)
  inflatable _ := short
  undoes key nonce aad msg := by
    have opened : key.bytes ++ nonce.bytes ++ aad <+: key.bytes ++ nonce.bytes ++ aad ++ msg :=
      List.prefix_append _ _
    simp only [Crates.sample, opened, if_true, List.drop_left]
  inflates plain limit bound := by simp [Crates.sample, bound]
  genuine := genuine
  reconstructs := by
    refine ⟨⟨0, rfl⟩, fun fresh fed packet started distinct inside lacking => ?_⟩
    obtain rfl := Option.some_inj.mp started
    have carried : packet.drop 4 = Transmitter.ciphertext patientCrates key nonce cfg plaintext := by
      obtain ⟨number, -, rfl⟩ := List.mem_map.mp (inside packet (by simp))
      rfl
    refine ⟨fed.length, fed.length + 1, if fed.length = 0 then none else some (packet.drop 4), ?_, rfl,
      fun enough => ?_, fun few => ?_⟩
    · rw [feed_patient, Nat.zero_add]
    · rw [if_neg, carried]
      intro none
      obtain rfl := List.eq_nil_of_length_eq_zero none
      obtain ⟨p, first, q, second, other⟩ := enough
      exact other ((List.mem_singleton.mp first).trans (List.mem_singleton.mp second).symm)
    · refine if_pos (by_contra fun some => few ?_)
      obtain ⟨p, member⟩ := List.exists_mem_of_length_pos (Nat.pos_of_ne_zero some)
      refine ⟨p, List.mem_append_left _ member, packet, by simp, ?_⟩
      rintro rfl
      exact absurd rfl ((List.nodup_append.mp distinct).2.2 p member p (List.mem_singleton_self p))
  whole := whole

theorem open_sendable : Sendable patientCrates twoPackets
    (openKey patientCrates (Octets.replicate 32 8) (Octets.replicate 8 4)) sampleNonce
    (openCfg patientCrates [] 100 (Octets.replicate 32 8) (Octets.replicate 8 4)) samplePlaintext := by
  refine patient_sendable (by decide) ⟨⟨148, by decide, by decide, by decide +kernel⟩, by decide +kernel⟩ ?_
  exact ⟨patientOpen.tx.packets.get ⟨0, by decide +kernel⟩, List.get_mem _ _,
    patientOpen.tx.packets.get ⟨1, by decide +kernel⟩, List.get_mem _ _, by decide +kernel⟩

section Seen

variable {tx : Transmitter} {number : Nat}

theorem genuine_sole (present : number < tx.packets.length) :
    tx.Genuine patientCrates (.symbol ((soleSymbol tx number).encode patientCrates)) := by
  refine .symbol _ rfl rfl ?_ ?_ fun p member => List.mem_of_mem_drop (List.mem_of_mem_take member)
  · exact List.ne_nil_of_length_pos (by simp [soleSymbol]; omega)
  · exact Nat.le_trans (List.length_take_le _ _) (by decide)

theorem sees_sole (present : number < tx.packets.length) (finishes : Bool) :
    Sees patientCrates tx (.frame (some ((soleSymbol tx number).encode patientCrates)) finishes) := by
  rintro bytes ⟨rfl⟩
  exact ⟨_, genuine_sole present, rfl⟩

theorem sees_beacon (tx : Transmitter) (finishes : Bool) :
    Sees patientCrates tx (.frame (some tx.beaconBytes) finishes) := by
  rintro bytes ⟨rfl⟩
  exact ⟨_, .beacon, rfl⟩

end Seen

theorem sees_cutOff : ∀ event ∈ cutOff, Sees patientCrates patientOpen.tx event := by
  intro event member
  simp only [cutOff, List.mem_cons, List.not_mem_nil, or_false] at member
  rcases member with rfl | rfl | rfl | rfl | rfl | rfl
  · trivial
  · exact sees_beacon _ true
  · exact sees_sole (by decide +kernel) true
  · trivial
  · trivial
  · trivial

theorem unacquainted_fresh : Unacquainted patientOpen.tx (fresh patientCrates) :=
  ⟨rfl, rfl, by simp [fresh], kept_none⟩

def shownAgain : List (Event patientCrates) :=
  [.frame (some patientOpen.tx.beaconBytes) true,
    .frame (some ((soleSymbol patientOpen.tx 1).encode patientCrates)) true]

theorem sees_inputs {Meets : Event patientCrates → Prop} {events : List (Event patientCrates)}
    {trace : List (Event patientCrates × Option IngestResult)} (inputs : trace.map Prod.fst = events)
    (meets : ∀ event ∈ events, Meets event) : ∀ event ∈ trace, Meets event.1 := by
  intro event member
  refine meets event.1 ?_
  rw [← inputs]
  exact List.mem_map_of_mem member

set_option maxRecDepth 100000 in
theorem broadcast_resumes_cutOff : ∃ before now trace final,
    Machine.Run (Machine.total step) (fresh patientCrates) before now ∧ before.map Prod.fst = cutOff ∧
      Machine.Run (Machine.total step) now ((patientLaunch, none) :: trace) final ∧
      trace.map Prod.fst = shownAgain ∧
      (∃ event r, (event, some r) ∈ trace ∧ r.kind = .done ∧ r.payload = some samplePlaintext) ∧
      Fountain.WasReady twoPackets
        (.offered (kept patientOpen.tx now.checkpoints.stored) :: heardIn trace) := by
  obtain ⟨whole, final, run, inputs, views⟩ := Machine.run_of_view (Machine.total step)
    (fresh patientCrates) (cutOff ++ patientLaunch :: shownAgain)
    (Option.map fun r => (r.kind, r.payload))
    [none, some (.beacon, none), some (.progress, none), none, none, none, none, some (.beacon, none),
      some (.done, some samplePlaintext)] (by decide +kernel)
  obtain ⟨before, rest, rfl, first, later⟩ := List.map_eq_append_iff.mp inputs
  obtain ⟨⟨launch, answer⟩, trace, rfl, rfl, again⟩ := List.map_eq_cons_iff.mp later
  obtain ⟨now, past, onward⟩ := run.split
  obtain ⟨-, cut⟩ := cutOff_stored past first
  have silent : answer = none := by
    cases onward with
    | cons stepped rest =>
        simp only [Machine.total, Installed.step, patientLaunch, cut] at stepped
        exact (Prod.mk.inj (Option.some_inj.mp stepped)).1.symm
  subst silent
  have attends : ∀ event ∈ trace, Attends patientCrates patientOpen.tx event.1 := by
    refine sees_inputs again fun event member => ?_
    simp only [shownAgain, List.mem_cons, List.not_mem_nil, or_false] at member
    rcases member with rfl | rfl
    · exact ⟨sees_beacon _ true, trivial⟩
    · exact ⟨sees_sole (by decide +kernel) true, trivial⟩
  have delivered : ∃ event r, (event, some r) ∈ trace ∧ r.kind = .done ∧
      r.payload = some samplePlaintext := by
    have sized : before.length = 6 := by simpa [cutOff] using congrArg List.length first
    have last : (trace.map fun event => event.2.map fun r => (r.kind, r.payload)) =
        [some (.beacon, none), some (.done, some samplePlaintext)] := by
      have tail := congrArg (List.drop 7) views
      rwa [List.map_append, List.drop_append, List.length_map, sized, List.drop_eq_nil_of_le
        (by simp [sized])] at tail
    obtain ⟨⟨event, answer⟩, member, answered⟩ := List.mem_map.mp
      (last ▸ List.mem_cons_of_mem _ (List.mem_singleton_self _))
    obtain ⟨r, rfl, same⟩ := Option.map_eq_some_iff.mp answered
    obtain ⟨done, payload⟩ := Prod.mk.inj same
    exact ⟨event, r, member, done, payload⟩
  refine ⟨before, now, trace, final, past, first, onward, again, delivered, ?_⟩
  exact (broadcast_resumes open_sendable rfl unacquainted_fresh (sees_inputs first sees_cutOff) past cut
    _ onward attends).mp delivered

end Installed

end Shell

end Rabaska
