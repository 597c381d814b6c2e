import Rabaska.FormatProofs
import Rabaska.HandshakeProofs

/-! Which beacons a receiver takes for its session, and what it holds once it has taken one. -/

namespace Rabaska

open Call Wire Crypto

variable {crates : Crates}

namespace Pipeline.Receiver

variable {rx next : Receiver crates} {frame : Bytes} {b : Beacon}

theorem ingest_decoded (decoded : Beacon.decode crates frame = .ok b) :
    rx.ingest frame = if rx.done then some (.ok .ignored, rx) else rx.ingestBeacon b := by
  obtain rfl := Beacon.canonical crates frame b decoded
  cases running : rx.done with
  | true => simp [ingest, running]
  | false => simp [ingest_beacon running]

theorem ingest_known {existing : Beacon} {result : Except Error Ingest}
    (decoded : Beacon.decode crates frame = .ok b) (known : rx.beacon = some existing)
    (ingested : rx.ingest frame = some (result, next)) : next = rx := by
  rw [ingest_decoded decoded] at ingested
  split at ingested
  · exact (Prod.mk.inj (Option.some_inj.mp ingested)).2.symm
  · rw [ingestBeacon_known known] at ingested
    exact (Prod.mk.inj (Option.some_inj.mp ingested)).2.symm

theorem ingest_unknown {result : Except Error Ingest}
    (decoded : Beacon.decode crates frame = .ok b) (running : rx.done = false)
    (unknown : rx.beacon = none) (ingested : rx.ingest frame = some (result, next)) :
    result = .ok .beaconAcquired ∧ next.beacon = some b := by
  rw [ingest_decoded decoded, running] at ingested
  simp only [Bool.false_eq_true, if_false, ingestBeacon_unknown unknown] at ingested
  obtain ⟨dec, -, same⟩ := Option.map_eq_some_iff.mp ingested
  obtain ⟨rfl, rfl⟩ := Prod.mk.inj same
  exact ⟨rfl, rfl⟩

theorem ingest_refused {error : Error} (unknown : rx.beacon = none)
    (ingested : rx.ingest frame = some (.error error, next)) : next = rx := by
  cases ingest_cases ingested with
  | refused error => rfl
  | absorbed packets result next running absorbed =>
      obtain ⟨b, known, -⟩ := absorb_cases absorbed
      simp [unknown] at known

end Pipeline.Receiver

namespace Wasm.Receive

open Pipeline

/-! The session a receiver asked for. -/

/-- A beacon is acquired only when it echoes the receiver's session, and a beacon of any other
session leaves the receiver as it was. -/
def Echoes (recv next : Receive crates) (b : Beacon) : Prop :=
  (recv.rx.beacon = none → next.rx.beacon = some b → b.sessionId = recv.session.sessionId) ∧
    (b.sessionId ≠ recv.session.sessionId → next = recv)

theorem ingest_done {recv next : Receive crates} {frame : Bytes} {result : IngestResult}
    (finished : recv.rx.done = true) (ingested : recv.ingest frame = some (result, next)) :
    next = recv := by
  simp only [ingest, Receiver.ingest, finished, if_true, Option.bind_eq_bind, Option.bind_some,
    answer] at ingested
  exact (Prod.mk.inj (Option.some_inj.mp ingested)).2.symm

theorem ingest_again {recv next : Receive crates} {frame : Bytes} {b existing : Beacon}
    {result : IngestResult} (decoded : Beacon.decode crates frame = .ok b)
    (known : recv.rx.beacon = some existing) (ingested : recv.ingest frame = some (result, next)) :
    next = recv := by
  rcases ingest_split ingested with ⟨rx, fed, -⟩ | ⟨inner, rx, fed, -, -, rfl⟩
  · have unknown := (Receiver.ingest_acquired fed).1
    simp [known] at unknown
  · rw [Receiver.ingest_known decoded known fed]

theorem deriveAndSet_keeps (recv : Receive crates) : recv.deriveAndSet.2.rx.beacon = recv.rx.beacon := by
  unfold deriveAndSet
  split
  · rfl
  · split
    · rfl
    · split
      · rfl
      · split <;> rfl

theorem answer_acquired_beacon (recv : Receive crates) :
    (recv.answer (.ok .beaconAcquired)).2 = recv.deriveAndSet.2 := by
  simp only [answer]
  split <;> rename_i derived <;> rw [derived]

theorem ingest_first {recv next : Receive crates} {frame : Bytes} {b : Beacon} {result : IngestResult}
    (decoded : Beacon.decode crates frame = .ok b) (running : recv.rx.done = false)
    (unknown : recv.rx.beacon = none) (ingested : recv.ingest frame = some (result, next)) :
    next.rx.beacon = some b := by
  rcases ingest_split ingested with ⟨rx, fed, same⟩ | ⟨inner, rx, fed, other, -, -⟩
  · have last : (answer { recv with rx } (.ok .beaconAcquired)).2 = next := congrArg Prod.snd same
    rw [← last, answer_acquired_beacon, deriveAndSet_keeps]
    exact (Receiver.ingest_unknown decoded running unknown fed).2
  · exact absurd (Receiver.ingest_unknown decoded running unknown fed).1 other

/-- Whether a beacon echoes the session is not looked at: a receiver without a beacon takes the first
one it sees, and only a receiver that has one, or is done, stays with its own session. -/
theorem echoes_iff {recv next : Receive crates} {frame : Bytes} {b : Beacon} {result : IngestResult}
    (decoded : Beacon.decode crates frame = .ok b)
    (ingested : recv.ingest frame = some (result, next)) :
    Echoes recv next b ↔ b.sessionId = recv.session.sessionId ∨ recv.rx.beacon ≠ none ∨
      recv.rx.done = true := by
  constructor
  · rintro ⟨echoed, -⟩
    by_contra others
    simp only [not_or, not_not, Bool.not_eq_true] at others
    obtain ⟨foreign, unknown, running⟩ := others
    exact foreign (echoed unknown (ingest_first decoded running unknown ingested))
  · rintro (own | known | finished)
    · exact ⟨fun _ _ => own, fun foreign => absurd own foreign⟩
    · obtain ⟨existing, known⟩ := Option.ne_none_iff_exists'.mp known
      have same := ingest_again decoded known ingested
      exact ⟨fun unknown => by simp [known] at unknown, fun _ => same⟩
    · have same := ingest_done finished ingested
      exact ⟨fun unknown known => by simp [same, unknown] at known, fun _ => same⟩

def neighbour : Beacon :=
  { Send.sampleSend.tx.beacon with sessionId := Octets.replicate 8 9 }

set_option maxRecDepth 100000 in
theorem echoes_sample : ∃ result next,
    (new sampleSession).ingest Send.sampleSend.tx.beaconBytes = some (result, next) ∧
      (Echoes (new sampleSession) next Send.sampleSend.tx.beacon ↔
        Send.sampleSend.tx.beacon.sessionId = sampleSession.sessionId ∨
          (new sampleSession).rx.beacon ≠ none ∨ (new sampleSession).rx.done = true) := by
  have returns : ((new sampleSession).ingest Send.sampleSend.tx.beaconBytes).isSome := by
    decide +kernel
  obtain ⟨⟨result, next⟩, ingested⟩ := Option.isSome_iff_exists.mp returns
  refine ⟨result, next, ingested, echoes_iff ?_ ingested⟩
  rw [Send.sampleSend, Send.pairSend_encoded, Beacon.decode_encode]

set_option maxRecDepth 100000 in
/-- The neighbour's beacon comes first: it is acquired with its digits, and the one that answers the
receiver's own request is refused. -/
theorem neighbour_acquired : ∃ trace final,
    Machine.Run step (new sampleSession) trace final ∧
      trace.map Prod.fst = [.ingest (neighbour.encode Crates.sample),
        .ingest Send.sampleSend.tx.beaconBytes] ∧
      trace.map (fun event => event.2.map fun result => (result.kind, result.sas.isSome)) =
        [some (.beacon, true), some (.error (Error.foreignSession.display), false)] ∧
      neighbour.mode = .pair ∧
      ∃ result next, (new sampleSession).ingest (neighbour.encode Crates.sample) = some (result, next) ∧
        ¬Echoes (new sampleSession) next neighbour := by
  obtain ⟨trace, final, run, inputs, views⟩ := Machine.run_of_view step (new sampleSession)
    [.ingest (neighbour.encode Crates.sample), .ingest Send.sampleSend.tx.beaconBytes]
    (Option.map fun result => (result.kind, result.sas.isSome))
    [some (.beacon, true), some (.error (Error.foreignSession.display), false)] (by decide +kernel)
  have decoded := Beacon.decode_encode Crates.sample neighbour
  have returns : ((new sampleSession).ingest (neighbour.encode Crates.sample)).isSome := by
    decide +kernel
  obtain ⟨⟨result, next⟩, ingested⟩ := Option.isSome_iff_exists.mp returns
  refine ⟨trace, final, run, inputs, views, rfl, result, next, ingested, fun echoes => ?_⟩
  have same := echoes.1 rfl (ingest_first decoded rfl rfl ingested)
  exact absurd same (by decide)

/-! The key of an acquired beacon. -/

def CanKey (recv : Receive crates) (b : Beacon) : Prop :=
  match b.mode with
  | .pair => True
  | .session => recv.session.identity.isSome ∧ recv.peerIdentity.isSome
  | .seal => recv.session.identity.isSome
  | .open => True

theorem deriveAndSet_keys {recv : Receive crates} {b : Beacon} (unkeyed : recv.keyed = false)
    (known : recv.rx.beacon = some b) (can : CanKey recv b) :
    ∃ sas key, recv.deriveAndSet = (.ok sas, { recv with rx := recv.rx.setKey key, keyed := true }) := by
  obtain ⟨rx, ⟨eph, sessionId, identity, rNonce⟩, peerIdentity, keyed⟩ := recv
  obtain rfl : keyed = false := unkeyed
  replace known : rx.beacon = some b := known
  unfold CanKey at can
  simp only [deriveAndSet, known, Bool.false_eq_true, if_false, agreementKey]
  cases mode : b.mode with
  | pair => exact ⟨_, _, rfl⟩
  | session =>
      rw [mode] at can
      obtain ⟨own, peer⟩ := can
      obtain ⟨own, rfl⟩ := Option.isSome_iff_exists.mp own
      obtain ⟨peer, rfl⟩ := Option.isSome_iff_exists.mp peer
      exact ⟨_, _, rfl⟩
  | «seal» =>
      rw [mode] at can
      obtain ⟨own, rfl⟩ := Option.isSome_iff_exists.mp can
      exact ⟨_, _, rfl⟩
  | «open» => exact ⟨_, _, rfl⟩

theorem deriveAndSet_fails {recv : Receive crates} {b : Beacon} (unkeyed : recv.keyed = false)
    (known : recv.rx.beacon = some b) (cannot : ¬CanKey recv b) :
    ∃ msg, recv.deriveAndSet = (.error msg, recv) := by
  obtain ⟨rx, ⟨eph, sessionId, identity, rNonce⟩, peerIdentity, keyed⟩ := recv
  obtain rfl : keyed = false := unkeyed
  replace known : rx.beacon = some b := known
  unfold CanKey at cannot
  simp only [deriveAndSet, known, Bool.false_eq_true, if_false, agreementKey]
  cases mode : b.mode with
  | pair => simp [mode] at cannot
  | session =>
      rw [mode] at cannot
      cases identity with
      | none => exact ⟨_, rfl⟩
      | some own =>
          cases peerIdentity with
          | none => exact ⟨_, rfl⟩
          | some peer => simp at cannot
  | «seal» =>
      rw [mode] at cannot
      cases identity with
      | none => exact ⟨_, rfl⟩
      | some own => simp at cannot
  | «open» => simp [mode] at cannot

def Whole (recv : Receive crates) : Prop := recv.rx.beacon.isSome → recv.rx.key.isSome

/-- The call found the receiver in a state from which it can key the beacon it was shown. -/
def Keyable (recv : Receive crates) : Op → Prop
  | .ingest frame => recv.rx.done = false → recv.rx.beacon = none →
      ∀ b, Beacon.decode crates frame = .ok b → CanKey recv b
  | _ => True

/-- The call left no beacon without its key, and where it failed before there was a beacon it
changed nothing. -/
def Completes (recv : Receive crates) (answer : Option IngestResult) (next : Receive crates) : Prop :=
  Whole next ∧ (recv.rx.beacon = none →
    (∃ result msg, answer = some result ∧ result.kind = .error msg) → next = recv)

structure Tidy (recv : Receive crates) : Prop where
  whole : Whole recv
  unkeyed : recv.rx.beacon = none → recv.keyed = false ∧ recv.rx.key = none

theorem Tidy.of_same {recv next : Receive crates} (tidy : Tidy recv)
    (beacon : next.rx.beacon = recv.rx.beacon) (key : next.rx.key = recv.rx.key)
    (keyed : next.keyed = recv.keyed) : Tidy next := by
  refine ⟨?_, ?_⟩
  · rw [Whole, beacon, key]
    exact tidy.whole
  · rw [beacon, key, keyed]
    exact tidy.unkeyed

theorem acquired_completes {recv : Receive crates} {rx : Receiver crates} {frame : Bytes} {b : Beacon}
    (tidy : Tidy recv) (running : recv.rx.done = false) (unknown : recv.rx.beacon = none)
    (decoded : Beacon.decode crates frame = .ok b) (known : rx.beacon = some b)
    (key : rx.key = recv.rx.key) :
    (Completes recv (some (answer { recv with rx } (.ok .beaconAcquired)).1)
        (answer { recv with rx } (.ok .beaconAcquired)).2 ↔ Keyable recv (.ingest frame)) ∧
      (Keyable recv (.ingest frame) → Tidy (answer { recv with rx } (.ok .beaconAcquired)).2) := by
  obtain ⟨unkeyed, keyless⟩ := tidy.unkeyed unknown
  have keyable : Keyable recv (.ingest frame) ↔ CanKey { recv with rx } b := by
    constructor
    · exact fun can => can running unknown b decoded
    · intro can _ _ other same
      obtain rfl : b = other := Except.ok.inj (decoded.symm.trans same)
      exact can
  rw [keyable]
  by_cases can : CanKey { recv with rx } b
  · obtain ⟨sas, key, derived⟩ := @deriveAndSet_keys _ { recv with rx } b unkeyed known can
    simp only [answer, derived]
    refine ⟨iff_of_true ⟨fun _ => rfl, ?_⟩ can, fun _ => ⟨fun _ => rfl, fun vanished => ?_⟩⟩
    · rintro - ⟨result, msg, ⟨rfl⟩, failed⟩
      simp at failed
    · simp [Receiver.setKey, known] at vanished
  · obtain ⟨msg, derived⟩ := @deriveAndSet_fails _ { recv with rx } b unkeyed known can
    simp only [answer, derived]
    refine ⟨iff_of_false ?_ can, fun impossible => absurd impossible can⟩
    rintro ⟨whole, -⟩
    have keyed := whole (by simp [known])
    simp [key, keyless] at keyed

theorem ingest_completes {recv next : Receive crates} {frame : Bytes} {result : IngestResult}
    (tidy : Tidy recv) (ingested : recv.ingest frame = some (result, next)) :
    (Completes recv (some result) next ↔ Keyable recv (.ingest frame)) ∧
      (Keyable recv (.ingest frame) → Tidy next) := by
  rcases ingest_split ingested with ⟨rx, fed, same⟩ | ⟨inner, rx, fed, acquires, rfl, rfl⟩
  · obtain ⟨unknown, key, b, decoded, known⟩ := Receiver.ingest_acquired fed
    have running : recv.rx.done = false := by
      cases finished : recv.rx.done with
      | false => rfl
      | true => simp [Receiver.ingest, finished] at fed
    have completes := acquired_completes tidy running unknown decoded known key
    rwa [same] at completes
  · obtain ⟨beacon, key⟩ := Receiver.ingest_kept fed acquires
    have after : Tidy { recv with rx } := tidy.of_same beacon key rfl
    refine ⟨iff_of_true ⟨after.whole, ?_⟩ ?_, fun _ => after⟩
    · rintro unknown ⟨_, msg, ⟨rfl⟩, failed⟩
      cases inner with
      | error error =>
          obtain rfl := Receiver.ingest_refused unknown fed
          rfl
      | ok outcome => cases outcome <;> simp [answer] at failed acquires
    · intro running unknown b decoded
      exact absurd (Receiver.ingest_unknown decoded running unknown fed).1 acquires

/-- The calls of a run all leave an acquired beacon with its key, and an error without a trace,
exactly when each beacon that comes before one is acquired can be keyed at once: what is missing then
cannot be made up for, since a beacon shown again is ignored. -/
theorem never_half_acquired_iff (session : Session crates) (trace : List (Op × Option IngestResult)) :
    Machine.Along step (fun recv _ answer next => Completes recv answer next) (new session) trace ↔
      Machine.Along step (fun recv op _ _ => Keyable recv op) (new session) trace := by
  refine Machine.along_iff Tidy ?_ ⟨by simp [Whole, new, Receiver.new], fun _ => ⟨rfl, rfl⟩⟩ trace
  intro recv op answer next tidy stepped
  cases op with
  | ingest frame =>
      obtain ⟨⟨result, after⟩, ingested, same⟩ := Option.map_eq_some_iff.mp stepped
      obtain ⟨rfl, rfl⟩ := Prod.mk.inj same
      exact ingest_completes tidy ingested
  | setPeerIdentity pubkey =>
      obtain ⟨rfl, rfl⟩ := Prod.mk.inj (Option.some_inj.mp stepped)
      obtain ⟨rx, -, keyed⟩ := setPeerIdentity_keeps recv pubkey
      have after := tidy.of_same (congrArg _ rx) (congrArg _ rx) keyed
      exact ⟨iff_of_true ⟨after.whole, by simp⟩ trivial, fun _ => after⟩
  | restore session packets =>
      obtain ⟨rfl, rfl⟩ := Prod.mk.inj (Option.some_inj.mp stepped)
      obtain ⟨beacon, key, -⟩ := Receiver.hold_effect recv.rx session packets
      have after : Tidy (recv.restore session packets) := tidy.of_same beacon key rfl
      exact ⟨iff_of_true ⟨after.whole, by simp⟩ trivial, fun _ => after⟩

/-! Two devices that know each other, and a receiver that is told who sends too late. -/

def senderIdentity : KeyPair Crates.sample := KeyPair.fromBytes Crates.sample (Octets.replicate 32 12)

def knownSession : Session Crates.sample :=
  Session.new (some (KeyPair.fromBytes Crates.sample (Octets.replicate 32 11))) (Octets.replicate 32 3)
    (Octets.replicate 8 4) (Octets.replicate 16 6)

def sessionBeacon : Bytes :=
  match Send.reply Crates.sample knownSession.pairReq samplePlaintext (some senderIdentity)
    (some (List.replicate 32 11)) [] 100 (Octets.replicate 32 8) sampleNonce with
  | some (.ok send) => send.tx.beaconBytes
  | _ => []

set_option maxRecDepth 100000 in
/-- The SESSION beacon comes before the peer identity: it is acquired without a key, and shown again
after the identity it is ignored. -/
theorem beacon_left_unkeyed : ∃ trace final,
    Machine.Run step (new knownSession) trace final ∧
      trace.map Prod.fst = [.ingest sessionBeacon,
        .setPeerIdentity senderIdentity.publicKey.bytes, .ingest sessionBeacon] ∧
      trace.map (fun event => event.2.map IngestResult.kind) =
        [some (.error (Error.missingIdentity.display)), none, some .ignored] ∧
      ¬Machine.Along step (fun recv _ answer next => Completes recv answer next) (new knownSession)
        trace := by
  obtain ⟨trace, final, run, inputs, views⟩ := Machine.run_of_view step (new knownSession)
    [.ingest sessionBeacon, .setPeerIdentity senderIdentity.publicKey.bytes, .ingest sessionBeacon]
    (Option.map IngestResult.kind)
    [some (.error (Error.missingIdentity.display)), none, some .ignored] (by decide +kernel)
  refine ⟨trace, final, run, inputs, views, fun along => ?_⟩
  have half : (step (new knownSession) (.ingest sessionBeacon)).map
      (fun outcome => (outcome.2.rx.beacon.isSome, outcome.2.rx.key.isSome)) = some (true, false) := by
    decide +kernel
  cases run with
  | nil => simp at inputs
  | cons stepped rest =>
      obtain ⟨next, same, ⟨whole, -⟩, -⟩ := along
      obtain ⟨rfl, -⟩ := List.cons.inj inputs
      rw [same] at half
      obtain ⟨acquired, unkeyed⟩ := Prod.mk.inj (Option.some_inj.mp half)
      exact absurd (whole acquired) (by simp [unkeyed])

end Wasm.Receive

end Rabaska
