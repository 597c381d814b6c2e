import Rabaska.ReceiverProofs
import Rabaska.SendProofs

/-! The receiver's half of the handshake, and what the two halves agree on. -/

namespace Rabaska.Wasm

open Call Wire Crypto Pipeline

variable {crates : Crates}

namespace Session

def transcript (session : Session crates) (b : Beacon) : Bytes :=
  sasTranscript b.sessionId session.eph.publicKey b.sEphPub session.rNonce

def digits (session : Session crates) (b : Beacon) : String :=
  sasDigits (crates.sha256 (session.transcript b))

def pairKey (session : Session crates) (b : Beacon) : SessionKey :=
  derivePair .receiver session.eph b.sEphPub b.sessionId

end Session

namespace Receive

/-- What a receiver holds: the session it was built with, and under a PAIR beacon the key that the
two derive. -/
structure Bound (session : Session crates) (recv : Receive crates) : Prop where
  own : recv.session = session
  unkeyed : recv.rx.beacon = none → recv.keyed = false
  pair : ∀ b, recv.rx.beacon = some b → b.mode = .pair → recv.rx.key = some (session.pairKey b)

theorem new_bound (session : Session crates) : Bound session (new session) :=
  ⟨rfl, fun _ => rfl, fun b known => by simp [new, Receiver.new] at known⟩

theorem deriveAndSet_pair {session : Session crates} {recv : Receive crates} {b : Beacon}
    (own : recv.session = session) (unkeyed : recv.keyed = false) (known : recv.rx.beacon = some b)
    (mode : b.mode = .pair) : recv.deriveAndSet = (.ok (some (session.digits b)),
      { recv with rx := recv.rx.setKey (session.pairKey b), keyed := true }) := by
  subst own
  unfold deriveAndSet
  rw [unkeyed, known]
  simp only [agreementKey, deriveForMode, mode]
  rfl

theorem deriveAndSet_other {recv : Receive crates} {b : Beacon} (known : recv.rx.beacon = some b)
    (mode : b.mode ≠ .pair) : (∀ digits, recv.deriveAndSet.1 ≠ .ok (some digits)) ∧
      recv.deriveAndSet.2.session = recv.session ∧ recv.deriveAndSet.2.rx.beacon = recv.rx.beacon := by
  unfold deriveAndSet
  split
  · simp
  · rw [known]
    dsimp only
    split
    · simp [known]
    · split
      · simp [known]
      · cases shape : b.mode with
        | pair => exact absurd shape mode
        | session => simp [Receiver.setKey, known]
        | «seal» => simp [Receiver.setKey, known]
        | «open» => simp [Receiver.setKey, known]

theorem answer_quiet (recv : Receive crates) {result : Except Error Ingest}
    (other : result ≠ .ok .beaconAcquired) :
    (recv.answer result).1.sas = none ∧ (recv.answer result).1.kind ≠ .beacon ∧
      (recv.answer result).2 = recv := by
  unfold answer
  split
  · exact absurd rfl other
  · exact ⟨rfl, by simp, rfl⟩
  · exact ⟨rfl, by simp, rfl⟩
  · exact ⟨rfl, by simp, rfl⟩
  · exact ⟨rfl, by simp [errResult], rfl⟩

/-- A frame that the inner receiver acquires a beacon from is answered by deriving the key; any other
leaves all but the inner receiver alone. -/
theorem ingest_split {recv next : Receive crates} {frame : Bytes} {result : IngestResult}
    (ingested : recv.ingest frame = some (result, next)) :
    (∃ rx, recv.rx.ingest frame = some (.ok .beaconAcquired, rx) ∧
        answer { recv with rx } (.ok .beaconAcquired) = (result, next)) ∨
      ∃ inner rx, recv.rx.ingest frame = some (inner, rx) ∧ inner ≠ .ok .beaconAcquired ∧
        (answer { recv with rx } inner).1 = result ∧ next = { recv with rx } := by
  obtain ⟨⟨inner, rx⟩, fed, same⟩ := Option.bind_eq_some_iff.mp ingested
  have same := Option.some_inj.mp same
  by_cases acquires : inner = .ok .beaconAcquired
  · subst acquires
    exact .inl ⟨rx, fed, same⟩
  · have kept := (answer_quiet { recv with rx } acquires).2.2
    exact .inr ⟨inner, rx, fed, acquires, congrArg Prod.fst same,
      (congrArg Prod.snd same).symm.trans kept⟩

theorem answer_silent {recv : Receive crates}
    (silent : ∀ digits, recv.deriveAndSet.1 ≠ .ok (some digits)) :
    (recv.answer (.ok .beaconAcquired)).1.sas = none ∧
      (recv.answer (.ok .beaconAcquired)).2 = recv.deriveAndSet.2 := by
  simp only [answer]
  split
  · rename_i derived
    rw [derived]
    exact ⟨rfl, rfl⟩
  · rename_i sas next derived
    rw [derived] at silent ⊢
    cases sas with
    | none => exact ⟨rfl, rfl⟩
    | some digits => exact absurd rfl (silent digits)

/-- What one frame does: a beacon that is there stays, and digits are shown where a PAIR beacon is
acquired and nowhere else. -/
structure Heeds (session : Session crates) (recv next : Receive crates) (frame : Bytes)
    (result : IngestResult) : Prop where
  bound : Bound session next
  beacon : ∀ b, recv.rx.beacon = some b → next.rx.beacon = some b
  kind : result.kind = .beacon → recv.rx.beacon = none ∧ ∃ b, next.rx.beacon = some b
  shown : ∀ digits, result.sas = some digits → ∃ b, recv.rx.beacon = none ∧
    next.rx.beacon = some b ∧ b.mode = .pair ∧ result.kind = .beacon ∧ digits = session.digits b
  acquired : ∀ b, recv.rx.beacon = none → next.rx.beacon = some b →
    Beacon.decode crates frame = .ok b ∧
      (b.mode = .pair → result.kind = .beacon ∧ result.sas = some (session.digits b))

theorem heeds_acquired {session : Session crates} {recv : Receive crates} {rx : Receiver crates}
    {frame : Bytes} {b : Beacon} (bound : Bound session recv) (unknown : recv.rx.beacon = none)
    (decoded : Beacon.decode crates frame = .ok b) (known : rx.beacon = some b) :
    Heeds session recv (answer { recv with rx } (.ok .beaconAcquired)).2 frame
      (answer { recv with rx } (.ok .beaconAcquired)).1 := by
  have unkeyed := bound.unkeyed unknown
  by_cases mode : b.mode = .pair
  · have derived : deriveAndSet { recv with rx } = (.ok (some (session.digits b)),
        { recv with rx := rx.setKey (session.pairKey b), keyed := true }) :=
      deriveAndSet_pair bound.own unkeyed known mode
    simp only [answer, derived]
    refine ⟨⟨bound.own, fun vanished => ?_, fun other held _ => ?_⟩, fun other held => ?_,
      fun _ => ⟨unknown, b, known⟩, ?_, ?_⟩
    · rw [Receiver.setKey, known] at vanished
      simp at vanished
    · obtain rfl : b = other := Option.some_inj.mp (known.symm.trans held)
      rfl
    · rw [unknown] at held
      simp at held
    · rintro digits ⟨rfl⟩
      exact ⟨b, unknown, known, mode, rfl, rfl⟩
    · rintro other - held
      obtain rfl : b = other := Option.some_inj.mp (known.symm.trans held)
      exact ⟨decoded, fun _ => ⟨rfl, rfl⟩⟩
  · obtain ⟨silent, own, kept⟩ := @deriveAndSet_other _ { recv with rx } b known mode
    have quiet := answer_silent silent
    rw [quiet.2]
    have last : ∀ other, (deriveAndSet { recv with rx }).2.rx.beacon = some other → b = other :=
      fun other held => Option.some_inj.mp (known.symm.trans (kept.symm.trans held))
    refine ⟨⟨own.trans bound.own, fun vanished => ?_, fun other held pair => ?_⟩, fun other held => ?_,
      fun _ => ⟨unknown, b, kept.trans known⟩, ?_, ?_⟩
    · exact absurd (known.symm.trans (kept.symm.trans vanished)) (by simp)
    · exact absurd (last other held ▸ pair) mode
    · simp [unknown] at held
    · intro digits shown
      simp [quiet.1] at shown
    · intro other _ held
      obtain rfl := last other held
      exact ⟨decoded, fun pair => absurd pair mode⟩

theorem ingest_heeds {session : Session crates} {recv next : Receive crates} {frame : Bytes}
    {result : IngestResult} (bound : Bound session recv)
    (ingested : recv.ingest frame = some (result, next)) :
    Heeds session recv next frame result := by
  rcases ingest_split ingested with ⟨rx, fed, same⟩ | ⟨inner, rx, fed, other, told, rfl⟩
  · obtain ⟨unknown, -, b, decoded, known⟩ := Receiver.ingest_acquired fed
    have heeds := heeds_acquired bound unknown decoded known
    rw [same] at heeds
    exact heeds
  · obtain ⟨beacon, key⟩ := Receiver.ingest_kept fed other
    obtain ⟨silent, kind, -⟩ := answer_quiet { recv with rx } other
    rw [told] at silent kind
    refine ⟨⟨bound.own, fun unknown => bound.unkeyed (beacon.symm.trans unknown), fun b known mode => ?_⟩,
      fun b known => beacon.trans known, fun acquires => absurd acquires kind, fun digits shown => ?_,
      fun b unknown known => ?_⟩
    · exact key.trans (bound.pair b (beacon.symm.trans known) mode)
    · exact absurd (silent.symm.trans shown) (by simp)
    · exact absurd (unknown.symm.trans (beacon.symm.trans known)) (by simp)

theorem setPeerIdentity_keeps (recv : Receive crates) (pubkey : Bytes) :
    (recv.setPeerIdentity pubkey).2.rx = recv.rx ∧ (recv.setPeerIdentity pubkey).2.session = recv.session ∧
      (recv.setPeerIdentity pubkey).2.keyed = recv.keyed := by
  unfold setPeerIdentity
  split <;> exact ⟨rfl, rfl, rfl⟩

structure Past (session : Session crates) (past : List (Op × Option IngestResult))
    (now : Receive crates) : Prop where
  bound : Bound session now
  from_frame : ∀ frame result, (.ingest frame, some result) ∈ past → result.kind = .beacon →
    ∃ b, Beacon.decode crates frame = .ok b ∧ now.rx.beacon = some b
  only : ∀ op result digits, (op, some result) ∈ past → result.sas = some digits →
    ∃ b, now.rx.beacon = some b ∧ b.mode = .pair ∧ digits = session.digits b
  shown : ∀ b, now.rx.beacon = some b → b.mode = .pair → ∃ op result, (op, some result) ∈ past ∧
    result.kind = .beacon ∧ result.sas = some (session.digits b)

theorem Past.silent {session : Session crates} {past : List (Op × Option IngestResult)}
    {before after : Receive crates} (op : Op) (held : Past session past before)
    (own : after.session = before.session) (keyed : after.keyed = before.keyed)
    (beacon : after.rx.beacon = before.rx.beacon) (key : after.rx.key = before.rx.key) :
    Past session (past ++ [(op, none)]) after := by
  have earlier : ∀ op' result, (op', some result) ∈ past ++ [(op, none)] → (op', some result) ∈ past := by
    intro op' result member
    simpa using member
  refine ⟨⟨own.trans held.bound.own, fun unknown => ?_, fun b known mode => ?_⟩,
    fun frame result member kind => ?_, fun op' result digits member shown => ?_,
    fun b known mode => ?_⟩
  · exact keyed.trans (held.bound.unkeyed (beacon.symm.trans unknown))
  · exact key.trans (held.bound.pair b (beacon.symm.trans known) mode)
  · obtain ⟨b, decoded, known⟩ := held.from_frame frame result (earlier _ _ member) kind
    exact ⟨b, decoded, beacon.trans known⟩
  · obtain ⟨b, known, mode, same⟩ := held.only op' result digits (earlier _ _ member) shown
    exact ⟨b, beacon.trans known, mode, same⟩
  · obtain ⟨op', result, member, kind, shown⟩ := held.shown b (beacon.symm.trans known) mode
    exact ⟨op', result, List.mem_append_left _ member, kind, shown⟩

theorem Past.heeds {session : Session crates} {past : List (Op × Option IngestResult)}
    {before after : Receive crates} {frame : Bytes} {result : IngestResult}
    (held : Past session past before) (heeds : Heeds session before after frame result) :
    Past session (past ++ [(.ingest frame, some result)]) after := by
  refine ⟨heeds.bound, fun frame' other member kind => ?_, fun op other digits member shown => ?_,
    fun b known mode => ?_⟩
  · rcases List.mem_append.mp member with earlier | now
    · obtain ⟨b, decoded, known⟩ := held.from_frame frame' other earlier kind
      exact ⟨b, decoded, heeds.beacon b known⟩
    · obtain ⟨rfl, rfl⟩ : frame' = frame ∧ other = result := by simpa using now
      obtain ⟨unknown, b, known⟩ := heeds.kind kind
      exact ⟨b, (heeds.acquired b unknown known).1, known⟩
  · rcases List.mem_append.mp member with earlier | now
    · obtain ⟨b, known, mode, same⟩ := held.only op other digits earlier shown
      exact ⟨b, heeds.beacon b known, mode, same⟩
    · obtain ⟨-, rfl⟩ : op = .ingest frame ∧ other = result := by simpa using now
      obtain ⟨b, -, known, mode, -, same⟩ := heeds.shown digits shown
      exact ⟨b, known, mode, same⟩
  · cases first : before.rx.beacon with
    | none =>
        obtain ⟨kind, shown⟩ := (heeds.acquired b first known).2 mode
        exact ⟨_, result, List.mem_append_right _ (List.mem_singleton.mpr rfl), kind, shown⟩
    | some other =>
        obtain rfl : other = b := Option.some_inj.mp ((heeds.beacon other first).symm.trans known)
        obtain ⟨op, answer, member, kind, shown⟩ := held.shown other first mode
        exact ⟨op, answer, List.mem_append_left _ member, kind, shown⟩

theorem run_past {session : Session crates} {trace : List (Op × Option IngestResult)}
    {final : Receive crates} (run : Machine.Run step (new session) trace final) :
    Past session trace final := by
  refine run.history (Past session) ?_ ⟨new_bound session, by simp, by simp, ?_⟩
  · intro past before op answer after held stepped
    cases op with
    | ingest frame =>
        obtain ⟨⟨result, next⟩, ingested, same⟩ := Option.map_eq_some_iff.mp stepped
        obtain ⟨rfl, rfl⟩ := Prod.mk.inj same
        exact held.heeds (ingest_heeds held.bound ingested)
    | setPeerIdentity pubkey =>
        obtain ⟨rfl, rfl⟩ := Prod.mk.inj (Option.some_inj.mp stepped)
        obtain ⟨rx, own, keyed⟩ := setPeerIdentity_keeps before pubkey
        exact held.silent _ own keyed (congrArg _ rx) (congrArg _ rx)
    | restore session packets =>
        obtain ⟨rfl, rfl⟩ := Prod.mk.inj (Option.some_inj.mp stepped)
        obtain ⟨beacon, key, -⟩ := Receiver.hold_effect before.rx session packets
        exact held.silent _ rfl rfl beacon key
  · intro b known
    simp [new, Receiver.new] at known

end Receive

/-! Both halves. -/

def PendingSas.transcript (p : PendingSas) (rNonce : Octets 16) : Bytes :=
  sasTranscript p.sessionId p.rEphPub p.sEphPub rNonce

theorem pairKey_agrees (commutes : DiffieHellmanCommutes crates) {session : Session crates}
    {b : Beacon} {eph : KeyPair crates} {rEphPub : Octets 32} {sessionId : Octets 8}
    (id : sessionId = b.sessionId) (rEph : rEphPub = session.eph.publicKey)
    (sEph : eph.publicKey = b.sEphPub) : derivePair .sender eph rEphPub sessionId = session.pairKey b := by
  calc derivePair .sender eph rEphPub sessionId
      = derivePair .sender eph session.eph.publicKey b.sessionId := by rw [rEph, id]
    _ = derivePair .receiver session.eph eph.publicKey b.sessionId := derivePair_agrees commutes _ _ _
    _ = session.pairKey b := by rw [Session.pairKey, sEph]

theorem digits_pairSend (session : Session crates) (payload : Bytes) (identity : Option (KeyPair crates))
    (buildHash : Bytes) (frameCapacity : Nat) (ephSecret : Octets 32) (nonce : Octets 24) :
    session.digits (Send.pairSend crates session.request payload identity buildHash frameCapacity
        ephSecret nonce).tx.beacon =
      sas crates session.request.sessionId session.request.rEphPub
        (KeyPair.fromBytes crates ephSecret).publicKey session.rNonce := by
  rw [Session.digits, Session.transcript, Send.pairSend_sessionId, Send.pairSend_sEphPub]
  rfl

/-- What each side shows are the digits of its own string; the strings are equal exactly when both
hold the same values, and then both hold the same key; and when the request, the beacon and the
reveal pass unchanged, the reveal is accepted and both show the same digits. -/
theorem transcripts_agree (commutes : DiffieHellmanCommutes crates) {session : Session crates}
    {trace : List (Receive.Op × Option IngestResult)} {recv : Receive crates} {b : Beacon}
    (receiving : Machine.Run Receive.step (Receive.new session) trace recv)
    (acquired : recv.rx.beacon = some b) (mode : b.mode = .pair) {pairReq payload : Bytes}
    {identity : Option (KeyPair crates)} {peerIdentity : Option Bytes} {buildHash : Bytes}
    {frameCapacity : Nat} {ephSecret : Octets 32} {nonce : Octets 24} {send now : Send}
    {past : List (Send.Op × Send.Answer)}
    (replied : Send.reply crates pairReq payload identity peerIdentity buildHash frameCapacity
      ephSecret nonce = some (.ok send))
    (sending : Machine.Run (Send.step crates) send past now) :
    ((∃ op result, (op, some result) ∈ trace ∧ result.sas = some (session.digits b)) ∧
      ∀ op result digits, (op, some result) ∈ trace → result.sas = some digits →
        digits = session.digits b) ∧
    (∀ frame digits next, now.acceptReveal crates frame = some (.ok digits, next) →
      ∃ req rv, PairReq.decode crates pairReq = .ok req ∧ Reveal.decode crates frame = .ok rv ∧
        let pending := Send.kept req (KeyPair.fromBytes crates ephSecret)
        digits = sasDigits (crates.sha256 (pending.transcript rv.rNonce)) ∧
        (pending.transcript rv.rNonce = session.transcript b ↔ pending.sessionId = b.sessionId ∧
          pending.rEphPub = session.eph.publicKey ∧ pending.sEphPub = b.sEphPub ∧
          rv.rNonce = session.rNonce) ∧
        (pending.transcript rv.rNonce = session.transcript b →
          ∃ key, recv.rx.key = some key ∧ send.tx = (Transmitter.new crates key nonce
            (cfg .pair pending.sessionId pending.sEphPub buildHash frameCapacity identity.isSome)
            payload).hold)) ∧
    (pairReq = session.pairReq →
      (∃ result, (.ingest send.tx.beaconBytes, some result) ∈ trace ∧ result.kind = .beacon) →
      ∃ next, now.acceptReveal crates session.reveal = some (.ok (session.digits b), next)) := by
  have held := Receive.run_past receiving
  have kept := Send.run_pending sending
  obtain ⟨req, decoded, shape⟩ := Send.reply_cases replied
  refine ⟨⟨?_, ?_⟩, fun frame digits next accepted => ?_, ?_⟩
  · obtain ⟨op, result, member, -, shown⟩ := held.shown b acquired mode
    exact ⟨op, result, member, shown⟩
  · intro op result digits member shown
    obtain ⟨other, known, -, same⟩ := held.only op result digits member shown
    obtain rfl : b = other := Option.some_inj.mp (acquired.symm.trans known)
    exact same
  · cases Send.acceptReveal_cases accepted with
    | accepted _ p rv pending reveal session' opened =>
        rcases shape with rfl | ⟨-, -, none, -⟩
        · obtain rfl : Send.kept req (KeyPair.fromBytes crates ephSecret) = p :=
            Option.some_inj.mp (kept.symm.trans pending)
          refine ⟨req, rv, decoded, reveal, rfl, sasTranscript_inj, fun same => ?_⟩
          obtain ⟨id, rEph, sEph, -⟩ := sasTranscript_inj.mp same
          refine ⟨_, held.bound.pair b acquired mode, ?_⟩
          rw [← pairKey_agrees commutes id rEph sEph]
          rfl
        · rw [none] at kept
          exact absurd (kept.symm.trans pending) (by simp)
  · rintro rfl ⟨result, member, kind⟩
    obtain ⟨other, parsed, known⟩ := held.from_frame _ result member kind
    obtain rfl : b = other := Option.some_inj.mp (acquired.symm.trans known)
    obtain rfl : session.request = req :=
      Except.ok.inj ((PairReq.decode_encode crates session.request).symm.trans decoded)
    rcases shape with rfl | ⟨-, -, -, sessionMode, encoded⟩
    · rw [Send.pairSend_encoded, Beacon.decode_encode] at parsed
      obtain rfl := Except.ok.inj parsed
      have opened := Send.acceptReveal_opens kept (rfl : commit crates session.request.sessionId
        session.request.rEphPub session.rNonce = session.request.rCommit)
      rw [← digits_pairSend session payload identity buildHash frameCapacity ephSecret nonce] at opened
      exact ⟨_, opened⟩
    · rw [encoded, Beacon.decode_encode] at parsed
      obtain rfl := Except.ok.inj parsed
      rw [sessionMode] at mode
      simp at mode

set_option maxRecDepth 100000 in
theorem transcripts_agree_sample :
    ∃ trace recv, Machine.Run Receive.step (Receive.new sampleSession) trace recv ∧
      recv.rx.beacon = some Send.sampleSend.tx.beacon ∧
      ∃ next, Send.sampleSend.acceptReveal Crates.sample sampleSession.reveal =
        some (.ok (sampleSession.digits Send.sampleSend.tx.beacon), next) := by
  obtain ⟨trace, recv, run, inputs, views⟩ := Machine.run_of_view Receive.step
    (Receive.new sampleSession) [.ingest Send.sampleSend.tx.beaconBytes]
    (Option.map IngestResult.kind) [some .beacon] (by decide +kernel)
  obtain ⟨⟨op, answer⟩, rfl, rfl⟩ := List.map_eq_singleton_iff.mp inputs
  obtain ⟨result, rfl, kind⟩ : ∃ result, answer = some result ∧ result.kind = .beacon := by
    simpa using views
  obtain ⟨b, decoded, known⟩ := (Receive.run_past run).from_frame _ result (List.mem_singleton.mpr rfl) kind
  rw [Send.sampleSend, Send.pairSend_encoded, Beacon.decode_encode] at decoded
  obtain rfl := Except.ok.inj decoded
  have agreed := transcripts_agree sample_commutes run known rfl Send.sample_replied (.nil _)
  exact ⟨_, recv, run, known, agreed.2.2 rfl ⟨result, List.mem_singleton.mpr rfl, kind⟩⟩

end Rabaska.Wasm
