import Rabaska.TransmitterProofs
import Rabaska.WasmCore
import Rabaska.Library.Machine

/-! The sender's half of the handshake: what a PAIR session withholds until its commitment opens. -/

namespace Rabaska.Wasm

open Call Wire Crypto Pipeline

variable {crates : Crates}

namespace Send

/-- A REVEAL frame of the session whose nonce recomputes to the commitment. -/
def Opens (crates : Crates) (req : PairReq) (frame : Bytes) : Prop :=
  ∃ rv, Reveal.decode crates frame = .ok rv ∧ rv.sid4 = sid4 req.sessionId ∧
    commit crates req.sessionId req.rEphPub rv.rNonce = req.rCommit

/-- A REVEAL frame of the session whose nonce is not the committed one. -/
def Mismatches (crates : Crates) (req : PairReq) (frame : Bytes) : Prop :=
  ∃ rv, Reveal.decode crates frame = .ok rv ∧ rv.sid4 = sid4 req.sessionId ∧
    commit crates req.sessionId req.rEphPub rv.rNonce ≠ req.rCommit

def kept (req : PairReq) (eph : KeyPair crates) : PendingSas :=
  { sessionId := req.sessionId, rEphPub := req.rEphPub, sEphPub := eph.publicKey,
    rCommit := req.rCommit }

def pairTransmitter (crates : Crates) (req : PairReq) (payload : Bytes)
    (identity : Option (KeyPair crates)) (buildHash : Bytes) (frameCapacity : Nat)
    (ephSecret : Octets 32) (nonce : Octets 24) : Transmitter :=
  let eph := KeyPair.fromBytes crates ephSecret
  Transmitter.new crates (derivePair .sender eph req.rEphPub req.sessionId) nonce
    (cfg .pair req.sessionId eph.publicKey buildHash frameCapacity identity.isSome) payload

def pairSend (crates : Crates) (req : PairReq) (payload : Bytes) (identity : Option (KeyPair crates))
    (buildHash : Bytes) (frameCapacity : Nat) (ephSecret : Octets 32) (nonce : Octets 24) : Send :=
  { tx := (pairTransmitter crates req payload identity buildHash frameCapacity ephSecret nonce).hold
    sas := none
    pending := some (kept req (KeyPair.fromBytes crates ephSecret)) }

section Sent

variable (req : PairReq) (payload : Bytes) (identity : Option (KeyPair crates)) (buildHash : Bytes)
  (frameCapacity : Nat) (ephSecret : Octets 32) (nonce : Octets 24)

/-! The beacon of a reply says which session it answers, and with which key. -/

theorem pairSend_encoded :
    (pairSend crates req payload identity buildHash frameCapacity ephSecret nonce).tx.beaconBytes =
      (pairSend crates req payload identity buildHash frameCapacity ephSecret
        nonce).tx.beacon.encode crates := rfl

theorem pairSend_sessionId :
    (pairSend crates req payload identity buildHash frameCapacity ephSecret
      nonce).tx.beacon.sessionId = req.sessionId := rfl

theorem pairSend_sEphPub :
    (pairSend crates req payload identity buildHash frameCapacity ephSecret
      nonce).tx.beacon.sEphPub = (KeyPair.fromBytes crates ephSecret).publicKey := rfl

end Sent

theorem reply_encoded (req : PairReq) (payload : Bytes) (identity : Option (KeyPair crates))
    (buildHash : Bytes) (frameCapacity : Nat) (ephSecret : Octets 32) (nonce : Octets 24) :
    reply crates (req.encode crates) payload identity none buildHash frameCapacity ephSecret nonce =
      some (.ok (pairSend crates req payload identity buildHash frameCapacity ephSecret nonce)) := by
  have mode : replyMode identity none = .pair := by cases identity <;> rfl
  unfold reply
  simp only [PairReq.decode_encode, peerKey, mode, deriveForMode]
  rfl

section Replied

variable {pairReq payload : Bytes} {identity : Option (KeyPair crates)} {peerIdentity : Option Bytes}
  {buildHash : Bytes} {frameCapacity : Nat} {ephSecret : Octets 32} {nonce : Octets 24} {send : Send}

theorem reply_cases (replied : reply crates pairReq payload identity peerIdentity buildHash
      frameCapacity ephSecret nonce = some (.ok send)) :
    ∃ req, PairReq.decode crates pairReq = .ok req ∧
      (send = pairSend crates req payload identity buildHash frameCapacity ephSecret nonce ∨
        (identity ≠ none ∧ peerIdentity ≠ none ∧ send.pending = none ∧
          send.tx.beacon.mode = .session ∧ send.tx.beaconBytes = send.tx.beacon.encode crates)) := by
  unfold reply at replied
  split at replied
  · simp at replied
  · simp at replied
  · rename_i req decoded
    refine ⟨req, decoded, ?_⟩
    split at replied
    · simp at replied
    · rename_i peerId accepted
      cases mode : replyMode identity peerId with
      | pair =>
          simp only [mode, deriveForMode, Option.some_inj] at replied
          exact .inl (Except.ok.inj replied).symm
      | session =>
          right
          have identified : identity ≠ none ∧ peerId ≠ none := by
            unfold replyMode at mode
            split at mode
            · simp
            · simp at mode
          have addressed : peerIdentity ≠ none := by
            rintro rfl
            exact identified.2 (Except.ok.inj accepted).symm
          simp only [mode] at replied
          split at replied
          · simp at replied
          · obtain rfl := Except.ok.inj (Option.some_inj.mp replied)
            exact ⟨identified.1, addressed, rfl, rfl, rfl⟩
      | «seal» => unfold replyMode at mode; split at mode <;> simp at mode
      | «open» => unfold replyMode at mode; split at mode <;> simp at mode

theorem reply_pair (paired : identity = none ∨ peerIdentity = none)
    (replied : reply crates pairReq payload identity peerIdentity buildHash frameCapacity ephSecret
      nonce = some (.ok send)) :
    ∃ req, PairReq.decode crates pairReq = .ok req ∧
      send = pairSend crates req payload identity buildHash frameCapacity ephSecret nonce := by
  obtain ⟨req, decoded, shape | ⟨identified, addressed, -⟩⟩ := reply_cases replied
  · exact ⟨req, decoded, shape⟩
  · exact (paired.elim identified addressed).elim

end Replied

/-! The kinds of step a sender takes. -/

inductive Steps (crates : Crates) (send : Send) : Op → Answer → Send → Prop
  | frame (capacity) : Steps crates send (.nextFrame capacity)
      (.frame (send.nextFrame crates capacity).1) (send.nextFrame crates capacity).2
  | rejected (frame msg) : Steps crates send (.acceptReveal frame) (.digits (.error msg)) send
  | accepted (frame p rv) : send.pending = some p → Reveal.decode crates frame = .ok rv →
      rv.sid4 = sid4 p.sessionId → commit crates p.sessionId p.rEphPub rv.rNonce = p.rCommit →
      Steps crates send (.acceptReveal frame)
        (.digits (.ok (Crypto.sas crates p.sessionId p.rEphPub p.sEphPub rv.rNonce)))
        { send with sas := some (Crypto.sas crates p.sessionId p.rEphPub p.sEphPub rv.rNonce) }
  | refused (msg) : send.pending.isSome → send.sas = none →
      Steps crates send .release (.released (.error msg)) send
  | released : (send.pending.isSome → send.sas ≠ none) →
      Steps crates send .release (.released (.ok ())) { send with tx := send.tx.release }

theorem acceptReveal_cases {send next : Send} {frame : Bytes} {result : Except String String}
    (accepted : send.acceptReveal crates frame = some (result, next)) :
    Steps crates send (.acceptReveal frame) (.digits result) next := by
  unfold acceptReveal at accepted
  split at accepted
  · obtain ⟨rfl, rfl⟩ := Prod.mk.inj (Option.some_inj.mp accepted)
    exact .rejected frame _
  · rename_i p kept
    split at accepted
    · simp at accepted
    · obtain ⟨rfl, rfl⟩ := Prod.mk.inj (Option.some_inj.mp accepted)
      exact .rejected frame _
    · rename_i rv decoded
      split at accepted
      · obtain ⟨rfl, rfl⟩ := Prod.mk.inj (Option.some_inj.mp accepted)
        exact .rejected frame _
      · rename_i session
        split at accepted
        · obtain ⟨rfl, rfl⟩ := Prod.mk.inj (Option.some_inj.mp accepted)
          exact .rejected frame _
        · rename_i verified
          have opened : verifyCommit crates p.sessionId p.rEphPub rv.rNonce p.rCommit = true := by
            simpa using verified
          obtain ⟨rfl, rfl⟩ := Prod.mk.inj (Option.some_inj.mp accepted)
          exact .accepted frame p rv kept decoded (not_not.mp session) ((verifyCommit_iff _ _ _ _).mp opened)

theorem step_cases {send next : Send} {op : Op} {answer : Answer}
    (stepped : send.step crates op = some (answer, next)) : Steps crates send op answer next := by
  cases op with
  | nextFrame capacity =>
      obtain ⟨rfl, rfl⟩ := Prod.mk.inj (Option.some_inj.mp stepped)
      exact .frame capacity
  | acceptReveal frame =>
      obtain ⟨⟨result, after⟩, accepted, same⟩ := Option.map_eq_some_iff.mp stepped
      obtain ⟨rfl, rfl⟩ := Prod.mk.inj same
      exact acceptReveal_cases accepted
  | release =>
      by_cases early : send.pending.isSome ∧ send.sas.isNone
      · have shape : send.release = (.error "cannot release before the SAS is confirmed", send) :=
          if_pos early
        rw [step, shape] at stepped
        obtain ⟨rfl, rfl⟩ := Prod.mk.inj (Option.some_inj.mp stepped)
        exact .refused _ early.1 (Option.isNone_iff_eq_none.mp early.2)
      · have shape : send.release = (.ok (), { send with tx := send.tx.release }) := if_neg early
        rw [step, shape] at stepped
        obtain ⟨rfl, rfl⟩ := Prod.mk.inj (Option.some_inj.mp stepped)
        refine .released fun pending unconfirmed => early ⟨pending, ?_⟩
        rw [unconfirmed]
        rfl

/-! A frame call only steps the transmitter. -/

theorem nextFrame_tx (send : Send) (capacity : Nat) :
    (send.nextFrame crates capacity).2 =
      { send with tx := (send.tx.nextFrameAt crates capacity).2 } := by
  unfold nextFrame
  split
  · rename_i emitted
    rw [emitted]
  · rename_i emitted
    rw [emitted]

theorem nextFrame_held (send : Send) (capacity : Nat) (held : send.tx.held = true) :
    send.nextFrame crates capacity = ({ robust := true, bytes := send.tx.beaconBytes },
      { send with tx := { send.tx with frameId := send.tx.frameId + 1 } }) := by
  unfold nextFrame Transmitter.nextFrameAt
  rw [Transmitter.nextFramePacked_held _ _ held]

theorem run_pending {send now : Send} {past : List (Op × Answer)}
    (run : Machine.Run (Send.step crates) send past now) : now.pending = send.pending := by
  refine run.invariant (fun now => now.pending = send.pending) ?_ rfl
  intro before op answer after same stepped
  cases step_cases stepped with
  | frame capacity =>
      rw [nextFrame_tx]
      exact same
  | rejected frame msg => exact same
  | accepted frame p rv pending decoded session opened => exact same
  | refused msg pending unconfirmed => exact same
  | released allowed => exact same

/-! What happened in a run. -/

def Accepted (crates : Crates) (req : PairReq) (past : List (Op × Answer)) : Prop :=
  ∃ before frame digits after, past =
    before ++ (.acceptReveal frame, .digits (.ok digits)) :: after ∧ Opens crates req frame

def OpenedThenReleased (crates : Crates) (req : PairReq) (past : List (Op × Answer)) : Prop :=
  ∃ before frame digits between after, past =
    before ++ (.acceptReveal frame, .digits (.ok digits)) ::
      (between ++ (.release, .released (.ok ())) :: after) ∧ Opens crates req frame

theorem Accepted.snoc {req : PairReq} {past : List (Op × Answer)} (event : Op × Answer)
    (accepted : Accepted crates req past) : Accepted crates req (past ++ [event]) := by
  obtain ⟨before, frame, digits, after, rfl, opens⟩ := accepted
  exact ⟨before, frame, digits, after ++ [event], by simp, opens⟩

theorem frames_snoc {P : FrameOut → Prop} {past : List (Op × Answer)} {op : Op} {answer : Answer}
    (held : ∀ op out, (op, .frame out) ∈ past → P out) (now : ∀ out, answer = .frame out → P out) :
    ∀ op' out, (op', .frame out) ∈ past ++ [(op, answer)] → P out := by
  intro op' out member
  rcases List.mem_append.mp member with earlier | last
  · exact held op' out earlier
  · exact now out (congrArg Prod.snd (List.mem_singleton.mp last)).symm

theorem OpenedThenReleased.snoc {req : PairReq} {past : List (Op × Answer)} (event : Op × Answer)
    (opened : OpenedThenReleased crates req past) :
    OpenedThenReleased crates req (past ++ [event]) := by
  obtain ⟨before, frame, digits, between, after, rfl, opens⟩ := opened
  exact ⟨before, frame, digits, between, after ++ [event], by simp, opens⟩

/-- The state of a PAIR session: the request it answered is kept, digits are there only after a
reveal was accepted, and the payload is held until a release after that. -/
structure Withheld (crates : Crates) (req : PairReq) (eph : KeyPair crates) (start : Send)
    (past : List (Op × Answer)) (now : Send) : Prop where
  pending : now.pending = some (kept req eph)
  object : Transmitter.SameObject start.tx now.tx
  interval : now.tx.beaconInterval = start.tx.beaconInterval
  confirmed : now.sas ≠ none → Accepted crates req past
  shut : OpenedThenReleased crates req past ∨ (now.tx.held = true ∧
    now.tx.cursor.val = start.tx.cursor.val ∧
    ∀ op out, (op, .frame out) ∈ past → out = { robust := true, bytes := start.tx.beaconBytes })

theorem Withheld.step {req : PairReq} {eph : KeyPair crates} {start before after : Send}
    {past : List (Op × Answer)} {op : Op} {answer : Answer}
    (withheld : Withheld crates req eph start past before)
    (stepped : before.step crates op = some (answer, after)) :
    Withheld crates req eph start (past ++ [(op, answer)]) after := by
  -- A call that answers with no frame leaves the payload as shut as it was.
  have quiet : (∀ out, answer ≠ .frame out) → OpenedThenReleased crates req (past ++ [(op, answer)]) ∨
      before.tx.held = true ∧ before.tx.cursor.val = start.tx.cursor.val ∧
        ∀ op' out, (op', .frame out) ∈ past ++ [(op, answer)] →
          out = { robust := true, bytes := start.tx.beaconBytes } := by
    intro silent
    rcases withheld.shut with opened | ⟨held, cursor, beacons⟩
    · exact .inl (opened.snoc _)
    · exact .inr ⟨held, cursor, frames_snoc beacons fun out same => absurd same (silent out)⟩
  cases step_cases stepped with
  | frame capacity =>
      have same := Transmitter.nextFramePacked_same crates before.tx
        (Transmitter.packetsAt capacity before.tx.packetLen)
      have flags := Transmitter.nextFramePacked_flags crates before.tx
        (Transmitter.packetsAt capacity before.tx.packetLen)
      rw [nextFrame_tx]
      refine ⟨withheld.pending, withheld.object.trans same, flags.2.2.trans withheld.interval,
        fun digits => (withheld.confirmed digits).snoc _, ?_⟩
      rcases withheld.shut with opened | ⟨held, cursor, beacons⟩
      · exact .inl (opened.snoc _)
      · refine .inr ⟨flags.1.trans held, ?_, frames_snoc beacons ?_⟩
        · rw [Transmitter.nextFrameAt, Transmitter.nextFramePacked_held _ _ held]
          exact cursor
        · rw [nextFrame_held before capacity held]
          rintro out ⟨rfl⟩
          rw [withheld.object.beaconBytes]
  | rejected frame msg =>
      exact ⟨withheld.pending, withheld.object, withheld.interval,
        fun digits => (withheld.confirmed digits).snoc _, quiet (by simp)⟩
  | accepted frame p rv pending decoded session opened =>
      obtain rfl : kept req eph = p := Option.some_inj.mp (withheld.pending.symm.trans pending)
      exact ⟨withheld.pending, withheld.object, withheld.interval,
        fun _ => ⟨past, frame, _, [], rfl, rv, decoded, session, opened⟩, quiet (by simp)⟩
  | refused msg pending unconfirmed =>
      exact ⟨withheld.pending, withheld.object, withheld.interval,
        fun digits => (withheld.confirmed digits).snoc _, quiet (by simp)⟩
  | released allowed =>
      have digits := allowed (by rw [withheld.pending]; rfl)
      obtain ⟨before, frame, shown, after, rfl, opens⟩ := withheld.confirmed digits
      refine ⟨withheld.pending, withheld.object.trans ⟨rfl, rfl, rfl, rfl, rfl⟩, withheld.interval,
        fun digits => (withheld.confirmed digits).snoc _, .inl ?_⟩
      exact ⟨before, frame, shown, after, [], by simp, opens⟩

theorem run_withheld {req : PairReq} {payload : Bytes} {identity : Option (KeyPair crates)}
    {buildHash : Bytes} {frameCapacity : Nat} {ephSecret : Octets 32} {nonce : Octets 24} {final : Send}
    {trace : List (Op × Answer)}
    (run : Machine.Run (Send.step crates)
      (pairSend crates req payload identity buildHash frameCapacity ephSecret nonce) trace final) :
    Withheld crates req (KeyPair.fromBytes crates ephSecret)
      (pairSend crates req payload identity buildHash frameCapacity ephSecret nonce) trace final := by
  refine run.history (Withheld crates req _ _) (fun _ _ _ _ _ withheld => withheld.step) ?_
  exact ⟨rfl, .refl _, rfl, fun digits => absurd rfl digits, .inr ⟨rfl, rfl, by simp⟩⟩

/-- A symbol frame goes out only after a reveal opened the commitment of the scanned request and a
release followed it; until then every frame is the beacon and the packet cursor has not moved. -/
theorem payload_withheld {pairReq payload : Bytes} {identity : Option (KeyPair crates)}
    {peerIdentity : Option Bytes} {buildHash : Bytes} {frameCapacity : Nat} {ephSecret : Octets 32}
    {nonce : Octets 24} {send final : Send} {trace : List (Op × Answer)}
    (paired : identity = none ∨ peerIdentity = none)
    (replied : reply crates pairReq payload identity peerIdentity buildHash frameCapacity ephSecret
      nonce = some (.ok send))
    (run : Machine.Run (Send.step crates) send trace final) :
    ∃ req, PairReq.decode crates pairReq = .ok req ∧
      (∀ front op out back, trace = front ++ (op, .frame out) :: back → out.robust = false →
        OpenedThenReleased crates req front) ∧
      (¬OpenedThenReleased crates req trace →
        (∀ op out, (op, .frame out) ∈ trace → out = { robust := true, bytes := send.tx.beaconBytes }) ∧
          final.tx.cursor.val = send.tx.cursor.val) := by
  obtain ⟨req, decoded, rfl⟩ := reply_pair paired replied
  refine ⟨req, decoded, ?_, fun unopened => ?_⟩
  · rintro front op out back rfl symbol
    obtain ⟨before, after, first, stepped, -⟩ := run.event
    rcases (run_withheld first).shut with opened | ⟨held, -, -⟩
    · exact opened
    · cases step_cases stepped with
      | frame capacity =>
          rw [nextFrame_held before capacity held] at symbol
          simp at symbol
  · obtain ⟨-, cursor, beacons⟩ := (run_withheld run).shut.resolve_left unopened
    exact ⟨beacons, cursor⟩

/-! The sample session, from the request to the first symbol frame. -/

def sampleSend : Send :=
  pairSend Crates.sample sampleSession.request samplePlaintext none [] 100 (Octets.replicate 32 8)
    sampleNonce

theorem sample_replied : sampleReply = some (.ok sampleSend) :=
  reply_encoded sampleSession.request samplePlaintext none [] 100 _ sampleNonce

def Answer.robust : Answer → Option Bool
  | .frame out => some out.robust
  | _ => none

set_option maxRecDepth 100000 in
theorem payload_released :
    ∃ trace final, Machine.Run (Send.step Crates.sample) sampleSend trace final ∧
      trace.map (fun event => event.2.robust) =
        [some true, none, some true, none, none, some false] ∧
      ∃ req, PairReq.decode Crates.sample sampleSession.pairReq = .ok req ∧
        (∀ front op out back, trace = front ++ (op, .frame out) :: back → out.robust = false →
          OpenedThenReleased Crates.sample req front) ∧
        (¬OpenedThenReleased Crates.sample req trace →
          (∀ op out, (op, .frame out) ∈ trace →
            out = { robust := true, bytes := sampleSend.tx.beaconBytes }) ∧
          final.tx.cursor.val = sampleSend.tx.cursor.val) := by
  obtain ⟨trace, final, run, -, views⟩ := Machine.run_of_view (Send.step Crates.sample) sampleSend
    [.nextFrame 100, .release, .nextFrame 100, .acceptReveal sampleSession.reveal, .release,
      .nextFrame 100] Answer.robust
    [some true, none, some true, none, none, some false] (by decide +kernel)
  exact ⟨trace, final, run, views, payload_withheld (.inl rfl) sample_replied run⟩

/-! What a mismatch leaves behind: nothing, so the payload stays out of reach exactly as long as no
reveal opens the commitment. -/

def NoSymbol (past : List (Op × Answer)) : Prop :=
  ∀ op out, (op, .frame out) ∈ past → out.robust = true

theorem step_acceptReveal {send next : Send} {frame : Bytes} {result : Except String String}
    (accepted : send.acceptReveal crates frame = some (result, next)) :
    send.step crates (.acceptReveal frame) = some (.digits result, next) := by
  simp [step, accepted]

theorem acceptReveal_mismatch {send : Send} {req : PairReq} {eph : KeyPair crates} {frame : Bytes}
    (pending : send.pending = some (kept req eph)) (mismatch : Mismatches crates req frame) :
    send.acceptReveal crates frame = some (.error commitmentMismatch, send) := by
  obtain ⟨rv, decoded, session, wrong⟩ := mismatch
  have refused : verifyCommit crates req.sessionId req.rEphPub rv.rNonce req.rCommit = false := by
    rw [← Bool.not_eq_true, verifyCommit_iff]
    exact wrong
  simp [acceptReveal, pending, decoded, kept, session, refused]

theorem acceptReveal_opens {send : Send} {req : PairReq} {eph : KeyPair crates} {rNonce : Octets 16}
    (pending : send.pending = some (kept req eph))
    (opens : commit crates req.sessionId req.rEphPub rNonce = req.rCommit) :
    send.acceptReveal crates (Reveal.encode crates { sid4 := sid4 req.sessionId, rNonce }) =
      some (.ok (Crypto.sas crates req.sessionId req.rEphPub eph.publicKey rNonce),
        { send with sas := some (Crypto.sas crates req.sessionId req.rEphPub eph.publicKey rNonce) }) := by
  have verified : verifyCommit crates req.sessionId req.rEphPub rNonce req.rCommit = true :=
    (verifyCommit_iff _ _ _ _).mpr opens
  simp [acceptReveal, pending, Reveal.decode_encode, kept, verified]

theorem run_silent {req : PairReq} {eph : KeyPair crates} {now final : Send}
    {trace : List (Op × Answer)} (pending : now.pending = some (kept req eph))
    (unconfirmed : now.sas = none) (held : now.tx.held = true)
    (run : Machine.Run (Send.step crates) now trace final)
    (closed : ∀ frame, .acceptReveal frame ∈ trace.map Prod.fst → ¬Opens crates req frame) :
    NoSymbol trace := by
  have shut : final.pending = some (kept req eph) ∧ final.sas = none ∧ final.tx.held = true ∧
      NoSymbol trace := by
    refine run.history (fun past now =>
      (∀ frame, .acceptReveal frame ∈ past.map Prod.fst → ¬Opens crates req frame) →
        now.pending = some (kept req eph) ∧ now.sas = none ∧ now.tx.held = true ∧ NoSymbol past)
      ?_ (fun _ => ⟨pending, unconfirmed, held, by simp [NoSymbol]⟩) closed
    intro past before op answer after earlier stepped closed
    obtain ⟨pending, unconfirmed, held, silent⟩ :=
      earlier fun frame member => closed frame (by simp_all)
    cases step_cases stepped with
    | frame capacity =>
        rw [nextFrame_held before capacity held]
        exact ⟨pending, unconfirmed, held, frames_snoc silent (by rintro out ⟨rfl⟩; rfl)⟩
    | rejected frame msg => exact ⟨pending, unconfirmed, held, frames_snoc silent (by simp)⟩
    | accepted frame p rv pending' decoded session opened =>
        obtain rfl : kept req eph = p := Option.some_inj.mp (pending.symm.trans pending')
        exact absurd ⟨rv, decoded, session, opened⟩ (closed frame (by simp))
    | refused msg pending' unconfirmed' =>
        exact ⟨pending, unconfirmed, held, frames_snoc silent (by simp)⟩
    | released allowed =>
        exact absurd unconfirmed (allowed (by rw [pending]; rfl))
  exact shut.2.2.2

/-! From some states a symbol can be reached. -/

def Leaks (crates : Crates) (send : Send) : Prop :=
  ∃ trace final, Machine.Run (Send.step crates) send trace final ∧ ¬NoSymbol trace

theorem Leaks.after {send next : Send} {op : Op} {answer : Answer}
    (stepped : send.step crates op = some (answer, next)) (leaks : Leaks crates next) :
    Leaks crates send := by
  obtain ⟨trace, final, run, symbol⟩ := leaks
  refine ⟨(op, answer) :: trace, final, .cons stepped run, fun silent => symbol ?_⟩
  exact fun op out member => silent op out (List.mem_cons_of_mem _ member)

theorem nextFrame_symbol {send : Send} (released : send.tx.held = false)
    (early : send.tx.frameId % send.tx.beaconInterval ≠ 0) (capacity : Nat) :
    (send.nextFrame crates capacity).1.robust = false := by
  unfold nextFrame Transmitter.nextFrameAt
  rw [Transmitter.nextFramePacked_open _ _ released early]

theorem leaks_early {send : Send} (released : send.tx.held = false)
    (early : send.tx.frameId % send.tx.beaconInterval ≠ 0) : Leaks crates send := by
  have stepped : send.step crates (.nextFrame 0) =
      some (.frame (send.nextFrame crates 0).1, (send.nextFrame crates 0).2) := rfl
  refine ⟨_, _, .cons stepped (.nil _), fun silent => ?_⟩
  have robust := silent _ _ (List.mem_singleton.mpr rfl)
  rw [nextFrame_symbol released early] at robust
  simp at robust

def counted (send : Send) : Send :=
  { send with tx := { send.tx with frameId := send.tx.frameId + 1 } }

theorem leaks_due {send : Send} (due : send.tx.frameId % send.tx.beaconInterval = 0)
    (leaks : Leaks crates send.counted) : Leaks crates send := by
  have stepped : send.step crates (.nextFrame 0) =
      some (.frame { robust := true, bytes := send.tx.beaconBytes }, send.counted) := by
    simp [step, nextFrame, counted, Transmitter.nextFrameAt, Transmitter.nextFramePacked_due _ _ due]
  exact leaks.after stepped

theorem multiple_iff (id : UInt32) : id % 15 = 0 ↔ id.toNat % 15 = 0 := by
  rw [← UInt32.toNat_inj, UInt32.toNat_mod]
  rfl

theorem toNat_succ (id : UInt32) :
    (id + 1).toNat = if id.toNat + 1 = 2 ^ 32 then 0 else id.toNat + 1 := by
  have bound := id.toNat_lt
  rw [UInt32.toNat_add, UInt32.toNat_one]
  split <;> omega

/-- The last count and the first are both multiples of 15, and nothing else comes as close. -/
theorem three_counts {id : UInt32} (first : id % 15 = 0) (second : (id + 1) % 15 = 0) :
    (id + 1 + 1) % 15 ≠ 0 := by
  rw [multiple_iff] at first second
  rw [Ne, multiple_iff]
  rw [toNat_succ] at second
  have wrapped : id.toNat + 1 = 2 ^ 32 := by
    by_contra inside
    rw [if_neg inside] at second
    omega
  rw [toNat_succ, toNat_succ, if_pos wrapped]
  decide

theorem leaks_released {send : Send} (released : send.tx.held = false)
    (interval : send.tx.beaconInterval = 15) : Leaks crates send := by
  have turn : ∀ now : Send, now.tx.held = false → now.tx.beaconInterval = 15 →
      (now.tx.frameId % 15 = 0 → Leaks crates now.counted) → Leaks crates now := by
    intro now released interval later
    by_cases due : now.tx.frameId % 15 = 0
    · exact leaks_due (by rw [interval, due]) (later due)
    · exact leaks_early released (by rw [interval]; exact due)
  refine turn send released interval fun first => ?_
  refine turn send.counted released interval fun second => ?_
  refine turn send.counted.counted released interval fun third => ?_
  exact absurd third (three_counts first second)

theorem leaks_confirmed {send : Send} (confirmed : send.sas ≠ none)
    (interval : send.tx.beaconInterval = 15) : Leaks crates send := by
  have stepped : send.step crates .release =
      some (.released (.ok ()), { send with tx := send.tx.release }) := by
    simp [step, release, confirmed]
  exact Leaks.after stepped (leaks_released rfl interval)

/-- After a mismatch the payload stays shut as long as no digits were shown before and no reveal
opens the commitment; that holds of everything that can follow exactly when no nonce opens it. -/
theorem mismatch_aborts_iff {pairReq payload : Bytes} {identity : Option (KeyPair crates)}
    {peerIdentity : Option Bytes} {buildHash : Bytes} {frameCapacity : Nat} {ephSecret : Octets 32}
    {nonce : Octets 24} {send now : Send} {past : List (Op × Answer)} {req : PairReq} {frame : Bytes}
    (paired : identity = none ∨ peerIdentity = none)
    (replied : reply crates pairReq payload identity peerIdentity buildHash frameCapacity ephSecret
      nonce = some (.ok send))
    (run : Machine.Run (Send.step crates) send past now) (held : now.tx.held = true)
    (scanned : PairReq.decode crates pairReq = .ok req) (mismatch : Mismatches crates req frame) :
    (∀ answer trace final,
        Machine.Run (Send.step crates) now ((.acceptReveal frame, answer) :: trace) final →
        now.sas = none → (∀ other, .acceptReveal other ∈ trace.map Prod.fst → ¬Opens crates req other) →
        NoSymbol trace) ∧
      ((∀ answer trace final,
          Machine.Run (Send.step crates) now ((.acceptReveal frame, answer) :: trace) final →
          NoSymbol trace) ↔
        now.sas = none ∧
          ∀ rNonce, commit crates req.sessionId req.rEphPub rNonce ≠ req.rCommit) := by
  obtain ⟨req', scanned', rfl⟩ := reply_pair paired replied
  obtain rfl : req = req' := Except.ok.inj (scanned.symm.trans scanned')
  have withheld := run_withheld run
  have refused := step_acceptReveal (acceptReveal_mismatch withheld.pending mismatch)
  have shut : ∀ answer trace final,
      Machine.Run (Send.step crates) now ((.acceptReveal frame, answer) :: trace) final →
      now.sas = none → (∀ other, .acceptReveal other ∈ trace.map Prod.fst → ¬Opens crates req other) →
      NoSymbol trace := by
    intro answer trace final run unconfirmed closed
    cases run with
    | cons stepped rest =>
        obtain ⟨-, rfl⟩ := Prod.mk.inj (Option.some_inj.mp (refused.symm.trans stepped))
        exact run_silent withheld.pending unconfirmed held rest closed
  have leak : Leaks crates now → ¬∀ answer trace final,
      Machine.Run (Send.step crates) now ((.acceptReveal frame, answer) :: trace) final →
      NoSymbol trace := by
    rintro ⟨trace, final, run, symbol⟩ silent
    exact symbol (silent _ trace final (.cons refused run))
  refine ⟨shut, fun silent => ⟨?_, fun rNonce opens => ?_⟩, ?_⟩
  · by_contra confirmed
    exact leak (leaks_confirmed confirmed withheld.interval) silent
  · have accepted := acceptReveal_opens withheld.pending opens
    exact leak (Leaks.after (step_acceptReveal accepted) (leaks_confirmed (by simp) withheld.interval)) silent
  · rintro ⟨unconfirmed, unopened⟩ answer trace final run
    refine shut answer trace final run unconfirmed fun other _ => ?_
    rintro ⟨rv, -, -, opens⟩
    exact unopened rv.rNonce opens

def wrongReveal : Bytes :=
  Reveal.encode Crates.sample
    { sid4 := sid4 sampleSession.sessionId, rNonce := Octets.replicate 16 7 }

theorem wrongReveal_mismatches : Mismatches Crates.sample sampleSession.request wrongReveal :=
  ⟨{ sid4 := sid4 sampleSession.sessionId, rNonce := Octets.replicate 16 7 },
    Reveal.decode_encode _ _, rfl, by decide +kernel⟩

theorem mismatch_aborts_sample :
    (∀ answer trace final,
        Machine.Run (Send.step Crates.sample) sampleSend
          ((.acceptReveal wrongReveal, answer) :: trace) final →
        sampleSend.sas = none → (∀ other, .acceptReveal other ∈ trace.map Prod.fst →
          ¬Opens Crates.sample sampleSession.request other) → NoSymbol trace) ∧
      ((∀ answer trace final,
          Machine.Run (Send.step Crates.sample) sampleSend
            ((.acceptReveal wrongReveal, answer) :: trace) final → NoSymbol trace) ↔
        sampleSend.sas = none ∧ ∀ rNonce, commit Crates.sample sampleSession.request.sessionId
          sampleSession.request.rEphPub rNonce ≠ sampleSession.request.rCommit) :=
  mismatch_aborts_iff (.inl rfl) sample_replied (.nil _) rfl (PairReq.decode_encode _ _)
    wrongReveal_mismatches

set_option maxRecDepth 100000 in
/-- The right reveal is still taken after the wrong one, and the payload goes out. -/
theorem mismatch_retried :
    sampleReply = some (.ok sampleSend) ∧ sampleSend.tx.held = true ∧
      PairReq.decode Crates.sample sampleSession.pairReq = .ok sampleSession.request ∧
      Mismatches Crates.sample sampleSession.request wrongReveal ∧
      ¬∀ answer trace final,
        Machine.Run (Send.step Crates.sample) sampleSend
          ((.acceptReveal wrongReveal, answer) :: trace) final → NoSymbol trace := by
  refine ⟨sample_replied, rfl, PairReq.decode_encode _ _, wrongReveal_mismatches, fun silent => ?_⟩
  obtain ⟨trace, final, run, inputs, views⟩ := Machine.run_of_view (Send.step Crates.sample) sampleSend
    [.acceptReveal wrongReveal, .acceptReveal sampleSession.reveal, .release, .nextFrame 100,
      .nextFrame 100] Answer.robust
    [none, none, none, some true, some false] (by decide +kernel)
  cases run with
  | nil => simp at inputs
  | cons stepped rest =>
      rename_i answer next trace
      simp only [List.map_cons, List.cons.injEq] at inputs views
      obtain ⟨rfl, inputs⟩ := inputs
      have quiet := silent _ _ final (.cons stepped rest)
      have last : some false ∈ trace.map fun event => event.2.robust := by
        rw [views.2]
        decide
      obtain ⟨⟨op, answer⟩, member, symbol⟩ := List.mem_map.mp last
      cases answer with
      | frame out => simp [Answer.robust, quiet op out member] at symbol
      | digits result => simp [Answer.robust] at symbol
      | released result => simp [Answer.robust] at symbol

end Send

end Rabaska.Wasm
