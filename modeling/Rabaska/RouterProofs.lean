import Rabaska.ForeignProofs
import Rabaska.RouterCore
import Rabaska.ShellProofs

/-! The shell against the core: it takes a code for a frame by one byte of it, and is right about those
codes that are whole frames or have another byte there. -/

namespace Rabaska

namespace Wire

open Call Pipeline

variable (crates : Crates) {bytes : Bytes}

/-! What the three decoders accept that the shell has codes for. -/

def frameLen (ty : UInt8) : Nat :=
  if ty = FrameType.pairReq then pairReqLen
  else if ty = FrameType.reveal then revealLen
  else completeLen

structure Whole (bytes : Bytes) (ty : UInt8) : Prop where
  sized : bytes.length = frameLen ty
  sealing : ∃ body, bytes = sealCrc crates (commonHeader ty ++ body)

def Scanned (ty : UInt8) : Prop :=
  ty = FrameType.pairReq ∨ ty = FrameType.reveal ∨ ty = FrameType.complete

theorem accepts_iff_whole {ty : UInt8} (scanned : Scanned ty) :
    Accepts crates bytes ty ↔ Whole crates bytes ty := by
  constructor
  · intro accepts
    cases accepts with
    | pairReq req decoded =>
        obtain ⟨body, rfl, sized⟩ := PairReq.decode_framed crates decoded
        exact ⟨by rw [length_framed, sized]; rfl, body, rfl⟩
    | reveal reveal decoded =>
        obtain ⟨body, rfl, sized⟩ := Reveal.decode_framed crates decoded
        exact ⟨by rw [length_framed, sized]; rfl, body, rfl⟩
    | complete complete decoded =>
        obtain ⟨body, rfl, sized⟩ := Complete.decode_framed crates decoded
        exact ⟨by rw [length_framed, sized]; rfl, body, rfl⟩
    | beacon => simp [Scanned, FrameType.beacon, FrameType.pairReq, FrameType.reveal,
        FrameType.complete] at scanned
    | symbol => simp [Scanned, FrameType.symbol, FrameType.pairReq, FrameType.reveal,
        FrameType.complete] at scanned
  · rintro ⟨sized, body, rfl⟩
    rw [← framed, length_framed] at sized
    rw [← framed]
    rcases scanned with rfl | rfl | rfl
    · obtain ⟨req, same⟩ := PairReq.layout crates
        (show body.length = 61 from Nat.add_right_cancel (m := 8) sized)
      exact .pairReq req (same ▸ req.decode_encode crates)
    · obtain ⟨reveal, same⟩ := Reveal.layout crates
        (show body.length = 20 from Nat.add_right_cancel (m := 8) sized)
      exact .reveal reveal (same ▸ reveal.decode_encode crates)
    · obtain ⟨byte, complete, -, decoded, -⟩ := Complete.decode_body crates
        (show body.length = 13 from Nat.add_right_cancel (m := 8) sized)
      exact .complete complete decoded

/-! A frame that is not read is refused with an error of framing. -/

abbrev Frames {α : Type} (outcome : Outcome Error α) : Prop :=
  FailsWith (fun error => error.ofFrame = true) outcome

theorem openFrame_frames (bytes : Bytes) (ty : UInt8) (wantLen : Option Nat) :
    Frames (openFrame crates bytes ty wantLen) := by
  have room : Frames (checkLen wantLen bytes.length) := by
    cases wantLen with
    | none => exact failsWith_ensure rfl
    | some n => exact failsWith_ensure rfl
  exact room.bind fun _ => (failsWith_slice _ _ _).bind fun _ => (failsWith_ensure (by rfl)).bind fun _ =>
    (failsWith_index _ _).bind fun _ => (failsWith_ensure (by rfl)).bind fun _ =>
    (failsWith_index _ _).bind fun _ => (failsWith_ensure (by rfl)).bind fun _ =>
    (failsWith_sub _ _).bind fun _ => (failsWith_slice _ _ _).bind fun _ =>
    (Octets.failsWith_sliceAt _ _ _ _).bind fun _ => (failsWith_ensure (by rfl)).bind fun _ =>
    failsWith_slice _ _ _

theorem Mode.fromU8_frames (v : UInt8) : Frames (Mode.fromU8 v) := by
  unfold Mode.fromU8
  split_ifs
  · exact failsWith_ok _
  · exact failsWith_ok _
  · exact failsWith_ok _
  · exact failsWith_ok _
  · exact failsWith_fail rfl

theorem peekType_frames (bytes : Bytes) : Frames (peekType bytes) :=
  (failsWith_ensure (by rfl)).bind fun _ => (failsWith_slice _ _ _).bind fun _ =>
    (failsWith_ensure (by rfl)).bind fun _ => (failsWith_index _ _).bind fun _ =>
    (failsWith_ensure (by rfl)).bind fun _ => failsWith_index _ _

theorem Beacon.decode_frames (bytes : Bytes) : Frames (Beacon.decode crates bytes) :=
  (openFrame_frames crates bytes _ _).bind fun _ => (failsWith_index _ _).bind fun _ =>
    (Mode.fromU8_frames _).bind fun _ => (failsWith_index _ _).bind fun _ =>
    (Octets.failsWith_sliceAt _ _ _ _).bind fun _ => (Octets.failsWith_sliceAt _ _ _ _).bind fun _ =>
    (Octets.failsWith_sliceAt _ _ _ _).bind fun _ => (Octets.failsWith_sliceAt _ _ _ _).bind fun _ =>
    (Octets.failsWith_sliceAt _ _ _ _).bind fun _ => (Octets.failsWith_sliceAt _ _ _ _).bind fun _ =>
    (failsWith_index _ _).bind fun _ => (failsWith_index _ _).bind fun _ =>
    (Octets.failsWith_sliceAt _ _ _ _).bind fun _ => failsWith_ok _

theorem SymbolFrame.decode_frames (bytes : Bytes) : Frames (SymbolFrame.decode crates bytes) :=
  (failsWith_ensure (by rfl)).bind fun _ => (openFrame_frames crates bytes _ _).bind fun _ =>
    (Octets.failsWith_sliceAt _ _ _ _).bind fun _ => (Octets.failsWith_sliceAt _ _ _ _).bind fun _ =>
    (failsWith_index _ _).bind fun _ => (Octets.failsWith_sliceAt _ _ _ _).bind fun _ =>
    (failsWith_ensure (by rfl)).bind fun _ => (failsWith_slice _ _ _).bind fun _ =>
    (failsWith_chunksExact _ _).bind fun _ => failsWith_ok _

theorem read_frames (bytes : Bytes) : Frames (Receiver.read crates bytes) := by
  refine (peekType_frames bytes).bind fun ty => ?_
  split_ifs
  · exact (Beacon.decode_frames crates bytes).bind fun _ => failsWith_ok _
  · exact (SymbolFrame.decode_frames crates bytes).bind fun _ => failsWith_ok _
  · exact failsWith_fail rfl

end Wire

open Wire

variable {crates : Crates}

/-! Only a SYMBOL frame completes an object, or fails to authenticate one. -/

namespace Pipeline.Receiver

def Concludes (result : Except Error Ingest) : Prop :=
  result = .error .authFailed ∨ ∃ plaintext, result = .ok (.done plaintext)

theorem ingest_concluded {rx next : Receiver crates} {frame : Bytes} {result : Except Error Ingest}
    (ingested : rx.ingest frame = some (result, next)) (concludes : Concludes result) :
    Accepts crates frame FrameType.symbol := by
  rw [ingest_eq] at ingested
  split at ingested
  · obtain ⟨rfl, rfl⟩ := Prod.mk.inj (Option.some_inj.mp ingested)
    simp [Concludes] at concludes
  · cases said : read crates frame with
    | error fault =>
        rw [said] at ingested
        cases fault with
        | panic => simp [decoded] at ingested
        | err error =>
            obtain ⟨rfl, rfl⟩ := Prod.mk.inj (Option.some_inj.mp ingested)
            obtain rfl : error = .authFailed := by simpa [Concludes] using concludes
            exact absurd (read_frames crates frame _ said) (by decide)
    | ok content =>
        rw [said] at ingested
        rcases read_cases said with ⟨b, rfl, -⟩ | ⟨sf, rfl, decoded⟩
        · have heeded : rx.ingestBeacon b = some (result, next) := ingested
          rcases ingestBeacon_inv heeded with ⟨_, -, -, rfl | rfl⟩ | ⟨-, rfl, -⟩
          · simp [Concludes] at concludes
          · simp [Concludes] at concludes
          · simp [Concludes] at concludes
        · exact .symbol sf decoded

end Pipeline.Receiver

namespace Shell

open Crypto Pipeline Wasm

/-! The shell knows a failed authentication by the text of the error, and the texts of all other errors
lack a letter of the word. -/

def Lacks (c : Char) (text : String) : Prop := c ∉ text.toList

instance (c : Char) (text : String) : Decidable (Lacks c text) :=
  inferInstanceAs (Decidable (c ∉ text.toList))

theorem lacks_append {c : Char} {front back : String} :
    Lacks c (front ++ back) ↔ Lacks c front ∧ Lacks c back := by
  simp [Lacks]

theorem includes_eq_false {text part : String} {c : Char} (needed : c ∈ part.toList)
    (lacks : Lacks c text) : includes text part = false := by
  rw [includes, List.any_eq_false]
  intro tail member starts
  have behind := ((List.mem_tails _ _).mp member).subset
  exact lacks (behind ((List.isPrefixOf_iff_prefix.mp starts).subset needed))

theorem not_mem_toDigits {c : Char} {base : Nat} (bound : 1 < base)
    (other : ∀ d < base, c ≠ Nat.digitChar d) (n : Nat) : c ∉ Nat.toDigits base n := by
  induction n using Nat.strong_induction_on with
  | _ n ih =>
      rw [Nat.toDigits_eq_if bound]
      split
      · rename_i small
        simpa using other n small
      · rename_i large
        rw [List.mem_append, List.mem_singleton]
        rintro (front | last)
        · exact ih _ (Nat.div_lt_self (by omega) bound) front
        · exact other _ (Nat.mod_lt _ (by omega)) last

theorem lacks_toString {c : Char} (other : ∀ d < 10, c ≠ Nat.digitChar d) (n : Nat) :
    Lacks c (toString n) := by
  rw [Lacks, Nat.toString_eq_ofList_toDigits, String.toList_ofList]
  exact not_mem_toDigits (by decide) other n

theorem lacks_lowerHex {c : Char} (other : ∀ d < 16, c ≠ Nat.digitChar d) (width n : Nat) :
    Lacks c (lowerHex width n) := by
  rw [Lacks, lowerHex, String.toList_ofList, List.leftpad, List.mem_append]
  rintro (padding | digit)
  · exact other 0 (by decide) (List.eq_of_mem_replicate padding)
  · exact not_mem_toDigits (by decide) other n digit

theorem display_lacks {e : Error} (other : e ≠ .authFailed) :
    Lacks 'h' e.display ∨ Lacks 'u' e.display := by
  have number (n : Nat) : Lacks 'h' (toString n) ∧ Lacks 'u' (toString n) :=
    ⟨lacks_toString (by decide) n, lacks_toString (by decide) n⟩
  have hex (width n : Nat) : Lacks 'h' (lowerHex width n) ∧ Lacks 'u' (lowerHex width n) :=
    ⟨lacks_lowerHex (by decide) width n, lacks_lowerHex (by decide) width n⟩
  have pair {c : Char} {front first between second : String} (texts : Lacks c front ∧ Lacks c between)
      (left : Lacks c first) (right : Lacks c second) :
      Lacks c (front ++ first ++ between ++ second) := by
    simp [lacks_append, texts, left, right]
  cases e with
  | truncated expected got => exact .inl (pair (by decide) (number expected).1 (number got).1)
  | badMagic => exact .inl (by decide)
  | badVersion v => exact .inl (lacks_append.mpr ⟨by decide, (number _).1⟩)
  | badFrameType t => exact .inl (lacks_append.mpr ⟨by decide, (hex 2 _).1⟩)
  | badMode m => exact .inl (lacks_append.mpr ⟨by decide, (hex 2 _).1⟩)
  | badCrc expected got => exact .inr (pair (by decide) (hex 8 _).2 (hex 8 _).2)
  | foreignSession => exact .inr (by decide)
  | authFailed => exact absurd rfl other
  | lengthMismatch declared got => exact .inr (pair (by decide) (number declared).2 (number got).2)
  | decompress => exact .inl (by decide)
  | missingIdentity => exact .inl (by decide)

theorem not_authentication {msg : String} (lacks : Lacks 'h' msg ∨ Lacks 'u' msg) :
    includes (Kind.error msg).text "authentication" = false := by
  rcases lacks with lacks | lacks
  · exact includes_eq_false (c := 'h') (by decide) (lacks_append.mpr ⟨by decide, lacks⟩)
  · exact includes_eq_false (c := 'u') (by decide) (lacks_append.mpr ⟨by decide, lacks⟩)

theorem deriveAndSet_lacks {recv next : Receive crates} {msg : String}
    (derived : recv.deriveAndSet = (.error msg, next)) : Lacks 'h' msg ∨ Lacks 'u' msg := by
  unfold Receive.deriveAndSet at derived
  split at derived
  · simp at derived
  · split at derived
    · obtain ⟨same, -⟩ := Prod.mk.inj derived
      obtain rfl := Except.error.inj same
      exact .inr (by decide)
    · split at derived
      · rename_i b _ text refused
        obtain ⟨same, -⟩ := Prod.mk.inj derived
        obtain rfl := Except.error.inj same
        unfold Receive.agreementKey at refused
        split at refused
        · split at refused
          · simp at refused
          · obtain rfl := Except.error.inj refused
            exact .inr (by decide)
        · simp at refused
      · split at derived
        · rename_i e failed
          obtain ⟨same, -⟩ := Prod.mk.inj derived
          obtain rfl := Except.error.inj same
          refine display_lacks fun auth => ?_
          subst auth
          unfold deriveForMode at failed
          split at failed
          · simp at failed
          · split at failed <;> simp at failed
          · simp at failed
          · simp at failed
        · simp at derived

def Told (r : IngestResult) : Prop :=
  r.kind = .done ∨ ∃ msg, r.kind = .error msg ∧ includes r.kind.text "authentication" = true

theorem ingest_told {recv next : Receive crates} {frame : Bytes} {r : IngestResult}
    (ingested : recv.ingest frame = some (r, next)) (told : Told r) :
    Accepts crates frame FrameType.symbol := by
  rcases Receive.ingest_split ingested with ⟨rx, -, same⟩ | ⟨inner, rx, fed, other, same, -⟩
  · simp only [Receive.answer] at same
    split at same
    · rename_i msg _ derived
      obtain ⟨rfl, -⟩ := Prod.mk.inj same
      simp [Told, errResult, not_authentication (deriveAndSet_lacks derived)] at told
    · obtain ⟨rfl, -⟩ := Prod.mk.inj same
      simp [Told] at told
  · refine Receiver.ingest_concluded fed ?_
    subst same
    unfold Receive.answer at told
    split at told
    · exact absurd rfl other
    · simp [Told] at told
    · exact .inr ⟨_, rfl⟩
    · simp [Told] at told
    · rename_i e
      by_cases auth : e = .authFailed
      · exact .inl (congrArg _ auth)
      · simp [Told, errResult, not_authentication (display_lacks auth)] at told

/-! One turn of the frame loop. -/

namespace Receiving

def Flips (shell : Receiving crates) (frame : Bytes) : Prop :=
  (shell.staged.isSome ∧ shell.encrypted) ∧ frame[3]? = some FrameType.pairReq

theorem not_flips {shell : Receiving crates} {frame : Bytes} (stays : ¬shell.Flips frame) :
    ¬(shell.staged.isSome ∧ shell.encrypted ∧ frame[3]? = some 0x01) :=
  fun ⟨staged, encrypted, mark⟩ => stays ⟨⟨staged, encrypted⟩, mark⟩

theorem finish_running (shell : Receiving crates) (payload : Bytes) :
    (shell.finish payload).stop = shell.stop ∧ (shell.finish payload).cameraOn = shell.cameraOn := by
  unfold finish
  split <;> exact ⟨rfl, rfl⟩

theorem heed_running (shell : Receiving crates) (r : IngestResult)
    (goes : ∀ msg, r.kind = .error msg → includes r.kind.text "authentication" = false) :
    (shell.heed r).stop = shell.stop ∧ (shell.heed r).cameraOn = shell.cameraOn := by
  unfold heed
  split
  · split
    · split <;> exact ⟨rfl, rfl⟩
    · exact ⟨rfl, rfl⟩
  · split
    · exact finish_running shell _
    · exact ⟨rfl, rfl⟩
  · rename_i msg failed
    rw [if_neg (by simp [goes msg failed])]
    exact ⟨rfl, rfl⟩
  · exact ⟨rfl, rfl⟩

theorem heed_trapped (shell : Receiving crates) (r : IngestResult) :
    (shell.heed r).trapped = shell.trapped := by
  unfold Receiving.heed
  split
  · split
    · split <;> rfl
    · rfl
  · split
    · unfold Receiving.finish
      split <;> rfl
    · rfl
  · split <;> rfl
  · rfl

theorem turn_cases (shell : Receiving crates) (running : (shell.stop || !shell.cameraOn) = false)
    (found : Option Bytes) (finishes : Bool) :
    (∃ frame, found = some frame ∧ shell.Flips frame ∧ shell.turn found finishes = .flipping frame) ∨
      (∀ frame, found = some frame → ¬shell.Flips frame) ∧
        (shell.turn found finishes = .armed ∧
            ((shell.onFrame found).stop || !(shell.onFrame found).cameraOn) = false ∨
          (shell.turn found finishes = .delivered ∨ shell.turn found finishes = .stopped) ∧
            ∃ frame, found = some frame ∧ Accepts crates frame FrameType.symbol) := by
  cases found with
  | none => exact .inr ⟨by simp, .inl (by simp [turn, onFrame, running])⟩
  | some frame =>
      by_cases flips : shell.staged.isSome ∧ shell.encrypted ∧ frame[3]? = some 0x01
      · refine .inl ⟨frame, rfl, ⟨⟨flips.1, flips.2.1⟩, flips.2.2⟩, ?_⟩
        simp [turn, running, flips]
      · refine .inr ⟨?_, ?_⟩
        · rintro _ ⟨rfl⟩ ⟨⟨staged, encrypted⟩, mark⟩
          exact flips ⟨staged, encrypted, mark⟩
        · simp only [turn, onFrame, running, if_neg flips, Bool.false_eq_true, if_false]
          by_cases trapped : shell.trapped = true
          · rw [if_pos trapped, if_pos trapped]
            exact .inl ⟨rfl, running⟩
          · rw [if_neg trapped, if_neg trapped]
            cases ingested : shell.recv.ingest frame with
            | none => exact .inl ⟨rfl, running⟩
            | some answered =>
                obtain ⟨r, recv⟩ := answered
                have goes (unrefused : ∀ msg, r.kind = .error msg →
                    includes r.kind.text "authentication" = false) :
                    ((heed { shell with recv } r).stop || !(heed { shell with recv } r).cameraOn) =
                      false := by
                  obtain ⟨stop, camera⟩ := heed_running { shell with recv } r unrefused
                  rwa [stop, camera]
                dsimp only
                cases kind : r.kind with
                | ignored => exact .inl ⟨rfl, goes (by simp [kind])⟩
                | beacon => exact .inl ⟨rfl, goes (by simp [kind])⟩
                | progress => exact .inl ⟨rfl, goes (by simp [kind])⟩
                | done =>
                    cases finishes with
                    | true => exact .inr ⟨.inl rfl, frame, rfl, ingest_told ingested (.inl kind)⟩
                    | false => exact .inl ⟨rfl, goes (by simp [kind])⟩
                | error msg =>
                    by_cases auth : includes (Kind.error msg).text "authentication" = true
                    · rw [if_pos auth]
                      exact .inr ⟨.inr rfl, frame, rfl,
                        ingest_told ingested (.inr ⟨msg, kind, kind ▸ auth⟩)⟩
                    · rw [if_neg auth]
                      exact .inl ⟨rfl, goes fun other failed => by simpa [kind] using auth⟩

theorem onFrame_core {shell : Receiving crates} (running : (shell.stop || !shell.cameraOn) = false)
    (alive : shell.trapped = false) {frame : Bytes} (stays : ¬shell.Flips frame) :
    shell.onFrame (some frame) = match shell.recv.ingest frame with
      | none => { shell with trapped := true }
      | some (r, recv) => heed { shell with recv } r := by
  rw [onFrame, if_neg (by simp [running])]
  simp only [if_neg (not_flips stays)]
  exact (if_neg (by simp [alive])).trans rfl

theorem turn_untold {shell : Receiving crates} (running : (shell.stop || !shell.cameraOn) = false)
    (alive : shell.trapped = false) {frame : Bytes} (stays : ¬shell.Flips frame) {r : IngestResult}
    {recv : Receive crates} (ingested : shell.recv.ingest frame = some (r, recv)) (untold : ¬Told r)
    (finishes : Bool) : shell.turn (some frame) finishes = .armed ∧
      ((shell.onFrame (some frame)).stop || !(shell.onFrame (some frame)).cameraOn) = false ∧
      (shell.onFrame (some frame)).trapped = false := by
  simp only [Told, not_or, not_exists, not_and, Bool.not_eq_true] at untold
  obtain ⟨undone, goes⟩ := untold
  have answered : shell.onFrame (some frame) = heed { shell with recv } r := by
    rw [onFrame_core running alive stays, ingested]
  obtain ⟨stop, camera⟩ := heed_running { shell with recv } r goes
  refine ⟨?_, by rw [answered, stop, camera]; exact running, by rw [answered, heed_trapped]; exact alive⟩
  rw [turn, if_neg (by simp [running])]
  simp only [if_neg (not_flips stays), alive, ingested, Bool.false_eq_true, if_false]
  cases kind : r.kind with
  | done => exact absurd kind undone
  | error msg => simpa [kind] using goes msg kind
  | _ => rfl

theorem scanOneFrame_cases (shell : Receiving crates) (want : UInt8) (found : Option Bytes) :
    (shell.stop || !shell.cameraOn) = true ∧ shell.scanOneFrame want found = .gone ∨
      (shell.stop || !shell.cameraOn) = false ∧ shell.scanOneFrame want found = .waiting ∧
        (∀ code, found = some code → code[3]? ≠ some want) ∨
      (shell.stop || !shell.cameraOn) = false ∧ ∃ code, found = some code ∧ code[3]? = some want ∧
        shell.scanOneFrame want found = .caught code := by
  cases closed : shell.stop || !shell.cameraOn with
  | true => exact .inl ⟨rfl, by simp [scanOneFrame, closed]⟩
  | false =>
      refine .inr ?_
      simp only [scanOneFrame, closed, Bool.false_eq_true, if_false]
      cases found with
      | none => exact .inl ⟨trivial, rfl, by simp⟩
      | some code =>
          by_cases mark : code[3]? = some want
          · exact .inr ⟨trivial, code, rfl, mark, if_pos mark⟩
          · refine .inl ⟨trivial, if_neg mark, ?_⟩
            rintro _ ⟨rfl⟩
            exact mark

end Receiving

def Rejection.ofCore : Rejection → Bool
  | .trapped | .refused _ => true
  | .noIdentity | .noPayload => false

theorem Making.beSender_replies {making : Making crates} {identity : KeyPair crates} {frame : Bytes}
    (own : making.identity = some identity) (accepted : Accepts crates frame FrameType.pairReq)
    (payload : Bytes) :
    ∃ send, making.beSender (some payload) (some frame) = .ok send ∧ send.tx.held = true := by
  obtain ⟨req, decoded⟩ : ∃ req, PairReq.decode crates frame = .ok req := by
    cases accepted with
    | pairReq req decoded => exact ⟨req, decoded⟩
  simp [beSender, own, Send.reply, decoded, Send.peerKey, Send.replyMode, deriveForMode, Send.start,
    Transmitter.hold]

theorem Making.beSender_accepted {making : Making crates} {payload : Option Bytes} {frame : Bytes}
    (accepted : Accepts crates frame FrameType.pairReq) {rejection : Rejection}
    (rejected : making.beSender payload (some frame) = .error rejection) : rejection.ofCore = false := by
  cases own : making.identity with
  | none =>
      simp only [beSender, own, Except.error.injEq] at rejected
      exact rejected ▸ rfl
  | some identity =>
      cases payload with
      | none =>
          simp only [beSender, own, Except.error.injEq] at rejected
          exact rejected ▸ rfl
      | some payload =>
          obtain ⟨send, replied, -⟩ := beSender_replies own accepted payload
          simp [replied] at rejected

theorem Making.beSender_unasked {making : Making crates} {payload : Option Bytes}
    {rejection : Rejection} (rejected : making.beSender payload none = .error rejection) :
    rejection.ofCore = false := by
  unfold beSender at rejected
  split at rejected
  · obtain rfl := Except.error.inj rejected
    rfl
  · obtain rfl := Except.error.inj rejected
    rfl
  · simp at rejected

/-! What the device takes a code for, and what becomes of it then. -/

namespace Device

variable {device next : Device crates}

structure Hears (device : Device crates) : Prop where
  running : (device.shell.stop || !device.shell.cameraOn) = false
  waiting : 0 < device.armed
  alive : device.shell.trapped = false

def awaits (device : Device crates) (event : Event crates) : Option UInt8 :=
  if device.shell.stop || !device.shell.cameraOn then none
  else
    match event with
    | .callback _ _ =>
        if 0 < device.armed ∧ device.shell.staged.isSome ∧ device.shell.encrypted then
          some FrameType.pairReq
        else none
    | .look i _ =>
        match device.stages[i]? with
        | some (.revealing _) => some FrameType.reveal
        | some (.completing _) => some FrameType.complete
        | _ => none
    | _ => none

def Event.code : Event crates → Option Bytes
  | .callback found _ => found
  | .look _ found => found
  | _ => none

def Stranded (device : Device crates) : Prop :=
  ∃ rejection, .rejected rejection ∈ device.stages ∧ rejection.ofCore = true

def Concludes (recv : Receive crates) (found : Option Bytes) : Prop :=
  ∃ frame r next, found = some frame ∧ recv.ingest frame = some (r, next) ∧ Told r ∧
    Accepts crates frame FrameType.symbol

/-- How the shell is to treat what it finds. What it takes for a frame the core accepts as one; anything
else leaves the loop armed and heard, unless the core has concluded a transfer from a SYMBOL frame, and
leaves a scan waiting; and the core does not refuse a frame that the device has committed itself to. -/
structure Routed (device : Device crates) (event : Event crates) (taken : Option UInt8)
    (next : Device crates) : Prop where
  accepted : ∀ ty, taken = some ty → ∃ code, event.code = some code ∧ Accepts crates code ty
  hears : ∀ found finishes, event = .callback found finishes → device.Hears → taken = none →
    next.Hears ∧ next.armed = device.armed ∨ Concludes device.shell.recv found
  waits : ∀ i found, event = .look i found → device.awaits event ≠ none → taken = none → next = device
  heard : ¬next.Stranded

/-- The code in view does not have the type byte that is waited for, or it is a whole frame of that type:
as long as one, with the header and a matching checksum; and a code that goes to the core does not trap
it. -/
structure Genuine (device : Device crates) (event : Event crates) : Prop where
  whole : ∀ code ty, event.code = some code → device.awaits event = some ty → code[3]? = some ty →
    Whole crates code ty
  safe : ∀ code finishes, event = .callback (some code) finishes → device.Hears →
    ¬device.shell.Flips code → device.shell.recv.ingest code ≠ none

theorem scanned_of_awaits {event : Event crates} {ty : UInt8} (awaited : device.awaits event = some ty) :
    Scanned ty := by
  unfold awaits at awaited
  split at awaited
  · simp at awaited
  · split at awaited
    · split at awaited
      · exact .inl (Option.some_inj.mp awaited).symm
      · simp at awaited
    · split at awaited
      · exact .inr (.inl (Option.some_inj.mp awaited).symm)
      · exact .inr (.inr (Option.some_inj.mp awaited).symm)
      · simp at awaited
    · simp at awaited

theorem awaits_callback (running : (device.shell.stop || !device.shell.cameraOn) = false)
    (waiting : 0 < device.armed) (found : Option Bytes) (finishes : Bool) :
    device.awaits (.callback found finishes) =
      if device.shell.staged.isSome ∧ device.shell.encrypted then some FrameType.pairReq else none := by
  simp [awaits, running, waiting]

theorem awaited_callback {found : Option Bytes} {finishes : Bool} {ty : UInt8}
    (awaited : device.awaits (.callback found finishes) = some ty) : ty = FrameType.pairReq := by
  unfold awaits at awaited
  split at awaited
  · simp at awaited
  · dsimp only at awaited
    split at awaited
    · exact (Option.some_inj.mp awaited).symm
    · simp at awaited

/-! The frame loop. -/

theorem callback_cases (device : Device crates) (found : Option Bytes) (finishes : Bool) :
    (∃ code, found = some code ∧ device.awaits (.callback found finishes) = some FrameType.pairReq ∧
        code[3]? = some FrameType.pairReq ∧
        (device.callback found finishes).1 = some FrameType.pairReq ∧
        (device.callback found finishes).2.timers = device.timers ++ [.scanned code] ∧
        (device.callback found finishes).2.stages = device.stages) ∨
      (∀ code, found = some code → device.awaits (.callback found finishes) = some FrameType.pairReq →
          code[3]? ≠ some FrameType.pairReq) ∧
        (device.callback found finishes).1 = none ∧
        (device.callback found finishes).2.timers = device.timers ∧
        (device.callback found finishes).2.stages = device.stages := by
  by_cases unarmed : device.armed = 0
  · refine .inr ⟨fun code _ awaited => ?_, by simp [callback, unarmed]⟩
    simp [awaits, unarmed] at awaited
  cases closed : device.shell.stop || !device.shell.cameraOn with
  | true =>
      have off : device.shell.turn found finishes = .off := by simp [Receiving.turn, closed]
      refine .inr ⟨fun code _ awaited => ?_, by simp [callback, unarmed, off]⟩
      simp [awaits, closed] at awaited
  | false =>
      have awaited := awaits_callback closed (Nat.pos_of_ne_zero unarmed) found finishes
      rw [awaited]
      rcases device.shell.turn_cases closed found finishes with
        ⟨code, rfl, ⟨ready, mark⟩, flipping⟩ | ⟨stays, outcome⟩
      · exact .inl ⟨code, rfl, if_pos ready, mark, by simp [callback, unarmed, flipping, FrameType.pairReq]⟩
      · refine .inr ⟨fun code same awaits mark => ?_, ?_⟩
        · split at awaits
          · rename_i ready
            exact stays code same ⟨ready, mark⟩
          · simp at awaits
        · rcases outcome with ⟨armed, -⟩ | ⟨ends | ends, -⟩
          · simp [callback, unarmed, armed]
          · simp [callback, unarmed, ends]
          · simp [callback, unarmed, ends]

theorem callback_heard (hears : device.Hears) {found : Option Bytes} (finishes : Bool)
    (untaken : ∀ code, found = some code → ¬device.shell.Flips code) :
    ((device.callback found finishes).2.Hears ∧ (device.callback found finishes).2.armed = device.armed ∨
        Concludes device.shell.recv found) ↔
      ∀ code, found = some code → device.shell.recv.ingest code ≠ none := by
  have unarmed : device.armed ≠ 0 := Nat.ne_of_gt hears.waiting
  have goes (armed : device.shell.turn found finishes = .armed) :
      (device.callback found finishes).2 = { device with shell := device.shell.onFrame found } := by
    simp [callback, unarmed, armed]
  cases found with
  | none =>
      have armed : device.shell.turn none finishes = .armed := by simp [Receiving.turn, hears.running]
      have kept : device.shell.onFrame none = device.shell := by simp [Receiving.onFrame, hears.running]
      rw [goes armed, kept]
      exact iff_of_true (.inl ⟨hears, rfl⟩) (by simp)
  | some code =>
      have stays := untaken code rfl
      have core := Receiving.onFrame_core hears.running hears.alive stays
      cases ingested : device.shell.recv.ingest code with
      | none =>
          refine iff_of_false ?_ fun survives => survives code rfl ingested
          rintro (⟨after, -⟩ | ⟨other, r, recv, same, told, -⟩)
          · have shell : (device.callback (some code) finishes).2.shell =
                device.shell.onFrame (some code) := by
              rw [callback, if_neg unarmed]
              dsimp only
              split <;> rfl
            have alive := after.alive
            rw [shell, core, ingested] at alive
            simp at alive
          · obtain rfl := Option.some_inj.mp same
            simp [ingested] at told
      | some answered =>
          obtain ⟨r, recv⟩ := answered
          refine iff_of_true ?_ ?_
          · by_cases told : Told r
            · exact .inr ⟨code, r, recv, rfl, ingested, told, ingest_told ingested told⟩
            · obtain ⟨armed, running, alive⟩ :=
                Receiving.turn_untold hears.running hears.alive stays ingested told finishes
              rw [goes armed]
              exact .inl ⟨⟨running, hears.waiting, alive⟩, rfl⟩
          · rintro _ ⟨rfl⟩
            simp [ingested]

/-! Every step of every run. -/

def Timer.Sound (crates : Crates) : Timer → Prop
  | .scanned frame => Accepts crates frame FrameType.pairReq
  | .unasked _ => True

def Stage.Sound (crates : Crates) : Stage → Prop
  | .loading _ (some frame) => Accepts crates frame FrameType.pairReq
  | .rejected rejection => rejection.ofCore = false
  | _ => True

structure Sound (device : Device crates) : Prop where
  timers : ∀ timer ∈ device.timers, Timer.Sound crates timer
  stages : ∀ stage ∈ device.stages, Stage.Sound crates stage

theorem Sound.heard (sound : device.Sound) : ¬device.Stranded := by
  rintro ⟨rejection, member, core⟩
  exact absurd (core.symm.trans (sound.stages _ member)) (by simp)

theorem Sound.put (sound : device.Sound) (i : Nat) {stage : Stage} (fine : Stage.Sound crates stage) :
    (device.put i stage).Sound := by
  refine ⟨sound.timers, fun other member => ?_⟩
  rcases List.mem_or_eq_of_mem_set member with before | rfl
  · exact sound.stages other before
  · exact fine

theorem callback_routed (sound : device.Sound) (found : Option Bytes) (finishes : Bool) :
    (Routed device (.callback found finishes) (device.callback found finishes).1
        (device.callback found finishes).2 ↔ Genuine device (.callback found finishes)) ∧
      (Genuine device (.callback found finishes) → (device.callback found finishes).2.Sound) := by
  rcases callback_cases device found finishes with
    ⟨code, rfl, awaited, mark, taken, timers, stages⟩ | ⟨other, untaken, timers, stages⟩
  · have whole_iff : Accepts crates code FrameType.pairReq ↔ Whole crates code FrameType.pairReq :=
      accepts_iff_whole crates (.inl rfl)
    have next (accepts : Accepts crates code FrameType.pairReq) :
        (device.callback (some code) finishes).2.Sound := by
      refine ⟨fun timer member => ?_, by rw [stages]; exact sound.stages⟩
      rw [timers] at member
      rcases List.mem_append.mp member with before | now
      · exact sound.timers timer before
      · obtain rfl := List.mem_singleton.mp now
        exact accepts
    refine ⟨⟨fun routed => ⟨?_, ?_⟩, fun genuine => ?_⟩, fun genuine =>
      next (whole_iff.mpr (genuine.whole code _ rfl awaited mark))⟩
    · rintro _ ty ⟨rfl⟩ awaited' -
      obtain ⟨_, ⟨rfl⟩, accepts⟩ := routed.accepted ty (taken.trans (awaited.symm.trans awaited'))
      exact (accepts_iff_whole crates (scanned_of_awaits awaited')).mp accepts
    · rintro _ _ ⟨⟩ hears stays
      rw [awaits_callback hears.running hears.waiting] at awaited
      split at awaited
      · rename_i ready
        exact absurd ⟨ready, mark⟩ stays
      · simp at awaited
    · have accepts := whole_iff.mpr (genuine.whole code _ rfl awaited mark)
      refine ⟨fun ty same => ?_, fun _ _ _ _ untaken => ?_, fun _ _ seen => ?_, (next accepts).heard⟩
      · obtain rfl := Option.some_inj.mp (taken.symm.trans same)
        exact ⟨code, rfl, accepts⟩
      · simp [taken] at untaken
      · simp at seen
  · have next : (device.callback found finishes).2.Sound :=
      ⟨by rw [timers]; exact sound.timers, by rw [stages]; exact sound.stages⟩
    have stays (hears : device.Hears) (code : Bytes) (same : found = some code) :
        ¬device.shell.Flips code := by
      rintro ⟨ready, mark⟩
      refine other code same ?_ mark
      rw [awaits_callback hears.running hears.waiting, if_pos ready]
    refine ⟨⟨fun routed => ⟨?_, ?_⟩, fun genuine => ?_⟩, fun _ => next⟩
    · intro code ty same awaited mark
      obtain rfl := awaited_callback awaited
      exact absurd mark (other code same awaited)
    · rintro code _ ⟨⟩ hears -
      exact (callback_heard hears finishes (stays hears)).mp
        (routed.hears _ _ rfl hears untaken) code rfl
    · refine ⟨fun ty taken => ?_, ?_, fun _ _ seen => ?_, next.heard⟩
      · simp [untaken] at taken
      · rintro _ _ ⟨⟩ hears -
        refine (callback_heard hears finishes (stays hears)).mpr ?_
        rintro code rfl
        exact genuine.safe code _ rfl hears (stays hears code rfl)
      · simp at seen

/-! The scans. -/

theorem Sound.assign (sound : device.Sound) (shell : Receiving crates) :
    ({ device with shell } : Device crates).Sound := ⟨sound.timers, sound.stages⟩

theorem Sound.halt (sound : device.Sound) (i : Nat) (ending : Ending) : (device.halt i ending).Sound :=
  (sound.assign _).put i trivial

theorem Sound.look (sound : device.Sound) (i : Nat) (found : Option Bytes) :
    (device.look i found).2.Sound := by
  unfold Device.look
  split
  · split
    · exact sound.put i trivial
    · exact sound
    · unfold takeReveal
      dsimp only
      split
      · exact sound.halt i _
      · exact sound.halt i _
      · exact sound.put i trivial
  · split
    · exact sound.put i trivial
    · exact sound
    · exact sound.halt i _
  · exact sound

inductive Looked (device : Device crates) (i : Nat) (found : Option Bytes) :
    Option UInt8 × Device crates → Prop
  | caught {code : Bytes} {ty : UInt8} {next : Device crates} (same : found = some code)
      (awaited : device.awaits (.look i found) = some ty) (mark : code[3]? = some ty) :
      Looked device i found (some ty, next)
  | missed {next : Device crates} (other : ∀ code ty, found = some code →
      device.awaits (.look i found) = some ty → code[3]? ≠ some ty)
      (still : device.awaits (.look i found) ≠ none → next = device) : Looked device i found (none, next)

theorem scan_looked {i : Nat} {found : Option Bytes} {want : UInt8} {take : Bytes → Device crates}
    (awaited : (device.shell.stop || !device.shell.cameraOn) = false →
      device.awaits (.look i found) = some want) :
    Looked device i found (match device.shell.scanOneFrame want found with
      | .gone => (none, device.put i (.ended .gone))
      | .waiting => (none, device)
      | .caught frame => (some want, take frame)) := by
  rcases device.shell.scanOneFrame_cases want found with
    ⟨closed, gone⟩ | ⟨running, waiting, other⟩ | ⟨running, code, rfl, mark, caught⟩
  · have unawaited : device.awaits (.look i found) = none := if_pos closed
    rw [gone]
    exact .missed (by simp [unawaited]) (by simp [unawaited])
  · rw [waiting]
    refine .missed (fun code ty same awaits => ?_) fun _ => rfl
    obtain rfl := Option.some_inj.mp ((awaited running).symm.trans awaits)
    exact other code same
  · rw [caught]
    exact .caught rfl (awaited running) mark

theorem look_looked (device : Device crates) (i : Nat) (found : Option Bytes) :
    Looked device i found (device.look i found) := by
  unfold Device.look
  split
  · rename_i send stage
    exact scan_looked fun running => by simp [awaits, running, stage, FrameType.reveal]
  · rename_i send stage
    exact scan_looked fun running => by simp [awaits, running, stage, FrameType.complete]
  · rename_i unrevealing uncompleting
    refine .missed (fun code ty _ awaited => ?_) fun _ => rfl
    unfold awaits at awaited
    split at awaited
    · simp at awaited
    · dsimp only at awaited
      split at awaited
      · exact absurd ‹_› (unrevealing _)
      · exact absurd ‹_› (uncompleting _)
      · simp at awaited

theorem look_routed (sound : device.Sound) (i : Nat) (found : Option Bytes) :
    Routed device (.look i found) (device.look i found).1 (device.look i found).2 ↔
      Genuine device (.look i found) := by
  have next := sound.look i found
  have looked := look_looked device i found
  generalize device.look i found = answer at *
  cases looked with
  | @caught code ty after same awaited mark =>
      subst same
      have whole_iff : Accepts crates code ty ↔ Whole crates code ty :=
        accepts_iff_whole crates (scanned_of_awaits awaited)
      constructor
      · refine fun routed => ⟨?_, fun _ _ seen => by simp at seen⟩
        rintro _ other ⟨rfl⟩ awaited' -
        obtain rfl := Option.some_inj.mp (awaited.symm.trans awaited')
        obtain ⟨_, ⟨rfl⟩, accepts⟩ := routed.accepted _ rfl
        exact whole_iff.mp accepts
      · refine fun genuine => ⟨?_, fun _ _ seen => by simp at seen, fun _ _ _ _ taken => by simp at taken,
          next.heard⟩
        rintro _ ⟨rfl⟩
        exact ⟨code, rfl, whole_iff.mpr (genuine.whole code _ rfl awaited mark)⟩
  | missed other still =>
      constructor
      · refine fun _ => ⟨?_, fun _ _ seen => by simp at seen⟩
        exact fun code ty same awaited mark => absurd mark (other code ty same awaited)
      · refine fun _ => ⟨by simp, fun _ _ seen => by simp at seen, ?_, next.heard⟩
        rintro _ _ ⟨⟩ awaited -
        exact still awaited

/-! Everything else. -/

theorem Sound.sendOpen (sound : device.Sound) : device.sendOpen.Sound := by
  unfold Device.sendOpen
  split
  · exact sound
  · refine ⟨fun timer member => ?_, sound.stages⟩
    rcases List.mem_append.mp member with before | now
    · exact sound.timers timer before
    · obtain rfl := List.mem_singleton.mp now
      trivial

theorem Sound.fire (sound : device.Sound) (i : Nat) : (device.fire i).Sound := by
  unfold Device.fire
  split
  · exact sound
  · rename_i timer due
    have fine := sound.timers timer (List.mem_of_getElem? due)
    refine ⟨fun other member => sound.timers other (List.eraseIdx_subset member), fun stage member => ?_⟩
    rcases List.mem_append.mp member with before | now
    · exact sound.stages stage before
    · obtain rfl := List.mem_singleton.mp now
      cases timer with
      | scanned frame => exact fine
      | unasked payload => trivial

theorem Sound.made (sound : device.Sound) (i : Nat) (making : Making crates) :
    (device.made i making).Sound := by
  unfold Device.made
  split
  · rename_i payload pairReqBytes loading
    refine sound.put i ?_
    split
    · rename_i rejection rejected
      cases pairReqBytes with
      | none => exact Making.beSender_unasked rejected
      | some frame =>
          have accepted := sound.stages _ (List.mem_of_getElem? loading)
          exact Making.beSender_accepted accepted rejected
    · trivial
  · exact sound

theorem Sound.awaitComplete (sound : device.Sound) (i : Nat) (send : Send) :
    (device.awaitComplete i send).Sound := by
  refine sound.put i ?_
  split <;> trivial

theorem Sound.woken (sound : device.Sound) (i : Nat) : (device.woken i).Sound := by
  unfold Device.woken
  split
  · rename_i send scanned waking
    have took : (if scanned then { device with shell := { device.shell with staged := none } }
        else device).Sound := by
      split
      · exact sound.assign _
      · exact sound
    dsimp only
    generalize (if scanned then { device with shell := { device.shell with staged := none } }
      else device) = taking at took ⊢
    split
    · refine took.put i ?_
      split <;> trivial
    · exact took.awaitComplete i send
  · exact sound

theorem Sound.confirm (sound : device.Sound) (i : Nat) : (device.confirm i).Sound := by
  unfold Device.confirm
  split
  · split
    · exact sound.put i trivial
    · exact sound.awaitComplete i _
  · exact sound

theorem Sound.block (sound : device.Sound) (i : Nat) (message : String) :
    (device.block i message).Sound := by
  unfold Device.block
  split
  · exact sound.put i trivial
  · exact sound.put i trivial
  · exact sound

theorem Sound.schedule (sound : device.Sound) : device.schedule.Sound := by
  unfold Device.schedule
  split
  · exact sound
  · exact ⟨sound.timers, sound.stages⟩

theorem unseen_routed {event : Event crates} (uncoded : event.code = none)
    (unheard : ∀ found finishes, event ≠ .callback found finishes)
    (unlooked : ∀ i found, event ≠ .look i found)
    (sound : next.Sound) : (Routed device event none next ↔ Genuine device event) ∧
      (Genuine device event → next.Sound) := by
  refine ⟨iff_of_true ⟨by simp, ?_, ?_, sound.heard⟩ ⟨by simp [uncoded], ?_⟩, fun _ => sound⟩
  · exact fun found finishes seen => absurd seen (unheard _ _)
  · exact fun i found seen => absurd seen (unlooked _ _)
  · exact fun code finishes seen => absurd seen (unheard _ _)

theorem step_routed (sound : device.Sound) (event : Event crates) :
    (Routed device event (device.step event).1 (device.step event).2 ↔ Genuine device event) ∧
      (Genuine device event → (device.step event).2.Sound) := by
  cases event with
  | callback found finishes => exact callback_routed sound found finishes
  | look i found => exact ⟨look_routed sound i found, fun _ => sound.look i found⟩
  | assign stop cameraOn staged encrypted => exact unseen_routed rfl (by simp) (by simp) (sound.assign _)
  | schedule => exact unseen_routed rfl (by simp) (by simp) sound.schedule
  | sendOpen => exact unseen_routed rfl (by simp) (by simp) sound.sendOpen
  | fire i => exact unseen_routed rfl (by simp) (by simp) (sound.fire i)
  | made i making => exact unseen_routed rfl (by simp) (by simp) (sound.made i making)
  | woken i => exact unseen_routed rfl (by simp) (by simp) (sound.woken i)
  | confirm i => exact unseen_routed rfl (by simp) (by simp) (sound.confirm i)
  | block i message => exact unseen_routed rfl (by simp) (by simp) (sound.block i message)

/-- In every run from the start of the app, each step treats what the camera finds as the core does
exactly when each code found is genuine. -/
theorem routed_iff_genuine (shell : Receiving crates) (trace : List (Event crates × Option UInt8)) :
    Machine.Along (Machine.total step) Routed (boot shell) trace ↔
      Machine.Along (Machine.total step) (fun device event _ _ => Genuine device event)
        (boot shell) trace := by
  refine Machine.along_iff Sound ?_ ⟨by simp [boot], by simp [boot]⟩ trace
  intro before event taken after sound stepped
  obtain ⟨rfl, rfl⟩ := Prod.mk.inj (Option.some_inj.mp stepped)
  exact step_routed sound event

def sampleMaking : Making Crates.sample where
  identity := some (KeyPair.fromBytes Crates.sample (Octets.replicate 32 7))
  buildHash := []
  frameCapacity := 100
  ephSecret := Octets.replicate 32 8
  sessionId := Octets.replicate 8 5
  nonce := sampleNonce

def chosenThen (code : Bytes) : List (Event Crates.sample) :=
  [.schedule, .assign false true (some samplePlaintext) true, .callback (some code) true, .fire 0,
    .made 0 sampleMaking]

def sampleDevice : Device Crates.sample := boot (beReceiver sampleSession none true)

/-- A stray code of four bytes makes the device give up receiving for a sender that never comes. -/
theorem stray_code_strands : ∃ trace final,
    Machine.Run (Machine.total step) sampleDevice trace final ∧
      trace.map Prod.fst = chosenThen [0, 0, 0, 1] ∧ final.armed = 0 ∧
      final.stages = [.rejected (.refused "truncated frame: expected 69 bytes, got 4")] ∧
      ¬Accepts Crates.sample [0, 0, 0, 1] FrameType.pairReq ∧
      ¬Machine.Along (Machine.total step) Routed sampleDevice trace := by
  have refused : ¬Accepts Crates.sample [0, 0, 0, 1] FrameType.pairReq := by
    intro accepts
    have whole := (accepts_iff_whole Crates.sample (.inl rfl)).mp accepts
    exact absurd whole.sized (by decide)
  refine ⟨_, _, .cons rfl (.cons rfl (.cons rfl (.cons rfl (.cons rfl (.nil _))))), rfl, rfl, rfl,
    refused, ?_⟩
  rintro ⟨_, ⟨rfl⟩, -, _, ⟨rfl⟩, -, _, stepped, routed, -⟩
  obtain ⟨rfl⟩ := stepped
  obtain ⟨_, ⟨rfl⟩, accepts⟩ := routed.accepted _ rfl
  exact refused accepts

end Device

end Shell

end Rabaska
