import Rabaska.WireProofs

/-! The wire format is canonical: what a decoder accepts is what its encoder writes, and no bytes are
frames of two types. -/

namespace Rabaska.Wire

open Call

variable (crates : Crates)

def RoundTrips {α : Type} (encode : α → Bytes) (decode : Bytes → Outcome Error α)
    (Valid : α → Prop) : Prop :=
  ∀ value, Valid value → decode (encode value) = .ok value

def Canonical {α : Type} (encode : α → Bytes) (decode : Bytes → Outcome Error α) : Prop :=
  ∀ bytes value, decode bytes = .ok value → encode value = bytes

/-! A decoder accepts only frames of its own type. -/

theorem opened_framed {α : Type} {bytes : Bytes} {ty : UInt8} {wantLen : Option Nat}
    (room : RoomForFrame wantLen) {read : Bytes → Outcome Error α} {value : α}
    (decoded : (openFrame crates bytes ty wantLen >>= read) = .ok value) :
    ∃ body, bytes = framed crates ty body ∧ (∀ n ∈ wantLen, body.length + 8 = n) ∧
      read body = .ok value := by
  cases opened : openFrame crates bytes ty wantLen with
  | error fault => simp [opened] at decoded
  | ok body =>
      rw [opened, ok_bind] at decoded
      obtain ⟨rfl, wanted⟩ := (openFrame_eq_ok_iff crates bytes body ty wantLen room).mp opened
      exact ⟨body, rfl, by simpa using wanted, decoded⟩

theorem PairReq.decode_framed {bytes : Bytes} {req : PairReq}
    (decoded : PairReq.decode crates bytes = .ok req) :
    ∃ body, bytes = framed crates FrameType.pairReq body ∧ body.length = 61 := by
  obtain ⟨body, same, wanted, -⟩ := opened_framed crates (by simp [RoomForFrame, pairReqLen]) decoded
  have sized := wanted pairReqLen rfl
  simp only [pairReqLen] at sized
  exact ⟨body, same, by omega⟩

theorem Beacon.decode_framed {bytes : Bytes} {beacon : Beacon}
    (decoded : Beacon.decode crates bytes = .ok beacon) :
    ∃ body mode, bytes = framed crates FrameType.beacon body ∧ body.length = 94 ∧
      ∃ byte rest, body = byte :: rest ∧ Mode.fromU8 byte = .ok mode := by
  obtain ⟨body, same, wanted, read⟩ := opened_framed crates (by simp [RoomForFrame, beaconLen]) decoded
  have sized := wanted beaconLen rfl
  simp only [beaconLen] at sized
  obtain ⟨byte, rest, rfl⟩ := List.exists_cons_of_length_pos (show 0 < body.length by omega)
  rw [index_here, ok_bind] at read
  cases found : Mode.fromU8 byte with
  | error fault => simp [found] at read
  | ok mode => exact ⟨_, mode, same, by omega, byte, rest, rfl, found⟩

theorem Complete.decode_framed {bytes : Bytes} {complete : Complete}
    (decoded : Complete.decode crates bytes = .ok complete) :
    ∃ body, bytes = framed crates FrameType.complete body ∧ body.length = 13 := by
  obtain ⟨body, same, wanted, -⟩ := opened_framed crates (by simp [RoomForFrame, completeLen]) decoded
  have sized := wanted completeLen rfl
  simp only [completeLen] at sized
  exact ⟨body, same, by omega⟩

theorem Reveal.decode_framed {bytes : Bytes} {reveal : Reveal}
    (decoded : Reveal.decode crates bytes = .ok reveal) :
    ∃ body, bytes = framed crates FrameType.reveal body ∧ body.length = 20 := by
  obtain ⟨body, same, wanted, -⟩ := opened_framed crates (by simp [RoomForFrame, revealLen]) decoded
  have sized := wanted revealLen rfl
  simp only [revealLen] at sized
  exact ⟨body, same, by omega⟩

theorem Mode.toU8_of_fromU8 {byte : UInt8} {mode : Mode} (read : Mode.fromU8 byte = .ok mode) :
    mode.toU8 = byte := by
  unfold Mode.fromU8 at read
  split_ifs at read with pair session sealed opened
  · obtain rfl := Except.ok.inj read
    exact pair.symm
  · obtain rfl := Except.ok.inj read
    exact session.symm
  · obtain rfl := Except.ok.inj read
    exact sealed.symm
  · obtain rfl := Except.ok.inj read
    exact opened.symm
  · simp [fail] at read

/-! Every body of the right length is the layout of some value, so the value read from it is that
one, and is written back the same. -/

theorem canonical_of_layout {α : Type} {encode : α → Bytes} {decode : Bytes → Outcome Error α}
    {Valid : α → Prop} (trips : RoundTrips encode decode Valid)
    (layout : ∀ bytes value, decode bytes = .ok value → ∃ written, Valid written ∧ encode written = bytes) :
    Canonical encode decode := by
  intro bytes value decoded
  obtain ⟨written, valid, rfl⟩ := layout bytes value decoded
  obtain rfl : written = value := Except.ok.inj ((trips written valid).symm.trans decoded)
  rfl

theorem PairReq.layout {body : Bytes} (sized : body.length = 61) :
    ∃ req : PairReq, req.encode crates = framed crates FrameType.pairReq body := by
  obtain ⟨flags, rest, rfl⟩ := List.exists_cons_of_length_pos (show 0 < body.length by omega)
  rw [List.length_cons] at sized
  obtain ⟨sessionId, rest, rfl, less⟩ := Octets.exists_front 8 (show 8 ≤ rest.length by omega)
  obtain ⟨rEphPub, rest, rfl, less'⟩ := Octets.exists_front 32 (show 32 ≤ rest.length by omega)
  obtain ⟨idHint, rest, rfl, less''⟩ := Octets.exists_front 4 (show 4 ≤ rest.length by omega)
  have last : rest.length = 16 := by omega
  exact ⟨{ flags, sessionId, rEphPub, idHint, rCommit := ⟨rest, last⟩ },
    by simp [PairReq.encode, framed]⟩

theorem PairReq.canonical : Canonical (PairReq.encode crates) (PairReq.decode crates) := by
  refine @canonical_of_layout _ _ _ (fun _ => True) (fun req _ => req.decode_encode crates) ?_
  intro bytes req decoded
  obtain ⟨body, rfl, sized⟩ := PairReq.decode_framed crates decoded
  obtain ⟨written, same⟩ := PairReq.layout crates sized
  exact ⟨written, trivial, same⟩

theorem Beacon.canonical : Canonical (Beacon.encode crates) (Beacon.decode crates) := by
  refine @canonical_of_layout _ _ _ (fun _ => True) (fun beacon _ => beacon.decode_encode crates) ?_
  intro bytes beacon decoded
  obtain ⟨body, mode, rfl, sized, byte, rest, rfl, read⟩ := Beacon.decode_framed crates decoded
  obtain rfl := Mode.toU8_of_fromU8 read
  rw [List.length_cons] at sized
  obtain ⟨flags, rest, rfl⟩ := List.exists_cons_of_length_pos (show 0 < rest.length by omega)
  rw [List.length_cons] at sized
  obtain ⟨sessionId, rest, rfl, less₁⟩ := Octets.exists_front 8 (show 8 ≤ rest.length by omega)
  obtain ⟨sEphPub, rest, rfl, less₂⟩ := Octets.exists_front 32 (show 32 ≤ rest.length by omega)
  obtain ⟨nonce, rest, rfl, less₃⟩ := Octets.exists_front 24 (show 24 ≤ rest.length by omega)
  obtain ⟨len, rest, rfl, less₄⟩ := Octets.exists_front 4 (show 4 ≤ rest.length by omega)
  obtain ⟨oti, rest, rfl, less₅⟩ := Octets.exists_front 12 (show 12 ≤ rest.length by omega)
  obtain ⟨symbolSize, rest, rfl, less₆⟩ := Octets.exists_front 2 (show 2 ≤ rest.length by omega)
  obtain ⟨palette, rest, rfl⟩ := List.exists_cons_of_length_pos (show 0 < rest.length by omega)
  rw [List.length_cons] at less₆
  obtain ⟨tilePx, rest, rfl⟩ := List.exists_cons_of_length_pos (show 0 < rest.length by omega)
  rw [List.length_cons] at less₆
  have last : rest.length = 8 := by omega
  refine ⟨{
    mode, flags, sessionId, sEphPub, nonce, oti
    plaintextLen := len.toU32
    codec := { symbolSize := symbolSize.toU16, palette, tilePx }
    buildHash := ⟨rest, last⟩ }, trivial, ?_⟩
  simp [Beacon.encode, framed, Octets.ofU32_toU32, Octets.ofU16_toU16]

theorem Reveal.layout {body : Bytes} (sized : body.length = 20) :
    ∃ reveal : Reveal, reveal.encode crates = framed crates FrameType.reveal body := by
  obtain ⟨sid4, rest, rfl, less⟩ := Octets.exists_front 4 (show 4 ≤ body.length by omega)
  have last : rest.length = 16 := by omega
  exact ⟨{ sid4, rNonce := ⟨rest, last⟩ }, by simp [Reveal.encode, framed]⟩

theorem Reveal.canonical : Canonical (Reveal.encode crates) (Reveal.decode crates) := by
  refine @canonical_of_layout _ _ _ (fun _ => True) (fun reveal _ => reveal.decode_encode crates) ?_
  intro bytes reveal decoded
  obtain ⟨body, rfl, sized⟩ := Reveal.decode_framed crates decoded
  obtain ⟨written, same⟩ := Reveal.layout crates sized
  exact ⟨written, trivial, same⟩

theorem SymbolFrame.canonical : Canonical (SymbolFrame.encode crates) (SymbolFrame.decode crates) := by
  refine canonical_of_layout (fun frame valid => frame.decode_encode crates valid) ?_
  intro bytes frame decoded
  rcases SymbolFrame.decode_cases crates bytes with
    ⟨error, refused⟩ | ⟨sid4, frameId, count, packetLen, rest, rfl⟩
  · simp [refused, fail] at decoded
  · rw [SymbolFrame.decode_framed] at decoded
    split at decoded
    · rename_i even
      have positive : 0 < packetLen.toU16.toNat := by
        by_contra zero
        simp [chunksExact, show packetLen.toU16.toNat = 0 by omega, panicked] at decoded
      obtain ⟨flat, number, sized⟩ := chunks_exact positive even
      have bound : (chunks packetLen.toU16.toNat rest).length ≤ 255 := by
        have byte := count.toNat_lt
        omega
      refine ⟨{
        sid4
        frameId := frameId.toU32
        packetLen := packetLen.toU16
        packets := chunks packetLen.toU16.toNat rest }, ⟨positive, bound, sized⟩, ?_⟩
      simp [SymbolFrame.encode, framed, symbolBody, flat, number, Octets.ofU32_toU32,
        Octets.ofU16_toU16]
    · simp [fail] at decoded

theorem Complete.decode_encode (complete : Complete) :
    Complete.decode crates (complete.encode crates) = .ok complete := by
  have opened := openFrame_framed crates (complete.sid4.bytes ++ [complete.status.toU8] ++
    complete.hash8.bytes) FrameType.complete (some completeLen)
    (by simp [RoomForFrame, completeLen]) (by simp [completeLen])
  rw [framed] at opened
  rw [Complete.decode, Complete.encode, opened]
  obtain ⟨sid4, status, hash8⟩ := complete
  cases status <;> simp [Status.toU8]

theorem framed_inj {ty : UInt8} {first second : Bytes} :
    framed crates ty first = framed crates ty second ↔ first = second := by
  constructor
  · intro same
    obtain ⟨buffers, -⟩ := List.append_inj' same (by simp)
    exact List.append_cancel_left buffers
  · rintro rfl
    rfl

def KnownStatus (byte : UInt8) : Prop := byte = 0x00 ∨ byte = 0x01 ∨ byte = 0x02

def readStatus (byte : UInt8) : Status :=
  if byte = 0x00 then .ok else if byte = 0x01 then .hashMismatch else .aborted

theorem readStatus_toU8 (byte : UInt8) : (readStatus byte).toU8 = byte ↔ KnownStatus byte := by
  unfold readStatus KnownStatus
  split_ifs with zero one
  · simp [zero, Status.toU8]
  · simp [one, Status.toU8]
  · simp [zero, one, Status.toU8, eq_comm]

theorem Complete.decode_body {body : Bytes} (sized : body.length = 13) :
    ∃ byte complete, (framed crates FrameType.complete body)[8]? = some byte ∧
      Complete.decode crates (framed crates FrameType.complete body) = .ok complete ∧
      complete.status = readStatus byte ∧
      body = complete.sid4.bytes ++ byte :: complete.hash8.bytes := by
  obtain ⟨sid4, rest, rfl, less⟩ := Octets.exists_front 4 (show 4 ≤ body.length by omega)
  obtain ⟨byte, rest, rfl⟩ := List.exists_cons_of_length_pos (show 0 < rest.length by omega)
  have last : rest.length = 8 := by simp at sized; omega
  have opened := openFrame_framed crates (sid4.bytes ++ byte :: rest) FrameType.complete
    (some completeLen) (by simp [RoomForFrame, completeLen]) (by simp [completeLen, last])
  have status : (index (sid4.bytes ++ byte :: rest) 4 : Outcome Error UInt8) = .ok byte := by simp
  have session : (Octets.sliceAt 4 (sid4.bytes ++ byte :: rest) 0 4 : Outcome Error (Octets 4)) =
      .ok sid4 := by simp
  have hash : (Octets.sliceAt 8 (sid4.bytes ++ byte :: rest) 5 13 : Outcome Error (Octets 8)) =
      .ok ⟨rest, last⟩ := by
    have whole : (Octets.sliceAt 8 rest 0 8 : Outcome Error (Octets 8)) = .ok ⟨rest, last⟩ :=
      Octets.sliceAt_whole (⟨rest, last⟩ : Octets 8)
    simpa using whole
  refine ⟨byte, { sid4, status := readStatus byte, hash8 := ⟨rest, last⟩ },
    by simp [framed, sealCrc, commonHeader, magic], ?_, rfl, rfl⟩
  rw [Complete.decode, opened, ok_bind, status, session, hash]
  rfl

/-- The ninth byte of a COMPLETE frame is its status: three values of it are written back the same,
and every other one is read as an abort. -/
theorem Complete.decode_status {bytes : Bytes} {complete : Complete}
    (decoded : Complete.decode crates bytes = .ok complete) :
    ∃ byte, bytes[8]? = some byte ∧ (complete.encode crates = bytes ↔ KnownStatus byte) ∧
      (¬KnownStatus byte → complete.status = .aborted) := by
  obtain ⟨body, rfl, sized⟩ := Complete.decode_framed crates decoded
  obtain ⟨byte, other, here, again, status, rfl⟩ := Complete.decode_body crates sized
  obtain rfl : other = complete := Except.ok.inj (again.symm.trans decoded)
  refine ⟨byte, here, ?_, fun unknown => ?_⟩
  · rw [← readStatus_toU8, Complete.encode, ← framed, framed_inj, status]
    simp
  · simp only [KnownStatus, not_or] at unknown
    simp [status, readStatus, unknown]

/-! Which decoder accepts. -/

inductive Accepts (bytes : Bytes) : UInt8 → Prop
  | pairReq (req) : PairReq.decode crates bytes = .ok req → Accepts bytes FrameType.pairReq
  | beacon (beacon) : Beacon.decode crates bytes = .ok beacon → Accepts bytes FrameType.beacon
  | symbol (frame) : SymbolFrame.decode crates bytes = .ok frame → Accepts bytes FrameType.symbol
  | complete (complete) : Complete.decode crates bytes = .ok complete →
      Accepts bytes FrameType.complete
  | reveal (reveal) : Reveal.decode crates bytes = .ok reveal → Accepts bytes FrameType.reveal

theorem SymbolFrame.decode_framed_of_ok {bytes : Bytes} {frame : SymbolFrame}
    (decoded : SymbolFrame.decode crates bytes = .ok frame) :
    ∃ body, bytes = framed crates FrameType.symbol body := by
  rcases SymbolFrame.decode_cases crates bytes with ⟨error, refused⟩ | ⟨_, _, _, _, _, same⟩
  · simp [refused, fail] at decoded
  · exact ⟨_, same⟩

theorem Accepts.peekType {bytes : Bytes} {ty : UInt8} (accepts : Accepts crates bytes ty) :
    peekType bytes = .ok ty := by
  have framing : ∃ body, bytes = framed crates ty body := by
    cases accepts with
    | pairReq req decoded =>
        obtain ⟨body, same, -⟩ := PairReq.decode_framed crates decoded
        exact ⟨body, same⟩
    | beacon beacon decoded =>
        obtain ⟨body, mode, same, -⟩ := Beacon.decode_framed crates decoded
        exact ⟨body, same⟩
    | symbol frame decoded => exact SymbolFrame.decode_framed_of_ok crates decoded
    | complete complete decoded =>
        obtain ⟨body, same, -⟩ := Complete.decode_framed crates decoded
        exact ⟨body, same⟩
    | reveal reveal decoded =>
        obtain ⟨body, same, -⟩ := Reveal.decode_framed crates decoded
        exact ⟨body, same⟩
  obtain ⟨body, rfl⟩ := framing
  exact peekType_framed crates ty body

theorem Accepts.unique {bytes : Bytes} {first second : UInt8} (one : Accepts crates bytes first)
    (other : Accepts crates bytes second) : first = second :=
  Except.ok.inj ((Accepts.peekType crates one).symm.trans (Accepts.peekType crates other))

/-- Every frame reads back as it was written; what a decoder accepts is written back as it was read,
a COMPLETE frame exactly when its status byte is one of the three, and read as an abort when it is
not; and bytes are accepted by one decoder at most, whose type is the one peeked at. -/
theorem format_unambiguous :
    (RoundTrips (PairReq.encode crates) (PairReq.decode crates) (fun _ => True) ∧
      RoundTrips (Beacon.encode crates) (Beacon.decode crates) (fun _ => True) ∧
      RoundTrips (Complete.encode crates) (Complete.decode crates) (fun _ => True) ∧
      RoundTrips (Reveal.encode crates) (Reveal.decode crates) (fun _ => True) ∧
      RoundTrips (SymbolFrame.encode crates) (SymbolFrame.decode crates) SymbolFrame.WellFormed) ∧
    (Canonical (PairReq.encode crates) (PairReq.decode crates) ∧
      Canonical (Beacon.encode crates) (Beacon.decode crates) ∧
      Canonical (Reveal.encode crates) (Reveal.decode crates) ∧
      Canonical (SymbolFrame.encode crates) (SymbolFrame.decode crates)) ∧
    (∀ bytes complete, Complete.decode crates bytes = .ok complete →
      ∃ byte, bytes[8]? = some byte ∧ (complete.encode crates = bytes ↔ KnownStatus byte) ∧
        (¬KnownStatus byte → complete.status = .aborted)) ∧
    (∀ bytes first second, Accepts crates bytes first → Accepts crates bytes second →
      first = second) ∧
    ∀ bytes ty, Accepts crates bytes ty → peekType bytes = .ok ty := by
  refine ⟨⟨?_, ?_, ?_, ?_, ?_⟩, ⟨?_, ?_, ?_, ?_⟩, ?_, ?_, ?_⟩
  · exact fun req _ => req.decode_encode crates
  · exact fun beacon _ => beacon.decode_encode crates
  · exact fun complete _ => complete.decode_encode crates
  · exact fun reveal _ => reveal.decode_encode crates
  · exact fun frame valid => frame.decode_encode crates valid
  · exact PairReq.canonical crates
  · exact Beacon.canonical crates
  · exact Reveal.canonical crates
  · exact SymbolFrame.canonical crates
  · exact fun bytes complete decoded => Complete.decode_status crates decoded
  · exact fun bytes first second => Accepts.unique crates
  · exact fun bytes ty => Accepts.peekType crates

end Rabaska.Wire
