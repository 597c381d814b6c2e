import Rabaska.WireCore

/-! Round trips of the frame codecs, and what the decoders do on arbitrary bytes. -/

namespace Rabaska.Wire

open Call

variable (crates : Crates)

@[simp] theorem length_sealCrc (buf : Bytes) : (sealCrc crates buf).length = buf.length + 4 := by
  simp [sealCrc]

@[simp] theorem length_commonHeader (ty : UInt8) : (commonHeader ty).length = 4 := rfl

def framed (ty : UInt8) (body : Bytes) : Bytes := sealCrc crates (commonHeader ty ++ body)

@[simp] theorem length_framed (ty : UInt8) (body : Bytes) :
    (framed crates ty body).length = body.length + 8 := by
  simp [framed]
  omega

theorem openFrame_eq (bytes : Bytes) (ty : UInt8) (wantLen : Option Nat)
    (floor : 8 ≤ bytes.length) (accepted : checkLen wantLen bytes.length = .ok ()) :
    openFrame crates bytes ty wantLen =
      (let got := Octets.toU32 ⟨bytes.drop (bytes.length - 4), by simp; omega⟩
       let expected := crates.crc32 (bytes.take (bytes.length - 4))
       if bytes.take 2 = magic then
         if bytes[2] = version then
           if bytes[3] = ty then
             if expected = got then .ok ((bytes.take (bytes.length - 4)).drop 4)
             else fail (.badCrc expected got)
           else fail (.badFrameType bytes[3])
         else fail (.badVersion bytes[2])
       else fail .badMagic) := by
  have whole : bytes.take bytes.length = bytes := List.take_length
  simp only [openFrame, accepted, ok_bind, ensure_bind,
    slice_ok (Nat.zero_le 2) (show 2 ≤ bytes.length by omega),
    index_ok (show 2 < bytes.length by omega), index_ok (show 3 < bytes.length by omega),
    sub_ok (show 4 ≤ bytes.length by omega),
    slice_ok (Nat.zero_le _) (show bytes.length - 4 ≤ bytes.length by omega),
    Octets.sliceAt_ok (Nat.le_refl bytes.length) (show bytes.length - 4 + 4 = bytes.length by omega),
    slice_ok (show 4 ≤ bytes.length - 4 by omega) (show bytes.length - 4 ≤ bytes.length by omega),
    List.drop_zero, whole]

theorem checkLen_ok {wantLen : Option Nat} {got : Nat} (floor : 8 ≤ got)
    (wanted : ∀ n ∈ wantLen, got = n) : checkLen wantLen got = .ok () := by
  cases wantLen with
  | none => simp [checkLen, ensure, floor]
  | some n => simp [checkLen, ensure, wanted n rfl]

theorem checkLen_cases (wantLen : Option Nat) (got : Nat) :
    (∃ error, checkLen wantLen got = fail error) ∨
      checkLen wantLen got = .ok () ∧ (∀ n ∈ wantLen, got = n) ∧ (wantLen = none → 8 ≤ got) := by
  cases wantLen with
  | none =>
      by_cases floor : 8 ≤ got
      · exact .inr (by simp [checkLen, ensure, floor])
      · exact .inl ⟨_, by simp only [checkLen, ensure, floor, if_false]; rfl⟩
  | some n =>
      by_cases same : got = n
      · exact .inr (by simp [checkLen, ensure, same])
      · exact .inl ⟨_, by simp only [checkLen, ensure, same, if_false]; rfl⟩

def RoomForFrame (wantLen : Option Nat) : Prop := ∀ n ∈ wantLen, 8 ≤ n

theorem openFrame_not_panics (bytes : Bytes) (ty : UInt8) (wantLen : Option Nat)
    (room : RoomForFrame wantLen) : ¬Panics (openFrame crates bytes ty wantLen) := by
  rcases checkLen_cases wantLen bytes.length with ⟨error, rejected⟩ | ⟨accepted, wanted, floor⟩
  · simp [openFrame, rejected]
  · have bound : 8 ≤ bytes.length := by
      cases wantLen with
      | none => exact floor rfl
      | some n => rw [wanted n rfl]; exact room n rfl
    rw [openFrame_eq crates bytes ty wantLen bound accepted]
    dsimp only
    split_ifs <;> simp

theorem take_header (bytes : Bytes) (floor : 4 ≤ bytes.length) :
    bytes.take 4 = bytes.take 2 ++ [bytes[2], bytes[3]] :=
  match bytes, floor with
  | _ :: _ :: _ :: _ :: _, _ => rfl

theorem openFrame_eq_ok_iff (bytes body : Bytes) (ty : UInt8) (wantLen : Option Nat)
    (room : RoomForFrame wantLen) :
    openFrame crates bytes ty wantLen = .ok body ↔
      bytes = framed crates ty body ∧ ∀ n ∈ wantLen, bytes.length = n := by
  constructor
  · intro opened
    rcases checkLen_cases wantLen bytes.length with ⟨error, rejected⟩ | ⟨accepted, wanted, floor⟩
    · simp [openFrame, rejected, fail] at opened
    · refine ⟨?_, wanted⟩
      have bound : 8 ≤ bytes.length := by
        cases wantLen with
        | none => exact floor rfl
        | some n => rw [wanted n rfl]; exact room n rfl
      rw [openFrame_eq crates bytes ty wantLen bound accepted] at opened
      dsimp only at opened
      split_ifs at opened with isMagic isVersion isType sealed <;> try simp [fail] at opened
      have header : bytes.take 4 = commonHeader ty := by
        rw [take_header bytes (by omega), isMagic, isVersion, isType, commonHeader]
      have covered : bytes.take (bytes.length - 4) = commonHeader ty ++ body := by
        have cut := List.take_append_drop 4 (bytes.take (bytes.length - 4))
        rw [List.take_take, Nat.min_eq_left (by omega), header, opened] at cut
        exact cut.symm
      have trailer : Octets.ofU32 (crates.crc32 (bytes.take (bytes.length - 4))) =
          ⟨bytes.drop (bytes.length - 4), by simp; omega⟩ := by
        rw [sealed, Octets.ofU32_toU32]
      rw [covered] at trailer
      rw [framed, sealCrc, trailer, ← covered, List.take_append_drop]
  · rintro ⟨rfl, wanted⟩
    have accepted : checkLen wantLen (framed crates ty body).length = .ok () :=
      checkLen_ok (by simp) wanted
    rw [openFrame_eq crates _ ty wantLen (by simp) accepted]
    have cut : (framed crates ty body).length - 4 = (commonHeader ty ++ body).length := by
      simp
      omega
    have front : (framed crates ty body).take ((framed crates ty body).length - 4) =
        commonHeader ty ++ body := by
      rw [cut, framed, sealCrc, List.take_left]
    have back : (framed crates ty body).drop ((framed crates ty body).length - 4) =
        (Octets.ofU32 (crates.crc32 (commonHeader ty ++ body))).bytes := by
      rw [cut, framed, sealCrc, List.drop_left]
    simp only [front, back, Octets.mk_bytes, Octets.toU32_ofU32]
    simp [framed, sealCrc, commonHeader, magic]

theorem openFrame_framed (body : Bytes) (ty : UInt8) (wantLen : Option Nat)
    (room : RoomForFrame wantLen) (wanted : ∀ n ∈ wantLen, body.length + 8 = n) :
    openFrame crates (framed crates ty body) ty wantLen = .ok body :=
  (openFrame_eq_ok_iff crates _ body ty wantLen room).mpr ⟨rfl, by simpa using wanted⟩

/-! Each decoder reads back what its encoder wrote. -/

@[simp] theorem Mode.fromU8_toU8 (mode : Mode) : Mode.fromU8 mode.toU8 = .ok mode := by
  cases mode <;> rfl

theorem Mode.toU8_inj {first second : Mode} (same : first.toU8 = second.toU8) : first = second := by
  have read := congrArg Mode.fromU8 same
  simpa using read

theorem PairReq.decode_encode (req : PairReq) :
    PairReq.decode crates (req.encode crates) = .ok req := by
  have opened := openFrame_framed crates ([req.flags] ++ req.sessionId.bytes ++ req.rEphPub.bytes ++
    req.idHint.bytes ++ req.rCommit.bytes) FrameType.pairReq (some pairReqLen)
    (by simp [RoomForFrame, pairReqLen]) (by simp [pairReqLen])
  rw [framed] at opened
  rw [PairReq.decode, PairReq.encode, opened]
  simp

theorem Beacon.decode_encode (beacon : Beacon) :
    Beacon.decode crates (beacon.encode crates) = .ok beacon := by
  have opened := openFrame_framed crates ([beacon.mode.toU8] ++ [beacon.flags] ++
    beacon.sessionId.bytes ++ beacon.sEphPub.bytes ++ beacon.nonce.bytes ++
    (Octets.ofU32 beacon.plaintextLen).bytes ++ beacon.oti.bytes ++
    (Octets.ofU16 beacon.codec.symbolSize).bytes ++ [beacon.codec.palette] ++
    [beacon.codec.tilePx] ++ beacon.buildHash.bytes) FrameType.beacon (some beaconLen)
    (by simp [RoomForFrame, beaconLen]) (by simp [beaconLen])
  rw [framed] at opened
  rw [Beacon.decode, Beacon.encode, opened]
  simp

theorem Reveal.decode_encode (reveal : Reveal) :
    Reveal.decode crates (reveal.encode crates) = .ok reveal := by
  have opened := openFrame_framed crates (reveal.sid4.bytes ++ reveal.rNonce.bytes)
    FrameType.reveal (some revealLen) (by simp [RoomForFrame, revealLen]) (by simp [revealLen])
  rw [framed] at opened
  rw [Reveal.decode, Reveal.encode, opened]
  simp

def symbolBody (sid4 frameId : Octets 4) (count : UInt8) (packetLen : Octets 2) (rest : Bytes) :
    Bytes :=
  sid4.bytes ++ (frameId.bytes ++ (count :: (packetLen.bytes ++ rest)))

@[simp] theorem length_symbolBody (sid4 frameId : Octets 4) (count : UInt8)
    (packetLen : Octets 2) (rest : Bytes) :
    (symbolBody sid4 frameId count packetLen rest).length = rest.length + 11 := by
  simp [symbolBody]
  omega

theorem SymbolFrame.decode_framed (sid4 frameId : Octets 4) (count : UInt8)
    (packetLen : Octets 2) (rest : Bytes) :
    SymbolFrame.decode crates
        (framed crates FrameType.symbol (symbolBody sid4 frameId count packetLen rest)) =
      if rest.length = count.toNat * packetLen.toU16.toNat then
        chunksExact packetLen.toU16.toNat rest >>= fun packets =>
          .ok { sid4, frameId := frameId.toU32, packetLen := packetLen.toU16, packets }
      else fail (.truncated (count.toNat * packetLen.toU16.toNat + 19) (rest.length + 19)) := by
  have opened := openFrame_framed crates (symbolBody sid4 frameId count packetLen rest)
    FrameType.symbol none (by simp [RoomForFrame]) (by simp)
  have behind : (slice (symbolBody sid4 frameId count packetLen rest) 11 (rest.length + 11) :
      Outcome Error Bytes) = .ok rest := by
    rw [slice_ok (by omega) (by simp), List.take_of_length_le (by simp)]
    simp [symbolBody, List.drop_append, List.drop_eq_nil_of_le]
  rw [SymbolFrame.decode, opened]
  simp only [length_framed, length_symbolBody, ensure_bind, symbolOverhead, ok_bind,
    show 19 ≤ rest.length + 11 + 8 by omega, if_true]
  rw [show (Octets.sliceAt 4 (symbolBody sid4 frameId count packetLen rest) 0 4 :
      Outcome Error (Octets 4)) = .ok sid4 by simp [symbolBody]]
  rw [show (Octets.sliceAt 4 (symbolBody sid4 frameId count packetLen rest) 4 8 :
      Outcome Error (Octets 4)) = .ok frameId by simp [symbolBody]]
  rw [show (index (symbolBody sid4 frameId count packetLen rest) 8 : Outcome Error UInt8) =
      .ok count by simp [symbolBody]]
  rw [show (Octets.sliceAt 2 (symbolBody sid4 frameId count packetLen rest) 9 11 :
      Outcome Error (Octets 2)) = .ok packetLen by simp [symbolBody]]
  simp only [ok_bind, behind]
  by_cases matched : rest.length = count.toNat * packetLen.toU16.toNat
  · rw [if_pos (by omega), if_pos matched]
  · rw [if_neg (by omega), if_neg matched]
    congr 2
    omega

theorem SymbolFrame.decode_cases (bytes : Bytes) :
    (∃ error, SymbolFrame.decode crates bytes = fail error) ∨
      ∃ sid4 frameId count packetLen rest,
        bytes = framed crates FrameType.symbol (symbolBody sid4 frameId count packetLen rest) := by
  by_cases floor : symbolOverhead ≤ bytes.length
  · cases opened : openFrame crates bytes FrameType.symbol none with
    | error fault =>
        cases fault with
        | panic =>
            exact absurd opened (openFrame_not_panics crates bytes _ none (by simp [RoomForFrame]))
        | err error => exact .inl ⟨error, by simp [SymbolFrame.decode, floor, opened, fail]⟩
    | ok body =>
        obtain ⟨same, -⟩ := (openFrame_eq_ok_iff crates bytes body _ none
          (by simp [RoomForFrame])).mp opened
        have room : 11 ≤ body.length := by
          have total := congrArg List.length same
          rw [length_framed] at total
          simp only [symbolOverhead] at floor
          omega
        refine .inr ⟨⟨body.take 4, by simp; omega⟩, ⟨(body.drop 4).take 4, by simp; omega⟩,
          body[8], ⟨(body.drop 9).take 2, by simp; omega⟩, body.drop 11, ?_⟩
        rw [same]
        congr 1
        simp only [symbolBody]
        rw [show body.drop 11 = (body.drop 9).drop 2 by simp, List.take_append_drop,
          ← List.drop_eq_getElem_cons, show body.drop 8 = (body.drop 4).drop 4 by simp,
          List.take_append_drop, List.take_append_drop]
  · exact .inl ⟨_, by simp only [SymbolFrame.decode, ensure_bind, floor, if_false]; rfl⟩

/-- What the transmitter puts in a symbol frame: at most 255 packets, all of the one declared
length, which is not zero. -/
structure SymbolFrame.WellFormed (frame : SymbolFrame) : Prop where
  positive : 0 < frame.packetLen.toNat
  count : frame.packets.length ≤ 255
  sized : ∀ packet ∈ frame.packets, packet.length = frame.packetLen.toNat

theorem SymbolFrame.encode_framed (frame : SymbolFrame) :
    frame.encode crates = framed crates FrameType.symbol
      (symbolBody frame.sid4 (Octets.ofU32 frame.frameId) (UInt8.ofNat frame.packets.length)
        (Octets.ofU16 frame.packetLen) frame.packets.flatten) := by
  simp [SymbolFrame.encode, framed, symbolBody]

theorem length_flatten_sized {packets : List Bytes} {len : Nat}
    (sized : ∀ packet ∈ packets, packet.length = len) :
    packets.flatten.length = packets.length * len := by
  rw [List.length_flatten, List.map_congr_left sized]
  simp

theorem toNat_count {count : Nat} (bound : count ≤ 255) : (UInt8.ofNat count).toNat = count := by
  rw [UInt8.toNat_ofNat']
  omega

theorem SymbolFrame.decode_encode (frame : SymbolFrame) (wellFormed : frame.WellFormed) :
    SymbolFrame.decode crates (frame.encode crates) = .ok frame := by
  obtain ⟨positive, count, sized⟩ := wellFormed
  rw [encode_framed, SymbolFrame.decode_framed, toNat_count count, Octets.toU16_ofU16,
    if_pos (length_flatten_sized sized), chunksExact, if_neg (by omega),
    chunks_flatten _ positive _ sized, ok_bind, Octets.toU32_ofU32]

/-- Packets of one length whose length is declared modulo 2^16 come back as they are, or not at
all. -/
theorem SymbolFrame.decode_uniform {frame decoded : SymbolFrame} {len : Nat} (kept : frame.packets ≠ [])
    (count : frame.packets.length ≤ 255) (sized : ∀ packet ∈ frame.packets, packet.length = len)
    (declared : frame.packetLen.toNat = len % 2 ^ 16)
    (accepted : SymbolFrame.decode crates (frame.encode crates) = .ok decoded) : decoded = frame := by
  have number : 0 < frame.packets.length := List.length_pos_iff.mpr kept
  have read := accepted
  rw [encode_framed, SymbolFrame.decode_framed, toNat_count count, Octets.toU16_ofU16,
    length_flatten_sized sized] at read
  split at read
  · rename_i matched
    have exact : frame.packetLen.toNat = len := (Nat.eq_of_mul_eq_mul_left number matched).symm
    have positive : 0 < frame.packetLen.toNat := by
      by_contra zero
      simp [chunksExact, show frame.packetLen.toNat = 0 by omega, panicked] at read
    have wellFormed : frame.WellFormed := ⟨positive, count, fun p member => by rw [sized p member, exact]⟩
    exact Except.ok.inj (accepted.symm.trans (frame.decode_encode crates wellFormed))
  · simp [fail] at read

theorem peekType_framed (ty : UInt8) (body : Bytes) : peekType (framed crates ty body) = .ok ty := by
  have floor : 4 ≤ (framed crates ty body).length := by simp
  have mark : (slice (framed crates ty body) 0 2 : Outcome Error Bytes) = .ok magic := by
    rw [slice_ok (by omega) (by omega)]
    simp [framed, sealCrc, commonHeader, magic]
  rw [peekType, ensure_bind, if_pos floor, mark]
  rfl

/-! Which bytes make a decoder panic. -/

theorem peekType_not_panics (bytes : Bytes) : ¬Panics (peekType bytes) := by
  by_cases floor : 4 ≤ bytes.length
  · simp only [peekType, ensure_bind, floor, if_true, ok_bind, slice_ok (Nat.zero_le 2)
      (show 2 ≤ bytes.length by omega), index_ok (show 2 < bytes.length by omega),
      index_ok (show 3 < bytes.length by omega)]
    split_ifs <;> simp
  · simp [peekType, floor]

theorem fixed_not_panics {α : Type} (bytes : Bytes) (ty : UInt8) (n : Nat) (room : 8 ≤ n)
    (read : Bytes → Outcome Error α) (reads : ∀ body, body.length + 8 = n → ¬Panics (read body)) :
    ¬Panics (openFrame crates bytes ty (some n) >>= read) := by
  have wide : RoomForFrame (some n) := by simpa [RoomForFrame] using room
  rw [panics_bind]
  rintro (opening | ⟨body, opened, reading⟩)
  · exact openFrame_not_panics crates bytes ty (some n) wide opening
  · obtain ⟨same, sized⟩ := (openFrame_eq_ok_iff crates bytes body ty (some n) wide).mp opened
    have total := sized n rfl
    rw [same, length_framed] at total
    exact reads body total reading

theorem PairReq.decode_not_panics (bytes : Bytes) : ¬Panics (PairReq.decode crates bytes) := by
  apply fixed_not_panics crates bytes _ _ (by decide)
  intro body sized
  simp only [pairReqLen] at sized
  simp (disch := omega) only [index_ok, Octets.sliceAt_ok, ok_bind, not_panics_ok, not_false_eq_true]

theorem Mode.fromU8_not_panics (v : UInt8) : ¬Panics (Mode.fromU8 v) := by
  unfold Mode.fromU8
  split_ifs <;> simp

theorem Beacon.decode_not_panics (bytes : Bytes) : ¬Panics (Beacon.decode crates bytes) := by
  apply fixed_not_panics crates bytes _ _ (by decide)
  intro body sized
  simp only [beaconLen] at sized
  rw [index_ok (show 0 < body.length by omega), ok_bind, panics_bind]
  rintro (badMode | ⟨mode, -, reading⟩)
  · exact Mode.fromU8_not_panics _ badMode
  · simp (disch := omega) only [index_ok, Octets.sliceAt_ok, ok_bind, not_panics_ok] at reading

theorem Complete.decode_not_panics (bytes : Bytes) : ¬Panics (Complete.decode crates bytes) := by
  apply fixed_not_panics crates bytes _ _ (by decide)
  intro body sized
  simp only [completeLen] at sized
  simp (disch := omega) only [index_ok, Octets.sliceAt_ok, ok_bind, not_panics_ok, not_false_eq_true]

theorem Reveal.decode_not_panics (bytes : Bytes) : ¬Panics (Reveal.decode crates bytes) := by
  apply fixed_not_panics crates bytes _ _ (by decide)
  intro body sized
  simp only [revealLen] at sized
  simp (disch := omega) only [Octets.sliceAt_ok, ok_bind, not_panics_ok, not_false_eq_true]

/-- A sealed SYMBOL frame that declares packets of length zero and ends right behind the
declaration, whatever it declares as their number. -/
def DeclaresEmptyPackets (bytes : Bytes) : Prop :=
  ∃ sid4 frameId count,
    bytes = framed crates FrameType.symbol (symbolBody sid4 frameId count (Octets.replicate 2 0) [])

theorem SymbolFrame.decode_panics_iff (bytes : Bytes) :
    Panics (SymbolFrame.decode crates bytes) ↔ DeclaresEmptyPackets crates bytes := by
  constructor
  · intro panics
    rcases SymbolFrame.decode_cases crates bytes with
      ⟨error, refused⟩ | ⟨sid4, frameId, count, packetLen, rest, rfl⟩
    · rw [refused] at panics
      exact absurd panics (not_panics_fail error)
    · rw [SymbolFrame.decode_framed] at panics
      split at panics
      · rename_i matched
        rw [panics_bind, panics_chunksExact] at panics
        obtain zero | ⟨packets, -, impossible⟩ := panics
        · have empty : rest = [] := by simpa [zero] using matched
          have nothing : packetLen = Octets.replicate 2 0 := by
            have read : packetLen.toU16 = 0 := UInt16.toNat_inj.mp zero
            rw [← Octets.ofU16_toU16 packetLen, read]
            rfl
          exact ⟨sid4, frameId, count, by rw [empty, nothing]⟩
        · exact absurd impossible (not_panics_ok _)
      · exact absurd panics (not_panics_fail _)
  · rintro ⟨sid4, frameId, count, rfl⟩
    have zero : (Octets.replicate 2 0).toU16 = 0 := rfl
    rw [SymbolFrame.decode_framed, zero]
    simp [chunksExact, panicked, Panics]

/-- Every frame decoder returns on these bytes, with a frame or an error. -/
def DecodersReturn (bytes : Bytes) : Prop :=
  ¬Panics (peekType bytes) ∧ ¬Panics (PairReq.decode crates bytes) ∧
    ¬Panics (Beacon.decode crates bytes) ∧ ¬Panics (SymbolFrame.decode crates bytes) ∧
    ¬Panics (Complete.decode crates bytes) ∧ ¬Panics (Reveal.decode crates bytes)

/-- No frame decoder panics on bytes that do not declare packets of length zero, and on those the
symbol decoder does: `chunks_exact(0)` is reached with the packet length unchecked. -/
theorem decoders_return_iff (bytes : Bytes) :
    DecodersReturn crates bytes ↔ ¬DeclaresEmptyPackets crates bytes := by
  rw [← SymbolFrame.decode_panics_iff]
  constructor
  · rintro ⟨-, -, -, returned, -⟩
    exact returned
  · intro returned
    exact ⟨peekType_not_panics bytes, PairReq.decode_not_panics crates bytes,
      Beacon.decode_not_panics crates bytes, returned, Complete.decode_not_panics crates bytes,
      Reveal.decode_not_panics crates bytes⟩

/-- Nineteen bytes with a right CRC that declare seven packets of length zero. -/
theorem symbol_decode_panics :
    ¬DecodersReturn Crates.sample
      [0x52, 0x42, 0x02, 0x03, 0x01, 0x02, 0x03, 0x04, 0x00, 0x00, 0x00, 0x00, 0x07, 0x00, 0x00,
        0xE4, 0x29, 0x2A, 0x3B] := by
  rintro ⟨-, -, -, returned, -⟩
  revert returned
  decide +kernel

end Rabaska.Wire
