import Rabaska.Library.Call

/-!
Byte strings, byte arrays of a fixed length, and the little-endian bytes of a number.
-/

abbrev Bytes := List UInt8

/-- `[u8; n]`: bytes together with the proof that there are `n` of them. -/
structure Octets (n : Nat) where
  bytes : Bytes
  length_eq : bytes.length = n
  deriving DecidableEq, Repr

namespace Octets

open Call

variable {ε : Type} {n m : Nat}

attribute [simp] Octets.length_eq

@[ext] theorem ext {first second : Octets n} (same : first.bytes = second.bytes) :
    first = second := by
  cases first
  cases second
  simpa using same

theorem bytes_inj {first second : Octets n} : first.bytes = second.bytes ↔ first = second :=
  ⟨Octets.ext, congrArg Octets.bytes⟩

@[simp] theorem mk_bytes (octets : Octets n) (sized : octets.bytes.length = n) :
    (⟨octets.bytes, sized⟩ : Octets n) = octets := rfl

def replicate (n : Nat) (byte : UInt8) : Octets n := ⟨List.replicate n byte, List.length_replicate⟩

def take (octets : Octets n) (k : Nat) (bound : k ≤ n := by decide) : Octets k :=
  ⟨octets.bytes.take k, by simp [bound]⟩

/-- `try_into().unwrap()` from a slice to an array, which panics on any other length. -/
def ofSlice (n : Nat) (bytes : Bytes) : Outcome ε (Octets n) :=
  if sized : bytes.length = n then .ok ⟨bytes, sized⟩ else panicked

def sliceAt (n : Nat) (bytes : Bytes) (start stop : Nat) : Outcome ε (Octets n) :=
  slice bytes start stop >>= ofSlice n

theorem ofSlice_bytes (octets : Octets n) :
    (ofSlice n octets.bytes : Outcome ε (Octets n)) = .ok octets := by
  simp [ofSlice]

theorem failsWith_sliceAt {Said : ε → Prop} (n : Nat) (bytes : Bytes) (start stop : Nat) :
    FailsWith Said (sliceAt n bytes start stop : Outcome ε (Octets n)) := by
  refine (failsWith_slice bytes start stop).bind fun part => ?_
  unfold ofSlice
  split
  · exact failsWith_ok _
  · exact failsWith_panicked

/-! Reading a layout of arrays and single bytes, from the front. -/

@[simp] theorem sliceAt_here (octets : Octets n) (rest : Bytes) :
    (sliceAt n (octets.bytes ++ rest) 0 n : Outcome ε (Octets n)) = .ok octets := by
  rw [sliceAt, slice_ok (Nat.zero_le n) (by simp), ok_bind, List.drop_zero,
    List.take_left' octets.length_eq, ofSlice_bytes]

@[simp] theorem sliceAt_whole (octets : Octets n) :
    (sliceAt n octets.bytes 0 n : Outcome ε (Octets n)) = .ok octets := by
  have here : (sliceAt n (octets.bytes ++ []) 0 n : Outcome ε (Octets n)) = .ok octets :=
    sliceAt_here octets []
  rwa [List.append_nil] at here

@[simp] theorem sliceAt_skip (front : Octets m) (rest : Bytes) {start stop : Nat}
    (past : m ≤ start) (ordered : start ≤ stop) :
    (sliceAt n (front.bytes ++ rest) start stop : Outcome ε (Octets n)) =
      sliceAt n rest (start - m) (stop - m) := by
  simp [sliceAt, slice_skip front.bytes rest (by simpa using past) ordered]

@[simp] theorem sliceAt_cons (byte : UInt8) (rest : Bytes) {start stop : Nat}
    (past : 1 ≤ start) (ordered : start ≤ stop) :
    (sliceAt n (byte :: rest) start stop : Outcome ε (Octets n)) =
      sliceAt n rest (start - 1) (stop - 1) := by
  rw [sliceAt, sliceAt]
  exact congrArg (· >>= ofSlice n) (slice_skip [byte] rest past ordered)

@[simp] theorem index_octets (front : Octets m) (rest : Bytes) {position : Nat}
    (past : m ≤ position) :
    (index (front.bytes ++ rest) position : Outcome ε UInt8) = index rest (position - m) := by
  rw [index_skip front.bytes rest (by simpa using past), front.length_eq]

theorem sliceAt_ok {bytes : Bytes} {start stop : Nat} (bound : stop ≤ bytes.length)
    (width : start + n = stop) :
    (sliceAt n bytes start stop : Outcome ε (Octets n)) =
      .ok ⟨(bytes.take stop).drop start, by simp; omega⟩ := by
  rw [sliceAt, slice_ok (by omega) bound, ok_bind, ofSlice, dif_pos]

theorem append_inj {first second : Octets n} {rest other : Bytes} :
    first.bytes ++ rest = second.bytes ++ other ↔ first = second ∧ rest = other := by
  constructor
  · intro same
    obtain ⟨heads, tails⟩ := List.append_inj same (by simp)
    exact ⟨Octets.ext heads, tails⟩
  · rintro ⟨rfl, rfl⟩
    rfl

theorem exists_front (n : Nat) {bytes : Bytes} (room : n ≤ bytes.length) :
    ∃ (front : Octets n) (rest : Bytes), bytes = front.bytes ++ rest ∧
      rest.length = bytes.length - n :=
  ⟨⟨bytes.take n, by simp [room]⟩, bytes.drop n, (List.take_append_drop n bytes).symm,
    List.length_drop⟩

end Octets

/-! Little-endian numbers. -/

namespace LittleEndian

def encode : Nat → Nat → Bytes
  | 0, _ => []
  | width + 1, value => UInt8.ofNat value :: encode width (value / 256)

def decode : Bytes → Nat
  | [] => 0
  | byte :: rest => byte.toNat + 256 * decode rest

@[simp] theorem length_encode (width value : Nat) : (encode width value).length = width := by
  induction width generalizing value with
  | zero => rfl
  | succ width ih => simp [encode, ih]

theorem decode_encode (width value : Nat) : decode (encode width value) = value % 256 ^ width := by
  induction width generalizing value with
  | zero => simp [encode, decode, Nat.mod_one]
  | succ width ih =>
      have split : value % (256 * 256 ^ width) =
          value % 256 + 256 * (value / 256 % 256 ^ width) := Nat.mod_mul
      simp only [encode, decode, ih, UInt8.toNat_ofNat', Nat.pow_succ']
      simpa using split.symm

theorem decode_lt (bytes : Bytes) : decode bytes < 256 ^ bytes.length := by
  induction bytes with
  | nil => simp [decode]
  | cons byte rest ih =>
      have bound := byte.toNat_lt
      simp only [decode, List.length_cons, Nat.pow_succ']
      omega

theorem encode_decode (bytes : Bytes) : encode bytes.length (decode bytes) = bytes := by
  induction bytes with
  | nil => rfl
  | cons byte rest ih =>
      have bound := byte.toNat_lt
      have high : (byte.toNat + 256 * decode rest) / 256 = decode rest := by omega
      have low : UInt8.ofNat (byte.toNat + 256 * decode rest) = byte := by
        rw [← UInt8.toNat_inj, UInt8.toNat_ofNat']
        omega
      simp only [List.length_cons, decode, encode, high, low, ih]

end LittleEndian

namespace Octets

def ofU16 (value : UInt16) : Octets 2 := ⟨LittleEndian.encode 2 value.toNat, by simp⟩

def toU16 (octets : Octets 2) : UInt16 := UInt16.ofNat (LittleEndian.decode octets.bytes)

def ofU32 (value : UInt32) : Octets 4 := ⟨LittleEndian.encode 4 value.toNat, by simp⟩

def toU32 (octets : Octets 4) : UInt32 := UInt32.ofNat (LittleEndian.decode octets.bytes)

@[simp] theorem toU16_ofU16 (value : UInt16) : (ofU16 value).toU16 = value := by
  have bound := value.toNat_lt
  rw [← UInt16.toNat_inj]
  simp only [toU16, ofU16, LittleEndian.decode_encode, UInt16.toNat_ofNat']
  omega

@[simp] theorem toU32_ofU32 (value : UInt32) : (ofU32 value).toU32 = value := by
  have bound := value.toNat_lt
  rw [← UInt32.toNat_inj]
  simp only [toU32, ofU32, LittleEndian.decode_encode, UInt32.toNat_ofNat']
  omega

theorem ofU16_toU16 (octets : Octets 2) : ofU16 octets.toU16 = octets := by
  have bound := LittleEndian.decode_lt octets.bytes
  have whole := LittleEndian.encode_decode octets.bytes
  rw [octets.length_eq] at bound whole
  apply Octets.ext
  change LittleEndian.encode 2 (UInt16.ofNat (LittleEndian.decode octets.bytes)).toNat = _
  rw [UInt16.toNat_ofNat', Nat.mod_eq_of_lt (by omega), whole]

theorem ofU32_toU32 (octets : Octets 4) : ofU32 octets.toU32 = octets := by
  have bound := LittleEndian.decode_lt octets.bytes
  have whole := LittleEndian.encode_decode octets.bytes
  rw [octets.length_eq] at bound whole
  apply Octets.ext
  change LittleEndian.encode 4 (UInt32.ofNat (LittleEndian.decode octets.bytes)).toNat = _
  rw [UInt32.toNat_ofNat', Nat.mod_eq_of_lt (by omega), whole]

theorem ofU32_inj {first second : UInt32} : ofU32 first = ofU32 second ↔ first = second :=
  ⟨fun same => by simpa using congrArg toU32 same, congrArg ofU32⟩

end Octets

/-! Text: a `str` is the list of its characters. -/

namespace Utf8

def encode (text : List Char) : Bytes := text.flatMap String.utf8EncodeChar

def decode (bytes : Bytes) : Option (List Char) := bytes.toByteArray.utf8Decode?.map Array.toList

theorem decode_encode (text : List Char) : decode (encode text) = some text := by
  change (text.utf8Encode.utf8Decode?).map Array.toList = some text
  simp [List.utf8Decode?_utf8Encode]

theorem length_encode_le (text : List Char) : (encode text).length ≤ 4 * text.length := by
  induction text with
  | nil => simp [encode]
  | cons c rest ih =>
      have width : (String.utf8EncodeChar c).length ≤ 4 := by
        rw [String.length_utf8EncodeChar]
        exact Char.utf8Size_le_four c
      simp only [encode, List.flatMap_cons, List.length_append, List.length_cons] at ih ⊢
      omega

/-! Slicing a text by bytes. -/

/-- The text in front of an offset and behind it; `none` when the offset lies inside a character or
behind the end. -/
def split : List Char → Nat → Option (List Char × List Char)
  | text, 0 => some ([], text)
  | [], _ + 1 => none
  | c :: rest, offset + 1 =>
      if c.utf8Size ≤ offset + 1 then
        (split rest (offset + 1 - c.utf8Size)).map fun (front, back) => (c :: front, back)
      else none

/-- `&text[start..stop]`. -/
def slice {ε : Type} (text : List Char) (start stop : Nat) : Call.Outcome ε (List Char) :=
  match split text stop with
  | none => Call.panicked
  | some (front, _) =>
      match split front start with
      | none => Call.panicked
      | some (_, middle) => .ok middle

@[simp] theorem length_encode_nil : (encode []).length = 0 := rfl

@[simp] theorem length_encode_cons (c : Char) (rest : List Char) :
    (encode (c :: rest)).length = c.utf8Size + (encode rest).length := by
  simp [encode, String.length_utf8EncodeChar]

theorem length_encode_append (front back : List Char) :
    (encode (front ++ back)).length = (encode front).length + (encode back).length := by
  simp [encode]

theorem split_append (front back : List Char) (offset : Nat) :
    split (front ++ back) ((encode front).length + offset) =
      (split back offset).map fun (middle, rest) => (front ++ middle, rest) := by
  induction front with
  | nil => simp
  | cons c rest ih =>
      have wide := c.utf8Size_pos
      obtain ⟨tail, total⟩ : ∃ tail, (encode (c :: rest)).length + offset = tail + 1 :=
        ⟨(encode (c :: rest)).length + offset - 1, by rw [length_encode_cons]; omega⟩
      have behind : tail + 1 - c.utf8Size = (encode rest).length + offset := by
        rw [← total, length_encode_cons]
        omega
      have fits : c.utf8Size ≤ tail + 1 := by
        rw [← total, length_encode_cons]
        omega
      rw [total, List.cons_append, split, if_pos fits, behind, ih, Option.map_map]
      rfl

theorem split_eq_some {text front back : List Char} {offset : Nat}
    (cut : split text offset = some (front, back)) :
    text = front ++ back ∧ (encode front).length = offset := by
  induction text generalizing offset front back with
  | nil =>
      cases offset with
      | zero =>
          obtain ⟨rfl, rfl⟩ := Prod.mk.inj (Option.some_inj.mp cut)
          exact ⟨rfl, rfl⟩
      | succ offset => simp [split] at cut
  | cons c rest ih =>
      cases offset with
      | zero =>
          obtain ⟨rfl, rfl⟩ := Prod.mk.inj (Option.some_inj.mp cut)
          exact ⟨rfl, rfl⟩
      | succ offset =>
          rw [split] at cut
          split at cut
          · rename_i fits
            obtain ⟨⟨middle, last⟩, inside, same⟩ := Option.map_eq_some_iff.mp cut
            obtain ⟨rfl, rfl⟩ := Prod.mk.inj same
            obtain ⟨rfl, width⟩ := ih inside
            refine ⟨rfl, ?_⟩
            rw [length_encode_cons, width]
            omega
          · simp at cut

/-- Slicing behind a text that ends where the slice begins. -/
theorem slice_behind {ε : Type} (front back : List Char) (width : Nat) :
    (slice (front ++ back) (encode front).length ((encode front).length + width) :
        Call.Outcome ε (List Char)) =
      match split back width with
      | none => Call.panicked
      | some (middle, _) => .ok middle := by
  rw [slice, split_append]
  cases split back width with
  | none => rfl
  | some cut =>
      obtain ⟨middle, rest⟩ := cut
      have start := split_append front middle 0
      rw [Nat.add_zero] at start
      simp [start, split]

end Utf8
