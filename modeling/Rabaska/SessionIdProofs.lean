import Rabaska.TextCore

/-! Session prefixes of checkpoints: which texts are read as one, which are refused, and which stop
the module. -/

namespace Rabaska.Wasm

open Call Wire

variable {crates : Crates}

def IsHexDigit (c : Char) : Prop :=
  '0' ≤ c ∧ c ≤ '9' ∨ 'a' ≤ c ∧ c ≤ 'f' ∨ 'A' ≤ c ∧ c ≤ 'F'

instance (c : Char) : Decidable (IsHexDigit c) := inferInstanceAs (Decidable (_ ∨ _))

def EightHexDigits (hex : List Char) : Prop := hex.length = 8 ∧ ∀ c ∈ hex, IsHexDigit c

instance (hex : List Char) : Decidable (EightHexDigits hex) := inferInstanceAs (Decidable (_ ∧ _))

/-! Two bytes at a time, from the front. -/

def readPair (text : List Char) : Outcome String (UInt8 × List Char) :=
  match Utf8.split text 2 with
  | none => panicked
  | some (pair, rest) =>
      match fromStrRadix pair with
      | some b => .ok (b, rest)
      | none => fail badSid

def readPairs : Nat → List Char → Outcome String Bytes
  | 0, _ => .ok []
  | count + 1, text => do
      let (b, rest) ← readPair text
      let bytes ← readPairs count rest
      .ok (b :: bytes)

theorem sidByte_behind {front back : List Char} {i : Nat} (width : (Utf8.encode front).length = i * 2) :
    sidByte (front ++ back) i = (readPair back).map Prod.fst := by
  have behind := @Utf8.slice_behind String front back 2
  rw [width] at behind
  rw [sidByte, behind, readPair]
  cases Utf8.split back 2 with
  | none => rfl
  | some cut =>
      obtain ⟨pair, rest⟩ := cut
      simp only [ok_bind]
      cases fromStrRadix pair <;> rfl

theorem readPair_ok {text rest : List Char} {b : UInt8} (read : readPair text = .ok (b, rest)) :
    ∃ pair, text = pair ++ rest ∧ (Utf8.encode pair).length = 2 ∧ fromStrRadix pair = some b := by
  unfold readPair at read
  split at read
  · simp [panicked] at read
  · rename_i pair back cut
    split at read
    · rename_i value parsed
      obtain ⟨rfl, rfl⟩ := Prod.mk.inj (Except.ok.inj read)
      obtain ⟨same, width⟩ := Utf8.split_eq_some cut
      exact ⟨pair, same, width, parsed⟩
    · simp [fail] at read

theorem mapM_sidByte (count : Nat) {front back : List Char} {i : Nat}
    (width : (Utf8.encode front).length = i * 2) :
    (List.range' i count).mapM (sidByte (front ++ back)) = readPairs count back := by
  induction count generalizing front back i with
  | zero => rfl
  | succ count ih =>
      rw [List.range'_succ, List.mapM_cons, sidByte_behind width, readPairs]
      cases read : readPair back with
      | error fault => rfl
      | ok result =>
          obtain ⟨b, rest⟩ := result
          obtain ⟨pair, rfl, two, -⟩ := readPair_ok read
          have further : (Utf8.encode (front ++ pair)).length = (i + 1) * 2 := by
            rw [Utf8.length_encode_append]
            omega
          have behind := @ih (front ++ pair) rest (i + 1) further
          rw [List.append_assoc] at behind
          simp only [Except.map, ok_bind, behind]
          rfl

theorem decodeSid4_eq (hex : List Char) : decodeSid4 hex =
    if (Utf8.encode hex).length = 8 then readPairs 4 hex >>= Octets.ofSlice 4 else fail badSid := by
  have loop := @mapM_sidByte 4 [] hex 0 rfl
  rw [List.nil_append, ← List.range_eq_range'] at loop
  rw [decodeSid4, ensure_bind, loop]

/-! How reading ends: with a byte for every pair, at a pair that is no number, or inside a character. -/

inductive Pairs : List Char → Prop
  | nil : Pairs []
  | cons {pair rest : List Char} : (Utf8.encode pair).length = 2 → (fromStrRadix pair).isSome →
      Pairs rest → Pairs (pair ++ rest)

/-- Behind pairs that are numbers stand two bytes of whole characters that are none. -/
def StopsAtPair (hex : List Char) : Prop :=
  ∃ front pair back, hex = front ++ (pair ++ back) ∧ Pairs front ∧
    (Utf8.encode pair).length = 2 ∧ fromStrRadix pair = none

/-- Behind pairs that are numbers the next two bytes end inside a character. -/
def CutsCharacter (hex : List Char) : Prop :=
  ∃ front back, hex = front ++ back ∧ Pairs front ∧ back ≠ [] ∧ Utf8.split back 2 = none

theorem readPair_pair {pair : List Char} (two : (Utf8.encode pair).length = 2) (back : List Char) :
    readPair (pair ++ back) =
      match fromStrRadix pair with
      | some b => .ok (b, back)
      | none => fail badSid := by
  have cut := Utf8.split_append pair back 0
  rw [two] at cut
  simp [readPair, cut, Utf8.split]

theorem readPairs_pairs {front : List Char} (pairs : Pairs front) :
    ∃ bytes : Bytes, bytes.length * 2 = (Utf8.encode front).length ∧ ∀ count back,
      readPairs (bytes.length + count) (front ++ back) = (readPairs count back).map (bytes ++ ·) := by
  induction pairs with
  | nil =>
      refine ⟨[], rfl, fun count back => ?_⟩
      cases read : readPairs count back <;> simp [read, Except.map]
  | @cons pair rest two number _ ih =>
      obtain ⟨bytes, width, read⟩ := ih
      obtain ⟨b, parsed⟩ := Option.isSome_iff_exists.mp number
      refine ⟨b :: bytes, ?_, fun count back => ?_⟩
      · rw [Utf8.length_encode_append, List.length_cons]
        omega
      · rw [List.length_cons, Nat.add_right_comm, readPairs, List.append_assoc, readPair_pair two,
          parsed, ok_bind]
        dsimp only
        rw [read]
        cases readPairs count back <;> rfl

theorem length_encode_pos {text : List Char} (kept : text ≠ []) : 0 < (Utf8.encode text).length := by
  obtain ⟨c, rest, rfl⟩ := List.exists_cons_of_ne_nil kept
  have wide := c.utf8Size_pos
  rw [Utf8.length_encode_cons]
  omega

/-- Behind pairs that are numbers the loop goes on with what is left. -/
theorem readPairs_behind {front back : List Char} (pairs : Pairs front) (left : back ≠ [])
    (eight : (Utf8.encode (front ++ back)).length = 8) : ∃ (bytes : Bytes) (count : Nat),
      readPairs 4 (front ++ back) = (readPairs (count + 1) back).map (bytes ++ ·) := by
  have room := length_encode_pos left
  rw [Utf8.length_encode_append] at eight
  obtain ⟨bytes, width, read⟩ := readPairs_pairs pairs
  refine ⟨bytes, 3 - bytes.length, ?_⟩
  rw [← read, show bytes.length + (3 - bytes.length + 1) = 4 by omega]

theorem StopsAtPair.fails {hex : List Char} (stops : StopsAtPair hex)
    (eight : (Utf8.encode hex).length = 8) : readPairs 4 hex = fail badSid := by
  obtain ⟨front, pair, back, rfl, pairs, two, number⟩ := stops
  have kept : pair ++ back ≠ [] := by
    intro none
    simp [List.append_eq_nil_iff.mp none] at two
  obtain ⟨bytes, count, read⟩ := readPairs_behind pairs kept eight
  rw [read, readPairs, readPair_pair two, number]
  rfl

theorem CutsCharacter.panics {hex : List Char} (cuts : CutsCharacter hex)
    (eight : (Utf8.encode hex).length = 8) : readPairs 4 hex = panicked := by
  obtain ⟨front, back, rfl, pairs, left, cut⟩ := cuts
  obtain ⟨bytes, count, read⟩ := readPairs_behind pairs left eight
  rw [read, readPairs, readPair, cut]
  rfl

/-- A text of as many pairs of bytes is read in full, or stops the loop in one of the two ways. -/
theorem readPairs_cases (count : Nat) {text : List Char} (width : (Utf8.encode text).length = 2 * count) :
    (∃ bytes : Bytes, readPairs count text = .ok bytes ∧ bytes.length = count) ∨
      StopsAtPair text ∨ CutsCharacter text := by
  induction count generalizing text with
  | zero => exact .inl ⟨[], rfl, rfl⟩
  | succ count ih =>
      have kept : text ≠ [] := by
        rintro rfl
        simp at width
      cases cut : Utf8.split text 2 with
      | none => exact .inr (.inr ⟨[], text, rfl, .nil, kept, cut⟩)
      | some halves =>
          obtain ⟨pair, rest⟩ := halves
          obtain ⟨rfl, two⟩ := Utf8.split_eq_some cut
          cases parsed : fromStrRadix pair with
          | none => exact .inr (.inl ⟨[], pair, rest, rfl, .nil, two, parsed⟩)
          | some b =>
              have number : (fromStrRadix pair).isSome := by rw [parsed]; rfl
              rw [Utf8.length_encode_append] at width
              rcases @ih rest (by omega) with ⟨bytes, read, length⟩ | stops | cuts
              · refine .inl ⟨b :: bytes, ?_, by rw [List.length_cons, length]⟩
                rw [readPairs, readPair_pair two, parsed, ok_bind]
                dsimp only
                rw [read]
                rfl
              · obtain ⟨front, other, back, rfl, pairs, rest⟩ := stops
                exact .inr (.inl ⟨pair ++ front, other, back, by simp, .cons two number pairs, rest⟩)
              · obtain ⟨front, back, rfl, pairs, rest⟩ := cuts
                exact .inr (.inr ⟨pair ++ front, back, by simp, .cons two number pairs, rest⟩)

/-! Hexadecimal digits. -/

theorem isHexDigit_iff {c : Char} : IsHexDigit c ↔
    48 ≤ c.toNat ∧ c.toNat ≤ 57 ∨ 97 ≤ c.toNat ∧ c.toNat ≤ 102 ∨ 65 ≤ c.toNat ∧ c.toNat ≤ 70 := by
  simp only [IsHexDigit, Char.le_def, UInt32.le_iff_toNat_le]
  rfl

theorem hex_utf8Size {c : Char} (digit : IsHexDigit c) : c.utf8Size = 1 := by
  have range : c.toNat ≤ 127 := by
    rw [isHexDigit_iff] at digit
    omega
  rw [Char.utf8Size_eq_one_iff, UInt32.le_iff_toNat_le]
  exact range

theorem hex_toDigit {c : Char} (digit : IsHexDigit c) : ∃ value < 16, toDigit c = some value := by
  have range := isHexDigit_iff.mp digit
  unfold toDigit
  split
  · rename_i decimal
    refine ⟨_, ?_, rfl⟩
    change c.toNat - 48 < 16
    have upper : c.toNat ≤ 57 := decimal.2
    omega
  · split
    · refine ⟨_, ?_, rfl⟩
      change c.toNat - 97 + 10 < 16
      omega
    · split
      · rename_i capital
        refine ⟨_, ?_, rfl⟩
        change c.toNat - 65 + 10 < 16
        have upper : c.toNat ≤ 70 := capital.2
        omega
      · rename_i decimal lower capital
        exact absurd digit (by simp [IsHexDigit, decimal, lower, capital])

theorem hex_number {c d : Char} (high : IsHexDigit c) (low : IsHexDigit d) :
    (fromStrRadix [c, d]).isSome := by
  obtain ⟨first, small, read⟩ := hex_toDigit high
  obtain ⟨second, small', read'⟩ := hex_toDigit low
  have unsigned : fromStrRadix [c, d] = ([c, d].foldlM addDigit 0).map UInt8.ofNat := by
    unfold fromStrRadix
    split <;> simp_all
    exact absurd high (by decide)
  have fits : first * 16 + second < 256 := by omega
  have one : first < 256 := by omega
  rw [unsigned]
  simp [addDigit, read, read', fits, one]

theorem hex_length {hex : List Char} (digits : ∀ c ∈ hex, IsHexDigit c) :
    (Utf8.encode hex).length = hex.length := by
  induction hex with
  | nil => rfl
  | cons c rest ih =>
      obtain ⟨digit, digits⟩ := List.forall_mem_cons.mp digits
      rw [Utf8.length_encode_cons, hex_utf8Size digit, ih digits, List.length_cons, Nat.add_comm]

theorem hex_pairs {count : Nat} {hex : List Char} (width : hex.length = 2 * count)
    (digits : ∀ c ∈ hex, IsHexDigit c) : Pairs hex := by
  induction count generalizing hex with
  | zero =>
      obtain rfl := List.length_eq_zero_iff.mp width
      exact .nil
  | succ count ih =>
      match hex, width with
      | c :: d :: rest, width =>
          obtain ⟨high, digits⟩ := List.forall_mem_cons.mp digits
          obtain ⟨low, digits⟩ := List.forall_mem_cons.mp digits
          have two : (Utf8.encode [c, d]).length = 2 := by
            simp [hex_utf8Size high, hex_utf8Size low]
          simp only [List.length_cons] at width
          exact .cons two (hex_number high low) (ih (by omega) digits)

/-! What `hex4` writes is read back. -/

theorem lowerHex_number (b : UInt8) : (Utf8.encode (lowerHex 2 b.toNat).toList).length = 2 ∧
    fromStrRadix (lowerHex 2 b.toNat).toList = some b := by
  have each : ∀ n : Fin 256, (Utf8.encode (lowerHex 2 n.val).toList).length = 2 ∧
      fromStrRadix (lowerHex 2 n.val).toList = some (UInt8.ofNat n.val) := by decide +kernel
  simpa using each ⟨b.toNat, b.toNat_lt⟩

theorem readPairs_lowerHex (bytes : Bytes) :
    readPairs bytes.length (bytes.flatMap fun b => (lowerHex 2 b.toNat).toList) = .ok bytes := by
  induction bytes with
  | nil => rfl
  | cons b rest ih =>
      obtain ⟨two, number⟩ := lowerHex_number b
      rw [List.length_cons, readPairs, List.flatMap_cons, readPair_pair two, number, ok_bind]
      dsimp only
      rw [ih]
      rfl

theorem length_lowerHex (bytes : Bytes) :
    (Utf8.encode (bytes.flatMap fun b => (lowerHex 2 b.toNat).toList)).length = 2 * bytes.length := by
  induction bytes with
  | nil => rfl
  | cons b rest ih =>
      rw [List.flatMap_cons, Utf8.length_encode_append, (lowerHex_number b).1, ih, List.length_cons]
      omega

theorem decodeSid4_hex4 (sid : Octets 8) : decodeSid4 (hex4 sid) = .ok (sid4 sid) := by
  have four : (sid.bytes.take 4).length = 4 := by simp
  have read := readPairs_lowerHex (sid.bytes.take 4)
  have eight := length_lowerHex (sid.bytes.take 4)
  rw [four] at read eight
  rw [decodeSid4_eq, hex4, if_pos eight, read]
  exact Octets.ofSlice_bytes (sid4 sid)

/-! The three ways a text of eight bytes goes. -/

theorem decodeSid4_cases {hex : List Char} (eight : (Utf8.encode hex).length = 8) :
    (∃ sid, decodeSid4 hex = .ok sid) ∨ (StopsAtPair hex ∧ decodeSid4 hex = fail badSid) ∨
      (CutsCharacter hex ∧ decodeSid4 hex = panicked) := by
  rw [decodeSid4_eq, if_pos eight]
  rcases readPairs_cases 4 eight with ⟨bytes, read, length⟩ | stops | cuts
  · exact .inl ⟨⟨bytes, length⟩, by rw [read]; exact Octets.ofSlice_bytes ⟨bytes, length⟩⟩
  · exact .inr (.inl ⟨stops, by rw [stops.fails eight]; rfl⟩)
  · exact .inr (.inr ⟨cuts, by rw [cuts.panics eight]; rfl⟩)

theorem EightHexDigits.accepted {hex : List Char} (digits : EightHexDigits hex) :
    ∃ sid, decodeSid4 hex = .ok sid := by
  have eight : (Utf8.encode hex).length = 8 := (hex_length digits.2).trans digits.1
  have doubled : hex.length = 2 * 4 := digits.1
  have pairs : Pairs hex := hex_pairs doubled digits.2
  obtain ⟨bytes, width, read⟩ := readPairs_pairs pairs
  have four : bytes.length = 4 := by omega
  have whole := read 0 []
  rw [List.append_nil, Nat.add_zero, four] at whole
  refine ⟨⟨bytes, four⟩, ?_⟩
  rw [decodeSid4_eq, if_pos eight, whole]
  simpa [readPairs, Except.map] using Octets.ofSlice_bytes (ε := String) ⟨bytes, four⟩

/-- Eight hexadecimal digits and nothing else are accepted, and no text stops the module. -/
structure ParsesExactly (hex : List Char) : Prop where
  returns : ¬Panics (decodeSid4 hex)
  accepts : (∃ sid, decodeSid4 hex = .ok sid) ↔ EightHexDigits hex

theorem parsesExactly_iff (hex : List Char) : ParsesExactly hex ↔
    (Utf8.encode hex).length ≠ 8 ∨ EightHexDigits hex ∨ StopsAtPair hex := by
  by_cases eight : (Utf8.encode hex).length = 8
  · rcases decodeSid4_cases eight with ⟨sid, accepted⟩ | ⟨stops, refused⟩ | ⟨cuts, panics⟩
    · constructor
      · exact fun exact => .inr (.inl (exact.accepts.mp ⟨sid, accepted⟩))
      · rintro (other | digits | stops)
        · exact absurd eight other
        · exact ⟨by simp [accepted], iff_of_true ⟨sid, accepted⟩ digits⟩
        · rw [decodeSid4_eq, if_pos eight, stops.fails eight] at accepted
          simp [fail, bind, Except.bind] at accepted
    · refine iff_of_true ⟨by simp [refused], ?_⟩ (.inr (.inr stops))
      refine iff_of_false (by simp [refused, fail]) fun digits => ?_
      obtain ⟨sid, accepted⟩ := digits.accepted
      simp [refused, fail] at accepted
    · refine iff_of_false (fun exact => exact.returns panics) ?_
      rintro (other | digits | stops)
      · exact other eight
      · obtain ⟨sid, accepted⟩ := digits.accepted
        simp [panics, panicked] at accepted
      · rw [decodeSid4_eq, if_pos eight, stops.fails eight] at panics
        simp [fail, panicked, bind, Except.bind] at panics
  · refine iff_of_true ⟨?_, ?_⟩ (.inl eight)
    · simp [decodeSid4_eq, eight]
    · refine iff_of_false (by simp [decodeSid4_eq, eight, fail]) fun digits => ?_
      exact eight ((hex_length digits.2).trans digits.1)

theorem decodeSid4_panics_iff (hex : List Char) :
    Panics (decodeSid4 hex) ↔ (Utf8.encode hex).length = 8 ∧ CutsCharacter hex := by
  constructor
  · intro panics
    have eight : (Utf8.encode hex).length = 8 := by
      by_contra other
      simp [decodeSid4_eq, other] at panics
    rcases decodeSid4_cases eight with ⟨sid, accepted⟩ | ⟨-, refused⟩ | ⟨cuts, -⟩
    · simp [accepted] at panics
    · simp [refused] at panics
    · exact ⟨eight, cuts⟩
  · rintro ⟨eight, cuts⟩
    rw [decodeSid4_eq, if_pos eight, cuts.panics eight]
    rfl

/-- A session that is written is read back. Eight digits and nothing else are read, unless the text has
eight bytes and reading it in pairs meets only numbers up to its end, some of them with a sign, or up to
the middle of a character; and a record stops the module only with a session of the last kind. -/
theorem sid_parses_iff (recv : Receive crates) :
    (∀ sid, decodeSid4 (hex4 sid) = .ok (sid4 sid)) ∧
    (∀ hex, ParsesExactly hex ↔
      (Utf8.encode hex).length ≠ 8 ∨ EightHexDigits hex ∨ StopsAtPair hex) ∧
    ∀ sessionHex packets, Panics (recv.restoreJs sessionHex packets) ↔
      ∃ hex, sessionHex = .string hex ∧ (Utf8.encode hex).length = 8 ∧ CutsCharacter hex := by
  refine ⟨decodeSid4_hex4, parsesExactly_iff, fun sessionHex packets => ?_⟩
  cases sessionHex with
  | string hex =>
      have restored : Panics (recv.restoreJs (.string hex) packets) ↔ Panics (decodeSid4 hex) := by
        change Panics (decodeSid4 hex >>= _) ↔ _
        simp [panics_bind]
      rw [restored, decodeSid4_panics_iff]
      simp
  | uint8Array bytes => simp [Receive.restoreJs, JsValue.asString]
  | other => simp [Receive.restoreJs, JsValue.asString]

/-- A plus sign is read as part of a number, and in the second text a character stands across the end of
the first pair. -/
theorem signed_sid_accepted : ¬ParsesExactly ['+', 'a', '+', 'b', '+', 'c', '+', 'd'] ∧
    ¬ParsesExactly ['a', 'é', 'a', 'é', 'a', 'b'] := by
  constructor
  · intro exact
    have accepted : decodeSid4 ['+', 'a', '+', 'b', '+', 'c', '+', 'd'] = .ok ⟨[10, 11, 12, 13], rfl⟩ :=
      rfl
    have digits := (exact.accepts.mp ⟨_, accepted⟩).2
    exact absurd (digits '+' (List.mem_cons_self ..)) (by decide)
  · intro exact
    exact exact.returns rfl

end Rabaska.Wasm
