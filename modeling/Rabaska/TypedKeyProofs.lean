import Rabaska.Library.Base32
import Rabaska.TextCore

/-! The typed key spells the key: thirteen groups of letters that read back as its 32 bytes, and a
group to check them by. -/

namespace Rabaska.Wasm

open Call Crypto Base32 Radix

variable {crates : Crates}

/-! The letters that go out, and how they are grouped. -/

def Typed.empty : Typed := { out := [], count := 0 }

def typed (text : List Char) : Typed := text.foldl Typed.push Typed.empty

@[simp] theorem typed_snoc (text : List Char) (c : Char) : typed (text ++ [c]) = (typed text).push c := by
  simp [typed]

@[simp] theorem typed_count (text : List Char) : (typed text).count = text.length := by
  induction text using List.reverseRecOn with
  | nil => rfl
  | append_singleton front c ih => simp [Typed.push, ih]

theorem intercalate_snoc {groups : List (List Char)} (kept : groups ≠ []) (sep last : List Char) :
    sep.intercalate (groups ++ [last]) = sep.intercalate groups ++ sep ++ last := by
  induction groups with
  | nil => exact absurd rfl kept
  | cons group rest ih =>
      cases rest with
      | nil => simp [List.intercalate]
      | cons next rest =>
          rw [List.cons_append, List.cons_append, List.intercalate_cons_cons,
            ← List.cons_append, ih (by simp), List.intercalate_cons_cons]
          simp

theorem typed_group {text group : List Char} (whole : text.length % 4 = 0) (four : group.length = 4) :
    (typed (text ++ group)).out =
      (typed text).out ++ (if text = [] then [] else ['-']) ++ group := by
  obtain ⟨a, b, c, d, rfl⟩ : ∃ a b c d, group = [a, b, c, d] := by
    match group, four with
    | [a, b, c, d], _ => exact ⟨a, b, c, d, rfl⟩
  have one : typed (text ++ [a, b, c, d]) = ((((typed text).push a).push b).push c).push d := by
    simp [typed]
  have next : ¬(text.length + 1) % 4 = 0 ∧ ¬(text.length + 1 + 1) % 4 = 0 ∧
      ¬(text.length + 1 + 1 + 1) % 4 = 0 := by omega
  by_cases empty : text = []
  · subst empty
    rfl
  · have some : 0 < text.length := List.length_pos_iff.mpr empty
    simp [one, Typed.push, next, whole, some, empty]

theorem typed_groups {groups : List (List Char)} (four : ∀ group ∈ groups, group.length = 4) :
    (typed groups.flatten).out = ['-'].intercalate groups := by
  induction groups using List.reverseRecOn with
  | nil => rfl
  | append_singleton groups last ih =>
      have front : ∀ group ∈ groups, group.length = 4 := fun group member =>
        four group (List.mem_append_left _ member)
      have whole : groups.flatten.length % 4 = 0 := by
        rw [List.length_flatten, List.map_congr_left front]
        simp
      rw [List.flatten_append, List.flatten_singleton, typed_group whole (four last (by simp)), ih front]
      by_cases empty : groups = []
      · subst empty
        simp [List.intercalate]
      · have nonempty : groups.flatten ≠ [] := by
          obtain ⟨group, member⟩ := List.exists_mem_of_ne_nil _ empty
          intro none
          have blank := List.flatten_eq_nil_iff.mp none group member
          simpa [blank] using front group member
        rw [intercalate_snoc empty, if_neg nonempty]

/-! The shift buffer: of its 32 bits only the low `n` count, and what is pushed out at the top has
gone out as letters before. -/

def group (bits : UInt32) : Fin 32 := ⟨(bits &&& 0x1F).toNat, low5_lt bits⟩

theorem pick_eq (bits : UInt32) : pick bits = letter (group bits) := rfl

def spell (groups : List (Fin 32)) : Nat := value 32 (groups.map Fin.val)

theorem spell_snoc (groups : List (Fin 32)) (last : Fin 32) :
    spell (groups ++ [last]) = spell groups * 32 + last.val := by
  simp [spell]

theorem group_shiftRight (bits : UInt32) {n : Nat} (bound : n < 32) :
    (group (bits >>> UInt32.ofNat n)).val = bits.toNat / 2 ^ n % 32 := by
  have amount : (UInt32.ofNat n).toNat % 32 = n := by
    rw [UInt32.toNat_ofNat']
    omega
  change ((bits >>> UInt32.ofNat n) &&& 0x1F).toNat = _
  rw [UInt32.toNat_and, UInt32.toNat_shiftRight, amount, Nat.shiftRight_eq_div_pow]
  exact Nat.and_two_pow_sub_one_eq_mod _ 5

theorem low_bits_split (bits n : Nat) :
    bits % 2 ^ (n + 5) = bits / 2 ^ n % 32 * 2 ^ n + bits % 2 ^ n := by
  rw [Nat.pow_add, Nat.mod_mul, Nat.mul_comm, Nat.add_comm]

theorem emit_few (bits : UInt32) {n : Nat} (few : n < 5) (written : Typed) :
    emit bits n written = (n, written) := by
  interval_cases n <;> rfl

/-- The inner loop moves letters out and changes nothing of the number that the letters and the low
bits spell together. -/
theorem emit_spells (bits : UInt32) {n : Nat} (bound : n < 32) (groups : List (Fin 32)) :
    ∃ rest more, emit bits n (typed (groups.map letter)) =
        (rest, typed ((groups ++ more).map letter)) ∧ rest < 5 ∧
      5 * more.length + rest = n ∧
      spell (groups ++ more) * 2 ^ rest + bits.toNat % 2 ^ rest =
        spell groups * 2 ^ n + bits.toNat % 2 ^ n := by
  induction n using Nat.strongRecOn generalizing groups with
  | ind n ih =>
      by_cases few : n < 5
      · exact ⟨n, [], by rw [emit_few bits few, List.append_nil], few, by simp, by simp⟩
      · obtain ⟨n, rfl⟩ := Nat.exists_eq_add_of_le' (not_lt.mp few)
        have next := ih n (by omega) (by omega) (groups ++ [group (bits >>> UInt32.ofNat n)])
        obtain ⟨rest, more, moved, short, width, spelled⟩ := next
        refine ⟨rest, group (bits >>> UInt32.ofNat n) :: more, ?_, short, ?_, ?_⟩
        · rw [emit, pick_eq, ← typed_snoc, ← List.map_singleton, ← List.map_append, moved]
          simp
        · rw [List.length_cons]
          omega
        · rw [List.append_assoc, List.singleton_append] at spelled
          rw [spelled, spell_snoc, group_shiftRight bits (by omega), low_bits_split, Nat.pow_add]
          ring

theorem take_bits (bits : UInt32) (b : UInt8) {n : Nat} (room : n ≤ 24) :
    ((bits <<< 8) ||| b.toUInt32).toNat % 2 ^ (n + 8) = bits.toNat % 2 ^ n * 256 + b.toNat := by
  have byte : b.toNat < 2 ^ 8 := b.toNat_lt
  have kept : (bits <<< 8).toNat = (bits.toNat % 2 ^ 24) <<< 8 := by
    rw [UInt32.toNat_shiftLeft, Nat.shiftLeft_eq, Nat.shiftLeft_eq]
    exact Nat.mul_mod_mul_right (2 ^ 8) bits.toNat (2 ^ 24)
  have joined : ((bits <<< 8) ||| b.toUInt32).toNat = bits.toNat % 2 ^ 24 * 256 + b.toNat := by
    rw [UInt32.toNat_or, kept, UInt8.toNat_toUInt32, ← Nat.shiftLeft_add_eq_or_of_lt byte,
      Nat.shiftLeft_eq]
  have low : bits.toNat % 2 ^ 24 % 2 ^ n = bits.toNat % 2 ^ n :=
    Nat.mod_mod_of_dvd _ (Nat.pow_dvd_pow 2 room)
  have small : bits.toNat % 2 ^ n < 2 ^ n := Nat.mod_lt _ (Nat.two_pow_pos n)
  rw [joined, Nat.add_comm n 8, Nat.pow_add, Nat.mod_mul]
  have here : (bits.toNat % 2 ^ 24 * 256 + b.toNat) % 2 ^ 8 = b.toNat := by omega
  have above : (bits.toNat % 2 ^ 24 * 256 + b.toNat) / 2 ^ 8 = bits.toNat % 2 ^ 24 := by omega
  rw [here, above, low]
  ring

/-- After some bytes: the letters that went out and the low bits left in the buffer spell them. -/
structure Spelling (read : Bytes) (groups : List (Fin 32)) (buffer : Buffer) : Prop where
  out : buffer.typed = typed (groups.map letter)
  short : buffer.n < 5
  width : 5 * groups.length + buffer.n = 8 * read.length
  spelled : spell groups * 2 ^ buffer.n + buffer.bits.toNat % 2 ^ buffer.n =
    value 256 (read.map UInt8.toNat)

theorem Spelling.take {read : Bytes} {groups : List (Fin 32)} {buffer : Buffer}
    (spelling : Spelling read groups buffer) (b : UInt8) :
    ∃ more, Spelling (read ++ [b]) (groups ++ more) (buffer.take b) := by
  obtain ⟨out, short, width, spelled⟩ := spelling
  obtain ⟨rest, more, moved, few, count, same⟩ :=
    emit_spells ((buffer.bits <<< 8) ||| b.toUInt32) (n := buffer.n + 8) (by omega) groups
  refine ⟨more, ?_, ?_, ?_, ?_⟩ <;> simp only [Buffer.take, out, moved]
  · exact few
  · simp only [List.length_append, List.length_singleton]
    omega
  · rw [same, take_bits buffer.bits b (by omega), List.map_append, List.map_singleton, value_snoc,
      ← spelled, Nat.pow_add]
    ring

theorem spelling_of_bytes (bytes : Bytes) : ∃ groups,
    Spelling bytes groups (bytes.foldl Buffer.take { bits := 0, n := 0, typed := Typed.empty }) := by
  induction bytes using List.reverseRecOn with
  | nil => exact ⟨[], rfl, by decide, rfl, rfl⟩
  | append_singleton bytes b ih =>
      obtain ⟨groups, spelling⟩ := ih
      obtain ⟨more, next⟩ := spelling.take b
      rw [List.foldl_append]
      exact ⟨groups ++ more, next⟩

/-! The whole key: 51 letters and one bit, which goes out with four zeros behind it. -/

theorem group_shiftLeft (bits : UInt32) : (group (bits <<< UInt32.ofNat 4)).val = bits.toNat % 2 * 16 := by
  change ((bits <<< UInt32.ofNat 4) &&& 0x1F).toNat = _
  rw [UInt32.toNat_and, UInt32.toNat_shiftLeft, Nat.shiftLeft_eq]
  have mask := Nat.and_two_pow_sub_one_eq_mod (bits.toNat * 2 ^ 4 % 2 ^ 32) 5
  have low : bits.toNat * 2 ^ 4 % 2 ^ 32 % 2 ^ 5 = bits.toNat % 2 * 16 := by omega
  exact mask.trans low

theorem key_letters (crates : Crates) (key : Octets 32) : ∃ groups : List (Fin 32),
    groups.length = 52 ∧ spell groups = value 256 (key.bytes.map UInt8.toNat) * 2 ^ 4 ∧
    base32Groups crates key = (typed (groups.map letter)).out ++
      '-' :: ((idHint crates key).bytes.take 2).flatMap checkPair := by
  obtain ⟨groups, out, short, width, spelled⟩ := spelling_of_bytes key.bytes
  rw [Typed.empty] at out short width spelled
  rw [key.length_eq] at width
  have one : (key.bytes.foldl Buffer.take { bits := 0, n := 0, typed := ⟨[], 0⟩ }).n = 1 := by omega
  refine ⟨groups ++ [group ((key.bytes.foldl Buffer.take
    { bits := 0, n := 0, typed := ⟨[], 0⟩ }).bits <<< UInt32.ofNat 4)], ?_, ?_, ?_⟩
  · rw [List.length_append, List.length_singleton]
    omega
  · rw [one] at spelled
    rw [spell_snoc, group_shiftLeft]
    omega
  · simp only [base32Groups, one]
    rw [out, List.map_append, List.map_singleton, typed_snoc, ← pick_eq]
    rfl

theorem checkPair_mem {b : UInt8} {c : Char} (member : c ∈ checkPair b) : c ∈ alphabet := by
  rcases List.mem_pair.mp member with rfl | rfl <;> exact List.get_mem ..

theorem dash_not_mem : '-' ∉ alphabet := by decide

theorem filter_intercalate {groups : List (List Char)} (spelled : ∀ group ∈ groups, ∀ c ∈ group,
    c ∈ alphabet) : (['-'].intercalate groups).filter (· ≠ '-') = groups.flatten := by
  have kept : ∀ group ∈ groups, group.filter (· ≠ '-') = group := fun group member =>
    List.filter_eq_self.mpr fun c here => by
      have letter := spelled group member c here
      have other : c ≠ '-' := fun dash => dash_not_mem (dash ▸ letter)
      simpa using other
  induction groups with
  | nil => rfl
  | cons group rest ih =>
      obtain ⟨first, behind⟩ := List.forall_mem_cons.mp kept
      have tail := ih (fun other member => spelled other (List.mem_cons_of_mem _ member)) behind
      cases rest with
      | nil => rw [List.intercalate_singleton, first, List.flatten_singleton]
      | cons next rest =>
          rw [List.intercalate_cons_cons, List.filter_append, List.filter_append, first, tail]
          simp

/-- Thirteen groups of four letters and one to check them by; the letters of the thirteen are the first
52 and read back as the key. -/
structure Spells (crates : Crates) (key : Octets 32) (groups : List (List Char)) (check : List Char) :
    Prop where
  joined : base32Groups crates key = ['-'].intercalate (groups ++ [check])
  count : groups.length = 13
  four : ∀ group ∈ groups ++ [check], group.length = 4 ∧ ∀ c ∈ group, c ∈ alphabet
  bare : ((base32Groups crates key).filter (· ≠ '-')).take 52 = groups.flatten
  decoded : decode groups.flatten = some key.bytes

theorem exists_spells (crates : Crates) (key : Octets 32) :
    ∃ groups check, Spells crates key groups check := by
  obtain ⟨letters, count, spelled, shape⟩ := key_letters crates key
  have length : (letters.map letter).length = 13 * 4 := by rw [List.length_map, count]
  obtain ⟨flat, number, sized⟩ := chunks_exact (by decide : 0 < 4) length
  have check : (((idHint crates key).bytes.take 2).flatMap checkPair).length = 4 := by
    simp [List.length_flatMap, checkPair]
  have four : ∀ group ∈ chunks 4 (letters.map letter) ++
      [((idHint crates key).bytes.take 2).flatMap checkPair],
      group.length = 4 ∧ ∀ c ∈ group, c ∈ alphabet := by
    intro group member
    rcases List.mem_append.mp member with piece | last
    · refine ⟨sized group piece, fun c here => ?_⟩
      have among : c ∈ letters.map letter := flat ▸ List.mem_flatten.mpr ⟨group, piece, here⟩
      obtain ⟨_, -, rfl⟩ := List.mem_map.mp among
      exact letter_mem _
    · obtain rfl := List.mem_singleton.mp last
      refine ⟨check, fun c here => ?_⟩
      obtain ⟨_, -, pair⟩ := List.mem_flatMap.mp here
      exact checkPair_mem pair
  have joined : base32Groups crates key = ['-'].intercalate (chunks 4 (letters.map letter) ++
      [((idHint crates key).bytes.take 2).flatMap checkPair]) := by
    rw [intercalate_snoc (List.ne_nil_of_length_eq_add_one number), ← typed_groups sized, flat, shape]
    simp
  refine ⟨_, _, joined, number, four, ?_, ?_⟩
  · rw [joined, filter_intercalate fun group member => (four group member).2, List.flatten_append,
      flat, List.take_left' length]
  · rw [flat]
    exact decode_spelled (by decide) (by rw [count, key.length_eq]) spelled

/-- Every key is spelled in full, so that no two are typed alike. -/
theorem typed_key_faithful (crates : Crates) :
    (∀ key, ∃ groups check, Spells crates key groups check) ∧
      Function.Injective (base32Groups crates) := by
  refine ⟨exists_spells crates, fun first second same => ?_⟩
  obtain ⟨_, _, spells⟩ := exists_spells crates first
  obtain ⟨_, _, spells'⟩ := exists_spells crates second
  have read := spells.decoded
  rw [← spells.bare, same, spells'.bare, spells'.decoded] at read
  exact Octets.ext (Option.some_inj.mp read).symm

end Rabaska.Wasm
