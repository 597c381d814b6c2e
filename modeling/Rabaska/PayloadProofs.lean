import Rabaska.PayloadCore

/-! What the sanitisers let through, and what becomes of a body in its envelope. -/

namespace Rabaska.Payload

open Trim

/-! The name sanitiser. -/

theorem bare_within (text : List Char) : bare text <:+: text :=
  (trimMatches_within _ _).trans ((trimMatches_within _ _).trans (trimMatches_within _ _))

theorem bare_reverse (text : List Char) : bare text.reverse = (bare text).reverse := by
  simp only [bare, trim, trimMatches_reverse]

theorem isWhitespace_head_bare {text : List Char} {c : Char} (first : c ∈ (bare text).head?) :
    isWhitespace c = false :=
  head_trimMatches first

theorem isWhitespace_getLast_bare {text : List Char} {c : Char} (last : c ∈ (bare text).getLast?) :
    isWhitespace c = false :=
  getLast_trimMatches last

theorem bare_eq_nil (text : List Char) :
    bare text = [] ↔ skip [isWhitespace, isDot, isWhitespace, isDot, isWhitespace] text = [] := by
  have outer := @skip_trimMatches _ isWhitespace [isDot, isWhitespace, isDot] text
  have inner := @skip_trimMatches _ isDot [isWhitespace] (trim text)
  rw [List.cons_append, List.cons_append, List.cons_append, List.cons_append, List.nil_append] at outer
  rw [outer]
  refine Iff.trans ?_ inner.symm
  rw [bare, trim, trimMatches_eq_nil]
  exact List.dropWhile_eq_nil_iff.symm

theorem head_bare {text : List Char} (kept : bare text ≠ []) :
    (bare text).head? = (skip [isWhitespace, isDot, isWhitespace] text).head? := by
  obtain ⟨back, reached⟩ :=
    skip_append_trimMatches [isWhitespace, isDot, isWhitespace] text [] kept
  rw [List.append_nil] at reached
  rw [reached]
  exact (List.head?_append_of_ne_nil _ kept).symm

theorem getLast_bare {text : List Char} (kept : bare text ≠ []) :
    (bare text).getLast? = (skip [isWhitespace, isDot, isWhitespace] text.reverse).head? := by
  have turned : bare text.reverse ≠ [] := by
    rw [bare_reverse]
    exact List.reverse_ne_nil_iff.mpr kept
  rw [← head_bare turned, bare_reverse, List.head?_reverse]

theorem dropWhile_ne_eq {c : Char} {text : List Char} (member : c ∈ text) :
    text.dropWhile (· != c) = c :: (text.dropWhile (· != c)).tail := by
  have kept : text.dropWhile (· != c) ≠ [] := by
    intro empty
    have all := List.dropWhile_eq_nil_iff.mp empty c member
    simp at all
  have first : (text.dropWhile (· != c)).head kept = c := by
    have stop := List.head_dropWhile_not (· != c) kept
    simpa using stop
  have whole := List.cons_head_tail kept
  rw [first] at whole
  exact whole.symm

theorem rsplitOnce_eq {c : Char} {text front back : List Char}
    (split : rsplitOnce c text = some (front, back)) : text = front ++ c :: back := by
  unfold rsplitOnce at split
  split at split
  · rename_i member
    obtain ⟨rfl, rfl⟩ : (text.rdropWhile (· != c)).dropLast = front ∧
        text.rtakeWhile (· != c) = back := by simpa using split
    have whole : (text.rdropWhile (· != c)).dropLast ++ [c] = text.rdropWhile (· != c) := by
      rw [List.rdropWhile, dropWhile_ne_eq (List.mem_reverse.mpr member), List.reverse_cons,
        List.dropLast_concat]
    rw [← List.singleton_append, ← List.append_assoc, whole, List.rdropWhile_append_rtakeWhile]
  · simp at split

theorem stemAndExt_cases (trimmed : List Char) :
    (∃ stem e, stemAndExt trimmed = (stem, some e) ∧ trimmed = stem ++ '.' :: e ∧ e.length ≤ 16) ∨
      stemAndExt trimmed = (trimmed, none) := by
  unfold stemAndExt
  cases split : rsplitOnce '.' trimmed with
  | none => exact .inr rfl
  | some parts =>
      obtain ⟨s, e⟩ := parts
      dsimp only
      split_ifs with kept
      · exact .inl ⟨s, e, rfl, rsplitOnce_eq split, kept.2⟩
      · exact .inr rfl

theorem length_cut_le (trimmed : List Char) : (cut trimmed).length ≤ maxName := by
  rcases stemAndExt_cases trimmed with ⟨stem, e, found, -, short⟩ | found
  · simp only [cut, found, maxName, List.length_append, List.length_take, List.length_cons]
    omega
  · simp only [cut, found, List.length_take]
    omega

theorem mem_cut {trimmed : List Char} {c : Char} (member : c ∈ cut trimmed) :
    c ∈ trimmed ∨ c = '.' := by
  rcases stemAndExt_cases trimmed with ⟨stem, e, found, split, -⟩ | found
  · simp only [cut, found, List.mem_append, List.mem_cons] at member
    rw [split, List.mem_append, List.mem_cons]
    rcases member with kept | isDot | kept
    · exact .inl (.inl (List.mem_of_mem_take kept))
    · exact .inr isDot
    · exact .inl (.inr (.inr kept))
  · simp only [cut, found] at member
    exact .inl (List.mem_of_mem_take member)

/-- The text that goes into the last trimming pass. -/
def finalPass (raw : List Char) : List Char :=
  if (bare (cleaned raw)).length ≤ maxName then cleaned raw else cut (bare (cleaned raw))

theorem safeName_eq (raw : List Char) :
    safeName raw = if bare (finalPass raw) = [] then none else some (bare (finalPass raw)) := by
  unfold safeName finalPass
  by_cases empty : bare (cleaned raw) = []
  · simp [empty]
  · by_cases short : (bare (cleaned raw)).length ≤ maxName
    · simp [empty, short]
    · simp only [empty, short, if_false]

theorem safeName_eq_some {raw s : List Char} :
    safeName raw = some s ↔ bare (finalPass raw) = s ∧ s ≠ [] := by
  rw [safeName_eq]
  split
  · rename_i empty
    rw [empty]
    simp +contextual [eq_comm]
  · rename_i kept
    rw [Option.some_inj]
    exact ⟨fun same => ⟨same, same ▸ kept⟩, fun same => same.1⟩

theorem length_safeName_le {raw s : List Char} (accepted : safeName raw = some s) :
    s.length ≤ maxName := by
  obtain ⟨rfl, -⟩ := safeName_eq_some.mp accepted
  unfold finalPass
  split
  · assumption
  · exact (bare_within _).length_le.trans (length_cut_le _)

theorem mem_cleaned {raw : List Char} {c : Char} (member : c ∈ cleaned raw) :
    isSeparator c = false ∧ isControl c = false := by
  obtain ⟨inside, printable⟩ := List.mem_filter.mp member
  exact ⟨by simpa using List.mem_rtakeWhile_imp inside, by simpa using printable⟩

theorem mem_safeName {raw s : List Char} (accepted : safeName raw = some s) {c : Char}
    (member : c ∈ s) : isSeparator c = false ∧ isControl c = false := by
  obtain ⟨rfl, -⟩ := safeName_eq_some.mp accepted
  have inside := (bare_within _).subset member
  unfold finalPass at inside
  split at inside
  · exact mem_cleaned inside
  · rcases mem_cut inside with kept | rfl
    · exact mem_cleaned ((bare_within _).subset kept)
    · decide

/-- What a name must be for a filesystem to take it as the name of an ordinary visible file. -/
structure NeutralName (s : List Char) : Prop where
  nonempty : s ≠ []
  bounded : s.length ≤ 96
  component : '/' ∉ s ∧ '\\' ∉ s
  printable : ∀ c ∈ s, isControl c = false
  unspaced : (∀ c ∈ s.head?, isWhitespace c = false) ∧ ∀ c ∈ s.getLast?, isWhitespace c = false
  undotted : s.head? ≠ some '.' ∧ s.getLast? ≠ some '.'

/-- No dot comes back to an end of the text when whitespace, then dots, then whitespace are taken
off both ends, unless nothing else is left at all. -/
def DotsStayInside (text : List Char) : Prop :=
  skip [isWhitespace, isDot, isWhitespace, isDot, isWhitespace] text = [] ∨
    (skip [isWhitespace, isDot, isWhitespace] text).head? ≠ some '.' ∧
      (skip [isWhitespace, isDot, isWhitespace] text.reverse).head? ≠ some '.'

theorem safeName_neutral_iff (raw : List Char) :
    (∀ s, safeName raw = some s → NeutralName s) ↔ DotsStayInside (finalPass raw) := by
  unfold DotsStayInside
  rw [← bare_eq_nil]
  constructor
  · intro neutral
    by_cases kept : bare (finalPass raw) = []
    · exact .inl kept
    · rw [← head_bare kept, ← getLast_bare kept]
      exact .inr (neutral _ (safeName_eq_some.mpr ⟨rfl, kept⟩)).undotted
  · intro inside s accepted
    obtain ⟨rfl, kept⟩ := safeName_eq_some.mp accepted
    rw [← head_bare kept, ← getLast_bare kept] at inside
    have bounded := length_safeName_le accepted
    have clean := fun c => @mem_safeName raw _ accepted c
    refine ⟨kept, bounded, ⟨fun member => ?_, fun member => ?_⟩, fun c member => (clean c member).2,
      ⟨fun c => isWhitespace_head_bare, fun c => isWhitespace_getLast_bare⟩,
      inside.resolve_left kept⟩
    · exact absurd (clean '/' member).1 (by decide)
    · exact absurd (clean '\\' member).1 (by decide)

/-! The type allow-list. -/

structure InertMime (m : List Char) : Prop where
  lower : ∀ c ∈ m, c.isUpper = false
  bounded : (Utf8.encode m).length ≤ 64
  tokens : ∃ ty sub, m = ty ++ '/' :: sub ∧ tokenOk ty = true ∧ tokenOk sub = true
  oneSlash : m.count '/' = 1
  allowed : m = "text/plain".toList ∨ m = "application/pdf".toList ∨ "image/".toList <+: m ∨
    "audio/".toList <+: m ∨ "video/".toList <+: m
  unscripted : m ≠ "image/svg+xml".toList

theorem splitOnce_eq {c : Char} {text front back : List Char}
    (split : splitOnce c text = some (front, back)) : text = front ++ c :: back := by
  unfold splitOnce at split
  split at split
  · rename_i member
    obtain ⟨rfl, rfl⟩ : text.takeWhile (· != c) = front ∧ (text.dropWhile (· != c)).tail = back := by
      simpa using split
    rw [← dropWhile_ne_eq member, List.takeWhile_append_dropWhile]
  · simp at split

theorem slash_not_mem_token {s : List Char} (ok : tokenOk s = true) : '/' ∉ s := by
  intro member
  have kind := List.all_eq_true.mp (Bool.and_eq_true_iff.mp ok).2 '/' member
  exact absurd kind (by decide)

theorem safeMime_inert {raw m : List Char} (accepted : safeMime raw = some m) : InertMime m := by
  unfold safeMime at accepted
  dsimp only at accepted
  generalize shape : (trim (raw.takeWhile (· != ';'))).map Char.toLower = base at accepted
  by_cases refused : base = [] ∨ maxMime < (Utf8.encode base).length
  · simp [refused] at accepted
  rw [if_neg refused] at accepted
  rw [not_or, Nat.not_lt] at refused
  obtain ⟨⟨ty, sub⟩, split, accepted⟩ := Option.bind_eq_some_iff.mp accepted
  dsimp only at accepted
  split_ifs at accepted with malformed scripted listed
  obtain rfl := Option.some_inj.mp accepted
  simp only [Bool.or_eq_true, Bool.not_eq_true', not_or, Bool.not_eq_false] at malformed
  have parts := splitOnce_eq split
  refine ⟨?_, refused.2, ⟨ty, sub, parts, malformed⟩, ?_, ?_, scripted⟩
  · intro c member
    rw [← shape] at member
    obtain ⟨original, -, rfl⟩ := List.mem_map.mp member
    exact Char.isUpper_toLower_eq_false original
  · rw [parts, List.count_append, List.count_cons_self,
      List.count_eq_zero_of_not_mem (slash_not_mem_token malformed.1),
      List.count_eq_zero_of_not_mem (slash_not_mem_token malformed.2)]
  · simp only [safePrefix, safeExact, List.any_cons, List.any_nil, Bool.or_false,
      Bool.or_eq_true, List.isPrefixOf_iff_prefix, List.contains_iff_mem, List.mem_cons,
      List.not_mem_nil, or_false] at listed
    rcases listed with prefixed | plain | document
    · exact .inr (.inr prefixed)
    · exact .inl plain
    · exact .inr (.inl document)

/-! The envelope. -/

theorem fields_trailer (front : Bytes) (nameLen mimeLen : UInt8) :
    fields (front ++ [nameLen, mimeLen, version] ++ magic) =
      if front.length < nameLen.toNat + mimeLen.toNat then none
      else
        let split := front.length - (nameLen.toNat + mimeLen.toNat)
        some (front.take split, (front.take (split + nameLen.toNat)).drop split,
          (front.take (split + nameLen.toNat + mimeLen.toNat)).drop (split + nameLen.toNat)) := by
  generalize shape : front ++ [nameLen, mimeLen, version] ++ magic = raw
  have total : raw.length = front.length + 7 := by simp [← shape, magic]
  have marked : raw.drop (raw.length - 4) = magic := by
    rw [total, ← shape, List.drop_left' (by simp)]
  have part : ∀ n ≤ front.length, raw.take n = front.take n := by
    intro n bound
    rw [← shape, List.append_assoc, List.take_append_of_le_length bound]
  have behind : ∀ k (bound : k < 7), raw.get ⟨front.length + k, by omega⟩ =
      ([nameLen, mimeLen, version] ++ magic).get ⟨k, by simpa [magic] using bound⟩ := by
    intro k bound
    simp only [List.get_eq_getElem, ← shape, List.append_assoc]
    rw [List.getElem_append_right (by omega)]
    simp only [Nat.add_sub_cancel_left]
  have versioned : raw.get ⟨raw.length - 5, by omega⟩ = version := by
    simp only [show raw.length - 5 = front.length + 2 by omega]
    exact behind 2 (by omega)
  have named : raw.get ⟨raw.length - 7, by omega⟩ = nameLen := by
    simp only [show raw.length - 7 = front.length + 0 by omega]
    exact behind 0 (by omega)
  have typed : raw.get ⟨raw.length - 7 + 1, by omega⟩ = mimeLen := by
    simp only [show raw.length - 7 + 1 = front.length + 1 by omega]
    exact behind 1 (by omega)
  simp only [fields, fixed, marked, versioned, named, typed, not_lt.mpr (show 7 ≤ raw.length by omega),
    ne_eq, not_true_eq_false, or_self, dite_false, if_false]
  by_cases short : front.length < nameLen.toNat + mimeLen.toNat
  · rw [if_pos (by omega), if_pos short]
  · rw [if_neg (by omega), if_neg short]
    have split : raw.length - (7 + nameLen.toNat + mimeLen.toNat) =
        front.length - (nameLen.toNat + mimeLen.toNat) := by omega
    simp only [split]
    rw [part _ (by omega), part _ (by omega), part _ (by omega)]

theorem length_mime_le (mime : List Char) :
    (Utf8.encode ((safeMime mime).getD [])).length ≤ 64 := by
  cases typed : safeMime mime with
  | none => simp [Utf8.encode]
  | some m => exact (safeMime_inert typed).bounded

theorem fields_wrap (body n m : Bytes) (typed : m.length ≤ 64) :
    fields (body ++ n ++ m ++ [UInt8.ofNat n.length, UInt8.ofNat m.length, version] ++ magic) =
      let split := body.length + n.length - n.length % 256
      some ((body ++ n ++ m).take split, ((body ++ n ++ m).take (split + n.length % 256)).drop split,
        ((body ++ n ++ m).take (split + n.length % 256 + m.length)).drop (split + n.length % 256)) := by
  have total : (body ++ n ++ m).length = body.length + n.length + m.length := by
    simp [Nat.add_assoc]
  have part := Nat.mod_le n.length 256
  rw [fields_trailer, UInt8.toNat_ofNat', UInt8.toNat_ofNat',
    Nat.mod_eq_of_lt (show m.length < 2 ^ 8 by omega), if_neg (by omega)]
  dsimp only
  rw [show (body ++ n ++ m).length - (n.length % 2 ^ 8 + m.length) =
    body.length + n.length - n.length % 256 by omega]

/-- The body comes back exactly when the length of the name fits the byte that carries it: a name
of up to 96 characters may take up to 384 bytes. -/
theorem unwrap_wrap_body_iff (body : Bytes) (name mime : List Char) :
    (unwrap (wrap body name mime)).body = body ↔
      ∀ s, safeName name = some s → (Utf8.encode s).length ≤ 255 := by
  have nameBound : (Utf8.encode ((safeName name).getD [])).length ≤ 384 := by
    cases named : safeName name with
    | none => simp [Utf8.encode]
    | some s =>
        have bytes := Utf8.length_encode_le s
        have chars := length_safeName_le named
        simp only [Option.getD_some, maxName] at bytes chars ⊢
        omega
  have carried : (∀ s, safeName name = some s → (Utf8.encode s).length ≤ 255) ↔
      (Utf8.encode ((safeName name).getD [])).length ≤ 255 := by
    cases safeName name <;> simp [Utf8.encode]
  rw [carried]
  simp only [unwrap, wrap]
  rw [fields_wrap body _ _ (length_mime_le mime)]
  generalize Utf8.encode ((safeName name).getD []) = n at nameBound ⊢
  dsimp only
  constructor
  · intro same
    have lengths := congrArg List.length same
    simp only [List.length_take, List.length_append] at lengths
    omega
  · intro short
    rw [Nat.mod_eq_of_lt (by omega), Nat.add_sub_cancel, List.append_assoc, List.take_left' rfl]

/-- Sixty-four characters of four bytes each: the length 256 is written as zero, and the name
arrives as part of the file. -/
theorem long_name_joins_body :
    ¬ (unwrap (wrap [] (List.replicate 64 (Char.ofNat 0x1F600)) [])).body = [] := by
  decide +kernel

def claimedName (raw : Bytes) : Option (List Char) :=
  fields raw >>= fun parts => Utf8.decode parts.2.1

def MetadataNeutral (raw : Bytes) : Prop :=
  (∀ s, (unwrap raw).name = some s → NeutralName s) ∧
    ∀ m, (unwrap raw).mime = some m → InertMime m

/-- The metadata of arbitrary bytes is neutral exactly when no dot returns to an end of the
claimed name in the last trimming pass; all but the outer dots holds of every name. -/
theorem metadata_neutral_iff (raw : Bytes) :
    MetadataNeutral raw ↔
      ∀ text, claimedName raw = some text → DotsStayInside (finalPass text) := by
  simp only [MetadataNeutral, unwrap, claimedName]
  cases fields raw with
  | none => simp
  | some parts =>
      obtain ⟨body, name, mime⟩ := parts
      have inert : ∀ m, (Utf8.decode mime >>= safeMime) = some m → InertMime m := by
        intro m accepted
        obtain ⟨text, -, accepted⟩ := Option.bind_eq_some_iff.mp accepted
        exact safeMime_inert accepted
      refine (and_iff_left inert).trans ?_
      simp only [Option.bind_eq_bind, Option.bind_some]
      cases Utf8.decode name with
      | none => simp
      | some text => simp only [Option.bind_some, Option.some_inj, forall_eq', safeName_neutral_iff]

theorem hidden_name_delivered :
    ¬MetadataNeutral ([0x2E, 0x20, 0x2E, 0x62, 0x61, 0x73, 0x68, 0x72, 0x63] ++ [9, 0, 1] ++
      [0x52, 0x42, 0x4B, 0x50]) := by
  have parsed : fields ([0x2E, 0x20, 0x2E, 0x62, 0x61, 0x73, 0x68, 0x72, 0x63] ++ [9, 0, 1] ++
      [0x52, 0x42, 0x4B, 0x50]) = some ([], Utf8.encode ". .bashrc".toList, []) := by decide +kernel
  have hidden : safeName ". .bashrc".toList = some ".bashrc".toList := by decide +kernel
  rintro ⟨neutral, -⟩
  have named : (unwrap ([0x2E, 0x20, 0x2E, 0x62, 0x61, 0x73, 0x68, 0x72, 0x63] ++ [9, 0, 1] ++
      [0x52, 0x42, 0x4B, 0x50])).name = some ".bashrc".toList := by
    rw [unwrap, parsed, ← hidden]
    change Utf8.decode (Utf8.encode ". .bashrc".toList) >>= safeName = _
    rw [Utf8.decode_encode]
    rfl
  exact (neutral _ named).undotted.1 rfl

end Rabaska.Payload
