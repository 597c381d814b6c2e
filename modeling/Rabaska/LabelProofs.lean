import Rabaska.PayloadProofs

/-! What a label keeps: a sanitised one that is sanitised again, and a long one that is cut. -/

namespace Rabaska.Payload

open Trim

/-! A name that has been sanitised before. -/

theorem bare_eq_self_iff (text : List Char) :
    bare text = text ↔ trim text = text ∧ trimMatches isDot text = text := by
  constructor
  · intro same
    have outer : bare text <:+: trimMatches isDot (trim text) := trimMatches_within _ _
    have middle := trimMatches_within isDot (trim text)
    have inner : trim text <:+: text := trimMatches_within _ _
    rw [same] at outer
    have trimmed := inner.eq_of_length (Nat.le_antisymm inner.length_le
      (outer.length_le.trans middle.length_le))
    rw [trimmed] at outer middle
    exact ⟨trimmed, middle.eq_of_length (Nat.le_antisymm middle.length_le outer.length_le)⟩
  · rintro ⟨trimmed, undotted⟩
    rw [bare, trimmed, undotted, trimmed]

theorem trim_bare (text : List Char) : trim (bare text) = bare text :=
  (trimMatches_eq_self_iff _).mpr ⟨fun _ => isWhitespace_head_bare, fun _ => isWhitespace_getLast_bare⟩

theorem cleaned_safeName {raw s : List Char} (accepted : safeName raw = some s) : cleaned s = s := by
  have clean := fun c => @mem_safeName raw s accepted c
  have component : s.rtakeWhile (fun c => !isSeparator c) = s :=
    List.rtakeWhile_eq_self_iff.mpr fun c member => by simp [(clean c member).1]
  rw [cleaned, component]
  exact List.filter_eq_self.mpr fun c member => by simp [(clean c member).2]

theorem isDot_edge_iff (edge : Option Char) : (∀ c ∈ edge, isDot c = false) ↔ edge ≠ some '.' := by
  cases edge <;> simp [isDot]

theorem safeName_again_iff {raw s : List Char} (accepted : safeName raw = some s) :
    safeName s = some s ↔ DotsStayInside (finalPass raw) := by
  obtain ⟨trimmed, kept⟩ := safeName_eq_some.mp accepted
  have again : finalPass s = s := by
    have bounded := length_safeName_le accepted
    rw [finalPass, cleaned_safeName accepted, if_pos ((bare_within s).length_le.trans bounded)]
  have spaced : trim s = s := by
    rw [← trimmed]
    exact trim_bare _
  rw [safeName_eq_some, again, bare_eq_self_iff, trimMatches_eq_self_iff, DotsStayInside,
    ← bare_eq_nil, ← head_bare (trimmed ▸ kept), ← getLast_bare (trimmed ▸ kept), trimmed]
  simp only [isDot_edge_iff, spaced, kept, ne_eq, not_false_eq_true, and_true, true_and, false_or]

/-! A type that has been sanitised before. -/

theorem isTokenChar_range {c : Char} (token : isTokenChar c = true) :
    0x21 ≤ c.toNat ∧ c.toNat ≤ 0x7a := by
  rcases Bool.or_eq_true_iff.mp token with alphanum | listed
  · simp only [Char.isAlphanum, Char.isAlpha, Char.isUpper, Char.isLower, Char.isDigit,
      Bool.or_eq_true, Bool.and_eq_true, decide_eq_true_eq, ge_iff_le, UInt32.le_iff_toNat_le,
      Char.reduceVal, UInt32.reduceToNat] at alphanum
    change 0x21 ≤ c.val.toNat ∧ c.val.toNat ≤ 0x7a
    omega
  · simp only [List.contains_iff_mem, List.mem_cons, List.not_mem_nil, or_false] at listed
    rcases listed with rfl | rfl | rfl | rfl | rfl | rfl | rfl | rfl | rfl <;> decide

theorem plain_token {c : Char} (token : isTokenChar c = true) : isWhitespace c = false ∧ c ≠ ';' := by
  obtain ⟨floor, ceiling⟩ := isTokenChar_range token
  constructor
  · simp only [isWhitespace, Bool.or_eq_false_iff, Bool.and_eq_false_iff, decide_eq_false_iff_not]
    omega
  · rintro rfl
    exact absurd token (by decide)

theorem safeMime_base {raw m : List Char} (accepted : safeMime raw = some m) :
    (trim (raw.takeWhile (· != ';'))).map Char.toLower = m := by
  unfold safeMime at accepted
  dsimp only at accepted
  generalize (trim (raw.takeWhile (· != ';'))).map Char.toLower = base at accepted ⊢
  split at accepted
  · simp at accepted
  · obtain ⟨⟨ty, sub⟩, -, accepted⟩ := Option.bind_eq_some_iff.mp accepted
    dsimp only at accepted
    split_ifs at accepted
    exact Option.some_inj.mp accepted

theorem safeMime_again {raw m : List Char} (accepted : safeMime raw = some m) : safeMime m = some m := by
  obtain ⟨lower, -, ⟨ty, sub, parts, tyOk, subOk⟩, -, -, -⟩ := safeMime_inert accepted
  have plain : ∀ c ∈ m, isWhitespace c = false ∧ c ≠ ';' := by
    have tokens := fun s (ok : tokenOk s = true) c (member : c ∈ s) =>
      plain_token (List.all_eq_true.mp (Bool.and_eq_true_iff.mp ok).2 c member)
    intro c member
    rw [parts, List.mem_append, List.mem_cons] at member
    rcases member with front | rfl | back
    · exact tokens ty tyOk c front
    · decide
    · exact tokens sub subOk c back
  have whole : m.takeWhile (· != ';') = m :=
    List.takeWhile_eq_self_iff.mpr fun c member => by simp [(plain c member).2]
  have spaced : trim m = m := (trimMatches_eq_self_iff m).mpr
    ⟨fun c first => (plain c (List.mem_of_mem_head? first)).1,
      fun c last => (plain c (List.mem_of_mem_getLast? last)).1⟩
  have lowered : m.map Char.toLower = m := by
    refine (List.map_congr_left fun c member => ?_).trans (List.map_id m)
    exact Char.toLower_eq_of_not_isUpper (by simp [lower c member])
  have base : (trim (m.takeWhile (· != ';'))).map Char.toLower =
      (trim (raw.takeWhile (· != ';'))).map Char.toLower := by
    rw [safeMime_base accepted, whole, spaced, lowered]
  rw [← accepted, safeMime, safeMime, base]

theorem safeMime_twice (mime : List Char) : (safeMime mime >>= safeMime) = safeMime mime := by
  cases accepted : safeMime mime with
  | none => rfl
  | some m => exact safeMime_again accepted

/-! A label on the wire. -/

def FitsLength (name : List Char) : Prop :=
  ∀ s, safeName name = some s → (Utf8.encode s).length ≤ 255

theorem unwrap_wrap (body : Bytes) {name : List Char} (mime : List Char) (fits : FitsLength name) :
    unwrap (wrap body name mime) =
      { body, name := safeName name >>= safeName, mime := safeMime mime >>= safeMime } := by
  have short : (Utf8.encode ((safeName name).getD [])).length < 256 := by
    cases named : safeName name with
    | none => simp [Utf8.encode]
    | some s => exact Nat.lt_succ_of_le (fits s named)
  rw [unwrap, wrap, fields_wrap body _ _ (length_mime_le mime), Nat.mod_eq_of_lt short]
  dsimp only
  rw [Nat.add_sub_cancel, ← List.length_append, List.take_left, List.drop_left,
    ← List.length_append, List.take_length, List.drop_left, List.append_assoc, List.take_left,
    Utf8.decode_encode, Utf8.decode_encode]
  cases safeName name <;> cases safeMime mime <;> rfl

/-- The receiver reads the label that the sender's sanitiser let through, unless it let a name
through that has a dot at one of its ends: that dot is taken off on the way in. -/
theorem label_survives_iff (body : Bytes) (name mime : List Char) (fits : FitsLength name) :
    ((unwrap (wrap body name mime)).name = safeName name ∧
      (unwrap (wrap body name mime)).mime = safeMime mime) ↔ DotsStayInside (finalPass name) := by
  rw [unwrap_wrap body mime fits]
  dsimp only
  rw [safeMime_twice]
  cases accepted : safeName name with
  | none =>
      have refused : bare (finalPass name) = [] := by
        rw [safeName_eq] at accepted
        by_contra kept
        simp [kept] at accepted
      have inside : DotsStayInside (finalPass name) := .inl ((bare_eq_nil _).mp refused)
      simp [inside]
  | some s =>
      rw [← safeName_again_iff accepted]
      simp only [Option.bind_eq_bind, Option.bind_some, and_true]

theorem label_survives_report :
    (unwrap (wrap [1, 2, 3] "../report.v2.pdf".toList "Application/PDF; v=2".toList)).name =
        safeName "../report.v2.pdf".toList ∧
      (unwrap (wrap [1, 2, 3] "../report.v2.pdf".toList "Application/PDF; v=2".toList)).mime =
        safeMime "Application/PDF; v=2".toList := by
  have sanitised : safeName "../report.v2.pdf".toList = some "report.v2.pdf".toList := by
    decide +kernel
  have fits : FitsLength "../report.v2.pdf".toList := by
    intro s named
    obtain rfl := Option.some_inj.mp (sanitised.symm.trans named)
    decide +kernel
  refine (label_survives_iff _ _ _ fits).mpr (.inr ⟨?_, ?_⟩) <;> decide +kernel

theorem dotted_label_changes : ¬(FitsLength ". .bashrc".toList →
    (unwrap (wrap [] ". .bashrc".toList [])).name = safeName ". .bashrc".toList ∧
      (unwrap (wrap [] ". .bashrc".toList [])).mime = safeMime []) := by
  have hidden : safeName ". .bashrc".toList = some ".bashrc".toList := by decide +kernel
  have fits : FitsLength ". .bashrc".toList := by
    intro s named
    obtain rfl := Option.some_inj.mp (hidden.symm.trans named)
    decide +kernel
  intro survives
  obtain ⟨named, -⟩ := survives fits
  rw [unwrap_wrap [] [] fits, hidden] at named
  change safeName ".bashrc".toList = some ".bashrc".toList at named
  revert named
  decide +kernel

/-! A long name that is cut to its length. -/

theorem rsplitOnce_cases {c : Char} {text front back : List Char}
    (split : rsplitOnce c text = some (front, back)) : text = front ++ c :: back ∧ c ∉ back := by
  refine ⟨rsplitOnce_eq split, ?_⟩
  unfold rsplitOnce at split
  split at split
  · obtain ⟨-, rfl⟩ : (text.rdropWhile (· != c)).dropLast = front ∧
        text.rtakeWhile (· != c) = back := by simpa using split
    intro member
    simpa using List.mem_rtakeWhile_imp member
  · simp at split

theorem rsplitOnce_append {c : Char} {front back : List Char} (other : c ∉ back) :
    rsplitOnce c (front ++ c :: back) = some (front, back) := by
  have kept : ∀ d ∈ back.reverse, (d != c) = true := by
    intro d member
    have different : d ≠ c := fun same => other (same ▸ List.mem_reverse.mp member)
    simpa using different
  have turned : (front ++ c :: back).reverse = back.reverse ++ c :: front.reverse := by simp
  rw [rsplitOnce, if_pos (by simp), List.rdropWhile, List.rtakeWhile, turned,
    List.dropWhile_append_of_pos kept, List.takeWhile_append_of_pos kept]
  simp

def keptStem (stem ext : List Char) : List Char := stem.take (95 - ext.length)

section Cut

variable {trimmed stem ext : List Char}

theorem cut_eq (split : rsplitOnce '.' trimmed = some (stem, ext)) (kept : ext ≠ [])
    (short : ext.length ≤ 16) : cut trimmed = keptStem stem ext ++ '.' :: ext := by
  have limit : maxName - (ext.length + 1) = 95 - ext.length := by
    simp only [maxName]
    omega
  have parts : stemAndExt trimmed = (stem, some ext) := by
    rw [stemAndExt, split]
    exact if_pos ⟨kept, short⟩
  rw [cut, parts]
  dsimp only
  rw [limit, keptStem]

theorem head_keptStem (long : 96 < trimmed.length)
    (split : rsplitOnce '.' trimmed = some (stem, ext)) (short : ext.length ≤ 16) :
    (keptStem stem ext).head? = trimmed.head? := by
  obtain ⟨whole, -⟩ := rsplitOnce_cases split
  have total := congrArg List.length whole
  rw [List.length_append, List.length_cons] at total
  have started : stem ≠ [] := List.ne_nil_of_length_pos (by omega)
  rw [keptStem, List.head?_take, if_neg (by omega), whole, List.head?_append_of_ne_nil _ started]

theorem keptStem_ne (long : 96 < trimmed.length)
    (split : rsplitOnce '.' trimmed = some (stem, ext)) (short : ext.length ≤ 16) :
    keptStem stem ext ≠ [] := by
  have head := head_keptStem long split short
  intro empty
  rw [empty, rsplitOnce_eq split] at head
  simp at head

theorem bare_cut (first : ∀ c ∈ trimmed.head?, isWhitespace c = false)
    (last : ∀ c ∈ trimmed.getLast?, isWhitespace c = false) (long : 96 < trimmed.length)
    (split : rsplitOnce '.' trimmed = some (stem, ext)) (kept : ext ≠ []) (short : ext.length ≤ 16) :
    bare (cut trimmed) = skip [isDot, isWhitespace] (keptStem stem ext ++ '.' :: ext) := by
  obtain ⟨whole, undotted⟩ := rsplitOnce_cases split
  have behind : ∀ front : List Char, (front ++ '.' :: ext).getLast? = ext.getLast? := by
    intro front
    rw [← List.singleton_append, ← List.append_assoc, List.getLast?_append_of_ne_nil _ kept]
  have outer : ∀ c ∈ (keptStem stem ext ++ '.' :: ext).getLast?,
      ∀ kind ∈ [isWhitespace, isDot, isWhitespace], kind c = false := by
    intro c final kind member
    rw [behind] at final
    have unspaced : isWhitespace c = false := last c (by rwa [whole, behind])
    have plain : isDot c = false := by
      simp only [isDot, beq_eq_false_iff_ne]
      rintro rfl
      exact undotted (List.mem_of_mem_getLast? final)
    simp only [List.mem_cons, List.not_mem_nil, or_false] at member
    rcases member with rfl | rfl | rfl
    · exact unspaced
    · exact plain
    · exact unspaced
  have started := keptStem_ne long split short
  rw [cut_eq split kept short]
  calc bare (keptStem stem ext ++ '.' :: ext)
      = skip [isWhitespace, isDot, isWhitespace] (keptStem stem ext ++ '.' :: ext) :=
        foldl_trimMatches_eq_skip outer
    _ = skip [isDot, isWhitespace] (keptStem stem ext ++ '.' :: ext) := by
        rw [skip_cons, dropWhile_eq_self]
        intro c opening
        rw [List.head?_append_of_ne_nil _ started, head_keptStem long split short] at opening
        exact first c opening

theorem skip_extension_iff (front : List Char) :
    skip [isDot, isWhitespace] (keptStem stem ext ++ '.' :: ext) = front ++ '.' :: ext ∧ front ≠ [] ↔
      skip [isDot, isWhitespace] (keptStem stem ext) = front ∧ front ≠ [] := by
  by_cases left : skip [isDot, isWhitespace] (keptStem stem ext) = []
  · have bound := (skip_append ('.' :: ext) left).length_le
    rw [left]
    constructor
    · rintro ⟨same, kept⟩
      have positive := List.length_pos_iff.mpr kept
      rw [same, List.length_append] at bound
      omega
    · rintro ⟨rfl, kept⟩
      exact absurd rfl kept
  · rw [skip_append_kept _ left, List.append_left_inj]

end Cut

/-! Whitespace and dots at the ends of a name, and what one pass of trimming leaves of them. -/

def isEdge (c : Char) : Bool := isWhitespace c || isDot c

def wholly (raw : List Char) : List Char := trimMatches isEdge (cleaned raw)

def margin (text : List Char) : List Char :=
  skip [isWhitespace, isDot, isWhitespace] (text.takeWhile isEdge)

theorem not_edge {c : Char} (other : isEdge c = false) : ∀ kind ∈ [isWhitespace, isDot, isWhitespace],
    kind c = false := by
  simp only [isEdge, Bool.or_eq_false_iff] at other
  simp [other]

theorem mem_margin {text : List Char} {c : Char} (member : c ∈ margin text) : isEdge c = true :=
  List.mem_takeWhile_imp ((skip_suffix _ _).subset member)

theorem head_margin {text : List Char} {c : Char} (first : c ∈ (margin text).head?) : c = '.' := by
  have unspaced : isWhitespace c = false := by
    have stop := List.head?_dropWhile_not isWhitespace
      (((text.takeWhile isEdge).dropWhile isWhitespace).dropWhile isDot)
    rw [show ((_ : List Char).dropWhile isDot).dropWhile isWhitespace = margin text from rfl,
      Option.mem_def.mp first] at stop
    simpa using stop
  have edge := mem_margin (List.mem_of_mem_head? first)
  simpa [isEdge, unspaced, isDot] using edge

theorem bare_margins {text : List Char} (kept : trimMatches isEdge text ≠ []) :
    bare text = margin text ++ trimMatches isEdge text ++ (margin text.reverse).reverse := by
  have first : ∀ c ∈ (trimMatches isEdge text).head?, isEdge c = false := fun c => head_trimMatches
  have last : ∀ c ∈ (trimMatches isEdge text).getLast?, isEdge c = false := fun c => getLast_trimMatches
  have whole : text = text.takeWhile isEdge ++ trimMatches isEdge text ++ text.rtakeWhile isEdge := by
    have behind : (text.dropWhile isEdge).rtakeWhile isEdge = text.rtakeWhile isEdge := by
      have open' : ¬((text.dropWhile isEdge).reverse.takeWhile isEdge).length =
          (text.dropWhile isEdge).reverse.length := by
        intro all
        apply kept
        have whole := (List.takeWhile_prefix isEdge).eq_of_length all
        refine List.rdropWhile_eq_nil_iff.mpr fun c member => ?_
        rw [← List.mem_reverse, ← whole] at member
        exact List.mem_takeWhile_imp member
      conv_rhs => rw [← List.takeWhile_append_dropWhile (p := isEdge) (l := text)]
      rw [List.rtakeWhile, List.rtakeWhile, List.reverse_append, List.takeWhile_append, if_neg open']
    rw [← behind, trimMatches, List.append_assoc, List.rdropWhile_append_rtakeWhile,
      List.takeWhile_append_dropWhile]
  have around : bare text = _ := (congrArg bare whole).trans
    (foldl_trimMatches_around (fun c opening => not_edge (first c opening))
      (fun c final => not_edge (last c final)) kept)
  rw [around, List.rtakeWhile, List.reverse_reverse]
  rfl

theorem bare_append {front text : List Char} (first : ∀ c ∈ text.head?, isEdge c = false)
    (some : text ≠ []) :
    bare (front ++ text) = skip [isWhitespace, isDot, isWhitespace] front ++ bare text ∧
      bare text <+: text ∧ (bare text).head? = text.head? := by
  have solid : text.rdropWhile isEdge ≠ [] := by
    intro empty
    obtain ⟨c, rest, rfl⟩ := List.exists_cons_of_ne_nil some
    have edge := List.rdropWhile_eq_nil_iff.mp empty c List.mem_cons_self
    simp [first c rfl] at edge
  have split : text.rdropWhile isEdge ++ text.rtakeWhile isEdge = text := List.rdropWhile_append_rtakeWhile
  have last : ∀ c ∈ (text.rdropWhile isEdge).getLast?, isEdge c = false := by
    intro c final
    have stop := List.rdropWhile_last_not isEdge text solid
    rw [Option.mem_def, List.getLast?_eq_some_getLast solid, Option.some_inj] at final
    simpa [final] using stop
  generalize text.rdropWhile isEdge = core, text.rtakeWhile isEdge = back at *
  have head : text.head? = core.head? := by rw [← split, List.head?_append_of_ne_nil _ solid]
  have around (front : List Char) : bare (front ++ text) =
      skip [isWhitespace, isDot, isWhitespace] front ++
        (core ++ (skip [isWhitespace, isDot, isWhitespace] back.reverse).reverse) := by
    rw [← split, ← List.append_assoc, ← List.append_assoc]
    refine foldl_trimMatches_around (fun c opening => not_edge (first c ?_))
      (fun c final => not_edge (last c final)) solid
    rwa [head]
  have alone : bare text = core ++ (skip [isWhitespace, isDot, isWhitespace] back.reverse).reverse :=
    around []
  refine ⟨by rw [around, alone], ?_, ?_⟩
  · rw [alone, ← split, List.prefix_append_right_inj, ← List.reverse_suffix, List.reverse_reverse]
    exact skip_suffix _ _
  · rw [alone, head, List.head?_append_of_ne_nil _ solid]

theorem solid_front {kept stem : List Char} (first : ∀ c ∈ stem.head?, isEdge c = false)
    (opens : kept <+: stem) : ∀ c ∈ kept.head?, isEdge c = false := by
  intro c opening
  obtain ⟨rest, rfl⟩ := opens
  exact first c (by rw [List.head?_append, Option.mem_def.mp opening]; rfl)

theorem suffix_bare_iff {text back : List Char} (first : ∀ c ∈ text.head?, isEdge c = false) :
    back <:+ bare text ↔ back.reverse <+: skip [isWhitespace, isDot, isWhitespace] text.reverse := by
  have skips : bare text.reverse = skip [isWhitespace, isDot, isWhitespace] text.reverse := by
    refine foldl_trimMatches_eq_skip fun c last => not_edge (first c ?_)
    rwa [List.getLast?_reverse] at last
  rw [← skips, bare_reverse, List.reverse_prefix]

theorem eq_nil_of_edges {front kept : List Char} (edges : ∀ c, c ∈ front → isEdge c = true)
    (solid : ∀ c ∈ kept.head?, isEdge c = false) (inside : kept ⊆ front) : kept = [] := by
  cases kept with
  | nil => rfl
  | cons c rest =>
      have edge := edges c (inside List.mem_cons_self)
      simp [solid c rfl] at edge

theorem spent_of_solid {front kept rest : List Char} {kinds : List (Char → Bool)}
    (edges : ∀ c, c ∈ front → isEdge c = true) (solid : ∀ c ∈ kept.head?, isEdge c = false)
    (same : skip kinds front ++ rest = kept) : skip kinds front = [] :=
  eq_nil_of_edges edges (solid_front solid ⟨rest, same⟩) (skip_suffix _ _).subset

theorem stem_left_iff {front stem : List Char} {limit : Nat} (edges : ∀ c, c ∈ front → isEdge c = true)
    (started : stem ≠ []) (first : ∀ c ∈ stem.head?, isEdge c = false) :
    skip [isDot, isWhitespace] ((front ++ stem).take limit) ≠ [] ∧
        skip [isDot, isWhitespace] ((front ++ stem).take limit) <+: stem ↔
      skip [isDot, isWhitespace] front = [] ∧ front.length < limit := by
  constructor
  · rintro ⟨left, opens⟩
    have solid := solid_front first opens
    have inside : front.length < limit := by
      by_contra short
      rw [List.take_append_of_le_length (Nat.le_of_not_lt short)] at left solid
      exact left (eq_nil_of_edges edges solid fun c member =>
        List.mem_of_mem_take ((skip_suffix _ _).subset member))
    rw [List.take_append, List.take_of_length_le (Nat.le_of_lt inside)] at solid
    refine ⟨by_contra fun kept => kept ?_, inside⟩
    exact spent_of_solid edges solid (skip_append_kept _ kept).symm
  · rintro ⟨spent, inside⟩
    have started' : stem.take (limit - front.length) ≠ [] := by
      rw [ne_eq, List.take_eq_nil_iff]
      rintro (none | empty)
      · omega
      · exact started empty
    rw [List.take_append, List.take_of_length_le (Nat.le_of_lt inside), skip_append_spent spent]
    · exact ⟨started', List.take_prefix _ _⟩
    · intro c opening kind member
      rw [List.head?_take, if_neg (by omega)] at opening
      refine not_edge (first c opening) kind ?_
      simp only [List.mem_cons, List.not_mem_nil, or_false] at member ⊢
      exact .inr (member.imp_left id)

/-! A long name keeps its extension. -/

structure LongName (raw stem ext : List Char) : Prop where
  long : 96 < (wholly raw).length
  split : rsplitOnce '.' (wholly raw) = some (stem, ext)
  least : 1 ≤ ext.length
  most : ext.length ≤ 16

def KeepsExtension (raw stem ext : List Char) : Prop :=
  ∃ front, safeName raw = some (front ++ '.' :: ext) ∧ (front ++ '.' :: ext).length ≤ 96 ∧
    front ≠ [] ∧ front <+: stem

/-- One pass of trimming leaves nothing in front of the name but at most one block of dots and whitespace,
with room for some of the stem behind it; and it leaves nothing behind the name, or else the extension
stands a second time in front of the cut, with no more between than one pass skips. -/
def CutsAtExtension (raw ext : List Char) : Prop :=
  skip [isDot, isWhitespace] (margin (cleaned raw)) = [] ∧
    if margin (cleaned raw).reverse = [] then (margin (cleaned raw)).length + ext.length < 95
    else ('.' :: ext).reverse <+: skip [isWhitespace, isDot, isWhitespace]
      ((wholly raw).take (96 - (margin (cleaned raw)).length)).reverse

instance (raw ext : List Char) : Decidable (CutsAtExtension raw ext) :=
  inferInstanceAs (Decidable (_ ∧ _))

namespace LongName

variable {raw stem ext : List Char}

theorem whole (name : LongName raw stem ext) : wholly raw = stem ++ '.' :: ext ∧ '.' ∉ ext :=
  rsplitOnce_cases name.split

theorem started (name : LongName raw stem ext) : stem ≠ [] := by
  have total := congrArg List.length name.whole.1
  rw [List.length_append, List.length_cons] at total
  have long := name.long
  have most := name.most
  exact List.ne_nil_of_length_pos (by omega)

theorem first (name : LongName raw stem ext) : ∀ c ∈ stem.head?, isEdge c = false := by
  intro c opening
  have head : (wholly raw).head? = stem.head? := by
    rw [name.whole.1, List.head?_append_of_ne_nil _ name.started]
  rw [← head] at opening
  exact head_trimMatches opening

theorem trimmed (name : LongName raw stem ext) : bare (cleaned raw) =
    margin (cleaned raw) ++ wholly raw ++ (margin (cleaned raw).reverse).reverse := by
  refine bare_margins (List.ne_nil_of_length_pos (l := wholly raw) ?_)
  exact Nat.lt_trans (by decide) name.long

theorem finalPass_eq (name : LongName raw stem ext) : finalPass raw = cut (bare (cleaned raw)) := by
  refine if_neg fun short => ?_
  rw [name.trimmed, List.length_append, List.length_append] at short
  have long := name.long
  simp only [maxName] at short
  omega

theorem kept_iff_of_clean (name : LongName raw stem ext) (clean : margin (cleaned raw).reverse = []) :
    KeepsExtension raw stem ext ↔ skip [isDot, isWhitespace] (margin (cleaned raw)) = [] ∧
      (margin (cleaned raw)).length + ext.length < 95 := by
  have some : ext ≠ [] := List.ne_nil_of_length_pos name.least
  obtain ⟨whole, undotted⟩ := name.whole
  have trimmed := name.trimmed
  have edges := fun c => @mem_margin (cleaned raw) c
  rw [clean, List.reverse_nil, List.append_nil, whole, ← List.append_assoc] at trimmed
  generalize margin (cleaned raw) = front at *
  have long : 96 < (bare (cleaned raw)).length := by
    have long := name.long
    rw [whole, List.length_append] at long
    rw [trimmed, List.length_append, List.length_append]
    omega
  have split : rsplitOnce '.' (bare (cleaned raw)) = Option.some (front ++ stem, ext) := by
    rw [trimmed]
    exact rsplitOnce_append undotted
  have cutting : bare (finalPass raw) =
      skip [isDot, isWhitespace] (keptStem (front ++ stem) ext ++ '.' :: ext) := by
    rw [name.finalPass_eq]
    exact bare_cut (fun c => isWhitespace_head_bare) (fun c => isWhitespace_getLast_bare) long split some
      name.most
  have same : front.length + ext.length < 95 ↔ front.length < 95 - ext.length := by omega
  rw [same, ← stem_left_iff edges name.started name.first]
  constructor
  · rintro ⟨kept, accepted, -, left, opens⟩
    obtain ⟨passed, -⟩ := safeName_eq_some.mp accepted
    obtain ⟨rest, -⟩ := (skip_extension_iff kept).mp ⟨cutting.symm.trans passed, left⟩
    rw [← keptStem, rest]
    exact ⟨left, opens⟩
  · rintro ⟨left, opens⟩
    obtain ⟨passed, -⟩ := (@skip_extension_iff (front ++ stem) ext _).mpr ⟨rfl, left⟩
    have accepted := safeName_eq_some.mpr ⟨cutting.trans passed, by simp⟩
    exact ⟨_, accepted, length_safeName_le accepted, left, opens⟩

theorem finalPass_of_dotted (name : LongName raw stem ext)
    (dotted : margin (cleaned raw).reverse ≠ []) :
    finalPass raw = (margin (cleaned raw) ++ wholly raw).take 96 := by
  obtain ⟨c, rest, shape⟩ := List.exists_cons_of_ne_nil dotted
  obtain rfl : c = '.' := head_margin (show c ∈ (margin (cleaned raw).reverse).head? by rw [shape]; rfl)
  have ends : bare (cleaned raw) = (margin (cleaned raw) ++ wholly raw ++ rest.reverse) ++ ['.'] := by
    rw [name.trimmed, shape, List.reverse_cons]
    exact (List.append_assoc _ _ _).symm
  -- Nothing stands behind the last dot, so the whole text counts as the stem.
  have blunt : stemAndExt (bare (cleaned raw)) = (bare (cleaned raw), none) := by
    rw [stemAndExt, ends, rsplitOnce_append (by simp)]
    simp
  have long := name.long
  rw [name.finalPass_eq, cut, blunt]
  dsimp only
  rw [name.trimmed, List.take_append_of_le_length]
  · rfl
  · rw [List.length_append, maxName]
    omega

theorem bare_behind (name : LongName raw stem ext) {front : List Char}
    (unspaced : ∀ c ∈ front.head?, isWhitespace c = false) (room : front.length < 96) :
    bare ((front ++ wholly raw).take 96) =
        skip [isDot, isWhitespace] front ++ bare ((wholly raw).take (96 - front.length)) ∧
      bare ((wholly raw).take (96 - front.length)) <+: (wholly raw).take (96 - front.length) ∧
      (bare ((wholly raw).take (96 - front.length))).head? = (wholly raw).head? := by
  have first : ∀ c ∈ (wholly raw).head?, isEdge c = false := fun c => head_trimMatches
  have long := name.long
  have some : (wholly raw).take (96 - front.length) ≠ [] := by
    rw [ne_eq, List.take_eq_nil_iff, not_or]
    exact ⟨by omega, List.ne_nil_of_length_pos (by omega)⟩
  have head : ((wholly raw).take (96 - front.length)).head? = (wholly raw).head? := by
    rw [List.head?_take, if_neg (by omega)]
  obtain ⟨passed, opens, opening⟩ := @bare_append front _ (by rwa [head]) some
  rw [skip_cons, dropWhile_eq_self unspaced] at passed
  rw [List.take_append, List.take_of_length_le (Nat.le_of_lt room)]
  exact ⟨passed, opens, opening.trans head⟩

theorem kept_iff_of_dotted (name : LongName raw stem ext) (dotted : margin (cleaned raw).reverse ≠ []) :
    KeepsExtension raw stem ext ↔ skip [isDot, isWhitespace] (margin (cleaned raw)) = [] ∧
      '.' :: ext <:+ bare ((wholly raw).take (96 - (margin (cleaned raw)).length)) := by
  have cutting := name.finalPass_of_dotted dotted
  have edges := fun c => @mem_margin (cleaned raw) c
  have unspaced : ∀ c ∈ (margin (cleaned raw)).head?, isWhitespace c = false := by
    intro c opening
    obtain rfl := head_margin opening
    decide
  obtain ⟨whole, -⟩ := name.whole
  have long := name.long
  generalize margin (cleaned raw) = front at *
  by_cases room : front.length < 96
  · obtain ⟨result, opens, opening⟩ := name.bare_behind unspaced room
    have into := opens.trans (List.take_prefix _ _)
    have bound := opens.length_le
    rw [List.length_take] at bound
    rw [← cutting] at result
    generalize bare ((wholly raw).take (96 - front.length)) = left at *
    constructor
    · rintro ⟨kept, accepted, -, some, opens⟩
      obtain ⟨passed, -⟩ := safeName_eq_some.mp accepted
      have solid : ∀ c ∈ (kept ++ '.' :: ext).head?, isEdge c = false := by
        rw [List.head?_append_of_ne_nil _ some]
        exact solid_front name.first opens
      have shape := result.symm.trans passed
      have spent := spent_of_solid edges solid shape
      rw [spent, List.nil_append] at shape
      exact ⟨spent, kept, shape.symm⟩
    · rintro ⟨spent, kept, rfl⟩
      rw [spent, List.nil_append] at result
      have accepted := safeName_eq_some.mpr ⟨result, by simp⟩
      have some : kept ≠ [] := by
        rintro rfl
        have edge : isEdge '.' = false := head_trimMatches (opening.symm.trans rfl)
        exact absurd edge (by decide)
      refine ⟨kept, accepted, length_safeName_le accepted, some, ?_⟩
      refine List.prefix_of_prefix_length_le ((List.prefix_append _ _).trans into)
        (whole ▸ List.prefix_append _ _) ?_
      rw [whole, List.length_append] at long
      rw [List.length_append] at bound
      omega
  · -- Nothing but whitespace and dots is left of the name.
    have nothing : 96 - front.length = 0 := by omega
    rw [List.take_append_of_le_length (by omega)] at cutting
    rw [nothing, List.take_zero]
    refine iff_of_false ?_ fun cuts => by simp [bare, trim, trimMatches] at cuts
    rintro ⟨kept, accepted, -, some, opens⟩
    obtain ⟨passed, -⟩ := safeName_eq_some.mp accepted
    rw [cutting] at passed
    refine some (eq_nil_of_edges edges (solid_front name.first opens) fun c member => ?_)
    have inside : c ∈ bare (front.take 96) := by
      rw [passed]
      exact List.mem_append_left _ member
    exact List.mem_of_mem_take ((bare_within _).subset inside)

end LongName

/-- A name that is too long keeps its extension and the start of its stem unless one pass of trimming
leaves dots and whitespace at its ends that make a difference. -/
theorem extension_kept_iff {raw stem ext : List Char} (name : LongName raw stem ext) :
    KeepsExtension raw stem ext ↔ CutsAtExtension raw ext := by
  unfold CutsAtExtension
  split
  · rename_i clean
    exact name.kept_iff_of_clean clean
  · rename_i dotted
    have first (limit : Nat) : ∀ c ∈ ((wholly raw).take limit).head?, isEdge c = false :=
      solid_front (fun c => head_trimMatches) (List.take_prefix _ _)
    rw [← suffix_bare_iff (first _)]
    exact name.kept_iff_of_dotted dotted

theorem extension_kept_archive :
    KeepsExtension (List.replicate 120 'x' ++ ".tar.gz".toList) (List.replicate 120 'x' ++ ".tar".toList)
      "gz".toList := by
  have name : LongName (List.replicate 120 'x' ++ ".tar.gz".toList)
      (List.replicate 120 'x' ++ ".tar".toList) "gz".toList := by
    refine ⟨?_, ?_, ?_, ?_⟩ <;> decide +kernel
  exact (extension_kept_iff name).mpr (by decide +kernel)

/-- An inner dot comes to the front of `. . .aaa…`, and the name is a hidden one; and of `aaa….txt. .` a
dot is left behind, and no extension is seen. -/
theorem indented_stem_changes :
    (LongName (". . .".toList ++ List.replicate 100 'a' ++ ".txt".toList) (List.replicate 100 'a')
        "txt".toList ∧
      ¬KeepsExtension (". . .".toList ++ List.replicate 100 'a' ++ ".txt".toList) (List.replicate 100 'a')
        "txt".toList) ∧
    LongName (List.replicate 100 'a' ++ ".txt. .".toList) (List.replicate 100 'a') "txt".toList ∧
      ¬KeepsExtension (List.replicate 100 'a' ++ ".txt. .".toList) (List.replicate 100 'a') "txt".toList := by
  refine ⟨⟨by refine ⟨?_, ?_, ?_, ?_⟩ <;> decide +kernel, ?_⟩,
    by refine ⟨?_, ?_, ?_, ?_⟩ <;> decide +kernel, ?_⟩
  · rintro ⟨front, accepted, -, -, opens⟩
    have hidden : safeName (". . .".toList ++ List.replicate 100 'a' ++ ".txt".toList) =
        some (('.' :: List.replicate 89 'a') ++ ".txt".toList) := by decide +kernel
    have same := Option.some_inj.mp (accepted.symm.trans hidden)
    obtain rfl : front = '.' :: List.replicate 89 'a' := List.append_cancel_right same
    revert opens
    decide +kernel
  · rintro ⟨front, accepted, -, -, -⟩
    have bald : safeName (List.replicate 100 'a' ++ ".txt. .".toList) = some (List.replicate 96 'a') := by
      decide +kernel
    have same := Option.some_inj.mp (accepted.symm.trans bald)
    have dot : '.' ∈ List.replicate 96 'a' := by
      rw [← same]
      simp
    exact absurd (List.eq_of_mem_replicate dot) (by decide)

end Rabaska.Payload
