import Rabaska.Library.Paint
import Rabaska.QrCore

/-! A code is rendered module by module, and every pixel shows the module it lies on. -/

namespace Rabaska.Qr

open Call Paint

/-- The pixel lies on a dark module: behind the quiet zone, in the matrix, and dark there. -/
def Dark (code : QrCode) (scale quiet x y : Nat) : Prop :=
  (quiet ≤ x / scale ∧ x / scale < quiet + code.size) ∧
    (quiet ≤ y / scale ∧ y / scale < quiet + code.size) ∧
    code.getModule (x / scale - quiet) (y / scale - quiet) = true

instance (code : QrCode) (scale quiet x y : Nat) : Decidable (Dark code scale quiet x y) :=
  inferInstanceAs (Decidable (_ ∧ _ ∧ _))

/-- The positions that the two inner loops write for one module. -/
def square (side scale x0 y0 : Nat) : Set Nat :=
  ⋃ y ∈ List.range' y0 scale, ⋃ x ∈ List.range' x0 scale, {y * side + x}

theorem row_inj {side x y x' y' : Nat} (inside : x < side) (inside' : x' < side)
    (same : y * side + x = y' * side + x') : x = x' ∧ y = y' := by
  have positive : 0 < side := Nat.zero_lt_of_lt inside
  have rows : y = y' := by
    have read := congrArg (· / side) same
    simpa [Nat.mul_comm _ side, Nat.mul_add_div positive, Nat.div_eq_of_lt inside,
      Nat.div_eq_of_lt inside'] using read
  subst rows
  exact ⟨Nat.add_left_cancel same, rfl⟩

theorem position_lt {side x y : Nat} (column : x < side) (row : y < side) :
    y * side + x < side * side :=
  calc y * side + x < y * side + side := Nat.add_lt_add_left column _
    _ = (y + 1) * side := (Nat.succ_mul y side).symm
    _ ≤ side * side := Nat.mul_le_mul_right side row

theorem mem_square {side scale x0 y0 x y : Nat} (fits : x0 + scale ≤ side) (inside : x < side) :
    y * side + x ∈ square side scale x0 y0 ↔
      (x0 ≤ x ∧ x < x0 + scale) ∧ y0 ≤ y ∧ y < y0 + scale := by
  simp only [square, Set.mem_iUnion, Set.mem_singleton_iff, List.mem_range'_1, exists_prop]
  constructor
  · rintro ⟨y', rows, x', columns, same⟩
    obtain ⟨rfl, rfl⟩ := row_inj inside (by omega) same
    exact ⟨columns, rows⟩
  · rintro ⟨columns, rows⟩
    exact ⟨y, rows, x, columns, rfl⟩

theorem usize_eq {bits n : Nat} (fits : n < 2 ^ bits) : usize bits n = n := Nat.mod_eq_of_lt fits

theorem usize_add (bits a b : Nat) : usize bits (usize bits a + b) = usize bits (a + b) := by
  simp [usize]

theorem usize_mul (bits a b : Nat) : usize bits (usize bits a * b) = usize bits (a * b) := by
  simp [usize, Nat.mul_mod]

theorem paints_darken {bits side scale x0 y0 : Nat} (room : side * side < 2 ^ bits)
    (wide : x0 + scale ≤ side) (high : y0 + scale ≤ side) :
    Paints (side * side) 0 (darken bits side scale x0 y0) (square side scale x0 y0) := by
  have fits {n : Nat} (inside : n ≤ side) : n < 2 ^ bits :=
    Nat.lt_of_le_of_lt (inside.trans (Nat.le_mul_self side)) room
  unfold darken
  rw [usize_eq (fits high), usize_eq (fits wide), Nat.add_sub_cancel_left, Nat.add_sub_cancel_left]
  refine paints_foldlM fun y row => paints_foldlM fun x column => ?_
  rw [List.mem_range'_1] at row column
  have inside : y * side + x < side * side := position_lt (by omega) (by omega)
  rw [usize_add, usize_eq (inside.trans room)]
  exact paints_store inside

theorem darken_length {bits side scale x0 y0 : Nat} {before after : Bytes}
    (darkened : darken bits side scale x0 y0 before = .ok after) : after.length = before.length :=
  foldlM_length (fun _ _ _ row => foldlM_length (fun _ _ _ => store_length) row) darkened

/-! The two outer loops. -/

def QrCode.side (code : QrCode) (scale quiet : Nat) : Nat := (code.size + 2 * quiet) * scale

def QrCode.squares (code : QrCode) (scale quiet : Nat) : Set Nat :=
  ⋃ my ∈ List.range code.size, ⋃ mx ∈ List.range code.size,
    {position | code.getModule mx my = true ∧ position ∈
      square (code.side scale quiet) scale ((mx + quiet) * scale) ((my + quiet) * scale)}

theorem module_fits {code : QrCode} {m scale quiet : Nat} (inside : m < code.size) :
    (m + quiet) * scale + scale ≤ code.side scale quiet := by
  rw [← Nat.succ_mul]
  exact Nat.mul_le_mul_right scale (by omega)

theorem module_at {m quiet scale x : Nat} (positive : 0 < scale) :
    (m + quiet) * scale ≤ x ∧ x < (m + quiet) * scale + scale ↔ x / scale = m + quiet := by
  rw [Nat.div_eq_iff positive]
  omega

/-- The buffer that is written has a size that a `Vec` may have. -/
def QrCode.Fits (code : QrCode) (bits scale quiet : Nat) : Prop :=
  code.side scale quiet * code.side scale quiet < 2 ^ (bits - 1)

section Fits

variable {code : QrCode} {bits scale quiet : Nat} (fits : code.Fits bits scale quiet)

include fits

theorem area_lt : code.side scale quiet * code.side scale quiet < 2 ^ bits :=
  Nat.lt_of_lt_of_le fits (Nat.pow_le_pow_right (by decide) (Nat.sub_le bits 1))

theorem offset_eq {n : Nat} (inside : n ≤ code.side scale quiet) : usize bits n = n :=
  usize_eq (Nat.lt_of_le_of_lt (inside.trans (Nat.le_mul_self _)) (area_lt fits))

theorem side_eq :
    usize bits (usize bits (code.size + usize bits (2 * quiet)) * scale) = code.side scale quiet := by
  have wraps : usize bits (usize bits (code.size + usize bits (2 * quiet)) * scale) =
      usize bits (code.side scale quiet) := by
    simp [usize, QrCode.side, Nat.mul_mod, Nat.add_mod]
  rw [wraps, offset_eq fits (Nat.le_refl _)]

theorem paints_squares :
    Paints (code.side scale quiet * code.side scale quiet) 0
      (fun luma => (List.range code.size).foldlM (fun luma my =>
        (List.range code.size).foldlM (fun luma mx =>
          if !code.getModule mx my then .ok luma
          else darken bits (code.side scale quiet) scale (usize bits (usize bits (mx + quiet) * scale))
            (usize bits (usize bits (my + quiet) * scale)) luma) luma) luma)
      (code.squares scale quiet) := by
  refine paints_foldlM fun my row => paints_foldlM fun mx column => ?_
  have across := @module_fits code mx scale quiet (List.mem_range.mp column)
  have down := @module_fits code my scale quiet (List.mem_range.mp row)
  rw [usize_mul, usize_mul, offset_eq fits (Nat.le_of_add_right_le across),
    offset_eq fits (Nat.le_of_add_right_le down)]
  cases dark : code.getModule mx my with
  | false => simpa using paints_nothing
  | true => simpa using paints_darken (area_lt fits) across down

end Fits

theorem mem_squares {code : QrCode} {scale quiet x y : Nat} (column : x < code.side scale quiet) :
    y * code.side scale quiet + x ∈ code.squares scale quiet ↔ Dark code scale quiet x y := by
  have positive : 0 < scale := by
    by_contra zero
    simp [QrCode.side, Nat.eq_zero_of_not_pos zero] at column
  simp only [QrCode.squares, Set.mem_iUnion, Set.mem_ofPred_eq, List.mem_range, exists_prop]
  constructor
  · rintro ⟨my, row, mx, inside, dark, member⟩
    obtain ⟨columns, rows⟩ := (mem_square (module_fits inside) column).mp member
    have across := (module_at positive).mp columns
    have down := (module_at positive).mp rows
    unfold Dark
    rw [across, down, Nat.add_sub_cancel, Nat.add_sub_cancel]
    exact ⟨by omega, by omega, dark⟩
  · rintro ⟨⟨left, right⟩, ⟨top, bottom⟩, dark⟩
    refine ⟨y / scale - quiet, by omega, x / scale - quiet, by omega, dark, ?_⟩
    rw [mem_square (module_fits (by omega)) column]
    exact ⟨(module_at positive).mpr (by omega), (module_at positive).mpr (by omega)⟩

/-- A buffer as large as the code at the scale, with its quiet zone, in which each pixel shows what it
lies on. -/
structure PixelExact (code : QrCode) (scale quiet : Nat) (rendered : Rendered) : Prop where
  modules : rendered.modules = code.size
  width : rendered.width = (code.size + 2 * quiet) * scale
  height : rendered.height = (code.size + 2 * quiet) * scale
  sized : rendered.luma.length = rendered.width * rendered.height
  pixels : ∀ x y, x < rendered.width → y < rendered.height →
    rendered.luma[y * rendered.width + x]? = some (if Dark code scale quiet x y then 0 else 255)

section Encode

variable {bits : Nat} {encodeBinary : Bytes → Ecc → Option QrCode} {data : Bytes} {ecc : Ecc}
  {code : QrCode} {scale quiet : Nat}

theorem encodeLuma_exact (encoded : encodeBinary data ecc = some code)
    (fits : code.Fits bits scale quiet) :
    ∃ rendered, encodeLuma bits encodeBinary data ecc scale quiet = .ok rendered ∧
      PixelExact code scale quiet rendered := by
  obtain ⟨luma, painted, sized, reached, left⟩ := paints_squares fits
    (List.replicate _ 255) List.length_replicate
  refine ⟨⟨luma, code.side scale quiet, code.side scale quiet, code.size⟩, ?_, rfl, rfl, rfl, sized,
    fun x y column row => ?_⟩
  · dsimp only at painted
    simp only [encodeLuma, encoded, side_eq fits, usize_eq (area_lt fits), filled]
    rw [if_pos (show code.side scale quiet * code.side scale quiet < 2 ^ (bits - 1) from fits), ok_bind,
      painted]
    rfl
  · dsimp only at column row ⊢
    split
    · rename_i dark
      exact reached _ ((mem_squares column).mpr dark)
    · rename_i light
      rw [left _ fun member => light ((mem_squares column).mp member),
        List.getElem?_replicate_of_lt (position_lt column row)]

theorem encodeLuma_length (encoded : encodeBinary data ecc = some code) {rendered : Rendered}
    (returned : encodeLuma bits encodeBinary data ecc scale quiet = .ok rendered) :
    rendered.luma.length < 2 ^ (bits - 1) := by
  simp only [encodeLuma, encoded, filled] at returned
  split at returned
  · rename_i room
    obtain ⟨luma, looped, same⟩ := of_bind_ok ((ok_bind _ _).symm.trans returned)
    obtain rfl := Except.ok.inj same
    suffices kept : luma.length = (List.replicate _ (255 : UInt8)).length by
      rwa [kept, List.length_replicate]
    refine foldlM_length (fun _ _ _ row => foldlM_length (fun _ _ _ turned => ?_) row) looped
    split at turned
    · exact congrArg List.length (Except.ok.inj turned).symm
    · exact darken_length turned
  · simp [panicked] at returned

/-- Whatever the matrix, the scale and the quiet zone: rendering writes inside its buffer only, and
a pixel is dark exactly when its module is, if and only if the pixels are no more than a `Vec` may
hold. -/
theorem encodeLuma_pixels_iff (encoded : encodeBinary data ecc = some code) (bits scale quiet : Nat) :
    (∃ rendered, encodeLuma bits encodeBinary data ecc scale quiet = .ok rendered ∧
      PixelExact code scale quiet rendered) ↔
      ((code.size + 2 * quiet) * scale) * ((code.size + 2 * quiet) * scale) < 2 ^ (bits - 1) := by
  constructor
  · rintro ⟨rendered, returned, exact⟩
    have short := encodeLuma_length encoded returned
    rwa [exact.sized, exact.width, exact.height] at short
  · exact encodeLuma_exact encoded

end Encode

def smallCode : QrCode where
  size := 2
  getModule x y := x == 1 || y == 1

theorem encodeLuma_pixels_small : ∃ rendered,
    encodeLuma 32 (fun _ _ => some smallCode) [1] .high 2 1 = .ok rendered ∧
      rendered.luma[2 * rendered.width + 4]? = some 0 ∧
      rendered.luma[2 * rendered.width + 3]? = some 255 := by
  obtain ⟨rendered, returned, -, width, height, -, pixels⟩ :=
    (@encodeLuma_pixels_iff (fun _ _ => some smallCode) [1] .high smallCode rfl 32 2 1).mpr (by decide)
  refine ⟨rendered, returned, ?_, ?_⟩
  · exact pixels 4 2 (by rw [width]; decide) (by rw [height]; decide)
  · exact pixels 3 2 (by rw [width]; decide) (by rw [height]; decide)

/-- A code of the smallest version, with nothing dark but its corner. -/
def cornerCode : QrCode where
  size := 21
  getModule x y := x == 0 && y == 0

/-- At a scale of 2 ^ 16 the pixels are 841 * 2 ^ 32: the buffer under wasm32 is empty, and the first
dark module is written outside of it. -/
theorem wide_side_panics :
    encodeLuma 32 (fun _ _ => some cornerCode) [] .high 65536 4 = panicked ∧
      ¬∃ rendered, encodeLuma 32 (fun _ _ => some cornerCode) [] .high 65536 4 = .ok rendered ∧
        PixelExact cornerCode 65536 4 rendered := by
  have nowhere {n m : Nat} (side x0 y0 : Nat) (rows : usize 32 (y0 + 65536) - y0 = n + 1)
      (columns : usize 32 (x0 + 65536) - x0 = m + 1) : darken 32 side 65536 x0 y0 [] = panicked := by
    rw [darken, rows, columns, List.range'_succ, List.range'_succ]
    rfl
  have crashes : encodeLuma 32 (fun _ _ => some cornerCode) [] .high 65536 4 = panicked := by
    have first : darken 32 (29 * 65536) 65536 262144 262144 [] = panicked :=
      @nowhere 65535 65535 _ _ _ (by decide) (by decide)
    have modules : List.range cornerCode.size = 0 :: List.range' 1 20 := by decide
    have side : usize 32 (usize 32 (cornerCode.size + usize 32 (2 * 4)) * 65536) = 29 * 65536 := by
      decide
    have empty : filled 32 (usize 32 (29 * 65536 * (29 * 65536))) (255 : UInt8) = .ok [] := rfl
    have corner : usize 32 (usize 32 (0 + 4) * 65536) = 262144 := by decide
    simp only [encodeLuma, side, empty, ok_bind, modules, List.foldlM_cons, corner]
    rw [if_neg (by decide), first]
    rfl
  exact ⟨crashes, by simp [crashes, panicked]⟩

end Rabaska.Qr
