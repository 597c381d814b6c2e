import Rabaska.TransmitterProofs

/-! Which payloads come back out of compression: the sender decides on size, kind and ratio, and the
receiver bounds what it inflates. -/

namespace Rabaska.Pipeline

def InflateRefuses (crates : Crates) : Prop :=
  ∀ plain limit, limit < plain.length →
    crates.decompressToVecWithLimit (crates.compressToVec plain deflateLevel) limit = none

/-- The receiver gets the plaintext back, nothing grew, and what is compressed shrank by more than a
32nd. -/
def Deliverable (crates : Crates) (plain : Bytes) : Prop :=
  let (body, compressed) := maybeCompress crates plain
  maybeDecompress crates body compressed = .ok plain ∧ body.length ≤ plain.length ∧
    (compressed = true → plain.length < 32 * (plain.length - body.length))

/-- Deflating is worth it when it takes off more than the margin. -/
def Pays (crates : Crates) (plain : Bytes) : Prop :=
  minCompressBytes ≤ plain.length ∧ isAlreadyCompressed plain = false ∧
    (crates.compressToVec plain deflateLevel).length + plain.length / 32 < plain.length

theorem maybeCompress_pays {crates : Crates} {plain : Bytes} (pays : Pays crates plain) :
    maybeCompress crates plain = (crates.compressToVec plain deflateLevel, true) := by
  obtain ⟨long, fresh, shorter⟩ := pays
  simp [maybeCompress, Nat.not_lt.mpr long, fresh, shorter]

theorem maybeCompress_plain {crates : Crates} {plain : Bytes} (pays : ¬Pays crates plain) :
    maybeCompress crates plain = (plain, false) := by
  unfold maybeCompress
  split
  · rfl
  · rename_i tried
    simp only [Bool.or_eq_true, decide_eq_true_eq, not_or, Nat.not_lt, Bool.not_eq_true] at tried
    dsimp only
    rw [if_neg fun shorter => pays ⟨tried.1, tried.2, shorter⟩]

theorem deliverable_plain {crates : Crates} {plain : Bytes} (pays : ¬Pays crates plain) :
    Deliverable crates plain := by
  rw [Deliverable, maybeCompress_plain pays]
  exact ⟨rfl, Nat.le_refl _, by simp⟩

theorem deliverable_pays {crates : Crates} (returns : InflateReturns crates)
    (refuses : InflateRefuses crates) {plain : Bytes} (pays : Pays crates plain) :
    Deliverable crates plain ↔ plain.length ≤ inflateLimit := by
  have shorter := pays.2.2
  rw [Deliverable, maybeCompress_pays pays]
  simp only [maybeDecompress, Bool.not_true, Bool.false_eq_true, if_false, forall_const]
  constructor
  · rintro ⟨returned, -, -⟩
    by_contra beyond
    rw [refuses plain inflateLimit (Nat.lt_of_not_le beyond)] at returned
    simp at returned
  · intro within
    rw [returns plain inflateLimit within]
    exact ⟨rfl, by omega, by omega⟩

/-- A payload comes back unless it is above what the receiver inflates and deflating it pays. -/
theorem deliverable_iff {crates : Crates} (returns : InflateReturns crates)
    (refuses : InflateRefuses crates) (plain : Bytes) :
    Deliverable crates plain ↔ plain.length ≤ inflateLimit ∨ isAlreadyCompressed plain = true ∨
      plain.length ≤ (crates.compressToVec plain deflateLevel).length + plain.length / 32 := by
  by_cases pays : Pays crates plain
  · rw [deliverable_pays returns refuses pays]
    obtain ⟨-, fresh, shorter⟩ := pays
    simp [fresh, shorter]
  · refine ⟨fun _ => ?_, fun _ => deliverable_plain pays⟩
    by_contra beyond
    simp only [not_or, Nat.not_le, Bool.not_eq_true] at beyond
    have long : minCompressBytes ≤ plain.length := by
      have floor : minCompressBytes ≤ inflateLimit := by decide
      omega
    exact pays ⟨long, beyond.2.1, beyond.2.2⟩

def halve (plain : Bytes) : Bytes :=
  if plain = List.replicate plain.length 0 then
    0 :: UInt8.ofNat (plain.length % 2) :: List.replicate (plain.length / 2) 0
  else 1 :: plain

def unhalve (body : Bytes) (limit : Nat) : Option Bytes :=
  match body with
  | [] => none
  | mark :: rest =>
      if mark = 1 then if rest.length ≤ limit then some rest else none
      else
        match rest with
        | [] => none
        | parity :: half =>
            if 2 * half.length + parity.toNat ≤ limit then
              some (List.replicate (2 * half.length + parity.toNat) 0)
            else none

theorem unhalve_halve (plain : Bytes) (limit : Nat) :
    unhalve (halve plain) limit = if plain.length ≤ limit then some plain else none := by
  unfold halve
  split
  · rename_i zeros
    have parity : (UInt8.ofNat (plain.length % 2)).toNat = plain.length % 2 := by
      rw [UInt8.toNat_ofNat']
      omega
    have whole : 2 * (plain.length / 2) + plain.length % 2 = plain.length := by omega
    simp only [unhalve, show (0 : UInt8) ≠ 1 by decide, if_false, List.length_replicate, parity,
      whole, ← zeros]
  · rfl

def halving : Crates :=
  { Crates.sample with
    compressToVec := fun plain _ => halve plain
    decompressToVecWithLimit := unhalve }

theorem halving_returns : InflateReturns halving := by
  intro plain limit within
  exact (unhalve_halve plain limit).trans (if_pos within)

theorem halving_refuses : InflateRefuses halving := by
  intro plain limit beyond
  exact (unhalve_halve plain limit).trans (if_neg (Nat.not_le.mpr beyond))

theorem zeros_fresh (count : Nat) (long : 12 ≤ count) :
    isAlreadyCompressed (List.replicate count 0) = false := by
  obtain ⟨more, rfl⟩ := Nat.exists_eq_add_of_le' long
  simp only [isAlreadyCompressed, List.replicate_succ]
  have none : magics.any (fun m => m.isPrefixOf (0 :: 0 :: 0 :: 0 :: 0 :: 0 :: 0 :: 0 :: 0 :: 0 :: 0 :: 0 ::
      List.replicate more 0)) = false := rfl
  have label : Crypto.label "ftyp" = [0x66, 0x74, 0x79, 0x70] := by decide
  have label' : Crypto.label "RIFF" = [0x52, 0x49, 0x46, 0x46] := by decide
  simp [none, label, label']

def zeros (count : Nat) : Bytes := List.replicate count 0

theorem length_zeros (count : Nat) : (zeros count).length = count := List.length_replicate

theorem zeros_pay {count : Nat} (long : minCompressBytes ≤ count) : Pays halving (zeros count) := by
  simp only [minCompressBytes] at long
  have halved : halving.compressToVec (zeros count) deflateLevel =
      0 :: UInt8.ofNat (count % 2) :: zeros (count / 2) := by
    change halve (zeros count) = _
    simp only [halve, zeros, List.length_replicate, if_true]
  refine ⟨by rw [length_zeros, minCompressBytes]; omega, zeros_fresh count (by omega), ?_⟩
  rw [halved]
  simp only [List.length_cons, length_zeros]
  omega

theorem zeros_lost {count : Nat} (beyond : inflateLimit < count) :
    ¬Deliverable halving (zeros count) := by
  have floor : minCompressBytes ≤ inflateLimit := by
    rw [minCompressBytes, inflateLimit]
    omega
  rw [deliverable_pays halving_returns halving_refuses (zeros_pay (by omega)), length_zeros]
  omega

theorem deliverable_sample :
    (maybeCompress halving (zeros 1024)).2 = true ∧ Deliverable halving (zeros 1024) := by
  constructor
  · rw [maybeCompress_pays (zeros_pay (by decide))]
  · rw [deliverable_iff halving_returns halving_refuses, length_zeros]
    exact .inl (by decide)

/-- One byte above what the receiver inflates, all zeros: sent deflated, and not accepted. -/
theorem big_zeros_lost :
    InflateReturns halving ∧ InflateRefuses halving ∧ (zeros (inflateLimit + 1)).length < 2 ^ 32 ∧
      ¬Deliverable halving (zeros (inflateLimit + 1)) := by
  refine ⟨halving_returns, halving_refuses, ?_, zeros_lost (Nat.lt_succ_self inflateLimit)⟩
  rw [length_zeros, inflateLimit]
  omega

end Rabaska.Pipeline
