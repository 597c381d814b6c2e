import Rabaska.WireProofs

/-! What a short burst of damaged bits in a frame comes to. -/

namespace Rabaska.Wire

open Call

variable {crates : Crates}

theorem framed_checksummed (ieee : ∀ bytes, crates.crc32 bytes = Crc32.checksum bytes) (ty : UInt8)
    (body : Bytes) : framed crates ty body = Crc32.checksummed (commonHeader ty ++ body) := by
  rw [framed, sealCrc, ieee]
  rfl

theorem burst_not_framed (ieee : ∀ bytes, crates.crc32 bytes = Crc32.checksum bytes) {ty : UInt8}
    {body damaged : Bytes} (burst : Crc32.Burst 32 (framed crates ty body) damaged) (other : UInt8)
    (content : Bytes) : damaged ≠ framed crates other content := by
  rintro rfl
  rw [framed_checksummed ieee, framed_checksummed ieee] at burst
  exact Crc32.burst_detected _ _ burst

theorem openFrame_refuses {bytes : Bytes} {ty : UInt8} {wantLen : Option Nat}
    (room : RoomForFrame wantLen) (foreign : ∀ body, bytes ≠ framed crates ty body) :
    ∃ error, openFrame crates bytes ty wantLen = fail error := by
  cases opened : openFrame crates bytes ty wantLen with
  | ok body =>
      obtain ⟨same, -⟩ := (openFrame_eq_ok_iff crates bytes body ty wantLen room).mp opened
      exact absurd same (foreign body)
  | error fault =>
      cases fault with
      | panic => exact absurd opened (openFrame_not_panics crates bytes ty wantLen room)
      | err error => exact ⟨error, rfl⟩

theorem fixed_refuses {α : Type} {bytes : Bytes} {ty : UInt8} {n : Nat} (room : 8 ≤ n)
    (read : Bytes → Outcome Error α) (foreign : ∀ body, bytes ≠ framed crates ty body) :
    ∃ error, (openFrame crates bytes ty (some n) >>= read) = fail error := by
  obtain ⟨error, refused⟩ := @openFrame_refuses crates bytes ty (some n)
    (by simpa [RoomForFrame] using room) foreign
  exact ⟨error, by rw [refused]; rfl⟩

theorem SymbolFrame.refuses {bytes : Bytes}
    (foreign : ∀ body, bytes ≠ framed crates FrameType.symbol body) :
    ∃ error, SymbolFrame.decode crates bytes = fail error := by
  rcases SymbolFrame.decode_cases crates bytes with refused | ⟨sid4, frameId, count, len, rest, same⟩
  · exact refused
  · exact absurd same (foreign _)

/-- Up to 32 bits in a row, wherever they stand in a frame and whatever becomes of them: the frame is
refused with an error. -/
theorem burst_caught (ieee : ∀ bytes, crates.crc32 bytes = Crc32.checksum bytes) (damaged : Bytes) :
    (∀ req : PairReq, Crc32.Burst 32 (req.encode crates) damaged →
      ∃ error, PairReq.decode crates damaged = fail error) ∧
    (∀ beacon : Beacon, Crc32.Burst 32 (beacon.encode crates) damaged →
      ∃ error, Beacon.decode crates damaged = fail error) ∧
    (∀ frame : SymbolFrame, Crc32.Burst 32 (frame.encode crates) damaged →
      ∃ error, SymbolFrame.decode crates damaged = fail error) ∧
    (∀ complete : Complete, Crc32.Burst 32 (complete.encode crates) damaged →
      ∃ error, Complete.decode crates damaged = fail error) ∧
    (∀ reveal : Reveal, Crc32.Burst 32 (reveal.encode crates) damaged →
      ∃ error, Reveal.decode crates damaged = fail error) := by
  refine ⟨fun req burst => ?_, fun beacon burst => ?_, fun frame burst => ?_,
    fun complete burst => ?_, fun reveal burst => ?_⟩
  · exact fixed_refuses (by decide) _ (burst_not_framed ieee burst _)
  · exact fixed_refuses (by decide) _ (burst_not_framed ieee burst _)
  · exact SymbolFrame.refuses (burst_not_framed ieee burst _)
  · exact fixed_refuses (by decide) _ (burst_not_framed ieee burst _)
  · exact fixed_refuses (by decide) _ (burst_not_framed ieee burst _)

def sampleReveal : Reveal where
  sid4 := Octets.replicate 4 4
  rNonce := Octets.replicate 16 9

/-- The last bit in front of the CRC and the first bit of it. -/
def acrossBoundary : Bytes :=
  ((sampleReveal.encode Crates.sample).modify 23 (· ^^^ 0x80)).modify 24 (· ^^^ 0x01)

theorem burst_caught_boundary :
    Crc32.Burst 32 (sampleReveal.encode Crates.sample) acrossBoundary ∧
      ∃ error, Reveal.decode Crates.sample acrossBoundary = fail error := by
  have burst : Crc32.Burst 32 (sampleReveal.encode Crates.sample) acrossBoundary := by
    let intact := Crc32.bits (sampleReveal.encode Crates.sample)
    let torn := Crc32.bits acrossBoundary
    refine ⟨intact.take 191, (intact.drop 191).take 2, (torn.drop 191).take 2, intact.drop 193, ?_, ?_,
      ?_, ?_, ?_⟩ <;> decide +kernel
  exact ⟨burst, (burst_caught (fun _ => rfl) acrossBoundary).2.2.2.2 sampleReveal burst⟩

end Rabaska.Wire
