import Rabaska.LadderCore
import Rabaska.Library.Rotation
import Rabaska.SendProofs

/-! Which packets the rungs of the ladder carry, while the frame counter has not wrapped around. -/

namespace Rabaska

theorem Qr.search_eq {fits : Nat → Bool} {limit : Nat} (largest : ∀ len, fits len = true ↔ len ≤ limit)
    {lo hi : Nat} (above : lo ≤ limit) (below : limit ≤ hi) : Qr.search fits lo hi = limit := by
  fun_induction Qr.search fits lo hi with
  | case1 lo hi wide mid fit ih =>
      exact ih ((largest mid).mp fit) below
  | case2 lo hi wide mid unfit ih =>
      have beyond : limit < mid := Nat.lt_of_not_le fun inside => unfit ((largest mid).mpr inside)
      exact ih above (by omega)
  | case3 lo hi narrow => omega

namespace Shell

open Wire Pipeline Wasm Rotation

variable {crates : Crates} {fits : Qr.Fits}

structure Capacities (fits : Qr.Fits) : Prop where
  dense : ∀ len, fits len 40 .low = true ↔ len ≤ 2953
  middle : ∀ len, fits len 30 .medium = true ↔ len ≤ 1370
  robust : ∀ len, fits len 25 .medium = true ↔ len ≤ 997

theorem Capacities.dense_eq (capacities : Capacities fits) : Qr.qrCapacity fits 40 0 = 2953 :=
  Qr.search_eq capacities.dense (by omega) (by omega)

theorem Capacities.middle_eq (capacities : Capacities fits) : Qr.qrCapacity fits 30 1 = 1370 :=
  Qr.search_eq capacities.middle (by omega) (by omega)

theorem Capacities.robust_eq (capacities : Capacities fits) : Qr.qrCapacity fits 25 1 = 997 :=
  Qr.search_eq capacities.robust (by omega) (by omega)

def v40L : Rung := { version := 40, ecc := 0, weight := 3 }
def v30M : Rung := { version := 30, ecc := 1, weight := 2 }
def v25M : Rung := { version := 25, ecc := 1, weight := 1 }

/-! The packets in a frame repeat every six ticks, and with the beacons every thirty. -/

def width (i : Nat) : Nat := [9, 9, 9, 4, 4, 3].getD (i % 6) 0

def stride (i : Nat) : Nat := if i % 15 = 0 then 0 else width i

theorem width_add_period (i : Nat) : width (i + 30) = width i := by
  have same : (i + 30) % 6 = i % 6 := by omega
  rw [width, width, same]

theorem stride_add_period (i : Nat) : stride (i + 30) = stride i := by
  have same : (i + 30) % 15 = i % 15 := by omega
  rw [stride, stride, width_add_period, same]

theorem moved_cycle : moved stride 30 = 177 := by decide

theorem moved_add_cycles (i rounds : Nat) :
    moved stride (i + 30 * rounds) = moved stride i + 177 * rounds := by
  rw [moved_add_periods stride_add_period, moved_cycle]

theorem rungAt_mod (i : Nat) : rungAt i = rungAt (i % 6) := by
  have length : schedule.length = 6 := by decide
  have index : i % schedule.length = i % 6 % schedule.length := by
    rw [length, Nat.mod_mod]
  simp only [rungAt, index]

theorem width_mod (i : Nat) : width i = width (i % 6) := by
  rw [width, width, Nat.mod_mod]

theorem rungAt_cases (i : Nat) : (rungAt i = v40L ∧ width i = 9) ∨ (rungAt i = v30M ∧ width i = 4) ∨
    (rungAt i = v25M ∧ width i = 3) := by
  have slots : ∀ slot < 6, (rungAt slot = v40L ∧ width slot = 9) ∨
      (rungAt slot = v30M ∧ width slot = 4) ∨ (rungAt slot = v25M ∧ width slot = 3) := by decide
  rw [rungAt_mod, width_mod]
  exact slots (i % 6) (Nat.mod_lt i (by omega))

theorem packetsAt_width (capacities : Capacities fits) {packetLen : UInt16}
    (size : packetLen = 324 ∨ packetLen = 325) (i : Nat) :
    Transmitter.packetsAt (Qr.qrCapacity fits (rungAt i).version (rungAt i).ecc) packetLen = width i := by
  rcases rungAt_cases i with ⟨rung, packed⟩ | ⟨rung, packed⟩ | ⟨rung, packed⟩
  · rw [rung, packed, v40L, capacities.dense_eq]
    rcases size with rfl | rfl <;> rfl
  · rw [rung, packed, v30M, capacities.middle_eq]
    rcases size with rfl | rfl <;> rfl
  · rw [rung, packed, v25M, capacities.robust_eq]
    rcases size with rfl | rfl <;> rfl

/-! A sender on display, while the frame counter is the number of ticks. -/

/-- What a tick finds: the sender of an object, released, with its cursor as far along as the ticks
have moved it. -/
structure Turning (tx : Transmitter) (base : Nat) (display : Display) (i : Nat) : Prop where
  object : Transmitter.SameObject tx display.send.tx
  released : display.send.tx.held = false
  interval : display.send.tx.beaconInterval = 15
  index : display.i = i
  counted : display.send.tx.frameId.toNat = i
  cursor : display.send.tx.cursor.val = (base + moved stride i) % tx.packets.length

def Carries (crates : Crates) (frame : FrameOut) (packet : Bytes) : Prop :=
  frame.robust = false ∧ ∃ sf, SymbolFrame.decode crates frame.bytes = .ok sf ∧ packet ∈ sf.packets

theorem due_iff {tx : Transmitter} (interval : tx.beaconInterval = 15) :
    tx.frameId % tx.beaconInterval = 0 ↔ tx.frameId.toNat % 15 = 0 := by
  rw [interval, Send.multiple_iff]

variable {tx : Transmitter} {base i : Nat} {display : Display}

theorem tick_send (display : Display) : (display.tick crates fits).2.send =
    { display.send with tx := (display.send.tx.nextFrameAt crates (Qr.qrCapacity fits
        (rungAt display.i).version (rungAt display.i).ecc)).2 } := by
  have next : (display.tick crates fits).2.send = (display.send.nextFrame crates
      (Qr.qrCapacity fits (rungAt display.i).version (rungAt display.i).ecc)).2 := rfl
  rw [next, Send.nextFrame_tx]

theorem Turning.tick_eq (capacities : Capacities fits) (size : tx.packetLen = 324 ∨ tx.packetLen = 325)
    (turning : Turning tx base display i) :
    display.send.tx.nextFrameAt crates (Qr.qrCapacity fits (rungAt display.i).version
      (rungAt display.i).ecc) = display.send.tx.nextFramePacked crates (width i) := by
  rw [← turning.object.packetLen] at size
  rw [Transmitter.nextFrameAt, packetsAt_width capacities size, turning.index]

theorem Turning.tick (capacities : Capacities fits) (size : tx.packetLen = 324 ∨ tx.packetLen = 325)
    (turning : Turning tx base display i) (inside : i + 1 < 2 ^ 32) :
    Turning tx base (display.tick crates fits).2 (i + 1) := by
  have stepped : (display.tick crates fits).2.send.tx =
      (display.send.tx.nextFramePacked crates (width i)).2 := by
    rw [tick_send, turning.tick_eq capacities size]
  obtain ⟨held, counted, interval⟩ :=
    Transmitter.nextFramePacked_flags crates display.send.tx (width i)
  refine ⟨?_, ?_, ?_, ?_, ?_, ?_⟩
  · rw [stepped]
    exact turning.object.trans (Transmitter.nextFramePacked_same _ _ _)
  · rw [stepped, held, turning.released]
  · rw [stepped, interval, turning.interval]
  · exact congrArg (· + 1) turning.index
  · rw [stepped, counted, Send.toNat_succ, turning.counted, if_neg (by omega)]
  · rw [stepped]
    by_cases due : i % 15 = 0
    · have beacon := (due_iff turning.interval).mpr (turning.counted.symm ▸ due)
      rw [Transmitter.nextFramePacked_due _ _ beacon, moved, stride, if_pos due]
      exact turning.cursor
    · have symbol : display.send.tx.frameId % display.send.tx.beaconInterval ≠ 0 := fun beacon =>
        due (turning.counted ▸ (due_iff turning.interval).mp beacon)
      rw [Transmitter.nextFramePacked_open _ _ turning.released symbol, moved, stride, if_neg due,
        ← Nat.add_assoc]
      rw [Transmitter.chunk_cursor, turning.cursor, turning.object.packets, Nat.mod_add_mod]

theorem Turning.carries_iff (capacities : Capacities fits)
    (size : tx.packetLen = 324 ∨ tx.packetLen = 325)
    (sized : ∀ p ∈ tx.packets, p.length = tx.packetLen.toNat)
    (turning : Turning tx base display i) {packet : Bytes} :
    Carries crates (display.tick crates fits).1.frame packet ↔ i % 15 ≠ 0 ∧ ∃ offset < width i,
      tx.packets[(base + moved stride i + offset) % tx.packets.length]? = some packet := by
  have frame : (display.tick crates fits).1.frame = (display.send.nextFrame crates
      (Qr.qrCapacity fits (rungAt display.i).version (rungAt display.i).ecc)).1 := rfl
  rw [frame, Send.nextFrame, turning.tick_eq capacities size]
  by_cases due : i % 15 = 0
  · have beacon := (due_iff turning.interval).mpr (turning.counted.symm ▸ due)
    rw [Transmitter.nextFramePacked_due _ _ beacon]
    simp [Carries, due]
  · have symbol : display.send.tx.frameId % display.send.tx.beaconInterval ≠ 0 := fun beacon =>
      due (turning.counted ▸ (due_iff turning.interval).mp beacon)
    rw [Transmitter.nextFramePacked_open _ _ turning.released symbol]
    have wellFormed : SymbolFrame.WellFormed
        { sid4 := sid4 display.send.tx.beacon.sessionId, frameId := display.send.tx.frameId,
          packetLen := display.send.tx.packetLen,
          packets := (Transmitter.chunk display.send.tx.packets display.send.tx.cursor (width i)).1 } := by
      refine ⟨?_, ?_, fun p member => ?_⟩
      · dsimp only
        rw [turning.object.packetLen]
        rcases size with size | size <;> rw [size] <;> decide
      · dsimp only
        rw [Transmitter.length_chunk]
        rcases rungAt_cases i with ⟨-, packed⟩ | ⟨-, packed⟩ | ⟨-, packed⟩ <;> omega
      · dsimp only
        rw [turning.object.packetLen]
        refine sized p ?_
        rw [← turning.object.packets]
        exact Transmitter.mem_of_mem_chunk member
    have decoded := SymbolFrame.decode_encode crates _ wellFormed
    have mem := Transmitter.mem_chunk_iff display.send.tx.cursor (width i) packet
    simp only [turning.cursor, turning.object.packets, Nat.mod_add_mod] at mem
    simp only [Carries, decoded, Except.ok.injEq, exists_eq_left', mem, due, true_and, ne_eq,
      not_false_eq_true]

variable (crates) in
theorem Turning.after (capacities : Capacities fits) (size : tx.packetLen = 324 ∨ tx.packetLen = 325)
    (turning : Turning tx base display i) (ticks : Nat) (inside : i + ticks < 2 ^ 32) :
    Turning tx base (display.after crates fits ticks) (i + ticks) := by
  induction ticks with
  | zero => exact turning
  | succ ticks ih => exact (ih (by omega)).tick capacities size (by omega)

variable (crates fits) in
theorem after_counted {send : Send} (fresh : send.tx.frameId = 0) (ticks : Nat)
    (inside : ticks < 2 ^ 32) :
    Transmitter.SameObject send.tx ((beSender send).after crates fits ticks).send.tx ∧
      ((beSender send).after crates fits ticks).send.tx.beaconInterval = send.tx.beaconInterval ∧
      ((beSender send).after crates fits ticks).i = ticks ∧
      ((beSender send).after crates fits ticks).send.tx.frameId.toNat = ticks := by
  induction ticks with
  | zero => exact ⟨.refl _, rfl, rfl, by rw [Display.after, beSender, fresh]; rfl⟩
  | succ ticks ih =>
      obtain ⟨object, interval, index, counted⟩ := ih (by omega)
      rw [Display.after, tick_send, Transmitter.nextFrameAt]
      obtain ⟨-, counts, keeps⟩ := Transmitter.nextFramePacked_flags crates
        ((beSender send).after crates fits ticks).send.tx (Transmitter.packetsAt
          (Qr.qrCapacity fits (rungAt ((beSender send).after crates fits ticks).i).version
            (rungAt ((beSender send).after crates fits ticks).i).ecc)
          ((beSender send).after crates fits ticks).send.tx.packetLen)
      refine ⟨object.trans (Transmitter.nextFramePacked_same _ _ _), keeps.trans interval,
        congrArg (· + 1) index, ?_⟩
      rw [counts, Send.toNat_succ, counted, if_neg (by omega)]

variable (crates fits) in
theorem released_turning {send : Send} (fresh : send.tx.frameId = 0)
    (interval : send.tx.beaconInterval = 15) (waited : Nat) (inside : waited < 2 ^ 32) :
    ∃ base, Turning send.tx base ((beSender send).after crates fits waited).released waited := by
  obtain ⟨object, keeps, index, counted⟩ :=
    after_counted crates fits fresh waited inside
  have bound := object.cursor_lt
  generalize shown : ((beSender send).after crates fits waited).send.tx.cursor.val = cursor at bound
  have positive : 0 < send.tx.packets.length := by omega
  have round : moved stride waited ≤ send.tx.packets.length * moved stride waited :=
    Nat.le_mul_of_pos_left _ positive
  refine ⟨cursor + (send.tx.packets.length * moved stride waited - moved stride waited),
    object.trans ⟨rfl, rfl, rfl, rfl, rfl⟩, rfl, keeps.trans interval, index, counted, ?_⟩
  calc ((beSender send).after crates fits waited).send.tx.cursor.val
      = (cursor + send.tx.packets.length * moved stride waited) % send.tx.packets.length := by
        rw [Nat.add_mul_mod_self_left, Nat.mod_eq_of_lt bound, shown]
    _ = _ := by
        congr 1
        omega

/-! The resonance. In thirty ticks the cursor moves by 177 packets, which is three times 59. -/

/-- Seen modulo 59, the cursor comes back to where it was, and the robust rung stays off one place. -/
theorem robust_rung_skips (i : Nat) (rung : rungAt i = v25M) (symbol : i % 15 ≠ 0) :
    ∀ offset < 3, (moved stride i + offset) % 59 ≠ 0 := by
  have cycle : ∀ slot < 30, rungAt slot = v25M → slot % 15 ≠ 0 →
      ∀ offset < 3, (moved stride slot + offset) % 59 ≠ 0 := by decide
  have same : rungAt (i % 30) = v25M := by
    rw [← rung, rungAt_mod i, rungAt_mod (i % 30), Nat.mod_mod_of_dvd i (by decide)]
  have early : i % 30 % 15 ≠ 0 := by rwa [Nat.mod_mod_of_dvd i (by decide)]
  intro offset bound
  have reduced := cycle (i % 30) (Nat.mod_lt i (by omega)) same early offset bound
  have position := moved_add_cycles (i % 30) (i / 30)
  rw [Nat.mod_add_div] at position
  rw [position]
  omega

theorem robust_rung_misses (capacities : Capacities fits)
    (size : tx.packetLen = 324 ∨ tx.packetLen = 325)
    (sized : ∀ p ∈ tx.packets, p.length = tx.packetLen.toNat) (distinct : tx.packets.Nodup)
    (resonant : 59 ∣ tx.packets.length) (turning : Turning tx base display i) :
    ∃ packet ∈ tx.packets, ∀ ticks, i + ticks < 2 ^ 32 →
      (display.shown crates fits ticks).rung = v25M →
      ¬Carries crates (display.shown crates fits ticks).frame packet := by
  have positive : 0 < tx.packets.length := Nat.zero_lt_of_lt turning.object.cursor_lt
  have place : base % 59 < tx.packets.length :=
    (Nat.mod_lt base (by omega)).trans_le (Nat.le_of_dvd positive resonant)
  refine ⟨tx.packets[base % 59], List.getElem_mem place, fun ticks inside shown carries => ?_⟩
  have now := turning.after crates capacities size ticks inside
  have rung : rungAt (i + ticks) = v25M := by rw [← shown, ← now.index]; rfl
  obtain ⟨symbol, offset, bound, found⟩ := (now.carries_iff capacities size sized).mp carries
  have three : width (i + ticks) = 3 := by
    rcases rungAt_cases (i + ticks) with ⟨other, -⟩ | ⟨other, -⟩ | ⟨-, packed⟩
    · exact absurd (rung.symm.trans other) (by decide)
    · exact absurd (rung.symm.trans other) (by decide)
    · exact packed
  obtain ⟨_, same⟩ := List.getElem?_eq_some_iff.mp found
  have index := (List.Nodup.getElem_inj_iff distinct).mp same
  have residue := congrArg (· % 59) index
  simp only [Nat.mod_mod_of_dvd _ resonant, Nat.mod_mod] at residue
  have skips := robust_rung_skips (i + ticks) rung symbol offset (three ▸ bound)
  omega

/-- What 177 shares with a number that 59 does not divide is no more than the packets that a frame
of any rung takes. -/
theorem shared_le {size : Nat} (free : ¬59 ∣ size) : Nat.gcd 177 size ≤ 3 := by
  have divisor : Nat.gcd 177 size ∈ Nat.divisors 177 :=
    Nat.mem_divisors.mpr ⟨Nat.gcd_dvd_left 177 size, by decide⟩
  have divisors : Nat.divisors 177 = {1, 3, 59, 177} := by decide +kernel
  have whole := Nat.gcd_dvd_right 177 size
  rw [divisors] at divisor
  simp only [Finset.mem_insert, Finset.mem_singleton] at divisor
  rcases divisor with one | three | resonant | resonant
  · omega
  · omega
  · exact absurd (resonant ▸ whole) free
  · exact absurd ((by decide : 59 ∣ 177).trans (resonant ▸ whole)) free

theorem rungs_reach (capacities : Capacities fits) (size : tx.packetLen = 324 ∨ tx.packetLen = 325)
    (sized : ∀ p ∈ tx.packets, p.length = tx.packetLen.toNat) (free : ¬59 ∣ tx.packets.length)
    (room : i + 30 * tx.packets.length ≤ 2 ^ 32) (turning : Turning tx base display i) :
    ∀ rung ∈ ladder, ∀ packet ∈ tx.packets, ∃ ticks, i + ticks < 2 ^ 32 ∧
      (display.shown crates fits ticks).rung = rung ∧
      Carries crates (display.shown crates fits ticks).frame packet := by
  have positive : 0 < tx.packets.length := Nat.zero_lt_of_lt turning.object.cursor_lt
  have slots : ∀ rung ∈ ladder, ∃ slot < 30, rungAt slot = rung ∧ slot % 15 ≠ 0 ∧ 3 ≤ width slot := by
    decide
  intro rung member packet pooled
  obtain ⟨slot, bound, shows, symbol, wide⟩ := slots rung member
  obtain ⟨place, inside, rfl⟩ := List.mem_iff_getElem.mp pooled
  -- The first tick of this slot, from which the rung comes round every thirty ticks.
  obtain ⟨wait, short, aligned⟩ : ∃ wait < 30, (i + wait) % 30 = slot :=
    ⟨(slot + 30 - i % 30) % 30, by omega, by omega⟩
  obtain ⟨round, rounds, offset, within_frame, passed⟩ := passes positive
    ((shared_le free).trans wide) (base + moved stride (i + wait)) place
  have before : i + (wait + 30 * round) < 2 ^ 32 := by omega
  have now := turning.after crates capacities size (wait + 30 * round) before
  have turned : (i + (wait + 30 * round)) % 30 = slot := by omega
  have same : rungAt (i + (wait + 30 * round)) = rung ∧ width (i + (wait + 30 * round)) = width slot := by
    have six : (i + (wait + 30 * round)) % 6 = slot % 6 := by omega
    rw [← shows, rungAt_mod, six, ← rungAt_mod, width_mod, six, ← width_mod]
    exact ⟨rfl, rfl⟩
  refine ⟨wait + 30 * round, before, ?_, ?_⟩
  · rw [← same.1, ← now.index]
    rfl
  · refine (now.carries_iff capacities size sized).mpr ⟨by omega, offset, by rwa [same.2], ?_⟩
    rw [← Nat.add_assoc i, moved_add_cycles, ← Nat.add_assoc base, passed, Nat.mod_eq_of_lt inside]
    exact List.getElem?_eq_getElem inside

/-- Until the frame counter wraps around, every rung of the ladder carries every packet exactly when
the number of packets is no multiple of 59. -/
theorem rungs_cover_iff (capacities : Capacities fits) {send : Send} (fresh : send.tx.frameId = 0)
    (interval : send.tx.beaconInterval = 15)
    (size : send.tx.packetLen = 324 ∨ send.tx.packetLen = 325)
    (sized : ∀ p ∈ send.tx.packets, p.length = send.tx.packetLen.toNat)
    (distinct : send.tx.packets.Nodup) (waited : Nat)
    (room : waited + 30 * send.tx.packets.length ≤ 2 ^ 32) :
    (∀ rung ∈ ladder, ∀ packet ∈ send.tx.packets, ∃ ticks, waited + ticks < 2 ^ 32 ∧
      let shown := ((beSender send).after crates fits waited).released.shown crates fits ticks
      shown.rung = rung ∧ Carries crates shown.frame packet) ↔ ¬59 ∣ send.tx.packets.length := by
  have positive : 0 < send.tx.packets.length := Nat.zero_lt_of_lt send.tx.cursor.isLt
  obtain ⟨base, turning⟩ :=
    released_turning crates fits fresh interval waited (by omega)
  constructor
  · intro covered resonant
    obtain ⟨packet, member, missed⟩ :=
      robust_rung_misses capacities size sized distinct resonant turning
    obtain ⟨ticks, inside, rung, carries⟩ := covered v25M (by decide) packet member
    exact missed ticks inside rung carries
  · intro free
    exact rungs_reach capacities size sized free room turning

/-! Senders of packets of 324 bytes that differ in their number. -/

def numbered (number : Nat) : Bytes := [0, 0, 0, UInt8.ofNat number] ++ List.replicate 320 0

def poolCrates (last : Nat) : Crates :=
  { Crates.sample with
    encodePackets := fun _ _ _ =>
      { oti := Octets.replicate 12 1
        packets := (List.range (last + 1)).map numbered
        packets_ne := by simp } }

def poolSend (last : Nat) : Send :=
  Send.open (poolCrates last) samplePlaintext [] 2953 (Octets.replicate 32 8) (Octets.replicate 8 4)
    sampleNonce

theorem length_numbered (number : Nat) : (numbered number).length = 324 := by
  rw [numbered, List.length_append, List.length_replicate]
  rfl

theorem poolSend_packets (last : Nat) :
    (poolSend last).tx.packets = (List.range (last + 1)).map numbered := rfl

theorem poolSend_numbered (last : Nat) : ∀ p ∈ (poolSend last).tx.packets, p.length = 324 := by
  rw [poolSend_packets]
  intro p member
  obtain ⟨number, -, rfl⟩ := List.mem_map.mp member
  exact length_numbered number

theorem poolSend_packetLen (last : Nat) : (poolSend last).tx.packetLen = 324 :=
  UInt16.toNat_inj.mp (Transmitter.new_packetLen (by decide) (poolSend_numbered last))

theorem poolSend_sized (last : Nat) :
    ∀ p ∈ (poolSend last).tx.packets, p.length = (poolSend last).tx.packetLen.toNat := by
  rw [poolSend_packetLen]
  exact poolSend_numbered last

theorem poolSend_distinct {last : Nat} (small : last < 256) : (poolSend last).tx.packets.Nodup := by
  rw [poolSend_packets]
  refine List.Nodup.map_on (fun first inFirst second inSecond same => ?_) List.nodup_range
  have numbers := congrArg (fun packet => packet[3]?) same
  simp only [numbered, List.cons_append, List.getElem?_cons_succ, List.getElem?_cons_zero,
    Option.some_inj] at numbers
  have values := congrArg UInt8.toNat numbers
  simp only [UInt8.toNat_ofNat'] at values
  have bounds := And.intro (List.mem_range.mp inFirst) (List.mem_range.mp inSecond)
  omega

def tableFits : Qr.Fits := fun len version ecc =>
  if version = 40 ∧ ecc = .low then len ≤ 2953
  else if version = 30 ∧ ecc = .medium then len ≤ 1370
  else version = 25 ∧ ecc = .medium ∧ len ≤ 997

theorem tableFits_capacities : Capacities tableFits :=
  ⟨fun len => by simp [tableFits], fun len => by simp [tableFits], fun len => by simp [tableFits]⟩

theorem ladder_covers :
    (∀ rung ∈ ladder, ∀ packet ∈ (poolSend 57).tx.packets, ∃ ticks, 0 + ticks < 2 ^ 32 ∧
      let shown := ((beSender (poolSend 57)).after (poolCrates 57) tableFits 0).released.shown
        (poolCrates 57) tableFits ticks
      shown.rung = rung ∧ Carries (poolCrates 57) shown.frame packet) ↔
        ¬59 ∣ (poolSend 57).tx.packets.length :=
  rungs_cover_iff tableFits_capacities rfl rfl (.inl (poolSend_packetLen 57)) (poolSend_sized 57)
    (poolSend_distinct (by omega)) 0 (by rw [poolSend_packets]; simp)

theorem ladder_resonates :
    (poolSend 58).tx.packets.length = 59 ∧
      ¬∀ rung ∈ ladder, ∀ packet ∈ (poolSend 58).tx.packets, ∃ ticks, ticks < 2 ^ 32 ∧
        let shown := (beSender (poolSend 58)).shown (poolCrates 58) tableFits ticks
        shown.rung = rung ∧ Carries (poolCrates 58) shown.frame packet := by
  have length : (poolSend 58).tx.packets.length = 59 := by rw [poolSend_packets]; simp
  refine ⟨length, fun covered => ?_⟩
  obtain ⟨base, turning⟩ := released_turning (poolCrates 58) tableFits
    (rfl : (poolSend 58).tx.frameId = 0) rfl 0 (by omega)
  obtain ⟨packet, member, missed⟩ := robust_rung_misses tableFits_capacities
    (.inl (poolSend_packetLen 58)) (poolSend_sized 58) (poolSend_distinct (by omega))
    (by rw [length]) turning
  obtain ⟨ticks, inside, rung, carries⟩ := covered v25M (by decide) packet member
  exact missed ticks (by omega) rung carries

end Shell

end Rabaska
