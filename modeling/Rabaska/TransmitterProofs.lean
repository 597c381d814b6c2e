import Rabaska.CryptoProofs
import Rabaska.PipelineCore

/-! What a transmitter is built with, and the frames it emits. -/

namespace Rabaska.Pipeline

open Wire

def InflateUndoesDeflate (crates : Crates) : Prop :=
  ∀ plain limit out,
    crates.decompressToVecWithLimit (crates.compressToVec plain deflateLevel) limit = some out →
      out = plain

def InflateReturns (crates : Crates) : Prop :=
  ∀ plain limit, plain.length ≤ limit →
    crates.decompressToVecWithLimit (crates.compressToVec plain deflateLevel) limit = some plain

theorem maybeCompress_cases (crates : Crates) (plain : Bytes) :
    maybeCompress crates plain = (plain, false) ∨
      maybeCompress crates plain = (crates.compressToVec plain deflateLevel, true) := by
  unfold maybeCompress
  split
  · exact .inl rfl
  · dsimp only
    split
    · exact .inr rfl
    · exact .inl rfl

theorem maybeDecompress_eq {crates : Crates} (inflates : InflateUndoesDeflate crates)
    {plain out : Bytes}
    (decompressed : maybeDecompress crates (maybeCompress crates plain).1
      (maybeCompress crates plain).2 = .ok out) : out = plain := by
  rcases maybeCompress_cases crates plain with raw | deflated
  · rw [raw] at decompressed
    exact (Except.ok.inj decompressed).symm
  · rw [deflated] at decompressed
    simp only [maybeDecompress, Bool.not_true, Bool.false_eq_true, if_false] at decompressed
    split at decompressed
    · rename_i inflated
      obtain rfl := Except.ok.inj decompressed
      exact inflates _ _ _ inflated
    · simp at decompressed

theorem maybeDecompress_returns {crates : Crates} (inflates : InflateReturns crates) {plain : Bytes}
    (bound : (maybeCompress crates plain).2 = true → plain.length ≤ inflateLimit) :
    maybeDecompress crates (maybeCompress crates plain).1 (maybeCompress crates plain).2 =
      .ok plain := by
  rcases maybeCompress_cases crates plain with raw | deflated
  · rw [raw]
    rfl
  · rw [deflated] at bound ⊢
    simp [maybeDecompress, inflates plain inflateLimit (bound rfl)]

namespace Transmitter

variable {crates : Crates} {key : Crypto.SessionKey} {nonce : Octets 24} {cfg : TransmitConfig}
  {plaintext : Bytes}

theorem draft_compressed (cfg : TransmitConfig) (nonce : Octets 24) (compressed : Bool) (len : Nat) :
    (draft cfg nonce compressed len).compressed = compressed := by
  simp only [draft, Beacon.compressed]
  cases compressed <;> cases cfg.senderAuth <;> rfl

theorem new_senderAuth : (new crates key nonce cfg plaintext).beacon.senderAuth = cfg.senderAuth := by
  change (draft cfg nonce (maybeCompress crates plaintext).2 plaintext.length).senderAuth = _
  simp only [draft, Beacon.senderAuth]
  cases (maybeCompress crates plaintext).2 <;> cases cfg.senderAuth <;> rfl

theorem new_beacon_compressed : (new crates key nonce cfg plaintext).beacon.compressed =
    (maybeCompress crates plaintext).2 :=
  draft_compressed cfg nonce _ plaintext.length

theorem new_packetLen_mod {len : Nat}
    (sized : ∀ p ∈ (encoded crates key nonce cfg plaintext).packets, p.length = len) :
    (new crates key nonce cfg plaintext).packetLen.toNat = len % 2 ^ 16 := by
  obtain ⟨first, rest, shape⟩ :=
    List.exists_cons_of_ne_nil (encoded crates key nonce cfg plaintext).packets_ne
  have length : first.length = len := sized first (by rw [shape]; exact List.mem_cons_self)
  simp only [new, shape, List.head?_cons, UInt16.toNat_ofNat', length]

theorem new_packetLen {len : Nat} (bound : len < 2 ^ 16)
    (sized : ∀ p ∈ (encoded crates key nonce cfg plaintext).packets, p.length = len) :
    (new crates key nonce cfg plaintext).packetLen.toNat = len :=
  (new_packetLen_mod sized).trans (Nat.mod_eq_of_lt bound)

theorem packetsAt_bounds (capacity : Nat) (packetLen : UInt16) :
    1 ≤ packetsAt capacity packetLen ∧ packetsAt capacity packetLen ≤ 255 := by
  simp only [packetsAt, SymbolFrame.packetsPerFrame]
  omega

theorem length_chunk (packets : List Bytes) (cursor : Fin packets.length) (count : Nat) :
    (chunk packets cursor count).1.length = count := by
  induction count generalizing cursor with
  | zero => rfl
  | succ count ih => simp [chunk, ih]

theorem mem_of_mem_chunk {packets : List Bytes} {cursor : Fin packets.length} {count : Nat}
    {packet : Bytes} (member : packet ∈ (chunk packets cursor count).1) : packet ∈ packets := by
  induction count generalizing cursor with
  | zero => simp [chunk] at member
  | succ count ih =>
      rcases List.mem_cons.mp member with rfl | rest
      · exact List.getElem_mem cursor.isLt
      · exact ih rest

theorem chunk_cursor (packets : List Bytes) (cursor : Fin packets.length) (count : Nat) :
    (chunk packets cursor count).2.val = (cursor.val + count) % packets.length := by
  induction count generalizing cursor with
  | zero => exact (Nat.mod_eq_of_lt cursor.isLt).symm
  | succ count ih =>
      rw [chunk, ih]
      simp [Nat.add_assoc, Nat.add_comm 1 count]

theorem getElem?_chunk {packets : List Bytes} (cursor : Fin packets.length) {count offset : Nat}
    (bound : offset < count) :
    (chunk packets cursor count).1[offset]? = packets[(cursor.val + offset) % packets.length]? := by
  induction count generalizing cursor offset with
  | zero => omega
  | succ count ih =>
      rw [chunk]
      cases offset with
      | zero => simp [Nat.mod_eq_of_lt cursor.isLt]
      | succ offset =>
          rw [List.getElem?_cons_succ, ih _ (by omega)]
          dsimp only
          rw [Nat.mod_add_mod, Nat.add_assoc, Nat.add_comm 1 offset]

theorem mem_chunk_iff {packets : List Bytes} (cursor : Fin packets.length) (count : Nat)
    (packet : Bytes) : packet ∈ (chunk packets cursor count).1 ↔
      ∃ offset < count, packets[(cursor.val + offset) % packets.length]? = some packet := by
  rw [List.mem_iff_getElem?]
  constructor
  · rintro ⟨offset, found⟩
    obtain ⟨bound, -⟩ := List.getElem?_eq_some_iff.mp found
    rw [length_chunk] at bound
    rw [getElem?_chunk cursor bound] at found
    exact ⟨offset, bound, found⟩
  · rintro ⟨offset, bound, found⟩
    exact ⟨offset, (getElem?_chunk cursor bound).trans found⟩

/-- A frame of this transmitter: its beacon, or a symbol frame of its session that carries one to
255 packets of its pool. -/
inductive Genuine (crates : Crates) (tx : Transmitter) : Frame → Prop
  | beacon : Genuine crates tx (.beacon tx.beaconBytes)
  | symbol (sf : SymbolFrame) : sf.sid4 = sid4 tx.beacon.sessionId → sf.packetLen = tx.packetLen →
      sf.packets ≠ [] → sf.packets.length ≤ 255 → (∀ p ∈ sf.packets, p ∈ tx.packets) →
      Genuine crates tx (.symbol (sf.encode crates))

structure SameObject (tx other : Transmitter) : Prop where
  beacon : other.beacon = tx.beacon
  beaconBytes : other.beaconBytes = tx.beaconBytes
  packets : other.packets = tx.packets
  packetLen : other.packetLen = tx.packetLen
  packetsPerFrame : other.packetsPerFrame = tx.packetsPerFrame

theorem SameObject.refl (tx : Transmitter) : SameObject tx tx := ⟨rfl, rfl, rfl, rfl, rfl⟩

theorem SameObject.trans {tx middle other : Transmitter} (first : SameObject tx middle)
    (second : SameObject middle other) : SameObject tx other :=
  ⟨second.beacon.trans first.beacon, second.beaconBytes.trans first.beaconBytes,
    second.packets.trans first.packets, second.packetLen.trans first.packetLen,
    second.packetsPerFrame.trans first.packetsPerFrame⟩

theorem SameObject.cursor_lt {tx other : Transmitter} (same : SameObject tx other) :
    other.cursor.val < tx.packets.length :=
  other.cursor.isLt.trans_eq (congrArg List.length same.packets)

theorem SameObject.genuine {tx other : Transmitter} (same : SameObject tx other) {frame : Frame}
    (genuine : Genuine crates other frame) : Genuine crates tx frame := by
  cases genuine with
  | beacon =>
      rw [same.beaconBytes]
      exact .beacon
  | symbol sf session len kept count pool =>
      rw [same.beacon] at session
      rw [same.packetLen] at len
      rw [same.packets] at pool
      exact .symbol sf session len kept count pool

variable (crates) in
theorem nextFramePacked_same (tx : Transmitter) (count : Nat) :
    SameObject tx (tx.nextFramePacked crates count).2 := by
  unfold nextFramePacked
  dsimp only
  split <;> exact ⟨rfl, rfl, rfl, rfl, rfl⟩

theorem nextFramePacked_held (tx : Transmitter) (count : Nat) (held : tx.held = true) :
    tx.nextFramePacked crates count =
      (.beacon tx.beaconBytes, { tx with frameId := tx.frameId + 1 }) := by
  simp [nextFramePacked, held]

theorem nextFramePacked_due (tx : Transmitter) (count : Nat)
    (due : tx.frameId % tx.beaconInterval = 0) :
    tx.nextFramePacked crates count =
      (.beacon tx.beaconBytes, { tx with frameId := tx.frameId + 1 }) := by
  simp [nextFramePacked, due]

theorem nextFramePacked_open (tx : Transmitter) (count : Nat) (released : tx.held = false)
    (early : tx.frameId % tx.beaconInterval ≠ 0) :
    tx.nextFramePacked crates count =
      (.symbol (SymbolFrame.encode crates
        { sid4 := sid4 tx.beacon.sessionId, frameId := tx.frameId, packetLen := tx.packetLen,
          packets := (chunk tx.packets tx.cursor count).1 }),
       { tx with frameId := tx.frameId + 1, cursor := (chunk tx.packets tx.cursor count).2 }) := by
  simp [nextFramePacked, released, early]

variable (crates) in
theorem nextFramePacked_flags (tx : Transmitter) (count : Nat) :
    (tx.nextFramePacked crates count).2.held = tx.held ∧
      (tx.nextFramePacked crates count).2.frameId = tx.frameId + 1 ∧
      (tx.nextFramePacked crates count).2.beaconInterval = tx.beaconInterval := by
  unfold nextFramePacked
  dsimp only
  split <;> exact ⟨rfl, rfl, rfl⟩

theorem nextFramePacked_hash (tx : Transmitter) (count : Nat) :
    (tx.nextFramePacked crates count).2.plaintextHash = tx.plaintextHash := by
  unfold nextFramePacked
  dsimp only
  split <;> rfl

def Op.capacity (cfg : TransmitConfig) : Op → Option Nat
  | .nextFrame => some cfg.frameCapacity
  | .nextFrameAt capacity => some capacity
  | _ => none

/-- The symbol frame whose turn it is, packed for a capacity. -/
def upcoming (tx : Transmitter) (capacity : Nat) : SymbolFrame where
  sid4 := sid4 tx.beacon.sessionId
  frameId := tx.frameId
  packetLen := tx.packetLen
  packets := (chunk tx.packets tx.cursor (packetsAt capacity tx.packetLen)).1

/-- What one call emits, and where it leaves the cursor and the count of frames. -/
inductive Emits (crates : Crates) (cfg : TransmitConfig) (tx next : Transmitter) (op : Op) :
    Option Frame → Prop
  | nothing : next.frameId = tx.frameId → next.cursor.val = tx.cursor.val →
      Emits crates cfg tx next op none
  | beacon : next.frameId = tx.frameId + 1 → next.cursor.val = tx.cursor.val →
      Emits crates cfg tx next op (some (.beacon tx.beaconBytes))
  | symbol (capacity : Nat) : op.capacity cfg = some capacity →
      tx.frameId % tx.beaconInterval ≠ 0 → next.frameId = tx.frameId + 1 →
      next.cursor.val =
        (tx.cursor.val + packetsAt capacity tx.packetLen) % tx.packets.length →
      Emits crates cfg tx next op (some (.symbol ((tx.upcoming capacity).encode crates)))

theorem length_upcoming (tx : Transmitter) (capacity : Nat) :
    (tx.upcoming capacity).packets.length = packetsAt capacity tx.packetLen :=
  length_chunk tx.packets tx.cursor _

theorem nextFramePacked_emits (tx : Transmitter) {op : Op} {capacity : Nat}
    (packs : op.capacity cfg = some capacity) :
    Emits crates cfg tx (tx.nextFramePacked crates (packetsAt capacity tx.packetLen)).2 op
      (some (tx.nextFramePacked crates (packetsAt capacity tx.packetLen)).1) := by
  by_cases held : tx.held = true
  · rw [nextFramePacked_held tx _ held]
    exact .beacon rfl rfl
  by_cases due : tx.frameId % tx.beaconInterval = 0
  · rw [nextFramePacked_due tx _ due]
    exact .beacon rfl rfl
  rw [nextFramePacked_open tx _ (Bool.eq_false_iff.mpr held) due]
  exact .symbol capacity packs due rfl (chunk_cursor _ _ _)

theorem step_emits {tx next : Transmitter} {op : Op} {answer : Option Frame}
    (packs : tx.packetsPerFrame = packetsAt cfg.frameCapacity tx.packetLen)
    (stepped : tx.step crates op = (answer, next)) :
    SameObject tx next ∧ Emits crates cfg tx next op answer := by
  obtain ⟨rfl, rfl⟩ := Prod.mk.inj stepped
  cases op with
  | nextFrame =>
      have emits := @nextFramePacked_emits crates cfg tx .nextFrame _ rfl
      rw [← packs] at emits
      exact ⟨nextFramePacked_same crates tx _, emits⟩
  | nextFrameAt capacity => exact ⟨nextFramePacked_same crates tx _, nextFramePacked_emits tx rfl⟩
  | setBeaconInterval n => exact ⟨⟨rfl, rfl, rfl, rfl, rfl⟩, .nothing rfl rfl⟩
  | hold => exact ⟨⟨rfl, rfl, rfl, rfl, rfl⟩, .nothing rfl rfl⟩
  | release => exact ⟨⟨rfl, rfl, rfl, rfl, rfl⟩, .nothing rfl rfl⟩

theorem SameObject.packsPerFrame {tx other : Transmitter} (same : SameObject tx other)
    (packs : tx.packetsPerFrame = packetsAt cfg.frameCapacity tx.packetLen) :
    other.packetsPerFrame = packetsAt cfg.frameCapacity other.packetLen := by
  rw [same.packetsPerFrame, same.packetLen, packs]

theorem Emits.genuine {tx next : Transmitter} {op : Op} {frame : Frame}
    (emits : Emits crates cfg tx next op (some frame)) : Genuine crates tx frame := by
  cases emits with
  | beacon counted stays => exact .beacon
  | symbol capacity packs early counted moved =>
      obtain ⟨least, most⟩ := packetsAt_bounds capacity tx.packetLen
      rw [← length_upcoming] at least most
      exact .symbol _ rfl rfl (List.ne_nil_of_length_pos least) most fun p => mem_of_mem_chunk

theorem nextFrameAt_genuine (tx : Transmitter) (capacity : Nat) :
    tx.Genuine crates (tx.nextFrameAt crates capacity).1 := by
  have packs : Op.capacity sampleConfig (.nextFrameAt capacity) = some capacity := rfl
  exact (nextFramePacked_emits tx packs).genuine

theorem emitted_genuine (tx : Transmitter) (ops : List Op)
    (packs : tx.packetsPerFrame = packetsAt cfg.frameCapacity tx.packetLen) :
    ∀ frame ∈ emitted crates tx ops, Genuine crates tx frame := by
  induction ops generalizing tx with
  | nil => simp [emitted]
  | cons op ops ih =>
      intro frame member
      obtain ⟨same, emits⟩ := @step_emits crates cfg tx (tx.step crates op).2 op _ packs rfl
      rcases List.mem_append.mp member with now | later
      · rw [Option.mem_toList.mp now] at emits
        exact emits.genuine
      · exact same.genuine (ih _ (same.packsPerFrame packs) frame later)

theorem new_emits {ops : List Op} :
    ∀ frame ∈ emitted crates (new crates key nonce cfg plaintext) ops,
      Genuine crates (new crates key nonce cfg plaintext) frame := by
  exact emitted_genuine _ ops rfl

/-! Every packet of the pool can be drawn in a frame of its own. -/

theorem exists_interval {id : UInt32} (started : id ≠ 0) : ∃ n : UInt32, n ≠ 0 ∧ id % n ≠ 0 := by
  have positive : 0 < id.toNat := Nat.pos_of_ne_zero fun zero => started (UInt32.toNat_inj.mp zero)
  have bound := id.toNat_lt
  by_cases last : id.toNat = 2 ^ 32 - 1
  · refine ⟨2, by decide, fun even => ?_⟩
    have remainder := congrArg UInt32.toNat even
    rw [UInt32.toNat_mod, last] at remainder
    exact absurd remainder (by decide)
  · have next : (id + 1).toNat = id.toNat + 1 := by
      rw [UInt32.toNat_add]
      exact Nat.mod_eq_of_lt (by simp; omega)
    refine ⟨id + 1, fun zero => ?_, fun multiple => ?_⟩
    · have impossible := congrArg UInt32.toNat zero
      rw [next] at impossible
      simp at impossible
    · have remainder := congrArg UInt32.toNat multiple
      rw [UInt32.toNat_mod, next, Nat.mod_eq_of_lt (Nat.lt_succ_self _)] at remainder
      exact absurd remainder (Nat.ne_of_gt positive)

/-- Some calls make the transmitter emit a frame of this packet alone. -/
def Draws (crates : Crates) (tx : Transmitter) (p : Bytes) : Prop :=
  ∃ ops frameId, .symbol (SymbolFrame.encode crates
    { sid4 := sid4 tx.beacon.sessionId, frameId, packetLen := tx.packetLen, packets := [p] }) ∈
      emitted crates tx ops

theorem Draws.later {tx : Transmitter} {op : Op} {p : Bytes} (same : SameObject tx (tx.step crates op).2)
    (draws : Draws crates (tx.step crates op).2 p) : Draws crates tx p := by
  obtain ⟨ops, frameId, member⟩ := draws
  rw [same.beacon, same.packetLen] at member
  exact ⟨op :: ops, frameId, List.mem_append_right _ member⟩

theorem draws_started {tx : Transmitter} {p : Bytes} (started : ∀ counted : Transmitter,
      SameObject tx counted → counted.held = tx.held → counted.cursor.val = tx.cursor.val →
      counted.frameId ≠ 0 → Draws crates counted p) : Draws crates tx p := by
  by_cases zero : tx.frameId = 0
  · have due : tx.frameId % tx.beaconInterval = 0 := by simp [zero]
    have emits : tx.nextFramePacked crates (packetsAt 0 tx.packetLen) = _ :=
      nextFramePacked_due tx _ due
    have later : Draws crates (tx.step crates (.nextFrameAt 0)).2 p := by
      change Draws crates (tx.nextFramePacked crates _).2 p
      rw [emits]
      exact started _ ⟨rfl, rfl, rfl, rfl, rfl⟩ rfl rfl (by simp [zero])
    have same : SameObject tx (tx.step crates (.nextFrameAt 0)).2 := nextFramePacked_same crates tx _
    exact later.later same
  · exact started tx (SameObject.refl tx) rfl rfl zero

theorem packetsAt_zero (packetLen : UInt16) : packetsAt 0 packetLen = 1 := by
  simp [packetsAt, SymbolFrame.packetsPerFrame]

/-- Past the beacon at the start, a suitable interval lets the next frame carry the packet under the
cursor, and no other. -/
theorem symbol_alone {tx : Transmitter} (released : tx.held = false) (started : tx.frameId ≠ 0) :
    ∃ n, (((tx.setBeaconInterval n).nextFrameAt crates 0).1 = .symbol (SymbolFrame.encode crates
        { sid4 := sid4 tx.beacon.sessionId, frameId := tx.frameId, packetLen := tx.packetLen,
          packets := [tx.packets[tx.cursor]] })) ∧
      ((tx.setBeaconInterval n).nextFrameAt crates 0).2.held = false ∧
      ((tx.setBeaconInterval n).nextFrameAt crates 0).2.cursor.val =
        (tx.cursor.val + 1) % tx.packets.length := by
  obtain ⟨n, positive, odd⟩ := exists_interval started
  have early : (tx.setBeaconInterval n).frameId % (tx.setBeaconInterval n).beaconInterval ≠ 0 := by
    simpa [setBeaconInterval, positive] using odd
  have opens : (tx.setBeaconInterval n).nextFramePacked crates 1 = _ :=
    nextFramePacked_open _ 1 released early
  refine ⟨n, ?_⟩
  rw [nextFrameAt, packetsAt_zero, opens]
  exact ⟨rfl, released, rfl⟩

theorem draws_ahead (k : Nat) {tx : Transmitter} {p : Bytes} (released : tx.held = false)
    (found : tx.packets[(tx.cursor.val + k) % tx.packets.length]? = some p) : Draws crates tx p := by
  induction k generalizing tx with
  | zero =>
      refine draws_started fun counted same held cursor started => ?_
      obtain ⟨n, emits, -⟩ := @symbol_alone crates _ (held.trans released) started
      rw [← cursor, ← same.packets, Nat.add_zero, Nat.mod_eq_of_lt counted.cursor.isLt] at found
      have under : counted.packets[counted.cursor] = p := by simpa using found
      rw [under] at emits
      refine ⟨[.setBeaconInterval n, .nextFrameAt 0], counted.frameId, ?_⟩
      exact List.mem_cons.mpr (.inl emits.symm)
  | succ k ih =>
      refine draws_started fun counted same held cursor started => ?_
      obtain ⟨n, -, still, moved⟩ := @symbol_alone crates _ (held.trans released) started
      have set : SameObject counted (counted.setBeaconInterval n) := ⟨rfl, rfl, rfl, rfl, rfl⟩
      have kept : SameObject counted ((counted.setBeaconInterval n).nextFrameAt crates 0).2 :=
        set.trans (nextFramePacked_same crates _ _)
      have ahead : Draws crates ((counted.setBeaconInterval n).nextFrameAt crates 0).2 p := by
        refine ih still ?_
        rw [moved, kept.packets, cursor, same.packets, Nat.mod_add_mod, Nat.add_assoc, Nat.add_comm 1 k]
        exact found
      obtain ⟨ops, frameId, member⟩ := ahead
      rw [kept.beacon, kept.packetLen] at member
      exact ⟨.setBeaconInterval n :: .nextFrameAt 0 :: ops, frameId,
        List.mem_append_right _ (List.mem_append_right _ member)⟩

theorem new_draws {p : Bytes} (member : p ∈ (new crates key nonce cfg plaintext).packets) :
    Draws crates (new crates key nonce cfg plaintext) p := by
  obtain ⟨k, bound, found⟩ := List.getElem_of_mem member
  refine draws_ahead k rfl ?_
  have start : (new crates key nonce cfg plaintext).cursor.val = 0 := rfl
  rw [start, Nat.zero_add, Nat.mod_eq_of_lt bound, List.getElem?_eq_getElem bound, found]

end Transmitter

end Rabaska.Pipeline
