import Rabaska.KeyProofs
import Rabaska.Library.Rotation

/-! The stream of a transmitter: a walk round its pool, with beacons in between. -/

namespace Rabaska.Pipeline

open Wire Receiver

variable {crates : Crates}

/-! What the packing makes of a capacity. -/

theorem length_encode {sf : SymbolFrame} (wellFormed : sf.WellFormed) :
    (sf.encode crates).length = symbolOverhead + sf.packets.length * sf.packetLen.toNat := by
  rw [SymbolFrame.encode_framed, length_framed, length_symbolBody,
    length_flatten_sized wellFormed.sized, symbolOverhead]
  omega

theorem packed_full {sf : SymbolFrame} {capacity : Nat} (wellFormed : sf.WellFormed)
    (count : sf.packets.length = Transmitter.packetsAt capacity sf.packetLen)
    (room : symbolOverhead + sf.packetLen.toNat ≤ capacity) :
    (sf.encode crates).length ≤ capacity ∧ (sf.packets.length = 255 ∨
      capacity < (sf.encode crates).length + sf.packetLen.toNat) := by
  rw [length_encode wellFormed, count]
  simp only [Transmitter.packetsAt, SymbolFrame.packetsPerFrame]
  generalize slots : (capacity - symbolOverhead) / sf.packetLen.toNat = fitting
  have least : 1 ≤ fitting := by
    rw [← slots, Nat.le_div_iff_mul_le wellFormed.positive]
    omega
  have floor : fitting * sf.packetLen.toNat ≤ capacity - symbolOverhead := by
    rw [← slots]
    exact Nat.div_mul_le_self _ _
  have ceiling : capacity - symbolOverhead < fitting * sf.packetLen.toNat + sf.packetLen.toNat := by
    rw [← slots]
    exact Nat.lt_div_mul_add wellFormed.positive
  by_cases saturated : fitting ≤ 255
  · rw [Nat.min_eq_left saturated, Nat.max_eq_left least]
    exact ⟨by omega, .inr (by omega)⟩
  · have shorter : 255 * sf.packetLen.toNat ≤ fitting * sf.packetLen.toNat :=
      Nat.mul_le_mul_right _ (by omega)
    rw [Nat.min_eq_right (by omega), Nat.max_eq_left (by omega)]
    exact ⟨by omega, .inl rfl⟩

namespace Transmitter

def streamed (crates : Crates) (trace : List (Op × Option Frame)) : List Bytes :=
  trace.flatMap fun
    | (_, some (.symbol bytes)) => carried crates bytes
    | _ => []

variable {cfg : TransmitConfig}

theorem streamed_cons (event : Op × Option Frame) (trace : List (Op × Option Frame)) :
    streamed crates (event :: trace) = streamed crates [event] ++ streamed crates trace := by
  rw [← List.singleton_append, streamed, List.flatMap_append]
  rfl

structure Walked (start : Transmitter) (sent : List Bytes) (now : Transmitter) : Prop where
  same : SameObject start now
  rounds : Rotation.Rounds start.packets sent
  cursor : now.cursor.val = sent.length % start.packets.length

theorem upcoming_wellFormed {tx : Transmitter} (sound : Sound crates tx) (capacity : Nat) :
    (tx.upcoming capacity).WellFormed := by
  refine sound.wellFormed rfl ?_ fun p => mem_of_mem_chunk
  rw [length_upcoming]
  exact (packetsAt_bounds capacity tx.packetLen).2

theorem SameObject.sound {tx other : Transmitter} (same : SameObject tx other)
    (sound : Sound crates tx) : Sound crates other := by
  refine ⟨?_, ?_, ?_⟩
  · rw [same.beaconBytes, same.beacon]
    exact sound.encodes
  · rw [same.packetLen]
    exact sound.positive
  · rw [same.packets, same.packetLen]
    exact sound.sized

theorem Walked.step {start tx next : Transmitter} {sent : List Bytes} {op : Op}
    {answer : Option Frame} (sound : Sound crates start)
    (packs : start.packetsPerFrame = packetsAt cfg.frameCapacity start.packetLen)
    (walked : Walked start sent tx)
    (stepped : Machine.total (Transmitter.step crates) tx op = some (answer, next)) :
    Walked start (sent ++ streamed crates [(op, answer)]) next := by
  obtain ⟨same, rounds, cursor⟩ := walked
  obtain ⟨kept, emits⟩ := step_emits (same.packsPerFrame packs) (Option.some_inj.mp stepped)
  have later := same.trans kept
  cases emits with
  | nothing counted stays =>
      rw [show streamed crates [(op, none)] = [] from rfl, List.append_nil]
      exact ⟨later, rounds, stays.trans cursor⟩
  | beacon counted stays =>
      rw [show streamed crates [(op, some (.beacon tx.beaconBytes))] = [] from rfl, List.append_nil]
      exact ⟨later, rounds, stays.trans cursor⟩
  | symbol capacity packs early counted moved =>
      have carries : streamed crates [(op, some (.symbol ((tx.upcoming capacity).encode crates)))] =
          (tx.upcoming capacity).packets := by
        rw [streamed, List.flatMap_singleton]
        exact carried_symbol (upcoming_wellFormed (same.sound sound) capacity)
      have width := length_upcoming tx capacity
      rw [carries]
      refine ⟨later, rounds.append fun offset bound => ?_, ?_⟩
      · rw [width] at bound
        rw [upcoming, getElem?_chunk tx.cursor bound, cursor, same.packets, Nat.mod_add_mod]
      · rw [moved, cursor, List.length_append, width, same.packets, Nat.mod_add_mod]

theorem run_walked {start tx now : Transmitter} {sent : List Bytes}
    {trace : List (Op × Option Frame)} (sound : Sound crates start)
    (packs : start.packetsPerFrame = packetsAt cfg.frameCapacity start.packetLen)
    (walked : Walked start sent tx) (run : Machine.Run (Machine.total (step crates)) tx trace now) :
    Walked start (sent ++ streamed crates trace) now := by
  induction run generalizing sent with
  | nil => rwa [show streamed crates [] = [] from rfl, List.append_nil]
  | cons stepped rest ih =>
      have whole := ih (walked.step sound packs stepped)
      rwa [List.append_assoc, ← streamed_cons] at whole

/-- What a symbol frame packed for a capacity is: it decodes to what was encoded, is of the session,
carries one to 255 packets, and is as full as the capacity lets it be. -/
structure Packs (crates : Crates) (tx : Transmitter) (capacity : Nat) (bytes : Bytes)
    (sf : SymbolFrame) : Prop where
  encodes : bytes = sf.encode crates
  decodes : SymbolFrame.decode crates bytes = .ok sf
  session : sf.sid4 = sid4 tx.beacon.sessionId
  count : 1 ≤ sf.packets.length ∧ sf.packets.length ≤ 255
  full : symbolOverhead + tx.packetLen.toNat ≤ capacity → bytes.length ≤ capacity ∧
    (sf.packets.length = 255 ∨ capacity < bytes.length + tx.packetLen.toNat)

theorem SameObject.packs {tx other : Transmitter} {capacity : Nat} {bytes : Bytes} {sf : SymbolFrame}
    (same : SameObject tx other) (packs : Packs crates other capacity bytes sf) :
    Packs crates tx capacity bytes sf := by
  obtain ⟨encodes, decodes, session, count, full⟩ := packs
  rw [same.beacon] at session
  rw [same.packetLen] at full
  exact ⟨encodes, decodes, session, count, full⟩

theorem Emits.packs {tx next : Transmitter} {op : Op} {bytes : Bytes} (sound : Sound crates tx)
    (emits : Emits crates cfg tx next op (some (.symbol bytes))) :
    ∃ capacity sf, op.capacity cfg = some capacity ∧ Packs crates tx capacity bytes sf := by
  cases emits with
  | symbol capacity packs early counted moved =>
      have wellFormed := upcoming_wellFormed sound capacity
      have count := length_upcoming tx capacity
      have bounds := packetsAt_bounds capacity tx.packetLen
      rw [← count] at bounds
      exact ⟨capacity, _, packs, rfl, SymbolFrame.decode_encode crates _ wellFormed, rfl, bounds,
        packed_full wellFormed count⟩

theorem beacon_ahead {tx : Transmitter} {n : UInt32} {window : List (Op × Option Frame)}
    {ahead : Nat} (packs : tx.packetsPerFrame = packetsAt cfg.frameCapacity tx.packetLen)
    (steady : Machine.Along (Machine.total (step crates))
      (fun now _ frame _ => frame ≠ none → now.beaconInterval = n) tx window)
    (due : (tx.frameId.toNat + ahead) % 2 ^ 32 % n.toNat = 0)
    (enough : ahead < (window.filterMap Prod.snd).length) :
    .beacon tx.beaconBytes ∈ window.filterMap Prod.snd := by
  -- Each symbol frame brings the due count one nearer; other calls leave it where it is.
  induction window generalizing tx ahead with
  | nil => simp at enough
  | cons event window ih =>
      obtain ⟨next, stepped, interval, later⟩ := steady
      obtain ⟨kept, emits⟩ := step_emits packs (Option.some_inj.mp stepped)
      have onward := fun further => @ih next further (kept.packsPerFrame packs) later
      rw [kept.beaconBytes] at onward
      obtain ⟨op, answer⟩ := event
      cases emits with
      | nothing counted stays =>
          rw [counted] at onward
          exact onward ahead due enough
      | beacon counted stays => exact List.mem_cons_self
      | symbol capacity packs early counted moved =>
          rw [interval (by simp)] at early
          cases ahead with
          | zero =>
              rw [Nat.add_zero, Nat.mod_eq_of_lt tx.frameId.toNat_lt] at due
              exact absurd (UInt32.toNat_inj.mp ((UInt32.toNat_mod _ _).trans due)) early
          | succ ahead =>
              refine List.mem_cons_of_mem _ (onward ahead ?_ (Nat.lt_of_succ_lt_succ enough))
              rw [counted, UInt32.toNat_add, Nat.mod_add_mod, UInt32.toNat_one, Nat.add_assoc,
                Nat.add_comm 1 ahead, due]

/-- Any `n` frames in a row from here, all emitted while the interval is `n`, have a beacon among
them. -/
def BeaconWithin (crates : Crates) (tx : Transmitter) : Prop :=
  ∀ n : UInt32, n ≠ 0 → ∀ window, Machine.Along (Machine.total (step crates))
      (fun now _ frame _ => frame ≠ none → now.beaconInterval = n) tx window →
    (window.filterMap Prod.snd).length = n.toNat →
      .beacon tx.beaconBytes ∈ window.filterMap Prod.snd

theorem beaconWithin {tx : Transmitter}
    (packs : tx.packetsPerFrame = packetsAt cfg.frameCapacity tx.packetLen) :
    BeaconWithin crates tx := by
  intro n positive window steady many
  obtain ⟨ahead, bound, due⟩ :=
    Rotation.multiple_ahead (UInt32.pos_iff_ne_zero.mpr positive) tx.frameId.toNat_lt
  exact beacon_ahead packs steady due (bound.trans_eq many.symm)

/-- The packets that go out are the pool's, round and round, whatever calls come in between; every
symbol frame is read back as it was packed and is full; and beacons keep their interval, also where
the count of frames starts again. A serialized RaptorQ packet begins with an id of four bytes. -/
theorem stream_cyclic {key : Crypto.SessionKey} {nonce : Octets 24} {plaintext : Bytes}
    (sized : ∃ len, 4 ≤ len ∧ len < 2 ^ 16 ∧
      ∀ p ∈ (encoded crates key nonce cfg plaintext).packets, p.length = len)
    {trace : List (Op × Option Frame)} {tx : Transmitter}
    (run : Machine.Run (Machine.total (step crates)) (new crates key nonce cfg plaintext) trace tx) :
    Rotation.Rounds (encoded crates key nonce cfg plaintext).packets (streamed crates trace) ∧
      (∀ op bytes, (op, some (.symbol bytes)) ∈ trace → ∃ capacity sf,
        op.capacity cfg = some capacity ∧
          Packs crates (new crates key nonce cfg plaintext) capacity bytes sf) ∧
      BeaconWithin crates tx := by
  have sound := sound_new sized
  have packs : (new crates key nonce cfg plaintext).packetsPerFrame =
      packetsAt cfg.frameCapacity (new crates key nonce cfg plaintext).packetLen := rfl
  have start : Walked (new crates key nonce cfg plaintext) [] (new crates key nonce cfg plaintext) :=
    ⟨.refl _, by simp [Rotation.Rounds], (Nat.zero_mod _).symm⟩
  refine ⟨(run_walked sound packs start run).rounds, fun op bytes member => ?_,
    beaconWithin ((run_walked sound packs start run).same.packsPerFrame packs)⟩
  obtain ⟨front, back, rfl⟩ := List.append_of_mem member
  obtain ⟨before, after, reached, stepped, -⟩ := run.event
  have same := (run_walked sound packs start reached).same
  obtain ⟨-, emits⟩ := step_emits (same.packsPerFrame packs) (Option.some_inj.mp stepped)
  obtain ⟨capacity, sf, asked, packed⟩ := emits.packs (same.sound sound)
  exact ⟨capacity, sf, asked, same.packs packed⟩

set_option maxRecDepth 100000 in
theorem stream_cyclic_terse : ∃ trace tx, Machine.Run (Machine.total (step terseCrates))
      (new terseCrates sampleKey sampleNonce sampleConfig samplePlaintext) trace tx ∧
    (streamed terseCrates trace).length = 18 ∧
    Rotation.Rounds terseObject.packets (streamed terseCrates trace) ∧
    BeaconWithin terseCrates tx := by
  let ops : List Op := [.nextFrame, .nextFrameAt 40, .hold, .nextFrame, .release, .nextFrameAt 150]
  have computed : (Machine.execute (Machine.total (step terseCrates))
      (new terseCrates sampleKey sampleNonce sampleConfig samplePlaintext) ops).map
        (fun result => (streamed terseCrates (ops.zip result.1)).length) = some 18 := by
    decide +kernel
  obtain ⟨⟨answers, tx⟩, executed, sent⟩ := Option.map_eq_some_iff.mp computed
  obtain ⟨run, -⟩ := Machine.execute_run executed
  obtain ⟨rounds, -, regular⟩ := stream_cyclic genuine_terse.sized run
  exact ⟨_, tx, run, sent, rounds, regular⟩

end Transmitter

end Rabaska.Pipeline
