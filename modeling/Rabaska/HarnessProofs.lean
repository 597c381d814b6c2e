import Rabaska.Convergence
import Rabaska.CryptoProofs
import Rabaska.FormatProofs
import Rabaska.HarnessCore
import Rabaska.StreamProofs

/-! The harness: whatever the channel loses, a transfer ends with the payload or with no end at all. -/

namespace Rabaska.Harness

open Call Wire Crypto Pipeline

variable {crates : Crates}

theorem keysFor_agree (commutes : DiffieHellmanCommutes crates) (mode : Mode) (p : Peers crates) :
    (keysFor mode p).2 = (keysFor mode p).1 := by
  cases mode with
  | pair => exact (derivePair_agrees commutes p.sEph p.rEph p.sid).symm
  | session => exact (deriveSession_agrees commutes p.sEph p.sId p.rEph p.rId p.sid).symm
  | «seal» => exact (seal_agrees commutes p.sEph (some p.sId) p.rId).symm
  | «open» => rfl

section Channel

variable (crates) (code : Fountain.Code Bytes) (light : Lighting) (schedule : List Rung)
  (first : Display)

def displayAt : Nat → Display
  | 0 => first
  | i + 1 =>
      match schedule[i % schedule.length]? with
      | none => displayAt i
      | some rung => ((displayAt i).show crates light rung).2

def arrival (i : Nat) : Option Frame :=
  match schedule[i % schedule.length]? with
  | none => none
  | some rung => ((displayAt crates light schedule first i).show crates light rung).1

def past : Nat → List (Fountain.Event Bytes)
  | 0 => []
  | i + 1 => past i ++ ((arrival crates light schedule first i).map (image crates)).toList

/-- The turn whose frame is the first to complete the object. -/
def Completes (i : Nat) : Prop :=
  ∃ frame, arrival crates light schedule first i = some frame ∧
    ¬Fountain.WasReady code (past crates light schedule first i) ∧
    Fountain.Ready code (past crates light schedule first i) (image crates frame)

end Channel

section Running

variable {code : Fountain.Code Bytes} {light : Lighting} {schedule : List Rung} {first : Display}
  {key : SessionKey} {object payload : Bytes}

theorem show_same (light : Lighting) (rung : Rung) (display : Display) :
    Transmitter.SameObject display.tx (display.show crates light rung).2.tx :=
  Transmitter.nextFramePacked_same crates display.tx _

theorem show_hash (light : Lighting) (rung : Rung) (display : Display) :
    (display.show crates light rung).2.tx.plaintextHash = display.tx.plaintextHash :=
  Transmitter.nextFramePacked_hash display.tx _

theorem show_genuine {light : Lighting} {rung : Rung} {display : Display} {frame : Frame}
    (shown : (display.show crates light rung).1 = some frame) : display.tx.Genuine crates frame := by
  simp only [Display.show] at shown
  split at shown
  · exact absurd shown (by simp)
  · obtain rfl := Option.some_inj.mp shown
    exact Transmitter.nextFrameAt_genuine display.tx rung.capacity

variable (code light schedule first key object payload) in
structure Runs (i : Nat) (state : State crates) (collector : Fountain.Collector Bytes) : Prop where
  display : state.display = displayAt crates light schedule first i
  same : Transmitter.SameObject first.tx state.display.tx
  hash : state.display.tx.plaintextHash = completeHash crates first.tx.beacon.sessionId payload
  tracks : Tracks code key first.tx object state.rx collector
  key : state.key = if collector.acquired then none else some key
  reflects : Fountain.Reflects code (past crates light schedule first i) collector
  running : collector.done = false

variable {i : Nat} {state : State crates} {collector : Fountain.Collector Bytes} {rung : Rung}

theorem Runs.fresh (runs : Runs code light schedule first key object payload i state collector) :
    ¬Fountain.WasReady code (past crates light schedule first i) := by
  rw [← runs.reflects.done, runs.running]
  simp

theorem displayAt_succ (scheduled : schedule[i % schedule.length]? = some rung) :
    displayAt crates light schedule first (i + 1) =
      ((displayAt crates light schedule first i).show crates light rung).2 := by
  simp only [displayAt, scheduled]

theorem Runs.arrival (runs : Runs code light schedule first key object payload i state collector)
    (scheduled : schedule[i % schedule.length]? = some rung) :
    arrival crates light schedule first i = (state.display.show crates light rung).1 := by
  simp only [Harness.arrival, scheduled, runs.display]

theorem Runs.lost (runs : Runs code light schedule first key object payload i state collector)
    (scheduled : schedule[i % schedule.length]? = some rung)
    (lost : (state.display.show crates light rung).1 = none) :
    ∃ next, turn light payload rung i state = some (.inr next) ∧
      Runs code light schedule first key object payload (i + 1) next collector := by
  refine ⟨{ state with display := (state.display.show crates light rung).2 }, ?_, ?_⟩
  · simp only [turn, lost]
  · have still : past crates light schedule first (i + 1) = past crates light schedule first i := by
      rw [past, runs.arrival scheduled, lost]
      exact List.append_nil _
    refine ⟨?_, runs.same.trans (show_same light rung _), (show_hash light rung _).trans runs.hash,
      runs.tracks, runs.key, ?_, runs.running⟩
    · rw [displayAt_succ scheduled, ← runs.display]
    · rw [still]
      exact runs.reflects

structure Carried (crates : Crates) (code : Fountain.Code Bytes) (first : Display) (key : SessionKey)
    (object payload : Bytes) : Prop where
  genuine : PacketPool first.tx.packets
  reconstructs : Reconstructs crates code first.tx.beacon.oti first.tx.packets object
  sound : Sound crates first.tx
  opens : Receiver.openObject crates key first.tx.beacon object = .ok payload

theorem Runs.taken (carried : Carried crates code first key object payload)
    (runs : Runs code light schedule first key object payload i state collector)
    (scheduled : schedule[i % schedule.length]? = some rung) {frame : Frame}
    (shown : (state.display.show crates light rung).1 = some frame) :
    ∃ result after, drive key state.rx frame = some (result, after) ∧
      Answers payload result (Fountain.step code collector (image crates frame)).1 ∧
      Tracks code key first.tx object after (Fountain.step code collector (image crates frame)).2 ∧
      Fountain.Reflects code (past crates light schedule first (i + 1))
        (Fountain.step code collector (image crates frame)).2 ∧
      ((Fountain.step code collector (image crates frame)).1 = .complete ↔
        Fountain.Ready code (past crates light schedule first i) (image crates frame)) := by
  obtain ⟨result, after, driven, answers, tracks⟩ := Tracks.step carried.genuine carried.reconstructs
    carried.sound carried.opens (runs.same.genuine (show_genuine shown)) runs.tracks
  have next : past crates light schedule first (i + 1) =
      past crates light schedule first i ++ [image crates frame] := by
    rw [past, runs.arrival scheduled, shown]
    rfl
  obtain ⟨reflects, -, verdict⟩ := Fountain.step_reflects runs.reflects (image crates frame)
  rw [← next] at reflects
  exact ⟨result, after, driven, answers, tracks, reflects, verdict runs.fresh⟩

theorem Runs.waits (carried : Carried crates code first key object payload)
    (runs : Runs code light schedule first key object payload i state collector)
    (scheduled : schedule[i % schedule.length]? = some rung) {frame : Frame}
    (shown : (state.display.show crates light rung).1 = some frame)
    (waiting : ¬Fountain.Ready code (past crates light schedule first i) (image crates frame)) :
    ∃ next collector, turn light payload rung i state = some (.inr next) ∧
      Runs code light schedule first key object payload (i + 1) next collector := by
  obtain ⟨result, after, driven, answers, tracks, reflects, completes⟩ := runs.taken carried scheduled shown
  have incomplete := mt completes.mp waiting
  have running : (Fountain.step code collector (image crates frame)).2.done = false := by
    rw [Bool.eq_false_iff, Ne, Fountain.step_finished_iff, runs.running]
    simpa using incomplete
  have onward (rx : Receiver crates) (held : Option SessionKey)
      (tracks : Tracks code key first.tx object rx (Fountain.step code collector (image crates frame)).2)
      (same : held = if (Fountain.step code collector (image crates frame)).2.acquired then none
        else some key) :
      Runs code light schedule first key object payload (i + 1)
        { display := (state.display.show crates light rung).2, rx, key := held }
        (Fountain.step code collector (image crates frame)).2 := by
    refine ⟨?_, runs.same.trans (show_same light rung state.display),
      (show_hash light rung state.display).trans runs.hash, tracks, same, reflects, running⟩
    rw [displayAt_succ scheduled, ← runs.display]
  obtain ⟨unheard, heard⟩ := Fountain.step_heard_iff code collector (image crates frame)
  rcases drive_cases driven with ⟨rfl, rx, fed, rfl⟩ | ⟨other, fed⟩
  · have told : (Fountain.step code collector (image crates frame)).1 = .acquired := by
      cases said : (Fountain.step code collector (image crates frame)).1 <;>
        simp [said, Answers] at answers ⊢
    have held : state.key = some key := by rw [runs.key, if_neg (by simp [unheard told])]
    refine ⟨_, _, ?_, onward (rx.setKey key) none tracks (by rw [if_pos (heard.mpr (.inr told))])⟩
    simp only [turn, shown, fed, held, Option.map_some]
  · have untold : (Fountain.step code collector (image crates frame)).1 ≠ .acquired := by
      intro told
      rw [told] at answers
      exact other answers
    have kept : state.key = if (Fountain.step code collector (image crates frame)).2.acquired then none
        else some key := by
      rw [runs.key]
      simp only [heard, untold, or_false]
    refine ⟨_, _, ?_, onward after state.key tracks kept⟩
    cases said : (Fountain.step code collector (image crates frame)).1 with
    | ignored =>
        rw [said] at answers
        obtain rfl : result = .ok .ignored := answers
        simp only [turn, shown, fed]
    | acquired => exact absurd said untold
    | progress =>
        rw [said] at answers
        obtain ⟨received, needed, rfl⟩ := answers
        simp only [turn, shown, fed]
    | complete => exact absurd said incomplete

theorem Runs.completes (carried : Carried crates code first key object payload)
    (runs : Runs code light schedule first key object payload i state collector)
    (scheduled : schedule[i % schedule.length]? = some rung) {frame : Frame}
    (shown : (state.display.show crates light rung).1 = some frame)
    (ready : Fountain.Ready code (past crates light schedule first i) (image crates frame)) :
    turn light payload rung i state = some (.inl (.ok (i + 1))) := by
  obtain ⟨result, after, driven, answers, tracks, reflects, completes⟩ := runs.taken carried scheduled shown
  rw [completes.mpr ready] at answers
  obtain rfl : result = .ok (.done payload) := answers
  obtain ⟨acquired, -⟩ | ⟨-, fed⟩ := drive_cases driven
  · exact absurd acquired (by simp)
  obtain ⟨beacon, -⟩ := Receiver.ingest_kept fed (by simp)
  have heard : collector.acquired = true := by
    by_contra unheard
    have told := completes.mpr ready
    cases event : image crates frame with
    | announced => simp [event, Fountain.Ready] at ready
    | offered packets =>
        rw [event, Fountain.step_offered_early code packets runs.running (by simpa using unheard)] at told
        simp at told
  have known : after.beacon = some first.tx.beacon := by
    rw [beacon, (runs.tracks.live (runs.tracks.done.trans runs.running)).beacon, if_pos heard]
  have hash := (@show_hash crates light rung state.display).trans runs.hash
  simp only [turn, shown, fed, check, ne_eq, not_true_eq_false, if_false, Receiver.completeFrame, known,
    Option.map_some, Complete.decode_encode, hash]

theorem Runs.loop (carried : Carried crates code first key object payload) (nonempty : schedule ≠ [])
    (left : Nat) {i : Nat} {state : State crates} {collector : Fountain.Collector Bytes}
    (runs : Runs code light schedule first key object payload i state collector) :
    (∃ j < i + left, Completes crates code light schedule first j ∧
      loop light payload schedule left i state = some (.ok (j + 1))) ∨
    ¬Fountain.WasReady code (past crates light schedule first (i + left)) ∧
      loop light payload schedule left i state = some (.error "did not converge") := by
  induction left generalizing i state collector with
  | zero => exact .inr ⟨runs.fresh, rfl⟩
  | succ left ih =>
      have inside := Nat.mod_lt i (List.length_pos_iff.mpr nonempty)
      have scheduled : schedule[i % schedule.length]? = some (schedule[i % schedule.length]) :=
        List.getElem?_eq_getElem inside
      have onward {next : State crates} {collector : Fountain.Collector Bytes}
          (turned : turn light payload schedule[i % schedule.length] i state = some (.inr next))
          (runs : Runs code light schedule first key object payload (i + 1) next collector) :
          (∃ j < i + (left + 1), Completes crates code light schedule first j ∧
            Harness.loop light payload schedule (left + 1) i state = some (.ok (j + 1))) ∨
          ¬Fountain.WasReady code (past crates light schedule first (i + (left + 1))) ∧
            Harness.loop light payload schedule (left + 1) i state =
              some (.error "did not converge") := by
        have unrolled : Harness.loop light payload schedule (left + 1) i state =
            Harness.loop light payload schedule left (i + 1) next := by
          simp [Harness.loop, scheduled, turned]
        rw [unrolled, show i + (left + 1) = i + 1 + left by omega]
        exact ih runs
      cases shown : (state.display.show crates light schedule[i % schedule.length]).1 with
      | none =>
          obtain ⟨next, turned, later⟩ := runs.lost scheduled shown
          exact onward turned later
      | some frame =>
          by_cases ready : Fountain.Ready code (past crates light schedule first i) (image crates frame)
          · have turned := runs.completes carried scheduled shown ready
            refine .inl ⟨i, by omega, ⟨frame, (runs.arrival scheduled).trans shown, runs.fresh, ready⟩, ?_⟩
            simp [Harness.loop, scheduled, turned]
          · obtain ⟨next, collector, turned, later⟩ := runs.waits carried scheduled shown ready
            exact onward turned later

end Running

section Whole

variable {code : Fountain.Code Bytes} {mode : Mode} {payload : Bytes} (ladder : List Rung)
  (light : Lighting) (seed : UInt64) {p : Peers crates} {nonce : Octets 24}

theorem runs_start : Runs code light (expand ladder) (opening mode payload seed p nonce)
    (keysFor mode p).2 (Transmitter.ciphertext crates (keysFor mode p).1 nonce (cfg mode p) payload)
    payload 0
    { display := opening mode payload seed p nonce, rx := Receiver.new crates,
      key := some (keysFor mode p).2 }
    Fountain.Collector.new :=
  ⟨rfl, .refl _, rfl, tracks_new, rfl, Fountain.reflects_new code, rfl⟩

theorem carried_start (commutes : DiffieHellmanCommutes crates)
    (sendable : Sendable crates code (keysFor mode p).1 nonce (cfg mode p) payload) :
    Carried crates code (opening mode payload seed p nonce) (keysFor mode p).2
      (Transmitter.ciphertext crates (keysFor mode p).1 nonce (cfg mode p) payload) payload where
  genuine := sendable.genuine
  reconstructs := sendable.reconstructs
  sound := sound_new sendable.genuine.sized
  opens := by
    rw [keysFor_agree commutes]
    exact openObject_new _ nonce _ sendable.short sendable.inflatable sendable.undoes sendable.inflates

/-- In every mode, for every payload that can be sent, every ladder with a rung, lighting and seed: a
transfer never panics, fails at no frame and never delivers anything but the payload. It ends at the first
turn whose frame completes the packets that got through, and with no end when there is no such turn. -/
theorem transfer_verdict (commutes : DiffieHellmanCommutes crates)
    (sendable : Sendable crates code (keysFor mode p).1 nonce (cfg mode p) payload)
    (scheduled : expand ladder ≠ []) :
    (∃ i < turns,
      Completes crates code light (expand ladder) (opening mode payload seed p nonce) i ∧
      run mode payload ladder light seed p nonce = some (.ok (i + 1))) ∨
    ¬Fountain.WasReady code
        (past crates light (expand ladder) (opening mode payload seed p nonce) turns) ∧
      run mode payload ladder light seed p nonce = some (.error "did not converge") := by
  have ended := (runs_start ladder light seed).loop (carried_start seed commutes sendable) scheduled turns
  rwa [Nat.zero_add] at ended

def samplePeers : Peers Crates.sample where
  sEph := samplePair 1
  sId := samplePair 2
  rEph := samplePair 3
  rId := samplePair 4
  sid := Octets.replicate 8 5

theorem sendable_sample : Sendable Crates.sample anyPacket (keysFor .seal samplePeers).1 sampleNonce
    (cfg .seal samplePeers) samplePlaintext :=
  sample_sendable (by decide) ⟨⟨148, by decide, by decide, by decide +kernel⟩, by decide +kernel⟩

def darkRoom : Lighting := { pQr := 55 / 100, pC4 := 18 / 100, pC8 := 2 / 100 }

theorem transfer_verdict_dark :
    (∃ i < turns, Completes Crates.sample anyPacket darkRoom (expand [rungQr, rungC4, rungC8])
        (opening .seal samplePlaintext 0xC0FFEE samplePeers sampleNonce) i ∧
      run .seal samplePlaintext [rungQr, rungC4, rungC8] darkRoom 0xC0FFEE samplePeers sampleNonce =
        some (.ok (i + 1))) ∨
    ¬Fountain.WasReady anyPacket (past Crates.sample darkRoom (expand [rungQr, rungC4, rungC8])
        (opening .seal samplePlaintext 0xC0FFEE samplePeers sampleNonce) turns) ∧
      run .seal samplePlaintext [rungQr, rungC4, rungC8] darkRoom 0xC0FFEE samplePeers sampleNonce =
        some (.error "did not converge") :=
  transfer_verdict [rungQr, rungC4, rungC8] darkRoom 0xC0FFEE sample_commutes sendable_sample (by decide)

/-! A channel that loses nothing. -/

theorem nextF64_lt (rng : UInt64) : (nextF64 rng).1 < 1 := by
  have small : ((rng * 6364136223846793005 + 1442695040888963407) >>> 11).toNat < 2 ^ 53 := by
    have bound := (rng * 6364136223846793005 + 1442695040888963407).toNat_lt
    simp only [UInt64.toNat_shiftRight, Nat.shiftRight_eq_div_pow]
    exact Nat.div_lt_of_lt_mul bound
  have draw : (nextF64 rng).1 =
      (((rng * 6364136223846793005 + 1442695040888963407) >>> 11).toNat : ℚ) / 2 ^ 53 := rfl
  rw [draw, div_lt_one (by positivity)]
  exact_mod_cast small

structure Lighting.Clear (light : Lighting) : Prop where
  pQr : 1 ≤ light.pQr
  pC4 : 1 ≤ light.pC4
  pC8 : 1 ≤ light.pC8

variable {light} in
theorem Lighting.Clear.arrives (clear : light.Clear) (rung : Rung) (display : Display) :
    (display.show crates light rung).1 = some (display.tx.nextFrameAt crates rung.capacity).1 := by
  have certain (frame : Frame) : 1 ≤ light.chance rung frame := by
    unfold Lighting.chance
    split
    · exact clear.pQr
    · split
      · exact clear.pQr
      · split
        · exact clear.pC4
        · exact clear.pC8
  have kept := (nextF64_lt display.rng).trans_le
    (certain (display.tx.nextFrameAt crates rung.capacity).1)
  simp only [Display.show, not_lt.mpr kept.le, if_false]

def symbolTurns (i : Nat) : Nat := i - (i + 14) / 15

variable (crates) in
structure Swept (light : Lighting) (schedule : List Rung) (first : Display) (i : Nat) : Prop where
  counted : (displayAt crates light schedule first i).tx.frameId = UInt32.ofNat i
  released : (displayAt crates light schedule first i).tx.held = false
  interval : (displayAt crates light schedule first i).tx.beaconInterval = 15
  announced : i ≠ 0 → .announced ∈ past crates light schedule first i
  walked : ∃ sent, Transmitter.Walked first.tx sent (displayAt crates light schedule first i).tx ∧
    symbolTurns i ≤ sent.length ∧
    ∀ packet ∈ sent, packet ∈ Fountain.offeredBy (past crates light schedule first i)

variable {ladder light} {schedule : List Rung} {first : Display} {i : Nat}

theorem Swept.due_iff (early : i < 2 ^ 32) (swept : Swept crates light schedule first i) :
    (displayAt crates light schedule first i).tx.frameId %
      (displayAt crates light schedule first i).tx.beaconInterval = 0 ↔ i % 15 = 0 := by
  rw [swept.counted, swept.interval, ← UInt32.toNat_inj, UInt32.toNat_mod, UInt32.toNat_ofNat',
    Nat.mod_eq_of_lt early]
  rfl

theorem Swept.step (clear : light.Clear) (scheduled : schedule ≠ []) (sound : Sound crates first.tx)
    {conf : TransmitConfig}
    (packs : first.tx.packetsPerFrame = Transmitter.packetsAt conf.frameCapacity first.tx.packetLen)
    (early : i < 2 ^ 32) (swept : Swept crates light schedule first i) :
    Swept crates light schedule first (i + 1) ∧ (i % 15 ≠ 0 → ∃ packets,
      past crates light schedule first (i + 1) =
        past crates light schedule first i ++ [.offered packets]) := by
  have inside := Nat.mod_lt i (List.length_pos_iff.mpr scheduled)
  have slot : schedule[i % schedule.length]? = some (schedule[i % schedule.length]) :=
    List.getElem?_eq_getElem inside
  generalize schedule[i % schedule.length] = rung at slot
  have brings : past crates light schedule first (i + 1) = past crates light schedule first i ++
      [image crates ((displayAt crates light schedule first i).tx.nextFrameAt crates rung.capacity).1] := by
    rw [past, arrival, slot]
    dsimp only
    rw [clear.arrives rung]
    rfl
  have next : (displayAt crates light schedule first (i + 1)).tx =
      ((displayAt crates light schedule first i).tx.nextFrameAt crates rung.capacity).2 := by
    rw [displayAt_succ slot]
    rfl
  have due := swept.due_iff early
  obtain ⟨counted, released, interval, announced, sent, walked, long, offered⟩ := swept
  generalize displayAt crates light schedule first i = display at *
  obtain ⟨held, turned, kept⟩ := Transmitter.nextFramePacked_flags crates display.tx
    (Transmitter.packetsAt rung.capacity display.tx.packetLen)
  have stepped : Machine.total (Transmitter.step crates) display.tx (.nextFrameAt rung.capacity) =
      some (some (display.tx.nextFrameAt crates rung.capacity).1,
        (display.tx.nextFrameAt crates rung.capacity).2) := rfl
  have onward := walked.step sound packs stepped
  have count : display.tx.frameId + 1 = UInt32.ofNat (i + 1) := by
    rw [counted]
    simp
  by_cases beacon : i % 15 = 0
  · have shows : display.tx.nextFrameAt crates rung.capacity =
        (.beacon display.tx.beaconBytes, { display.tx with frameId := display.tx.frameId + 1 }) :=
      Transmitter.nextFramePacked_due display.tx _ (due.mpr beacon)
    rw [shows] at brings onward next
    have still : Transmitter.streamed crates
        [(.nextFrameAt rung.capacity, some (.beacon display.tx.beaconBytes))] = [] := rfl
    rw [still, List.append_nil] at onward
    refine ⟨⟨?_, ?_, ?_, fun _ => ?_, sent, ?_, ?_, ?_⟩, fun other => absurd beacon other⟩
    · rw [next]
      exact count
    · rw [next]
      exact released
    · rw [next]
      exact interval
    · rw [brings]
      exact List.mem_append_right _ (List.mem_singleton.mpr rfl)
    · rw [next]
      exact onward
    · unfold symbolTurns at long ⊢
      omega
    · intro packet member
      rw [brings]
      exact (Fountain.offeredBy_snoc_announced _).symm ▸ offered packet member
  · have shows : display.tx.nextFrameAt crates rung.capacity =
        (.symbol ((display.tx.upcoming rung.capacity).encode crates), _) :=
      Transmitter.nextFramePacked_open display.tx _ released (mt due.mp beacon)
    have carries : carried crates ((display.tx.upcoming rung.capacity).encode crates) =
        (display.tx.upcoming rung.capacity).packets :=
      carried_symbol (Transmitter.upcoming_wellFormed (walked.same.sound sound) rung.capacity)
    have width := Transmitter.length_upcoming display.tx rung.capacity
    have least := (Transmitter.packetsAt_bounds rung.capacity display.tx.packetLen).1
    rw [← width] at least
    have streams : Transmitter.streamed crates [(.nextFrameAt rung.capacity,
        some (display.tx.nextFrameAt crates rung.capacity).1)] =
          (display.tx.upcoming rung.capacity).packets := by
      rw [shows, Transmitter.streamed, List.flatMap_singleton]
      exact carries
    rw [streams] at onward
    rw [show image crates (display.tx.nextFrameAt crates rung.capacity).1 =
      .offered {p | p ∈ (display.tx.upcoming rung.capacity).packets} by rw [shows, image, carries]] at brings
    refine ⟨⟨?_, ?_, ?_, fun started => ?_, _, next ▸ onward, ?_, ?_⟩, fun _ => ⟨_, brings⟩⟩
    · rw [next]
      exact turned.trans count
    · rw [next]
      exact held.trans released
    · rw [next]
      exact kept.trans interval
    · rw [brings]
      exact List.mem_append_left _ (announced (by omega))
    · rw [List.length_append]
      unfold symbolTurns at long ⊢
      omega
    · intro packet member
      rw [brings, Fountain.offeredBy_snoc_offered]
      exact (List.mem_append.mp member).imp (offered packet) id

theorem swept (clear : light.Clear) (scheduled : schedule ≠ []) (sound : Sound crates first.tx)
    {conf : TransmitConfig}
    (packs : first.tx.packetsPerFrame = Transmitter.packetsAt conf.frameCapacity first.tx.packetLen)
    (start : Swept crates light schedule first 0) (i : Nat) (early : i ≤ 2 ^ 32) :
    Swept crates light schedule first i := by
  induction i with
  | zero => exact start
  | succ i ih => exact ((ih (by omega)).step clear scheduled sound packs early).1

theorem swept_ready (clear : light.Clear) (scheduled : schedule ≠ []) (sound : Sound crates first.tx)
    {conf : TransmitConfig}
    (packs : first.tx.packetsPerFrame = Transmitter.packetsAt conf.frameCapacity first.tx.packetLen)
    (whole : code.Suffices {p | p ∈ first.tx.packets}) (start : Swept crates light schedule first 0)
    (i : Nat) (early : i ≤ 2 ^ 32) (enough : first.tx.packets.length ≤ symbolTurns i) :
    Fountain.WasReady code (past crates light schedule first i) := by
  induction i with
  | zero => exact absurd enough (Nat.not_le.mpr first.tx.cursor.pos)
  | succ i ih =>
      have before := swept clear scheduled sound packs start i (by omega)
      obtain ⟨after, symbols⟩ := before.step clear scheduled sound packs early
      by_cases beacon : i % 15 = 0
      · have was := ih (by omega) (by unfold symbolTurns at enough ⊢; omega)
        rw [past]
        cases arrival crates light schedule first i with
        | none => exact (List.append_nil _).symm ▸ was
        | some frame => exact (Fountain.wasReady_snoc code _ _).mpr (.inl was)
      · obtain ⟨packets, brings⟩ := symbols beacon
        obtain ⟨sent, walked, long, offered⟩ := after.walked
        rw [brings] at offered ⊢
        refine (Fountain.wasReady_snoc code _ _).mpr (.inr ⟨before.announced (by omega), ?_⟩)
        rw [← Fountain.offeredBy_snoc_offered]
        refine code.mono (fun packet member => offered packet ?_) whole
        exact (walked.rounds.opens (enough.trans long)).subset member

theorem swept_start : Swept crates light schedule (opening mode payload seed p nonce) 0 :=
  ⟨rfl, rfl, rfl, absurd rfl, [],
    ⟨.refl _, by simp [Rotation.Rounds], by simp [displayAt, opening, Transmitter.new]⟩, Nat.zero_le _,
    by simp⟩

variable (ladder light) in
/-- Where nothing is lost and the pool is no longer than the symbol frames of a run, every transfer is
delivered, and before its last turn fewer symbol frames are displayed than there are packets. -/
theorem transfer_clear (commutes : DiffieHellmanCommutes crates)
    (sendable : Sendable crates code (keysFor mode p).1 nonce (cfg mode p) payload)
    (scheduled : expand ladder ≠ []) (clear : light.Clear)
    (pool : (opening mode payload seed p nonce).tx.packets.length ≤ 373333) :
    ∃ i < turns, symbolTurns i < (opening mode payload seed p nonce).tx.packets.length ∧
      run mode payload ladder light seed p nonce = some (.ok (i + 1)) := by
  have carried := carried_start seed commutes sendable
  have packs : (opening mode payload seed p nonce).tx.packetsPerFrame =
      Transmitter.packetsAt (cfg mode p).frameCapacity (opening mode payload seed p nonce).tx.packetLen :=
    rfl
  have ready (i : Nat) (early : i ≤ turns)
      (enough : (opening mode payload seed p nonce).tx.packets.length ≤ symbolTurns i) :
      Fountain.WasReady code (past crates light (expand ladder) (opening mode payload seed p nonce) i) :=
    swept_ready clear scheduled carried.sound packs sendable.whole (swept_start seed) i
      (early.trans (by decide)) enough
  rcases (runs_start ladder light seed).loop carried scheduled turns with
    ⟨i, bound, completes, ended⟩ | ⟨never, -⟩
  · rw [Nat.zero_add] at bound
    obtain ⟨frame, -, fresh, -⟩ := completes
    exact ⟨i, bound, Nat.lt_of_not_le fun enough => fresh (ready i bound.le enough), ended⟩
  · rw [Nat.zero_add] at never
    exact absurd (ready turns le_rfl pool) never

theorem transfer_clear_sample : ∃ i < turns, symbolTurns i < 16 ∧
    run .seal samplePlaintext [rungQr] { pQr := 1, pC4 := 1, pC8 := 1 } 0xBEEF samplePeers sampleNonce =
      some (.ok (i + 1)) :=
  transfer_clear [rungQr] { pQr := 1, pC4 := 1, pC8 := 1 } 0xBEEF sample_commutes sendable_sample (by decide)
    ⟨le_rfl, le_rfl, le_rfl⟩ (by decide +kernel)

end Whole

end Rabaska.Harness
