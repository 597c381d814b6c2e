import Rabaska.PairingProofs
import Rabaska.StreamProofs

/-! Two devices face to face never wait for each other: from everything that can have happened, looks and
ticks lead on to a confirmed delivery. -/

namespace Rabaska.Shell

open Wire Crypto Pipeline Wasm

variable {crates : Crates} {code : Fountain.Code Bytes} {session : Session crates} {eph : KeyPair crates}
  {object payload : Bytes} {start : Send} {pairing : Pairing crates}
  {collector : Fountain.Collector Bytes} {fits : Qr.Fits}

theorem attains_step {Goal : Pairing crates → Prop} (event : Pairing.Event)
    (attains : Machine.Attains (Machine.total (Pairing.step fits)) Goal (pairing.step fits event).2) :
    Machine.Attains (Machine.total (Pairing.step fits)) Goal pairing :=
  attains.after (show Machine.total (Pairing.step fits) pairing event = some _ from rfl)

/-! Single looks, with the camera switched on before. -/

variable (fits) in
theorem Facing.watches (transfer : Transfer crates code session start.tx object payload)
    (facing : Facing code session eph object payload start pairing collector) {frame : Frame}
    (genuine : start.tx.Genuine crates frame) (painted : pairing.sender.shell.display = frame.bytes)
    (beacon : pairing.sender.display.send.tx.held = true → frame = .beacon start.tx.beaconBytes) :
    Machine.Attains (Machine.total (Pairing.step fits)) (fun next => next.sender = pairing.sender ∧
      Facing code session eph object payload start next
        (Fountain.step code collector (image crates frame)).2) pairing := by
  have open_eyed : Facing code session eph object payload start
      { pairing with receiver := { pairing.receiver with cameraOn := true } } collector :=
    ⟨facing.receives.switch true, facing.presents, facing.revealed, facing.delivered, facing.waiting⟩
  obtain ⟨r, next, looked, -, later⟩ := open_eyed.sees fits transfer rfl genuine painted beacon
  refine attains_step (.receiverCamera true) (attains_step (.receiverLooks true) ?_)
  rw [show ((pairing.step fits (.receiverCamera true)).2.step fits (.receiverLooks true)) = _ from looked]
  exact .here ⟨rfl, later⟩

def scanned (fits : Qr.Fits) (pairing : Pairing crates) : Pairing crates :=
  ((pairing.step fits (.senderCamera true)).2.step fits (.senderLooks true)).2

theorem Facing.scanned (transfer : Transfer crates code session start.tx object payload)
    (replies : Replies session eph payload start)
    (facing : Facing code session eph object payload start pairing collector) :
    ∃ collector, Facing code session eph object payload start (scanned fits pairing) collector := by
  obtain ⟨⟨middle, between⟩, -⟩ := facing.step fits transfer replies (.senderCamera true)
  exact (between.step fits transfer replies (.senderLooks true)).1

variable (fits) in
theorem scanned_sender (facing : Facing code session eph object payload start pairing collector)
    (unchecked : ∀ complete good, pairing.sender.phase ≠ .ended (.checked complete good)) :
    ∃ sender : Sending crates, Presents session eph payload start sender ∧
      sender.phase = pairing.sender.phase ∧ (sender.shell.stop || !sender.shell.cameraOn) = false ∧
      (scanned fits pairing).sender = sender.look (some pairing.receiver.display) :=
  ⟨{ pairing.sender with shell := { pairing.sender.shell with cameraOn := true } },
    (facing.presents.switch true).presents, rfl, by simp [(facing.presents.running unchecked).1], rfl⟩

theorem scanOneFrame_caught {shell : Receiving crates} (scanning : (shell.stop || !shell.cameraOn) = false)
    {want : UInt8} {code : Bytes} (mark : code[3]? = some want) :
    shell.scanOneFrame want (some code) = .caught code := by
  simp only [Receiving.scanOneFrame, scanning, Bool.false_eq_true, if_false]
  exact if_pos mark

/-! The handshake. -/

variable (code session eph object payload start) in
def Stands (phase : Phase) (pairing : Pairing crates) : Prop :=
  (∃ collector, Facing code session eph object payload start pairing collector) ∧
    pairing.sender.phase = phase

theorem Facing.reveals (transfer : Transfer crates code session start.tx object payload)
    (replies : Replies session eph payload start)
    (facing : Facing code session eph object payload start pairing collector)
    (phase : pairing.sender.phase = .revealing) :
    Machine.Attains (Machine.total (Pairing.step fits))
      (Stands code session eph object payload start .comparing) pairing := by
  obtain ⟨frame, genuine, painted, beacon⟩ := facing.presents.screen
  have held : pairing.sender.display.send.tx.held = true := by
    have now := facing.presents.phase
    rwa [phase] at now
  obtain rfl := beacon held
  refine (facing.watches fits transfer genuine painted beacon).trans fun next ⟨same, later⟩ => ?_
  have unfinished := later.waiting (by rw [same]; exact held)
  have known : next.receiver.recv.rx.beacon = some start.tx.beacon := by
    have running := facing.waiting held
    rw [facing.receives.tracks.done] at running
    have heard := Fountain.step_announced_heard code running
    have live := (later.receives.tracks.live unfinished).beacon
    rw [live]
    exact if_pos heard
  have display : next.receiver.display = session.reveal := by
    rw [(later.receives.acquired _ known).2.2, if_neg (by simp [unfinished])]
  have unchecked : ∀ complete good, next.sender.phase ≠ .ended (.checked complete good) := by
    simp [same, phase]
  obtain ⟨sender, presents, at_phase, scanning, scans⟩ := scanned_sender fits later unchecked
  refine attains_step (.senderCamera true) (attains_step (.senderLooks true)
    (.here ⟨later.scanned transfer replies, ?_⟩))
  change (Shell.scanned fits next).sender.phase = _
  rw [scans, display, Sending.look, at_phase, same, phase]
  dsimp only
  rw [scanOneFrame_caught scanning (mark_reveal session)]
  exact congrArg Sending.phase (takeReveal_own replies presents)

theorem Facing.confirms (transfer : Transfer crates code session start.tx object payload)
    (replies : Replies session eph payload start)
    (facing : Facing code session eph object payload start pairing collector)
    (phase : pairing.sender.phase = .comparing) :
    Machine.Attains (Machine.total (Pairing.step fits))
      (Stands code session eph object payload start .completing) pairing := by
  obtain ⟨-, digits, -⟩ : AtPhase session start pairing.sender .comparing := phase ▸ facing.presents.phase
  obtain ⟨⟨middle, between⟩, -⟩ := facing.step fits transfer replies (.senderCamera true)
  refine attains_step (.senderCamera true) (attains_step .confirm
    (.here ⟨(between.step fits transfer replies .confirm).1, ?_⟩))
  simp [Pairing.step, Sending.confirm, phase, Send.release, digits, Sending.awaitComplete]

theorem Facing.checks (transfer : Transfer crates code session start.tx object payload)
    (replies : Replies session eph payload start)
    (facing : Facing code session eph object payload start pairing collector)
    (phase : pairing.sender.phase = .completing) (done : pairing.receiver.recv.rx.done = true) :
    Machine.Attains (Machine.total (Pairing.step fits))
      (Stands code session eph object payload start
        (.ended (.checked (confirmation crates start.tx payload) true))) pairing := by
  have known : pairing.receiver.recv.rx.beacon = some start.tx.beacon := by
    refine facing.receives.beacon.resolve_left fun unknown => ?_
    exact absurd (done.symm.trans (facing.receives.resting unknown).1) (by simp)
  have display : pairing.receiver.display = confirmation crates start.tx payload := by
    rw [(facing.receives.acquired _ known).2.2, if_pos done]
  obtain ⟨sender, presents, at_phase, scanning, scans⟩ :=
    scanned_sender fits facing (by simp [phase])
  refine attains_step (.senderCamera true) (attains_step (.senderLooks true)
    (.here ⟨facing.scanned transfer replies, ?_⟩))
  change (Shell.scanned fits pairing).sender.phase = _
  rw [scans, display, Sending.look, at_phase, phase]
  dsimp only
  rw [scanOneFrame_caught scanning (mark_confirmation start.tx payload)]
  exact presents.takeComplete.2

/-! The display of a released sender. -/

structure Released (sending : Sending crates) : Prop where
  open_handed : sending.display.send.tx.held = false
  ticking : sending.ticking = true
  running : sending.shell.stop = false

def cursor (pairing : Pairing crates) : Nat := pairing.sender.display.send.tx.cursor.val

def Offers (crates : Crates) (tx : Transmitter) (base : Nat) (bytes : Bytes) (count : Nat) : Prop :=
  tx.Genuine crates (.symbol bytes) ∧ ∀ offset < count, ∀ packet,
    tx.packets[(base + offset) % tx.packets.length]? = some packet → packet ∈ carried crates bytes

variable (code session eph object payload start collector pairing) in
structure Ticked (next : Pairing crates) : Prop where
  facing : Facing code session eph object payload start next collector
  released : Released next.sender
  receiver : next.receiver = pairing.receiver
  phase : next.sender.phase = pairing.sender.phase

variable (start pairing) in
def OnScreen (next : Pairing crates) : Prop :=
  ∃ count, 1 ≤ count ∧ Offers crates start.tx (cursor pairing) next.sender.shell.display count ∧
    cursor next = (cursor pairing + count) % start.tx.packets.length

theorem offers_next {tx : Transmitter} (sound : Sound crates start.tx)
    (same : Transmitter.SameObject start.tx tx) (released : tx.held = false)
    (early : tx.frameId % tx.beaconInterval ≠ 0) (capacity : Nat) :
    Offers crates start.tx tx.cursor.val (tx.nextFrameAt crates capacity).1.bytes
        (Transmitter.packetsAt capacity tx.packetLen) ∧
      (tx.nextFrameAt crates capacity).2.cursor.val =
        (tx.cursor.val + Transmitter.packetsAt capacity tx.packetLen) % start.tx.packets.length := by
  have wellFormed := Transmitter.upcoming_wellFormed (same.sound sound) capacity
  have genuine := same.genuine (@Transmitter.nextFrameAt_genuine crates tx capacity)
  rw [Transmitter.nextFrameAt] at genuine ⊢
  rw [Transmitter.nextFramePacked_open _ _ released early] at genuine ⊢
  refine ⟨⟨genuine, fun offset bound packet found => ?_⟩, ?_⟩
  · rw [← same.packets] at found
    change packet ∈ carried crates ((tx.upcoming capacity).encode crates)
    rw [carried_symbol wellFormed]
    exact (Transmitter.mem_chunk_iff tx.cursor _ packet).mpr ⟨offset, bound, found⟩
  · rw [← same.packets]
    exact Transmitter.chunk_cursor _ _ _

variable (fits) in
theorem Ticked.tick (facing : Facing code session eph object payload start pairing collector)
    (released : Released pairing.sender) :
    Ticked code session eph object payload start pairing collector (pairing.step fits .tick).2 ∧
      (pairing.step fits .tick).2.sender.display.send.tx.frameId =
        pairing.sender.display.send.tx.frameId + 1 := by
  obtain ⟨capacity, ticked⟩ := @tick_running crates pairing.sender fits released.ticking released.running
  have shape : (pairing.step fits .tick).2.sender = pairing.sender.tick fits := rfl
  obtain ⟨held, counted, -⟩ := Transmitter.nextFramePacked_flags crates pairing.sender.display.send.tx
    (Transmitter.packetsAt capacity pairing.sender.display.send.tx.packetLen)
  refine ⟨⟨facing.sender facing.presents.tick (by simp), ?_, rfl, ?_⟩, ?_⟩
  · rw [shape, ticked]
    exact ⟨held.trans released.open_handed, released.ticking, released.running⟩
  · rw [shape, ticked]
  · rw [shape, ticked]
    exact counted

variable (fits) in
theorem tick_shows (facing : Facing code session eph object payload start pairing collector)
    (sound : Sound crates start.tx) (released : Released pairing.sender) :
    if pairing.sender.display.send.tx.frameId % 15 = 0 then
      cursor (pairing.step fits .tick).2 = cursor pairing
    else OnScreen start pairing (pairing.step fits .tick).2 := by
  obtain ⟨capacity, ticked⟩ := @tick_running crates pairing.sender fits released.ticking released.running
  have shape : (pairing.step fits .tick).2.sender = pairing.sender.tick fits := rfl
  split
  · rename_i due
    rw [cursor, shape, ticked]
    dsimp only
    rw [Transmitter.nextFrameAt, Transmitter.nextFramePacked_due _ _
      (by rw [facing.presents.interval]; exact due)]
    rfl
  · rename_i early
    obtain ⟨offers, moved⟩ := offers_next sound facing.presents.object released.open_handed
      (by rw [facing.presents.interval]; exact early) capacity
    rw [OnScreen, cursor, cursor, shape, ticked]
    exact ⟨_, (Transmitter.packetsAt_bounds capacity _).1, offers, moved⟩

variable (fits) in
theorem Facing.beat (facing : Facing code session eph object payload start pairing collector)
    (sound : Sound crates start.tx) (released : Released pairing.sender) :
    Machine.Attains (Machine.total (Pairing.step fits)) (fun next =>
      Ticked code session eph object payload start pairing collector next ∧ OnScreen start pairing next)
      pairing := by
  have turn (now : Pairing crates)
      (ticked : Ticked code session eph object payload start pairing collector now)
      (stays : cursor now = cursor pairing)
      (later : now.sender.display.send.tx.frameId % 15 = 0 → ∀ next,
        Ticked code session eph object payload start pairing collector next →
        cursor next = cursor pairing →
        next.sender.display.send.tx.frameId = now.sender.display.send.tx.frameId + 1 →
        Machine.Attains (Machine.total (Pairing.step fits)) (fun next =>
          Ticked code session eph object payload start pairing collector next ∧ OnScreen start pairing next)
          next) :
      Machine.Attains (Machine.total (Pairing.step fits)) (fun next =>
        Ticked code session eph object payload start pairing collector next ∧ OnScreen start pairing next)
        now := by
    obtain ⟨⟨facing', released', receiver, phase⟩, counted⟩ :=
      Ticked.tick fits ticked.facing ticked.released
    have ticked' : Ticked code session eph object payload start pairing collector
        (now.step fits .tick).2 :=
      ⟨facing', released', receiver.trans ticked.receiver, phase.trans ticked.phase⟩
    have shows := tick_shows fits ticked.facing sound ticked.released
    by_cases due : now.sender.display.send.tx.frameId % 15 = 0
    · rw [if_pos due] at shows
      exact attains_step .tick (later due _ ticked' (shows.trans stays) counted)
    · rw [if_neg due, OnScreen, stays] at shows
      exact attains_step .tick (.here ⟨ticked', shows⟩)
  refine turn pairing ⟨facing, released, rfl, rfl⟩ rfl fun first next ticked stays one => ?_
  refine turn next ticked stays fun second last ticked stays two => ?_
  refine turn last ticked stays fun third => ?_
  rw [one] at second two
  rw [two] at third
  exact absurd third (Send.three_counts first second)

/-! What the receiver gathers. -/

variable (code session eph object payload start) in
/-- The receiver is done, or has gathered so many packets from a position on beside what it had. -/
def Reaped (base count : Nat) (had : Set Bytes) (phase : Phase) (pairing : Pairing crates) : Prop :=
  ∃ collector, Facing code session eph object payload start pairing collector ∧
    Released pairing.sender ∧ pairing.sender.phase = phase ∧
    (pairing.receiver.recv.rx.done = true ∨ had ⊆ collector.gathered ∧ ∀ offset < count, ∀ packet,
      start.tx.packets[(base + offset) % start.tx.packets.length]? = some packet →
        packet ∈ collector.gathered)

variable (fits) in
theorem Facing.reap (transfer : Transfer crates code session start.tx object payload)
    (facing : Facing code session eph object payload start pairing collector)
    (released : Released pairing.sender) :
    Machine.Attains (Machine.total (Pairing.step fits)) (fun next => ∃ count packets, 1 ≤ count ∧
      Facing code session eph object payload start next
        (Fountain.step code collector (.offered packets)).2 ∧
      Released next.sender ∧ next.sender.phase = pairing.sender.phase ∧
      cursor next = (cursor pairing + count) % start.tx.packets.length ∧
      ∀ offset < count, ∀ packet,
        start.tx.packets[(cursor pairing + offset) % start.tx.packets.length]? = some packet →
          packet ∈ packets) pairing := by
  refine (facing.beat fits transfer.sound released).trans ?_
  rintro next ⟨⟨facing', released', receiver, phase⟩, count, least, ⟨genuine, carries⟩, moved⟩
  refine (facing'.watches fits transfer genuine rfl fun held => ?_).mono ?_
  · exact absurd (held.symm.trans released'.open_handed) (by simp)
  · rintro last ⟨same, later⟩
    refine ⟨count, _, least, later, same ▸ released', same ▸ phase, ?_, carries⟩
    rw [cursor, same]
    exact moved

theorem gathered_offered {collector : Fountain.Collector Bytes} (running : collector.done = false)
    (packets : Set Bytes) : (Fountain.step code collector (.offered packets)).2.gathered =
      collector.gathered ∪ packets := by
  cases heard : collector.acquired with
  | false => rw [Fountain.step_offered_early code packets running heard]
  | true =>
      by_cases enough : code.Suffices (collector.gathered ∪ packets)
      · rw [Fountain.step_offered_enough code running heard enough]
      · rw [Fountain.step_offered_lacking code running heard enough]

variable (fits) in
theorem Facing.sweep (transfer : Transfer crates code session start.tx object payload) (count : Nat)
    (facing : Facing code session eph object payload start pairing collector)
    (released : Released pairing.sender) :
    Machine.Attains (Machine.total (Pairing.step fits))
      (Reaped code session eph object payload start (cursor pairing) count collector.gathered
        pairing.sender.phase) pairing := by
  -- Each frame brings at least one packet, and the rest is counted from where it ends.
  induction count generalizing pairing collector with
  | zero => exact .here ⟨collector, facing, released, rfl, .inr ⟨subset_rfl, by simp⟩⟩
  | succ count ih =>
      cases running : pairing.receiver.recv.rx.done with
      | true => exact .here ⟨collector, facing, released, rfl, .inl running⟩
      | false =>
          refine (facing.reap fits transfer released).trans ?_
          rintro next ⟨width, packets, least, facing', released', phase, moved, carries⟩
          have idle := facing.receives.tracks.done.symm.trans running
          refine (ih facing' released').mono ?_
          rintro last ⟨collector', facing'', released'', phase', reaped⟩
          refine ⟨collector', facing'', released'', phase'.trans phase, reaped.imp_right ?_⟩
          rw [gathered_offered idle, moved]
          rintro ⟨kept, rest⟩
          refine ⟨subset_trans Set.subset_union_left kept, fun offset bound packet found => ?_⟩
          by_cases now : offset < width
          · exact kept (.inr (carries offset now packet found))
          · refine rest (offset - width) (by omega) packet ?_
            rw [Nat.mod_add_mod, show cursor pairing + width + (offset - width) =
              cursor pairing + offset by omega]
            exact found

theorem Facing.delivers (transfer : Transfer crates code session start.tx object payload)
    (whole : code.Suffices {p | p ∈ start.tx.packets})
    (facing : Facing code session eph object payload start pairing collector)
    (released : Released pairing.sender) :
    Machine.Attains (Machine.total (Pairing.step fits)) (fun next =>
      Stands code session eph object payload start pairing.sender.phase next ∧
        next.receiver.recv.rx.done = true) pairing := by
  refine (facing.sweep fits transfer start.tx.packets.length released).trans ?_
  rintro next ⟨collector', facing', released', phase, reaped⟩
  cases running : next.receiver.recv.rx.done with
  | true => exact .here ⟨⟨⟨collector', facing'⟩, phase⟩, running⟩
  | false =>
      have idle := facing'.receives.tracks.done.symm.trans running
      have heard : collector'.acquired = true := by
        have known := facing'.revealed (facing'.presents.confirmed released'.open_handed)
        rw [(facing'.receives.tracks.live running).beacon] at known
        by_contra unheard
        simp [unheard] at known
      have all : {p | p ∈ start.tx.packets} ⊆ collector'.gathered := by
        intro packet member
        obtain ⟨index, bound, found⟩ := List.getElem_of_mem member
        obtain ⟨offset, ahead, reached⟩ := Rotation.place_ahead (cursor pairing) bound
        refine (reaped.resolve_left (by simp [running])).2 offset ahead packet ?_
        rw [reached, List.getElem?_eq_getElem bound, found]
      refine (facing'.reap fits transfer released').mono ?_
      rintro last ⟨count, packets, -, facing'', -, phase', -, -⟩
      refine ⟨⟨⟨_, facing''⟩, phase'.trans phase⟩, facing''.receives.tracks.done.trans ?_⟩
      rw [Fountain.step_offered_enough code idle heard
        (code.mono (subset_trans all Set.subset_union_left) whole)]

/-! The whole way. -/

theorem released_of_completing
    (facing : Facing code session eph object payload start pairing collector)
    (phase : pairing.sender.phase = .completing) : Released pairing.sender := by
  have held : AtPhase session start pairing.sender .completing := phase ▸ facing.presents.phase
  obtain ⟨running, ticking⟩ := facing.presents.running (by simp [phase])
  exact ⟨held, ticking, running⟩

variable (fits) in
theorem Facing.completes (transfer : Transfer crates code session start.tx object payload)
    (replies : Replies session eph payload start) (whole : code.Suffices {p | p ∈ start.tx.packets})
    (facing : Facing code session eph object payload start pairing collector)
    (scanning : ∀ ending, pairing.sender.phase ≠ .ended ending) :
    Machine.Attains (Machine.total (Pairing.step fits))
      (Stands code session eph object payload start
        (.ended (.checked (confirmation crates start.tx payload) true))) pairing := by
  have completing (now : Pairing crates)
      (stands : Stands code session eph object payload start .completing now) :
      Machine.Attains (Machine.total (Pairing.step fits))
        (Stands code session eph object payload start
          (.ended (.checked (confirmation crates start.tx payload) true))) now := by
    obtain ⟨⟨collector, facing⟩, phase⟩ := stands
    refine (facing.delivers transfer whole (released_of_completing facing phase)).trans ?_
    rintro next ⟨⟨⟨collector', facing'⟩, phase'⟩, done⟩
    exact facing'.checks transfer replies (phase'.trans phase) done
  have comparing (now : Pairing crates)
      (stands : Stands code session eph object payload start .comparing now) :
      Machine.Attains (Machine.total (Pairing.step fits))
        (Stands code session eph object payload start
          (.ended (.checked (confirmation crates start.tx payload) true))) now := by
    obtain ⟨⟨collector, facing⟩, phase⟩ := stands
    exact (facing.confirms transfer replies phase).trans completing
  cases phase : pairing.sender.phase with
  | revealing => exact (facing.reveals transfer replies phase).trans comparing
  | comparing => exact comparing pairing ⟨⟨collector, facing⟩, phase⟩
  | completing => exact completing pairing ⟨⟨collector, facing⟩, phase⟩
  | ended ending => exact absurd phase (scanning ending)

section Answered

variable {identity : Option (KeyPair crates)} {buildHash : Bytes} {frameCapacity : Nat}
  {ephSecret : Octets 32} {nonce : Octets 24}

/-- No deadlock: whatever has been looked at, missed, switched and tapped so far, as long as the sender
is still scanning there are looks, ticks and a tap that end with the delivery confirmed, and once the
payload is released there are looks and ticks that deliver it even if the sender scans no more. -/
theorem pairing_completes (commutes : DiffieHellmanCommutes crates)
    (sendable : Sendable crates code (sentKey session ephSecret) nonce
      (sentCfg session identity buildHash frameCapacity ephSecret) payload)
    (replied : Send.reply crates session.pairReq payload identity none buildHash frameCapacity ephSecret
      nonce = some (.ok start))
    {shell : Receiving crates} (running : shell.stop = false)
    {trace : List (Pairing.Event × Option IngestResult)} {now : Pairing crates}
    (run : Machine.Run (Machine.total (Pairing.step fits)) (Pairing.facing fits session shell start)
      trace now) :
    ((∀ ending, now.sender.phase ≠ .ended ending) → ∃ more final,
      Machine.Run (Machine.total (Pairing.step fits)) now more final ∧
        ∃ complete, final.sender.phase = .ended (.checked complete true)) ∧
    (now.sender.display.send.tx.held = false → ∃ more final,
      Machine.Run (Machine.total (Pairing.step fits)) now more final ∧
        ∃ event r, (event, some r) ∈ trace ++ more ∧ r.kind = .done ∧ r.payload = some payload) := by
  obtain rfl := Except.ok.inj (Option.some_inj.mp
    (replied.symm.trans (Send.reply_encoded session.request payload identity buildHash frameCapacity
      ephSecret nonce)))
  have transfer := transfer_pairSend commutes sendable
  obtain ⟨collector, facing⟩ := (run_met transfer replies_pairSend running run).facing
  refine ⟨fun scanning => ?_, fun released => ?_⟩
  · obtain ⟨more, final, onward, -, phase⟩ :=
      facing.completes fits transfer replies_pairSend sendable.whole scanning
    exact ⟨more, final, onward, _, phase⟩
  · obtain ⟨more, final, onward, done⟩ : Machine.Attains (Machine.total (Pairing.step fits))
        (fun next => next.receiver.recv.rx.done = true) now := by
      by_cases checked : ∃ complete good, now.sender.phase = .ended (.checked complete good)
      · obtain ⟨complete, good, ended⟩ := checked
        exact .here (facing.delivered complete good ended)
      · obtain ⟨going, ticking⟩ := facing.presents.running fun complete good ended =>
          checked ⟨complete, good, ended⟩
        exact (facing.delivers transfer sendable.whole ⟨released, ticking, going⟩).mono fun _ => And.right
    exact ⟨more, final, onward,
      (run_met transfer replies_pairSend running (run.append onward)).told done⟩

def stalledEvents : List Pairing.Event :=
  [.receiverLooks true, .senderLooks true, .receiverCamera false, .confirm, .senderLooks false]

set_option maxRecDepth 100000 in
theorem pairing_completes_sample : ∃ trace now more final,
    Machine.Run (Machine.total (Pairing.step sampleFits)) samplePairing trace now ∧
      trace.map Prod.fst = stalledEvents ∧
      Machine.Run (Machine.total (Pairing.step sampleFits)) now more final ∧
        ∃ complete, final.sender.phase = .ended (.checked complete true) := by
  obtain ⟨trace, now, run, inputs, -⟩ := Machine.run_of_view
    (Machine.total (Pairing.step sampleFits)) samplePairing stalledEvents
    (Option.map IngestResult.kind) [some .beacon, none, none, none, none] (by decide +kernel)
  have computed : (Machine.execute (Machine.total (Pairing.step sampleFits)) samplePairing
      stalledEvents).map (fun result => result.2.sender.phase) = some .completing := by decide +kernel
  rw [← inputs, run.executes] at computed
  have completing : now.sender.phase = .completing := Option.some_inj.mp computed
  obtain ⟨more, final, onward, ended⟩ := (pairing_completes sample_commutes sendable_sample
    Send.sample_replied rfl run).1 (by simp [completing])
  exact ⟨trace, now, more, final, run, inputs, onward, ended⟩

end Answered

end Rabaska.Shell
