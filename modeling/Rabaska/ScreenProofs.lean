import Rabaska.InterceptionProofs
import Rabaska.RenderProofs
import Rabaska.StreamProofs

/-! What is on the screens: every code that either device is to show can be drawn. -/

namespace Rabaska

open Wire Pipeline Wasm

variable {crates : Crates}

namespace Qr

/-- `encode_binary` draws what some version has room for, in a code no larger than those of version 40. -/
structure Draws (fits : Fits) (encodeBinary : Bytes → Ecc → Option QrCode) : Prop where
  draws : ∀ data ecc version, 1 ≤ version → version ≤ 40 → fits data.length version ecc = true →
    (encodeBinary data ecc).isSome
  size : ∀ data ecc code, encodeBinary data ecc = some code → code.size ≤ 177

/-- The largest scale at which every code has fewer than 2 ^ 31 pixels. -/
def maxScale : Nat := 250

theorem Draws.renderQr {fits : Fits} {encodeBinary : Bytes → Ecc → Option QrCode}
    (draws : Draws fits encodeBinary) {data : Bytes} {ecc : UInt8} (version : UInt8) (least : 1 ≤ version)
    (most : version ≤ 40) (room : fits data.length version (level ecc) = true) {scale : Nat}
    (small : scale ≤ maxScale) : ∃ drawn, renderQr encodeBinary data ecc scale = .ok drawn := by
  obtain ⟨code, encoded⟩ :=
    Option.isSome_iff_exists.mp (draws.draws data (level ecc) version least most room)
  have wide : code.side scale 4 ≤ 185 * 250 :=
    Nat.mul_le_mul (Nat.add_le_add_right (draws.size _ _ code encoded) 8) small
  have holds : code.Fits 32 scale 4 := Nat.lt_of_le_of_lt (Nat.mul_le_mul wide wide) (by decide)
  obtain ⟨drawn, rendered, -⟩ := encodeLuma_exact encoded holds
  exact ⟨drawn, by rw [Qr.renderQr, rendered]⟩

end Qr

namespace Shell

/-- The largest code of the level that everything but symbols is shown at. -/
structure Tables (fits : Qr.Fits) : Prop extends Capacities fits where
  high : ∀ len, fits len 40 .high = true ↔ len ≤ 1273

/-! The receiving screen. -/

theorem length_pairReq (session : Session crates) : session.pairReq.length = 69 := by
  simp [Session.pairReq, PairReq.encode]

theorem length_reveal (session : Session crates) : session.reveal.length = 28 := by
  simp [Session.reveal, Reveal.encode]

theorem length_complete {recv : Receive crates} {plaintext complete : Bytes} {ok : Bool}
    (shown : recv.completeFrame plaintext ok = some complete) : complete.length = 21 := by
  obtain ⟨b, -, rfl⟩ := Option.map_eq_some_iff.mp shown
  simp [Complete.encode]

theorem heed_display (shell : Receiving crates) (r : IngestResult) (short : shell.display.length ≤ 1273) :
    (shell.heed r).display.length ≤ 1273 := by
  unfold Receiving.heed
  split
  · split
    · split
      · rw [Receiving.showSas, Receive.sessionReveal, length_reveal]
        omega
      · exact short
    · exact short
  · split
    · unfold Receiving.finish
      split
      · rename_i shown
        rw [length_complete shown]
        omega
      · exact short
    · exact short
  · split
    · exact short
    · exact short
  · exact short

theorem onFrame_display (shell : Receiving crates) (found : Option Bytes)
    (short : shell.display.length ≤ 1273) : (shell.onFrame found).display.length ≤ 1273 := by
  have watches := onFrame_watches shell found
  generalize shell.onFrame found = next, shell.heard found = said at *
  cases watches with
  | blind => exact short
  | flipped => exact short
  | trapped => exact short
  | told frame r recv ingested => exact heed_display _ r short

/-! The sending screen. -/

theorem made_object {making : Making crates} {payload : Bytes} {scanned : Option Bytes} {start : Send}
    (made : making.beSender (some payload) scanned = .ok start) :
    ∃ key nonce cfg, Transmitter.SameObject (Transmitter.new crates key nonce cfg payload) start.tx := by
  unfold Making.beSender at made
  split at made
  · simp at made
  · simp at made
  · rename_i identity given same
    obtain rfl := Option.some_inj.mp same
    split at made
    · obtain rfl := Except.ok.inj made
      exact ⟨_, _, _, Transmitter.SameObject.refl _⟩
    · split at made
      · simp at made
      · simp at made
      · rename_i send replied
        obtain rfl := Except.ok.inj made
        obtain ⟨req, -, rfl | ⟨-, peer, -⟩⟩ := Send.reply_cases replied
        · exact ⟨_, _, _, rfl, rfl, rfl, rfl, rfl⟩
        · exact absurd rfl peer

/-- Packets as `raptorq` makes them of the default symbol size. -/
def Sized (packets : List Bytes) : Prop :=
  (∀ p ∈ packets, p.length = 324) ∨ ∀ p ∈ packets, p.length = 325

theorem made_sound {making : Making crates} {payload : Bytes} {scanned : Option Bytes} {start : Send}
    (made : making.beSender (some payload) scanned = .ok start) (sized : Sized start.tx.packets) :
    Sound crates start.tx ∧ (start.tx.packetLen = 324 ∨ start.tx.packetLen = 325) := by
  obtain ⟨key, nonce, cfg, same⟩ := made_object made
  have pool : start.tx.packets = (Transmitter.encoded crates key nonce cfg payload).packets := same.packets
  rw [pool] at sized
  rw [same.packetLen]
  rcases sized with sized | sized
  · refine ⟨same.sound (sound_new ⟨324, by omega, by omega, sized⟩), .inl ?_⟩
    exact UInt16.toNat_inj.mp (Transmitter.new_packetLen (by decide) sized)
  · refine ⟨same.sound (sound_new ⟨325, by omega, by omega, sized⟩), .inr ?_⟩
    exact UInt16.toNat_inj.mp (Transmitter.new_packetLen (by decide) sized)

theorem nextFrame_cases (send : Send) (capacity : Nat) :
    (send.nextFrame crates capacity).1 = { robust := true, bytes := send.tx.beaconBytes } ∨
      (send.nextFrame crates capacity).1 =
        { robust := false, bytes := (send.tx.upcoming capacity).encode crates } := by
  rw [Send.nextFrame, Transmitter.nextFrameAt]
  by_cases held : send.tx.held = true
  · rw [Transmitter.nextFramePacked_held send.tx _ held]
    exact .inl rfl
  by_cases due : send.tx.frameId % send.tx.beaconInterval = 0
  · rw [Transmitter.nextFramePacked_due send.tx _ due]
    exact .inl rfl
  rw [Transmitter.nextFramePacked_open send.tx _ (Bool.eq_false_iff.mpr held) due]
  exact .inr rfl

theorem tick_ecc (display : Display) (fits : Qr.Fits) :
    (display.tick crates fits).1.ecc =
      if (display.tick crates fits).1.frame.robust then beaconEcc else (rungAt display.i).ecc := rfl

theorem rung_room {fits : Qr.Fits} (tables : Tables fits) (i : Nat) :
    let capacity := Qr.qrCapacity fits (rungAt i).version (rungAt i).ecc
    997 ≤ capacity ∧ ∀ len, len ≤ capacity →
      fits len (rungAt i).version (Qr.level (rungAt i).ecc) = true ∧ 1 ≤ (rungAt i).version ∧
        (rungAt i).version ≤ 40 := by
  rcases rungAt_cases i with ⟨rung, -⟩ | ⟨rung, -⟩ | ⟨rung, -⟩
  · rw [rung, v40L, tables.dense_eq]
    exact ⟨by omega, fun len short => ⟨(tables.dense len).mpr short, by decide, by decide⟩⟩
  · rw [rung, v30M, tables.middle_eq]
    exact ⟨by omega, fun len short => ⟨(tables.middle len).mpr short, by decide, by decide⟩⟩
  · rw [rung, v25M, tables.robust_eq]
    exact ⟨by omega, fun len short => ⟨(tables.robust len).mpr short, by decide, by decide⟩⟩

/-- What a tick shows: a beacon at the level of beacons, or a symbol frame that its rung has room for. -/
theorem tick_shown {fits : Qr.Fits} (tables : Tables fits) {display : Display} {start : Transmitter}
    (sound : Sound crates start) (size : start.packetLen = 324 ∨ start.packetLen = 325)
    (object : Transmitter.SameObject start display.send.tx) :
    let shown := (display.tick crates fits).1
    (shown.frame.robust = true ∧ shown.frame.bytes.length = beaconLen ∧ shown.ecc = beaconEcc) ∨
      (shown.frame.robust = false ∧ shown.ecc = shown.rung.ecc ∧ 1 ≤ shown.rung.version ∧
        shown.rung.version ≤ 40 ∧
        fits shown.frame.bytes.length shown.rung.version (Qr.level shown.rung.ecc) = true) := by
  obtain ⟨floor, room⟩ := rung_room tables display.i
  have still := object.sound sound
  generalize packs : Qr.qrCapacity fits (rungAt display.i).version (rungAt display.i).ecc = capacity at *
  have frame : (display.tick crates fits).1.frame = (display.send.nextFrame crates capacity).1 := by
    rw [← packs]
    rfl
  rcases @nextFrame_cases crates display.send capacity with robust | dense
  · refine .inl ⟨by rw [frame, robust], ?_, ?_⟩
    · rw [frame, robust, still.encodes]
      simp [Beacon.encode, beaconLen]
    · rw [tick_ecc, frame, robust]
      rfl
  · have wellFormed := Transmitter.upcoming_wellFormed still capacity
    have wide : symbolOverhead + display.send.tx.packetLen.toNat ≤ capacity := by
      have small : display.send.tx.packetLen.toNat ≤ 325 := by
        rw [object.packetLen]
        rcases size with len | len <;> rw [len] <;> decide
      have overhead : symbolOverhead = 19 := rfl
      omega
    have short := (@packed_full crates _ _ wellFormed
      (Transmitter.length_upcoming display.send.tx capacity) wide).1
    obtain ⟨fit, least, most⟩ := room _ short
    refine .inr ⟨by rw [frame, dense], ?_, least, most, by rw [frame, dense]; exact fit⟩
    rw [tick_ecc, frame, dense]
    rfl

/-! Both screens, whoever stands between them. -/

/-- The receiver shows short codes, and the sender goes on with the object it began with. -/
structure Screened (start : Send) (pairing : Pairing crates) : Prop where
  short : pairing.receiver.display.length ≤ 1273
  object : Transmitter.SameObject start.tx pairing.sender.display.send.tx

theorem tick_object {fits : Qr.Fits} (sending : Sending crates) :
    Transmitter.SameObject sending.display.send.tx (sending.tick fits).display.send.tx := by
  by_cases ticking : sending.ticking = true
  swap
  · rw [Sending.tick, if_pos (by simpa using ticking)]
    exact .refl _
  by_cases stopped : sending.shell.stop = true
  · rw [Sending.tick, if_neg (by simpa using ticking), if_pos stopped]
    exact .refl _
  obtain ⟨capacity, ticked⟩ := @tick_running crates sending fits ticking (by simpa using stopped)
  rw [ticked]
  exact Transmitter.nextFramePacked_same crates _ _

theorem confirm_object (sending : Sending crates) :
    Transmitter.SameObject sending.display.send.tx sending.confirm.display.send.tx := by
  unfold Sending.confirm
  split
  · split
    · exact .refl _
    · rename_i send released
      unfold Send.release at released
      split at released
      · simp at released
      · obtain rfl := (Prod.mk.inj released).2
        exact ⟨rfl, rfl, rfl, rfl, rfl⟩
  · exact .refl _

theorem Screened.step {fits : Qr.Fits} {start : Send} {pairing : Pairing crates}
    (screened : Screened start pairing) (event : Pairing.Contact) :
    Screened start (pairing.contact fits event).2 := by
  obtain ⟨short, object⟩ := screened
  cases event with
  | tick => exact ⟨short, object.trans (tick_object _)⟩
  | receiverLooks found => exact ⟨onFrame_display _ found short, object⟩
  | senderLooks found =>
      refine ⟨short, ?_⟩
      simp only [Pairing.contact, look_held]
      exact object
  | compare =>
      refine ⟨short, ?_⟩
      simp only [Pairing.contact]
      split
      · exact object.trans (confirm_object _)
      · exact object
  | receiverCamera on => exact ⟨short, object⟩
  | senderCamera on => exact ⟨short, object⟩

variable {fits : Qr.Fits} {encodeBinary : Bytes → Qr.Ecc → Option Qr.QrCode} {session : Session crates}
  {saved : Option (Octets 4 × List Bytes)} {cameraOn : Bool} {making : Making crates} {payload : Bytes}
  {scanned : Option Bytes} {start : Send} {shell : Receiving crates}

theorem start_screened (fits : Qr.Fits) (shell : Receiving crates) (start : Send) :
    Screened start
      { receiver := beReceiver session saved cameraOn, sender := Sending.start fits shell start } := by
  have shown : (beReceiver session saved cameraOn).display.length = 69 := length_pairReq session
  refine ⟨by dsimp only; omega, ?_⟩
  have begun := @tick_object crates fits
    { shell, display := beSender start, ticking := true, phase := .revealing }
  have scans (sending : Sending crates) : sending.scans.display = sending.display := by
    unfold Sending.scans
    split
    · rfl
    · rfl
  rw [Sending.start, scans]
  exact begun

/-- Whatever either device is shown or does, every code that it is to show next can be drawn: the
receiver's at the level of beacons, and what a tick shows at the level it is shown at, at any scale up to
the largest; and no symbol frame is larger than the version of its rung. -/
theorem screens_drawn (tables : Tables fits) (draws : Qr.Draws fits encodeBinary)
    (made : making.beSender (some payload) scanned = .ok start) (sized : Sized start.tx.packets)
    {trace : List (Pairing.Contact × Option IngestResult)} {final : Pairing crates}
    (run : Machine.Run (Machine.total (Pairing.contact fits))
      { receiver := beReceiver session saved cameraOn, sender := Sending.start fits shell start } trace
      final) {scale : Nat} (small : scale ≤ Qr.maxScale) :
    (∃ drawn, Qr.renderQr encodeBinary final.receiver.display beaconEcc scale = .ok drawn) ∧
    let shown := (final.sender.display.tick crates fits).1
    (∃ drawn, Qr.renderQr encodeBinary shown.frame.bytes shown.ecc scale = .ok drawn) ∧
    (shown.frame.robust = false →
      fits shown.frame.bytes.length shown.rung.version (Qr.level shown.rung.ecc) = true) := by
  obtain ⟨sound, size⟩ := made_sound made sized
  have screened : Screened start final := by
    refine run.invariant (Screened start) ?_ (start_screened fits shell start)
    intro before event said after screened stepped
    obtain rfl := congrArg Prod.snd (Option.some_inj.mp stepped)
    exact screened.step event
  have drawn (data : Bytes) (short : data.length ≤ 1273) :
      ∃ drawn, Qr.renderQr encodeBinary data beaconEcc scale = .ok drawn :=
    draws.renderQr 40 (by decide) (by decide) ((tables.high _).mpr short) small
  refine ⟨drawn _ screened.short, ?_⟩
  rcases tick_shown tables sound size screened.object with
    ⟨robust, length, level⟩ | ⟨-, level, least, most, room⟩
  · refine ⟨?_, fun symbol => absurd (robust.symm.trans symbol) (by simp)⟩
    rw [level]
    exact drawn _ (by rw [length, beaconLen]; omega)
  · refine ⟨?_, fun _ => room⟩
    rw [level]
    exact draws.renderQr _ least most room small

def poolMaking : Making (poolCrates 57) where
  identity := some (Crypto.KeyPair.fromBytes (poolCrates 57) (Octets.replicate 32 7))
  buildHash := []
  frameCapacity := 2953
  ephSecret := Octets.replicate 32 8
  sessionId := Octets.replicate 8 4
  nonce := sampleNonce

def screenFits : Qr.Fits := fun len version ecc =>
  if version = 40 ∧ ecc = .high then len ≤ 1273 else tableFits len version ecc

theorem screenFits_tables : Tables screenFits where
  dense len := by simp [screenFits, tableFits]
  middle len := by simp [screenFits, tableFits]
  robust len := by simp [screenFits, tableFits]
  high len := by simp [screenFits]

/-- A blank code of the smallest version that has room. -/
def blankCode (data : Bytes) (ecc : Qr.Ecc) : Option Qr.QrCode :=
  ((List.range' 1 40).find? fun version => screenFits data.length (UInt8.ofNat version) ecc).map
    fun version => { size := 17 + 4 * version, getModule := fun _ _ => false }

theorem blankCode_draws : Qr.Draws screenFits blankCode := by
  constructor
  · intro data ecc version least most room
    simp only [blankCode, Option.isSome_map, List.find?_isSome]
    refine ⟨version.toNat, List.mem_range'_1.mpr ⟨least, Nat.lt_succ_of_le most⟩, ?_⟩
    rwa [UInt8.ofNat_toNat]
  · intro data ecc code drawn
    obtain ⟨version, found, rfl⟩ := Option.map_eq_some_iff.mp drawn
    have bound := (List.mem_range'_1.mp (List.mem_of_find?_eq_some found)).2
    dsimp only
    omega

def poolSession (byte : UInt8) : Session (poolCrates 57) :=
  Session.new none (Octets.replicate 32 byte) (Octets.replicate 8 byte) (Octets.replicate 16 byte)

def poolPairing : Pairing (poolCrates 57) where
  receiver := beReceiver (poolSession 1) none true
  sender := Sending.start screenFits (beReceiver (poolSession 2) none true) (poolSend 57)

theorem screens_drawn_pool : ∃ trace final,
    Machine.Run (Machine.total (Pairing.contact screenFits)) poolPairing trace final ∧
      trace.map Prod.fst = [.tick, .receiverLooks none] ∧
      (∃ drawn, Qr.renderQr blankCode final.receiver.display beaconEcc 6 = .ok drawn) ∧
      ∃ drawn, Qr.renderQr blankCode (final.sender.display.tick (poolCrates 57) screenFits).1.frame.bytes
        (final.sender.display.tick (poolCrates 57) screenFits).1.ecc 6 = .ok drawn := by
  have made : poolMaking.beSender (some samplePlaintext) none = .ok (poolSend 57) := rfl
  have run := (Machine.Run.once (Pairing.contact screenFits) poolPairing .tick).append
    (Machine.Run.once (Pairing.contact screenFits) _ (.receiverLooks none))
  have drawn := screens_drawn screenFits_tables blankCode_draws made (.inl (poolSend_numbered 57)) run
    (show 6 ≤ Qr.maxScale by decide)
  exact ⟨_, _, run, rfl, drawn.1, drawn.2.1⟩

end Shell

end Rabaska
