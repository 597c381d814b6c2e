import Rabaska.RecordProofs

/-! What the fountain decoder needs of its input, and which calls on a receiver keep to it. -/

namespace Rabaska.Pipeline

open Call Wire

/-- How RaptorQ reads what it is handed: the number of source blocks in the transmission
information, and the block that a packet's id names. -/
structure Layout where
  sourceBlocks : Octets 12 → UInt8
  blockNumber : Octets 4 → UInt8

variable {crates : Crates}

namespace Layout

variable (layout : Layout)

/-- A symbol size and a block count that `Decoder::new` can divide by. -/
structure OtiOk (crates : Crates) (oti : Octets 12) : Prop where
  symbols : 1 ≤ (crates.symbolSize oti).toNat
  blocks : 1 ≤ (layout.sourceBlocks oti).toNat

/-- A packet of one whole symbol, for a block that there is. -/
structure PacketOk (crates : Crates) (oti : Octets 12) (packet : Bytes) : Prop where
  length : packet.length = 4 + (crates.symbolSize oti).toNat
  block : ∀ id, Receiver.payloadId packet = some id → layout.blockNumber id < layout.sourceBlocks oti

def InContract (rx : Receiver crates.recorded) : Prop :=
  ∀ rec : Recorder crates, rx.decoder = some rec →
    layout.OtiOk crates rec.oti ∧ ∀ p ∈ rec.packets, layout.PacketOk crates rec.oti p

/-- A call that the frame decoder survives, that acquires no beacon with an empty symbol size or no
blocks, and that hands over no packet of another length or for a block there is not. -/
structure Safe (rx : Receiver crates.recorded) (input : Receiver.Input) : Prop where
  frame : rx.done = false → ∀ frame, input = .ingest frame → ¬DeclaresEmptyPackets crates frame
  beacon : ∀ b, rx.acquires input = some b → layout.OtiOk crates b.oti
  packets : ∀ b, rx.beacon = some b → ∀ p ∈ rx.hands input, layout.PacketOk crates b.oti p

/-- The decoder itself returns from what the call hands it. -/
structure Taken (rx : Receiver crates.recorded) (input : Receiver.Input) : Prop where
  starts : ∀ b, rx.acquires input = some b → crates.newDecoder b.oti ≠ none
  decodes : ∀ rec : Recorder crates, rx.decoder = some rec → ∀ dec, rec.inner = some dec →
    feed crates dec (rx.hands input) ≠ none

variable {layout}

structure Orderly (layout : Layout) (rx : Receiver crates.recorded) : Prop where
  sane : Receiver.Sane rx
  same : ∀ b, rx.beacon = some b → ∀ rec : Recorder crates, rx.decoder = some rec → rec.oti = b.oti
  kept : layout.InContract rx

theorem orderly_new : Orderly layout (Receiver.new crates.recorded) :=
  ⟨Receiver.sane_new, by simp [Receiver.new], by simp [InContract, Receiver.new]⟩

theorem Orderly.records {rx next : Receiver crates.recorded} {input : Receiver.Input}
    (orderly : Orderly layout rx) (sane : Receiver.Sane next) (records : Receiver.Records rx input next) :
    (layout.InContract next ↔ (∀ b, rx.acquires input = some b → layout.OtiOk crates b.oti) ∧
      ∀ b, rx.beacon = some b → ∀ p ∈ rx.hands input, layout.PacketOk crates b.oti p) ∧
    (layout.InContract next → Orderly layout next) := by
  unfold Receiver.Records at records
  split at records
  · rename_i b acquired
    obtain ⟨beacon, decoder⟩ := records
    have unknown := Receiver.acquires_unknown acquired
    refine ⟨⟨fun kept => ⟨?_, by simp [unknown]⟩, ?_⟩, fun kept => ⟨sane, ?_, kept⟩⟩
    · rintro other again
      obtain rfl : b = other := Option.some_inj.mp (acquired.symm.trans again)
      exact (kept _ decoder).1
    · rintro ⟨fine, -⟩ rec held
      obtain rfl := Option.some_inj.mp (decoder.symm.trans held)
      exact ⟨fine b acquired, by simp [Recorder.new]⟩
    · intro other known rec held
      obtain rfl := Option.some_inj.mp (beacon.symm.trans known)
      obtain rfl := Option.some_inj.mp (decoder.symm.trans held)
      rfl
  · rename_i unacquired
    obtain ⟨beacon, extends'⟩ := records
    cases known : rx.beacon with
    | none =>
        have empty := (sane.unheard (beacon.trans known)).1
        have kept : layout.InContract next := by simp [InContract, empty]
        exact ⟨iff_of_true kept ⟨by simp [unacquired], by simp⟩,
          fun _ => ⟨sane, by simp [empty], kept⟩⟩
    | some b =>
        obtain ⟨rec, held⟩ := orderly.sane.opened b known
        obtain ⟨rec', held', oti, packets⟩ := extends' rec held
        obtain ⟨fine, before⟩ := orderly.kept rec held
        have same : rec'.oti = b.oti := oti.trans (orderly.same b known rec held)
        rw [oti.symm.trans same] at fine before
        have inContract : layout.InContract next ↔
            ∀ p ∈ rx.hands input, layout.PacketOk crates b.oti p := by
          constructor
          · intro kept p member
            have each := (kept rec' held').2
            rw [same, packets] at each
            exact each p (List.mem_append_right _ member)
          · intro handed other found
            obtain rfl := Option.some_inj.mp (held'.symm.trans found)
            rw [same, packets]
            refine ⟨fine, fun p member => ?_⟩
            rcases List.mem_append.mp member with earlier | now
            · exact before p earlier
            · exact handed p now
        refine ⟨?_, fun kept => ⟨sane, ?_, kept⟩⟩
        · rw [inContract]
          simp [unacquired]
        · intro other known' found rec''
          rw [beacon.trans known] at known'
          obtain rfl := Option.some_inj.mp known'
          obtain rfl := Option.some_inj.mp (held'.symm.trans rec'')
          exact same

section Step

variable {rx next : Receiver crates.recorded} {input : Receiver.Input}
  {answer : Option (Except Error Ingest)}

theorem Orderly.safe_iff (orderly : Orderly layout rx) (input : Receiver.Input) :
    (layout.Safe rx input ↔ ∃ answer next, rx.respond input = some (answer, next) ∧
      layout.InContract next) ∧
    ∀ answer next, layout.Safe rx input → rx.respond input = some (answer, next) →
      Orderly layout next := by
  have decides : ∀ answer next, rx.respond input = some (answer, next) →
      (layout.InContract next ↔ layout.Safe rx input) ∧
        (layout.InContract next → Orderly layout next) := by
    intro answer next stepped
    have survives : rx.done = false → ∀ frame, input = .ingest frame →
        ¬DeclaresEmptyPackets crates frame := by
      intro running frame same declares
      have crashed := (Receiver.recorded_returns_iff orderly.sane input).mpr
        ⟨running, frame, same, declares⟩
      simp [crashed] at stepped
    obtain ⟨same, keeps⟩ := orderly.records (Receiver.respond_sane orderly.sane stepped)
      (Receiver.respond_records orderly.sane stepped)
    refine ⟨⟨fun kept => ?_, fun safe => same.mpr ⟨safe.beacon, safe.packets⟩⟩, keeps⟩
    obtain ⟨fine, packets⟩ := same.mp kept
    exact ⟨survives, fine, packets⟩
  refine ⟨⟨fun safe => ?_, ?_⟩, fun answer next safe stepped => ?_⟩
  · have survived : rx.respond input ≠ none := by
      intro crashed
      obtain ⟨running, frame, same, declares⟩ :=
        (Receiver.recorded_returns_iff orderly.sane input).mp crashed
      exact safe.frame running frame same declares
    obtain ⟨⟨answer, next⟩, stepped⟩ := Option.ne_none_iff_exists'.mp survived
    exact ⟨answer, next, stepped, (decides answer next stepped).1.mpr safe⟩
  · rintro ⟨answer, next, stepped, kept⟩
    exact (decides answer next stepped).1.mp kept
  · obtain ⟨same, keeps⟩ := decides answer next stepped
    exact keeps (same.mpr safe)

theorem Orderly.taken_iff (orderly : Orderly layout rx) (returned : rx.forget ≠ none)
    (stepped : rx.respond input = some (answer, next)) : Taken rx input ↔ next.forget ≠ none := by
  have records := Receiver.respond_records orderly.sane stepped
  have sane := Receiver.respond_sane orderly.sane stepped
  unfold Receiver.Records at records
  split at records
  · rename_i b acquired
    have empty := (orderly.sane.unheard (Receiver.acquires_unknown acquired)).1
    simp only [Receiver.forget, records.2, Recorder.new, ne_eq, Option.map_eq_none_iff]
    constructor
    · exact fun taken => taken.starts b acquired
    · refine fun starts => ⟨fun other again => ?_, by simp [empty]⟩
      obtain rfl := Option.some_inj.mp (acquired.symm.trans again)
      exact starts
  · rename_i unacquired
    obtain ⟨beacon, extends'⟩ := records
    cases known : rx.beacon with
    | none =>
        have before := (orderly.sane.unheard known).1
        have after := (sane.unheard (beacon.trans known)).1
        exact iff_of_true ⟨by simp [unacquired], by simp [before]⟩ (by simp [Receiver.forget, after])
    | some b =>
        obtain ⟨rec, held⟩ := orderly.sane.opened b known
        obtain ⟨rec', held', oti, packets⟩ := extends' rec held
        obtain ⟨dec, inner⟩ : ∃ dec, rec.inner = some dec := by
          rw [← Option.ne_none_iff_exists']
          simpa [Receiver.forget, held] using returned
        have fed : rec'.inner = feed crates dec (rx.hands input) := by
          rw [rec'.replayed, oti, packets]
          simp only [feed_append]
          rw [← Option.bind_assoc, ← rec.replayed, inner, Option.bind_some]
        simp only [Receiver.forget, held', fed, ne_eq, Option.map_eq_none_iff]
        constructor
        · exact fun taken => taken.decodes rec held dec inner
        · refine fun decodes => ⟨by simp [unacquired], fun other found dec' inner' => ?_⟩
          obtain rfl := Option.some_inj.mp (held.symm.trans found)
          obtain rfl := Option.some_inj.mp (inner.symm.trans inner')
          exact decodes

theorem Orderly.both_iff (orderly : Orderly layout rx) (returned : rx.forget ≠ none)
    (input : Receiver.Input) :
    (layout.Safe rx input ∧ Taken rx input ↔ ∃ answer next, rx.respond input = some (answer, next) ∧
      layout.InContract next ∧ next.forget ≠ none) ∧
    ∀ answer next, layout.Safe rx input ∧ Taken rx input → rx.respond input = some (answer, next) →
      Orderly layout next ∧ next.forget ≠ none := by
  obtain ⟨safe_iff, keeps⟩ := orderly.safe_iff input
  refine ⟨⟨?_, ?_⟩, fun answer next meets stepped => ?_⟩
  · rintro ⟨safe, taken⟩
    obtain ⟨answer, next, stepped, kept⟩ := safe_iff.mp safe
    exact ⟨answer, next, stepped, kept, (orderly.taken_iff returned stepped).mp taken⟩
  · rintro ⟨answer, next, stepped, kept, forgets⟩
    exact ⟨safe_iff.mpr ⟨answer, next, stepped, kept⟩, (orderly.taken_iff returned stepped).mpr forgets⟩
  · exact ⟨keeps answer next meets.1 stepped, (orderly.taken_iff returned stepped).mp meets.2⟩

end Step

/-- A sequence of calls hands the decoder nothing outside its contract exactly when each call is safe in
the state that it finds. Nothing in the receiver makes it so: the transmission information of a beacon
and the length and block of a packet go to the decoder as they came. And it crashes the receiver nowhere
either exactly when, besides, the decoder returns from all that it is handed. -/
theorem contract_kept_iff (layout : Layout) (inputs : List Receiver.Input) :
    ((∃ trace, trace.map Prod.fst = inputs ∧
        Machine.Along Receiver.respond (fun _ _ _ next => layout.InContract next)
          (Receiver.new crates.recorded) trace) ↔
      Machine.Throughout Receiver.respond layout.Safe (Receiver.new crates.recorded) inputs) ∧
    ((∃ trace final, Machine.Run Receiver.respond (Receiver.new crates) trace final ∧
        trace.map Prod.fst = inputs ∧
        Machine.Along Receiver.respond (fun _ _ _ next => layout.InContract next)
          (Receiver.new crates.recorded) trace) ↔
      Machine.Throughout Receiver.respond (fun rx input => layout.Safe rx input ∧ Taken rx input)
        (Receiver.new crates.recorded) inputs) := by
  constructor
  · exact Machine.exists_along_iff (Orderly layout) (fun rx input orderly => orderly.safe_iff input)
      orderly_new inputs
  · have start : (Receiver.new crates.recorded).forget = some (Receiver.new crates) := rfl
    rw [← Machine.exists_along_iff (fun rx => Orderly layout rx ∧ rx.forget ≠ none)
      (fun rx input kept => kept.1.both_iff kept.2 input) ⟨orderly_new, by simp [start]⟩ inputs]
    constructor
    · rintro ⟨trace, final, run, shape, along⟩
      exact ⟨trace, shape, along.and ((Receiver.forget_along_iff start).mp ⟨final, run⟩)⟩
    · rintro ⟨trace, shape, along⟩
      obtain ⟨final, run⟩ := (Receiver.forget_along_iff start).mpr (along.mono fun _ _ _ _ => And.right)
      exact ⟨trace, final, run, shape, along.mono fun _ _ _ _ => And.left⟩

/-! A decoder that checks its contract, on the layouts that RaptorQ has. -/

def raptorq : Layout where
  sourceBlocks oti := oti.bytes.getD 8 0
  blockNumber id := id.bytes.getD 0 0

def declaredSize (oti : Octets 12) : UInt16 :=
  UInt16.ofNat (256 * (oti.bytes.getD 6 0).toNat + (oti.bytes.getD 7 0).toNat)

abbrev strictCrates : Crates :=
  { Crates.sample with
    symbolSize := declaredSize
    Decoder := Octets 12
    newDecoder := fun oti =>
      if 1 ≤ (declaredSize oti).toNat ∧ 1 ≤ (raptorq.sourceBlocks oti).toNat then some oti else none
    decode := fun oti packet =>
      if packet.length = 4 + (declaredSize oti).toNat ∧ packet.getD 0 0 < raptorq.sourceBlocks oti then
        some (oti, some (packet.drop 4))
      else none }

def beaconWith (oti : Octets 12) : Beacon where
  mode := .pair
  flags := 0
  sessionId := sampleConfig.sessionId
  sEphPub := sampleConfig.sEphPub
  nonce := sampleNonce
  plaintextLen := 3
  oti := oti
  codec := CodecParams.default
  buildHash := sampleConfig.buildHash

def threeBytes : Octets 12 := ⟨[0, 0, 0, 0, 3, 0, 0, 3, 1, 0, 1, 8], rfl⟩

theorem beacon_kept_strict : ∃ trace final,
    Machine.Run Receiver.respond (Receiver.new strictCrates) trace final ∧
      trace.map Prod.fst = [.ingest ((beaconWith threeBytes).encode strictCrates)] ∧
      Machine.Along Receiver.respond (fun _ _ _ next => raptorq.InContract next)
        (Receiver.new strictCrates.recorded) trace := by
  have first : (Receiver.new strictCrates.recorded).acquires
      (.ingest ((beaconWith threeBytes).encode strictCrates)) = some (beaconWith threeBytes) :=
    Receiver.acquires_beacon rfl rfl (Beacon.decode_encode strictCrates _)
  refine (contract_kept_iff raptorq _).2.mpr
    ⟨⟨⟨?_, ?_, by simp [Receiver.new]⟩, ?_, by simp [Receiver.new]⟩, ?_⟩
  · rintro - frame ⟨rfl⟩ declares
    have panics := (@Receiver.read_panics_iff strictCrates _).mpr declares
    rw [Receiver.read_beacon (Beacon.decode_encode strictCrates _)] at panics
    simp at panics
  · intro b acquired
    obtain rfl := Option.some_inj.mp (first.symm.trans acquired)
    exact ⟨by decide, by decide⟩
  · intro b acquired
    obtain rfl := Option.some_inj.mp (first.symm.trans acquired)
    decide
  · exact fun _ _ _ => trivial

/-- A beacon with a right checksum and nothing but zeros for its transmission information, shown to a
fresh receiver: `Decoder::new` gets it as it is, and the receiver crashes. -/
theorem zero_oti_crashes :
    (∃ next, (Receiver.new strictCrates.recorded).respond
        (.ingest ((beaconWith (Octets.replicate 12 0)).encode strictCrates)) =
          some (some (.ok .beaconAcquired), next) ∧
        ∃ rec : Recorder strictCrates, next.decoder = some rec ∧
          strictCrates.symbolSize rec.oti = 0 ∧ raptorq.sourceBlocks rec.oti = 0) ∧
      (Receiver.new strictCrates).respond
        (.ingest ((beaconWith (Octets.replicate 12 0)).encode strictCrates)) = none ∧
      ¬∃ trace final, Machine.Run Receiver.respond (Receiver.new strictCrates) trace final ∧
        trace.map Prod.fst = [.ingest ((beaconWith (Octets.replicate 12 0)).encode strictCrates)] ∧
        Machine.Along Receiver.respond (fun _ _ _ next => raptorq.InContract next)
          (Receiver.new strictCrates.recorded) trace := by
  have crashes : (Receiver.new strictCrates).respond
      (.ingest ((beaconWith (Octets.replicate 12 0)).encode strictCrates)) = none := by
    rw [Receiver.respond, Receiver.ingest_beacon rfl]
    rfl
  have acquires : (Receiver.new strictCrates.recorded).respond
      (.ingest ((beaconWith (Octets.replicate 12 0)).encode strictCrates)) =
      some (some (.ok .beaconAcquired),
        { Receiver.new strictCrates.recorded with
          needed := 1
          decoder := some (Recorder.new strictCrates (Octets.replicate 12 0))
          beacon := some (beaconWith (Octets.replicate 12 0)) }) := by
    rw [← encode_recorded, Receiver.respond, Receiver.ingest_beacon rfl]
    rfl
  refine ⟨⟨_, acquires, _, rfl, by decide, by decide⟩, crashes, ?_⟩
  rintro ⟨trace, final, run, shape, -⟩
  cases run with
  | nil => simp at shape
  | cons stepped rest =>
      obtain ⟨rfl, -⟩ := List.cons.inj shape
      rw [crashes] at stepped
      simp at stepped

end Layout

end Rabaska.Pipeline
