import Rabaska.Library.Fountain
import Rabaska.ReceiverProofs
import Rabaska.RecordCore
import Rabaska.TransmitterProofs

/-! End-to-end convergence: a receiver fed frames of a transmitter refines the abstract collector
of its packets. -/

namespace Rabaska.Pipeline

open Call Wire

variable {crates : Crates}

def DecryptUndoesEncrypt (crates : Crates) : Prop :=
  ∀ key nonce aad msg,
    crates.xchachaDecrypt key nonce aad (crates.xchachaEncrypt key nonce aad msg) = some msg

/-! What is relied on of RaptorQ: packets of one length with distinct ids in front, and a decoder
that gives the object at the first packet at which the distinct packets fed to it suffice. -/

structure PacketPool (packets : List Bytes) : Prop where
  sized : ∃ len, 4 ≤ len ∧ len < 2 ^ 16 ∧ ∀ p ∈ packets, p.length = len
  distinct : (packets.map fun p => p.take 4).Nodup

structure Reconstructs (crates : Crates) (code : Fountain.Code Bytes) (oti : Octets 12)
    (pool : List Bytes) (object : Bytes) : Prop where
  starts : ∃ fresh, crates.newDecoder oti = some fresh
  decodes : ∀ fresh fed packet, crates.newDecoder oti = some fresh → (fed ++ [packet]).Nodup →
    (∀ p ∈ fed ++ [packet], p ∈ pool) → ¬code.Suffices {p | p ∈ fed} →
    ∃ dec next out, feed crates fresh fed = some dec ∧ crates.decode dec packet = some (next, out) ∧
      (code.Suffices {p | p ∈ fed ++ [packet]} → out = some object) ∧
      (¬code.Suffices {p | p ∈ fed ++ [packet]} → out = none)

theorem PacketPool.payloadId {pool : List Bytes} (genuine : PacketPool pool) {p : Bytes}
    (member : p ∈ pool) : ∃ id, Receiver.payloadId p = some id ∧ id.bytes = p.take 4 := by
  obtain ⟨len, floor, -, sized⟩ := genuine.sized
  have long : 4 ≤ p.length := by rw [sized p member]; exact floor
  exact ⟨_, dif_pos long, rfl⟩

theorem PacketPool.same {pool : List Bytes} (genuine : PacketPool pool) {p q : Bytes}
    (first : p ∈ pool) (second : q ∈ pool) (same : p.take 4 = q.take 4) : p = q :=
  List.inj_on_of_nodup_map genuine.distinct first second same

section Collecting

variable (code : Fountain.Code Bytes) (oti : Octets 12) (pool : List Bytes) (object : Bytes)

/-- The state inside the loop of `absorb`: the packets seen are distinct ones of the pool and the
ids are theirs; either they were all fed to the decoder and do not suffice, or they suffice and the
object is there. -/
structure Collecting (rx : Receiver crates) (found : Option Bytes) : Prop where
  inPool : ∀ p ∈ rx.seen, p ∈ pool
  nodup : rx.seen.Nodup
  ids : ∀ p ∈ pool, ∀ id, Receiver.payloadId p = some id → (id ∈ rx.ids ↔ p ∈ rx.seen)
  opened : ∃ dec, rx.decoder = some dec
  waiting : found = none → ¬code.Suffices {p | p ∈ rx.seen} ∧
    ∃ fresh, crates.newDecoder oti = some fresh ∧ feed crates fresh rx.seen = rx.decoder
  finished : ∀ ct, found = some ct → ct = object ∧ code.Suffices {p | p ∈ rx.seen}

variable {code oti pool object}

theorem feed_snoc {fresh dec next : crates.Decoder} {fed : List Bytes} {packet : Bytes}
    {out : Option Bytes} (fedAll : feed crates fresh fed = some dec)
    (decoded : crates.decode dec packet = some (next, out)) :
    feed crates fresh (fed ++ [packet]) = some next := by
  unfold feed at fedAll ⊢
  simp [List.foldlM_append, fedAll, decoded]

theorem ids_snoc {rx : Receiver crates} (genuine : PacketPool pool) {packet : Bytes}
    (member : packet ∈ pool) {id : Octets 4} (identified : Receiver.payloadId packet = some id)
    (front : id.bytes = packet.take 4)
    (ids : ∀ p ∈ pool, ∀ id, Receiver.payloadId p = some id → (id ∈ rx.ids ↔ p ∈ rx.seen)) :
    ∀ p ∈ pool, ∀ id', Receiver.payloadId p = some id' →
      (id' ∈ insert id rx.ids ↔ p ∈ rx.seen ++ [packet]) := by
  intro p inside id' found
  rw [Finset.mem_insert, ids p inside id' found, List.mem_append, List.mem_singleton, or_comm]
  refine or_congr_right ⟨?_, ?_⟩
  · rintro rfl
    obtain ⟨other, found', bytes⟩ := genuine.payloadId inside
    obtain rfl : id' = other := Option.some_inj.mp (found.symm.trans found')
    exact genuine.same inside member (bytes.symm.trans front)
  · rintro rfl
    exact Option.some_inj.mp (found.symm.trans identified)

theorem absorbOne_collecting (genuine : PacketPool pool)
    (reconstructs : Reconstructs crates code oti pool object) {rx : Receiver crates}
    {found : Option Bytes} (collecting : Collecting code oti pool object rx found)
    {packet : Bytes} (member : packet ∈ pool) :
    ∃ next out, Receiver.absorbOne (rx, found) packet = some (next, out) ∧
      Collecting code oti pool object next out ∧
      ∀ p, p ∈ next.seen ↔ p ∈ rx.seen ∨ p = packet := by
  obtain ⟨id, identified, front⟩ := genuine.payloadId member
  by_cases known : packet ∈ rx.seen
  · have present : id ∈ rx.ids := (collecting.ids packet member id identified).mpr known
    refine ⟨rx, found, Receiver.absorbOne_known identified present, collecting, fun p => ?_⟩
    constructor
    · exact .inl
    · rintro (before | rfl)
      · exact before
      · exact known
  · have absent : id ∉ rx.ids := fun present =>
      known ((collecting.ids packet member id identified).mp present)
    obtain ⟨dec, held⟩ := collecting.opened
    have ids := ids_snoc genuine member identified front collecting.ids
    have distinct : (rx.seen ++ [packet]).Nodup := by
      rw [List.nodup_append]
      refine ⟨collecting.nodup, List.nodup_singleton packet, ?_⟩
      rintro p before q last rfl
      exact known (List.mem_singleton.mp last ▸ before)
    have inside : ∀ p ∈ rx.seen ++ [packet], p ∈ pool := by
      intro p either
      rcases List.mem_append.mp either with before | last
      · exact collecting.inPool p before
      · rw [List.mem_singleton.mp last]
        exact member
    have seen : ∀ p, p ∈ rx.seen ++ [packet] ↔ p ∈ rx.seen ∨ p = packet := by simp
    cases found with
    | some ct =>
        obtain ⟨same, enough⟩ := collecting.finished ct rfl
        have more : code.Suffices {p | p ∈ rx.seen ++ [packet]} :=
          code.mono (fun p before => List.mem_append_left _ before) enough
        refine ⟨_, _, Receiver.absorbOne_counted identified absent held,
          ⟨inside, distinct, ids, ⟨dec, held⟩, fun impossible => by simp at impossible, ?_⟩, seen⟩
        rintro other ⟨rfl⟩
        exact ⟨same, more⟩
    | none =>
        obtain ⟨short, fresh, started, fedAll⟩ := collecting.waiting rfl
        obtain ⟨dec', next, out, fed, decoded, enough, lacking⟩ :=
          reconstructs.decodes fresh rx.seen packet started distinct inside short
        obtain rfl : dec' = dec := Option.some_inj.mp (fed.symm.trans (fedAll.trans held))
        refine ⟨_, _, Receiver.absorbOne_decoded identified absent held decoded,
          ⟨inside, distinct, ids, ⟨next, rfl⟩, ?_, ?_⟩, seen⟩
        · rintro rfl
          refine ⟨fun sufficing => ?_, fresh, started, feed_snoc fed decoded⟩
          exact absurd (enough sufficing) (by simp)
        · rintro ct rfl
          by_cases sufficing : code.Suffices {p | p ∈ rx.seen ++ [packet]}
          · exact ⟨Option.some_inj.mp (enough sufficing), sufficing⟩
          · exact absurd (lacking sufficing) (by simp)

theorem foldlM_collecting (genuine : PacketPool pool)
    (reconstructs : Reconstructs crates code oti pool object) {rx : Receiver crates}
    {found : Option Bytes} (collecting : Collecting code oti pool object rx found)
    (queued : List Bytes) (member : ∀ p ∈ queued, p ∈ pool) :
    ∃ next out, queued.foldlM Receiver.absorbOne (rx, found) = some (next, out) ∧
      Collecting code oti pool object next out ∧
      ∀ p, p ∈ next.seen ↔ p ∈ rx.seen ∨ p ∈ queued := by
  induction queued generalizing rx found with
  | nil => exact ⟨rx, found, rfl, collecting, by simp⟩
  | cons packet queued ih =>
      obtain ⟨now, later⟩ := List.forall_mem_cons.mp member
      obtain ⟨middle, between, turned, kept, first⟩ :=
        absorbOne_collecting genuine reconstructs collecting now
      obtain ⟨next, out, folded, still, rest⟩ := ih kept later
      refine ⟨next, out, by rw [List.foldlM_cons, turned]; exact folded, still, fun p => ?_⟩
      rw [rest, first, List.mem_cons, or_assoc]

end Collecting

section Transfer

variable (code : Fountain.Code Bytes) (key : Crypto.SessionKey) (tx : Transmitter) (object : Bytes)

/-- A receiver that is not done, beside the collector of the transmitter's packets: what is
gathered was seen by the decoder or is still parked. -/
structure Live (rx : Receiver crates) (collector : Fountain.Collector Bytes) : Prop where
  beacon : rx.beacon = if collector.acquired then some tx.beacon else none
  key : collector.acquired = true → rx.key = some key
  collecting : collector.acquired = true → Collecting code tx.beacon.oti tx.packets object rx none
  unheard : collector.acquired = false → rx.seen = [] ∧ rx.ids = ∅
  parked : ∀ entry ∈ rx.pending, entry.1 = sid4 tx.beacon.sessionId ∧ entry.2 ∈ tx.packets
  gathered : collector.gathered = {p | p ∈ rx.seen ∨ p ∈ rx.pending.map Prod.snd}

structure Tracks (rx : Receiver crates) (collector : Fountain.Collector Bytes) : Prop where
  done : rx.done = collector.done
  live : rx.done = false → Live code key tx object rx collector

variable {code key tx object}

theorem Live.queued {rx : Receiver crates} {collector : Fountain.Collector Bytes}
    (live : Live code key tx object rx collector) (packets : List Bytes) :
    rx.queued tx.beacon packets = rx.pending.map Prod.snd ++ packets := by
  have all : (rx.pending.filter fun parked => parked.1 = sid4 tx.beacon.sessionId) = rx.pending := by
    apply List.filter_eq_self.mpr
    intro entry member
    simpa using (live.parked entry member).1
  rw [Receiver.queued, all]

theorem Live.absorb {rx : Receiver crates} {collector : Fountain.Collector Bytes} {plaintext : Bytes}
    (genuine : PacketPool tx.packets)
    (reconstructs : Reconstructs crates code tx.beacon.oti tx.packets object)
    (opens : Receiver.openObject crates key tx.beacon object = .ok plaintext)
    (live : Live code key tx object rx collector) (heard : collector.acquired = true)
    (packets : List Bytes) (member : ∀ p ∈ packets, p ∈ tx.packets) :
    ∃ result next, rx.absorb packets = some (result, next) ∧
      (code.Suffices (collector.gathered ∪ {p | p ∈ packets}) →
        result = .ok (.done plaintext) ∧ next.done = true) ∧
      (¬code.Suffices (collector.gathered ∪ {p | p ∈ packets}) →
        (∃ received needed, result = .ok (.progress received needed)) ∧ next.done = rx.done ∧
          Live code key tx object next
            { collector with gathered := collector.gathered ∪ {p | p ∈ packets} }) := by
  have known : rx.beacon = some tx.beacon := by rw [live.beacon, heard]; rfl
  have drained : Collecting code tx.beacon.oti tx.packets object { rx with pending := [] } none := by
    obtain ⟨inPool, nodup, ids, opened, waiting, finished⟩ := live.collecting heard
    exact ⟨inPool, nodup, ids, opened, waiting, finished⟩
  have inside : ∀ p ∈ rx.queued tx.beacon packets, p ∈ tx.packets := by
    intro p either
    rw [live.queued] at either
    rcases List.mem_append.mp either with before | now
    · obtain ⟨entry, parked, rfl⟩ := List.mem_map.mp before
      exact (live.parked entry parked).2
    · exact member p now
  obtain ⟨next, out, folded, collecting, seen⟩ :=
    foldlM_collecting genuine reconstructs drained _ inside
  have absorbed := Receiver.absorb_eq known folded
  have kept := Receiver.foldlM_untouched folded
  have keyed : next.key = some key := kept.key.trans (live.key heard)
  have all : collector.gathered ∪ {p | p ∈ packets} = {p | p ∈ next.seen} := by
    ext p
    rw [live.gathered, Set.mem_union, Set.mem_ofPred_eq, Set.mem_ofPred_eq, Set.mem_ofPred_eq, seen,
      live.queued, List.mem_append, or_assoc]
  rw [all]
  cases out with
  | some ct =>
      obtain ⟨rfl, enough⟩ := collecting.finished ct rfl
      refine ⟨.ok (.done plaintext), { next with done := true }, ?_, fun _ => ⟨rfl, rfl⟩,
        fun lacking => absurd enough lacking⟩
      rw [absorbed]
      simp [Receiver.conclude, keyed, opens]
  | none =>
      obtain ⟨lacking, -⟩ := collecting.waiting rfl
      refine ⟨.ok (.progress next.received next.needed), next, ?_, fun enough => absurd enough lacking,
        fun _ => ⟨⟨_, _, rfl⟩, kept.done, ?_⟩⟩
      · rw [absorbed]
        rfl
      · have empty : next.pending = [] := kept.pending
        refine ⟨by rw [kept.beacon]; exact live.beacon, fun _ => keyed, fun _ => collecting,
          fun unheard => ?_, by simp [empty], by simp [empty]⟩
        exact absurd (heard.symm.trans unheard) (by simp)

def drive (key : Crypto.SessionKey) (rx : Receiver crates) (frame : Frame) :
    Option (Except Error Ingest × Receiver crates) :=
  match rx.ingest frame.bytes with
  | some (.ok .beaconAcquired, next) => some (.ok .beaconAcquired, next.setKey key)
  | answer => answer

def carried (crates : Crates) (bytes : Bytes) : List Bytes :=
  match SymbolFrame.decode crates bytes with
  | .ok sf => sf.packets
  | .error _ => []

def image (crates : Crates) : Frame → Fountain.Event Bytes
  | .beacon _ => .announced
  | .symbol bytes => .offered {p | p ∈ carried crates bytes}

def Answers (plaintext : Bytes) (result : Except Error Ingest) : Fountain.Answer → Prop
  | .ignored => result = .ok .ignored
  | .acquired => result = .ok .beaconAcquired
  | .progress => ∃ received needed, result = .ok (.progress received needed)
  | .complete => result = .ok (.done plaintext)

/-- What the frames of a transmitter rest on: the beacon bytes are the beacon's, and the packets
have the length it declares. -/
structure Sound (crates : Crates) (tx : Transmitter) : Prop where
  encodes : tx.beaconBytes = tx.beacon.encode crates
  positive : 0 < tx.packetLen.toNat
  sized : ∀ p ∈ tx.packets, p.length = tx.packetLen.toNat

theorem Sound.wellFormed (sound : Sound crates tx) {sf : SymbolFrame} (len : sf.packetLen = tx.packetLen)
    (count : sf.packets.length ≤ 255) (member : ∀ p ∈ sf.packets, p ∈ tx.packets) : sf.WellFormed := by
  refine ⟨by rw [len]; exact sound.positive, count, fun p inside => ?_⟩
  rw [len, sound.sized p (member p inside)]

theorem carried_symbol {sf : SymbolFrame} (wellFormed : sf.WellFormed) :
    carried crates (sf.encode crates) = sf.packets := by
  rw [carried, SymbolFrame.decode_encode crates sf wellFormed]

theorem drive_of_ingest {rx next : Receiver crates} {frame : Frame} {result : Except Error Ingest}
    (ingested : rx.ingest frame.bytes = some (result, next)) (other : result ≠ .ok .beaconAcquired) :
    drive key rx frame = some (result, next) := by
  unfold drive
  rw [ingested]
  split
  · rename_i same
    exact absurd (Prod.mk.inj (Option.some_inj.mp same)).1 other
  · rfl

theorem drive_of_acquired {rx next : Receiver crates} {frame : Frame}
    (ingested : rx.ingest frame.bytes = some (.ok .beaconAcquired, next)) :
    drive key rx frame = some (.ok .beaconAcquired, next.setKey key) := by
  unfold drive
  rw [ingested]

theorem drive_cases {rx after : Receiver crates} {frame : Frame}
    {result : Except Error Ingest} (driven : drive key rx frame = some (result, after)) :
    (result = .ok .beaconAcquired ∧ ∃ next, rx.ingest frame.bytes = some (.ok .beaconAcquired, next) ∧
        after = next.setKey key) ∨
      result ≠ .ok .beaconAcquired ∧ rx.ingest frame.bytes = some (result, after) := by
  unfold drive at driven
  split at driven
  · rename_i next fed
    obtain ⟨rfl, rfl⟩ := Prod.mk.inj (Option.some_inj.mp driven)
    exact .inl ⟨rfl, next, fed, rfl⟩
  · rename_i other
    refine .inr ⟨?_, driven⟩
    rintro rfl
    exact other _ driven

theorem Tracks.beacon (reconstructs : Reconstructs crates code tx.beacon.oti tx.packets object)
    (sound : Sound crates tx) {plaintext : Bytes} {rx : Receiver crates}
    {collector : Fountain.Collector Bytes} (running : rx.done = false) (same : rx.done = collector.done)
    (live : Live code key tx object rx collector) :
    ∃ result after, drive key rx (.beacon tx.beaconBytes) = some (result, after) ∧
      Answers plaintext result (Fountain.step code collector .announced).1 ∧
      Tracks code key tx object after (Fountain.step code collector .announced).2 := by
  have read : rx.ingest (Frame.beacon tx.beaconBytes).bytes = rx.ingestBeacon tx.beacon := by
    rw [Frame.bytes, sound.encodes, Receiver.ingest_beacon running]
  cases heard : collector.acquired with
  | true =>
      have known : rx.beacon = some tx.beacon := by rw [live.beacon, heard]; rfl
      have again : rx.ingest (Frame.beacon tx.beaconBytes).bytes = some (.ok .ignored, rx) := by
        rw [read, Receiver.ingestBeacon_known known, if_pos rfl]
      refine ⟨_, _, drive_of_ingest again (by simp), ?_⟩
      rw [Fountain.step_announced_again code heard]
      exact ⟨rfl, same, fun _ => live⟩
  | false =>
      have unknown : rx.beacon = none := by rw [live.beacon, heard]; rfl
      obtain ⟨unseen, unidentified⟩ := live.unheard heard
      obtain ⟨fresh, started⟩ := reconstructs.starts
      have acquires := Receiver.ingestBeacon_unknown unknown tx.beacon
      rw [started, Option.map_some] at acquires
      refine ⟨_, _, drive_of_acquired (read.trans acquires), ?_⟩
      rw [Fountain.step_announced_first code (same.symm.trans running) heard]
      refine ⟨rfl, same, fun _ => ⟨rfl, fun _ => rfl, fun _ => ?_, by simp, live.parked, live.gathered⟩⟩
      refine ⟨by simp [Receiver.setKey, unseen], by simp [Receiver.setKey, unseen],
        by simp [Receiver.setKey, unseen, unidentified], ⟨fresh, rfl⟩,
        fun _ => ⟨by simpa [Receiver.setKey, unseen] using code.not_empty, fresh, started, ?_⟩, by simp⟩
      simp [Receiver.setKey, unseen, feed]

theorem Tracks.symbol (genuine : PacketPool tx.packets)
    (reconstructs : Reconstructs crates code tx.beacon.oti tx.packets object) {plaintext : Bytes}
    (opens : Receiver.openObject crates key tx.beacon object = .ok plaintext) {rx : Receiver crates}
    {collector : Fountain.Collector Bytes} (running : rx.done = false) (same : rx.done = collector.done)
    (live : Live code key tx object rx collector) {sf : SymbolFrame}
    (session : sf.sid4 = sid4 tx.beacon.sessionId) (wellFormed : sf.WellFormed)
    (member : ∀ p ∈ sf.packets, p ∈ tx.packets) :
    ∃ result after, drive key rx (.symbol (sf.encode crates)) = some (result, after) ∧
      Answers plaintext result (Fountain.step code collector (.offered {p | p ∈ sf.packets})).1 ∧
      Tracks code key tx object after (Fountain.step code collector (.offered {p | p ∈ sf.packets})).2 := by
  have read : rx.ingest (Frame.symbol (sf.encode crates)).bytes = rx.ingestSymbol sf :=
    Receiver.ingest_symbol running wellFormed
  have idle := same.symm.trans running
  cases heard : collector.acquired with
  | false =>
      have unknown : rx.beacon = none := by rw [live.beacon, heard]; rfl
      have early := read.trans (Receiver.ingestSymbol_early unknown sf)
      refine ⟨_, _, drive_of_ingest early (by simp), ?_⟩
      rw [Fountain.step_offered_early code _ idle heard]
      refine ⟨rfl, same, fun _ => ⟨live.beacon, live.key, fun impossible => ?_, live.unheard, ?_, ?_⟩⟩
      · exact absurd (heard.symm.trans impossible) (by simp)
      · intro entry either
        rcases List.mem_append.mp either with before | now
        · exact live.parked entry before
        · obtain ⟨p, inside, rfl⟩ := List.mem_map.mp now
          exact ⟨session, member p inside⟩
      · ext p
        simp [live.gathered, or_assoc]
  | true =>
      have known : rx.beacon = some tx.beacon := by rw [live.beacon, heard]; rfl
      obtain ⟨result, next, absorbed, completes, waits⟩ :=
        live.absorb genuine reconstructs opens heard sf.packets member
      have ingested := (read.trans (Receiver.ingestSymbol_known known session)).trans absorbed
      by_cases enough : code.Suffices (collector.gathered ∪ {p | p ∈ sf.packets})
      · obtain ⟨rfl, done⟩ := completes enough
        refine ⟨_, _, drive_of_ingest ingested (by simp), ?_⟩
        rw [Fountain.step_offered_enough code idle heard enough]
        exact ⟨rfl, done, fun unfinished => absurd (done.symm.trans unfinished) (by simp)⟩
      · obtain ⟨⟨received, needed, rfl⟩, unchanged, still⟩ := waits enough
        refine ⟨_, _, drive_of_ingest ingested (by simp), ?_⟩
        rw [Fountain.step_offered_lacking code idle heard enough]
        exact ⟨⟨received, needed, rfl⟩, unchanged.trans same, fun _ => still⟩

/-- The receiver takes every frame of the transmitter as the collector takes its packets. -/
theorem Tracks.step (genuine : PacketPool tx.packets)
    (reconstructs : Reconstructs crates code tx.beacon.oti tx.packets object)
    (sound : Sound crates tx) {plaintext : Bytes}
    (opens : Receiver.openObject crates key tx.beacon object = .ok plaintext) {rx : Receiver crates}
    {collector : Fountain.Collector Bytes} {frame : Frame} (drawn : tx.Genuine crates frame)
    (tracks : Tracks code key tx object rx collector) :
    ∃ result after, drive key rx frame = some (result, after) ∧
      Answers plaintext result (Fountain.step code collector (image crates frame)).1 ∧
      Tracks code key tx object after (Fountain.step code collector (image crates frame)).2 := by
  cases running : rx.done with
  | true =>
      have ignored : rx.ingest frame.bytes = some (.ok .ignored, rx) := by
        simp [Receiver.ingest, running]
      refine ⟨_, _, drive_of_ingest ignored (by simp), ?_⟩
      rw [Fountain.step_done code (tracks.done.symm.trans running)]
      exact ⟨rfl, tracks⟩
  | false =>
      have live := tracks.live running
      cases drawn with
      | beacon => exact Tracks.beacon reconstructs sound running tracks.done live
      | symbol sf session len kept count member =>
          have wellFormed := sound.wellFormed len count member
          rw [image, carried_symbol wellFormed]
          exact Tracks.symbol genuine reconstructs opens running tracks.done live session
            wellFormed member

theorem tracks_new : Tracks code key tx object (Receiver.new crates) Fountain.Collector.new := by
  refine ⟨rfl, fun _ => ⟨rfl, by simp [Fountain.Collector.new], by simp [Fountain.Collector.new],
    fun _ => ⟨rfl, rfl⟩, by simp [Receiver.new], ?_⟩⟩
  simp [Fountain.Collector.new, Receiver.new]

end Transfer

/-! The transmitter's own object. -/

theorem sound_new {key : Crypto.SessionKey} {nonce : Octets 24} {cfg : TransmitConfig}
    {plaintext : Bytes}
    (sized : ∃ len, 4 ≤ len ∧ len < 2 ^ 16 ∧
      ∀ p ∈ (Transmitter.encoded crates key nonce cfg plaintext).packets, p.length = len) :
    Sound crates (Transmitter.new crates key nonce cfg plaintext) := by
  obtain ⟨len, floor, bound, sized⟩ := sized
  have declared := Transmitter.new_packetLen bound sized
  refine ⟨rfl, by omega, fun p member => ?_⟩
  rw [declared]
  exact sized p member

/-- What is left to go wrong when a transmitter's own object is opened: inflating it, and its length. -/
theorem openObject_own (key : Crypto.SessionKey) (nonce : Octets 24) (cfg : TransmitConfig)
    (plaintext : Bytes) (undoes : DecryptUndoesEncrypt crates) :
    Receiver.openObject crates key (Transmitter.new crates key nonce cfg plaintext).beacon
      (Transmitter.ciphertext crates key nonce cfg plaintext) =
    (maybeDecompress crates (maybeCompress crates plaintext).1 (maybeCompress crates plaintext).2).bind
      fun out => if out.length ≠ plaintext.length % 2 ^ 32 then
        .error (.lengthMismatch (plaintext.length % 2 ^ 32) out.length) else .ok out := by
  have opened : crates.xchachaDecrypt key (Transmitter.new crates key nonce cfg plaintext).beacon.nonce
      (Transmitter.new crates key nonce cfg plaintext).beacon.aad
      (Transmitter.ciphertext crates key nonce cfg plaintext) =
      some (maybeCompress crates plaintext).1 :=
    undoes key nonce _ _
  have declared : (Transmitter.new crates key nonce cfg plaintext).beacon.plaintextLen.toNat =
      plaintext.length % 2 ^ 32 :=
    UInt32.toNat_ofNat'
  rw [Receiver.openObject, Crypto.decrypt, opened, Transmitter.new_beacon_compressed, declared]
  rfl

theorem openObject_new (key : Crypto.SessionKey) (nonce : Octets 24) (cfg : TransmitConfig)
    {plaintext : Bytes} (short : plaintext.length < 2 ^ 32)
    (inflatable : (maybeCompress crates plaintext).2 = true → plaintext.length ≤ inflateLimit)
    (undoes : DecryptUndoesEncrypt crates) (inflates : InflateReturns crates) :
    Receiver.openObject crates key (Transmitter.new crates key nonce cfg plaintext).beacon
      (Transmitter.ciphertext crates key nonce cfg plaintext) = .ok plaintext := by
  rw [openObject_own key nonce cfg plaintext undoes, maybeDecompress_returns inflates inflatable]
  exact if_neg (not_not.mpr (Nat.mod_eq_of_lt short).symm)

theorem images_of_matched {plaintext : Bytes} {front : List (Frame × Except Error Ingest)}
    {before : List (Fountain.Event Bytes × Fountain.Answer)}
    (matched : List.Forall₂ (fun event other => other.1 = image crates event.1 ∧
      Answers plaintext event.2 other.2) front before) :
    before.map Prod.fst = (front.map Prod.fst).map (image crates) := by
  induction matched with
  | nil => rfl
  | cons related _ ih => rw [List.map_cons, related.1, ih]; rfl

/-- No frame is refused, the plaintext is delivered at the first symbol frame behind a beacon at
which the packets that arrived so far suffice, and every later frame is ignored. -/
def DeliveredOnTime (crates : Crates) (code : Fountain.Code Bytes) (plaintext : Bytes)
    (trace : List (Frame × Except Error Ingest)) : Prop :=
  ∀ front frame result back, trace = front ++ (frame, result) :: back →
    let past := (front.map Prod.fst).map (image crates)
    (Fountain.WasReady code past → result = .ok .ignored) ∧
      (¬Fountain.WasReady code past →
        (Fountain.Ready code past (image crates frame) → result = .ok (.done plaintext)) ∧
        (¬Fountain.Ready code past (image crates frame) →
          ∃ answer, result = .ok answer ∧ ∀ p, answer ≠ .done p))

/-- Whatever is lost, repeated or reordered, and at whatever capacities the frames were packed, the
plaintext is delivered on time. -/
theorem converges (code : Fountain.Code Bytes) (key : Crypto.SessionKey) (nonce : Octets 24)
    (cfg : TransmitConfig) (plaintext : Bytes) (short : plaintext.length < 2 ^ 32)
    (inflatable : (maybeCompress crates plaintext).2 = true → plaintext.length ≤ inflateLimit)
    (undoes : DecryptUndoesEncrypt crates) (inflates : InflateReturns crates)
    (genuine : PacketPool (Transmitter.encoded crates key nonce cfg plaintext).packets)
    (reconstructs : Reconstructs crates code (Transmitter.encoded crates key nonce cfg plaintext).oti
      (Transmitter.encoded crates key nonce cfg plaintext).packets
      (Transmitter.ciphertext crates key nonce cfg plaintext))
    (ops : List Transmitter.Op) (frames : List Frame)
    (drawn : ∀ frame ∈ frames,
      frame ∈ Transmitter.emitted crates (Transmitter.new crates key nonce cfg plaintext) ops) :
    ∃ trace final, Machine.Run (drive key) (Receiver.new crates) trace final ∧
      trace.map Prod.fst = frames ∧
      DeliveredOnTime crates code plaintext trace := by
  have allowed : ∀ frame ∈ frames,
      (Transmitter.new crates key nonce cfg plaintext).Genuine crates frame :=
    fun frame member => Transmitter.new_emits frame (drawn frame member)
  have opens := openObject_new key nonce cfg short inflatable undoes inflates
  obtain ⟨trace, final, shadow, last, run, shadowRun, shape, matched⟩ :=
    Machine.follows (image crates) ((Transmitter.new crates key nonce cfg plaintext).Genuine crates)
      (Tracks code key (Transmitter.new crates key nonce cfg plaintext)
        (Transmitter.ciphertext crates key nonce cfg plaintext))
      (Answers plaintext)
      (fun rx collector frame genuineFrame tracks =>
        Tracks.step genuine reconstructs (sound_new genuine.sized) opens genuineFrame tracks)
      tracks_new frames allowed
  refine ⟨trace, final, run, shape, ?_⟩
  rintro front frame result back rfl
  obtain ⟨before, ⟨event, answer⟩, after, rfl, fronts, rfl, answers⟩ := Machine.forall₂_split matched
  obtain ⟨ignores, completes⟩ := Fountain.run_verdict shadowRun
  rw [images_of_matched fronts] at ignores completes
  refine ⟨fun was => ?_, fun fresh => ⟨fun ready => ?_, fun waiting => ?_⟩⟩
  · rwa [ignores was] at answers
  · rwa [(completes fresh).mpr ready] at answers
  · have incomplete : answer ≠ .complete := fun same => waiting ((completes fresh).mp same)
    cases answer with
    | ignored => exact ⟨_, answers, by simp⟩
    | acquired => exact ⟨_, answers, by simp⟩
    | progress =>
        obtain ⟨received, needed, rfl⟩ := answers
        exact ⟨_, rfl, by simp⟩
    | complete => exact absurd rfl incomplete

def anyPacket : Fountain.Code Bytes where
  Suffices packets := packets.Nonempty
  mono := Set.Nonempty.mono
  not_empty := Set.not_nonempty_empty

theorem feed_sample (fed : List Bytes) : feed Crates.sample () fed = some () := by
  induction fed with
  | nil => rfl
  | cons _ _ ih => exact ih

theorem converges_reversed : ∃ trace final,
    Machine.Run (drive sampleKey) (Receiver.new Crates.sample) trace final ∧
      trace.map Prod.fst =
        (Transmitter.emitted Crates.sample
          (Transmitter.new Crates.sample sampleKey sampleNonce sampleConfig samplePlaintext)
          [.nextFrame, .nextFrame, .nextFrameAt 400]).reverse ++
        Transmitter.emitted Crates.sample
          (Transmitter.new Crates.sample sampleKey sampleNonce sampleConfig samplePlaintext)
          [.nextFrame, .nextFrame, .nextFrameAt 400] ∧
      DeliveredOnTime Crates.sample anyPacket samplePlaintext trace := by
  refine converges anyPacket sampleKey sampleNonce sampleConfig samplePlaintext (by decide)
    (fun _ => by decide) ?_ ?_ ?_ ?_ [.nextFrame, .nextFrame, .nextFrameAt 400] _ ?_
  · intro key nonce aad msg
    have opened : key.bytes ++ nonce.bytes ++ aad <+: key.bytes ++ nonce.bytes ++ aad ++ msg :=
      List.prefix_append _ _
    simp only [Crates.sample, opened, if_true, List.drop_left]
  · intro plain limit bound
    simp [Crates.sample, bound]
  · exact ⟨⟨148, by decide, by decide, by decide +kernel⟩, by decide +kernel⟩
  · refine ⟨⟨(), rfl⟩, fun fresh fed packet _ _ inside _ => ?_⟩
    refine ⟨(), (), some (packet.drop 4), feed_sample fed, rfl, fun _ => ?_, fun empty => ?_⟩
    · obtain ⟨number, -, rfl⟩ := List.mem_map.mp (inside packet (by simp))
      rfl
    · exact absurd ⟨packet, by simp⟩ empty
  · intro frame member
    rcases List.mem_append.mp member with turned | straight
    · exact List.mem_reverse.mp turned
    · exact straight

/-- What is relied on of the crates where a payload is sealed, cut into packets and put together again. -/
structure Sendable (crates : Crates) (code : Fountain.Code Bytes) (key : Crypto.SessionKey)
    (nonce : Octets 24) (cfg : TransmitConfig) (payload : Bytes) : Prop where
  short : payload.length < 2 ^ 32
  inflatable : (maybeCompress crates payload).2 = true → payload.length ≤ inflateLimit
  undoes : DecryptUndoesEncrypt crates
  inflates : InflateReturns crates
  genuine : PacketPool (Transmitter.encoded crates key nonce cfg payload).packets
  reconstructs : Reconstructs crates code (Transmitter.encoded crates key nonce cfg payload).oti
    (Transmitter.encoded crates key nonce cfg payload).packets
    (Transmitter.ciphertext crates key nonce cfg payload)
  whole : code.Suffices {p | p ∈ (Transmitter.encoded crates key nonce cfg payload).packets}

theorem sample_sendable {key : Crypto.SessionKey} {nonce : Octets 24} {cfg : TransmitConfig}
    {plaintext : Bytes} (short : plaintext.length ≤ inflateLimit)
    (genuine : PacketPool (Transmitter.encoded Crates.sample key nonce cfg plaintext).packets) :
    Sendable Crates.sample anyPacket key nonce cfg plaintext where
  short := Nat.lt_of_le_of_lt short (by decide)
  inflatable _ := short
  undoes key nonce aad msg := by
    have opened : key.bytes ++ nonce.bytes ++ aad <+: key.bytes ++ nonce.bytes ++ aad ++ msg :=
      List.prefix_append _ _
    simp only [Crates.sample, opened, if_true, List.drop_left]
  inflates plain limit bound := by simp [Crates.sample, bound]
  genuine := genuine
  reconstructs := by
    refine ⟨⟨(), rfl⟩, fun fresh fed packet _ _ inside _ => ?_⟩
    refine ⟨(), (), some (packet.drop 4), feed_sample fed, rfl, fun _ => ?_, fun empty => ?_⟩
    · obtain ⟨number, -, rfl⟩ := List.mem_map.mp (inside packet (by simp))
      rfl
    · exact absurd ⟨packet, by simp⟩ empty
  whole := ⟨_, List.head_mem (Encoded.packets_ne _)⟩

end Rabaska.Pipeline
