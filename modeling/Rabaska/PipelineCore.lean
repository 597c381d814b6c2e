import Rabaska.CryptoCore

/-! Send and receive pipelines: the executable model of `pipeline.rs`. -/

namespace Rabaska

open Call Wire

namespace Pipeline

def deflateLevel : UInt8 := 9
def minCompressBytes : Nat := 256
def repairPerBlock : UInt32 := 15
def inflateLimit : Nat := 64 * 2 ^ 20

/-! Compression. -/

def magics : List Bytes := [
  [0xFF, 0xD8, 0xFF],
  [0x89, 0x50, 0x4E, 0x47, 0x0D, 0x0A, 0x1A, 0x0A],
  Crypto.label "GIF87a",
  Crypto.label "GIF89a",
  [0x50, 0x4B, 0x03, 0x04],
  [0x1F, 0x8B],
  [0x28, 0xB5, 0x2F, 0xFD],
  Crypto.label "BZh",
  [0xFD, 0x37, 0x7A, 0x58, 0x5A, 0x00],
  [0x37, 0x7A, 0xBC, 0xAF, 0x27, 0x1C],
  [0x52, 0x61, 0x72, 0x21, 0x1A, 0x07],
  Crypto.label "%PDF",
  Crypto.label "OggS",
  Crypto.label "fLaC",
  [0x00, 0x00, 0x01, 0xBA]]

def isAlreadyCompressed (b : Bytes) : Bool :=
  if magics.any fun m => m.isPrefixOf b then true
  else if 12 ≤ b.length ∧ (b.take 8).drop 4 = Crypto.label "ftyp" then true
  else if 12 ≤ b.length ∧ b.take 4 = Crypto.label "RIFF" ∧
      (b.take 12).drop 8 ≠ Crypto.label "WAVE" then true
  else false

def maybeCompress (crates : Crates) (plain : Bytes) : Bytes × Bool :=
  if plain.length < minCompressBytes || isAlreadyCompressed plain then (plain, false)
  else
    let margin := plain.length / 32
    let z := crates.compressToVec plain deflateLevel
    if z.length + margin < plain.length then (z, true) else (plain, false)

def maybeDecompress (crates : Crates) (body : Bytes) (compressed : Bool) : Except Error Bytes :=
  if !compressed then .ok body
  else
    match crates.decompressToVecWithLimit body inflateLimit with
    | some plain => .ok plain
    | none => .error .decompress

/-! The transmitter. -/

inductive Frame where
  | beacon (bytes : Bytes)
  | symbol (bytes : Bytes)
  deriving DecidableEq, Repr

def Frame.bytes : Frame → Bytes
  | .beacon b => b
  | .symbol b => b

structure TransmitConfig where
  mode : Mode
  sessionId : Octets 8
  sEphPub : Octets 32
  codec : CodecParams
  buildHash : Octets 8
  frameCapacity : Nat
  senderAuth : Bool

/-- The packet pool is cycled by a cursor into it, and the beacon interval is never zero. -/
structure Transmitter where
  beacon : Beacon
  beaconBytes : Bytes
  packets : List Bytes
  cursor : Fin packets.length
  frameId : UInt32
  packetsPerFrame : Nat
  packetLen : UInt16
  beaconInterval : UInt32
  interval_ne : beaconInterval ≠ 0
  plaintextHash : Octets 8
  held : Bool

namespace Transmitter

variable (crates : Crates)

def draft (cfg : TransmitConfig) (nonce : Octets 24) (compressed : Bool) (plaintextLen : Nat) :
    Beacon where
  mode := cfg.mode
  flags := (if compressed then Flags.compressed else 0) |||
    (if cfg.senderAuth then Flags.senderAuth else 0)
  sessionId := cfg.sessionId
  sEphPub := cfg.sEphPub
  nonce := nonce
  plaintextLen := UInt32.ofNat plaintextLen
  oti := Octets.replicate 12 0
  codec := cfg.codec
  buildHash := cfg.buildHash

/-- The sealed object: the plaintext, compressed when that pays, encrypted under the draft's
associated data. -/
def ciphertext (key : Crypto.SessionKey) (nonce : Octets 24) (cfg : TransmitConfig)
    (plaintext : Bytes) : Bytes :=
  let (body, compressed) := maybeCompress crates plaintext
  Crypto.encrypt crates key nonce (draft cfg nonce compressed plaintext.length).aad body

def encoded (key : Crypto.SessionKey) (nonce : Octets 24) (cfg : TransmitConfig)
    (plaintext : Bytes) : Encoded :=
  crates.encodePackets (ciphertext crates key nonce cfg plaintext) cfg.codec.symbolSize repairPerBlock

def packetsAt (capacity : Nat) (packetLen : UInt16) : Nat :=
  max (SymbolFrame.packetsPerFrame capacity packetLen) 1

def new (key : Crypto.SessionKey) (nonce : Octets 24) (cfg : TransmitConfig) (plaintext : Bytes) :
    Transmitter :=
  let (_, compressed) := maybeCompress crates plaintext
  let object := encoded crates key nonce cfg plaintext
  let beacon := { draft cfg nonce compressed plaintext.length with oti := object.oti }
  let packetLen := match object.packets.head? with
    | some p => UInt16.ofNat p.length
    | none => cfg.codec.symbolSize + 4
  { beacon
    beaconBytes := beacon.encode crates
    packets := object.packets
    cursor := ⟨0, List.length_pos_iff.mpr object.packets_ne⟩
    frameId := 0
    packetsPerFrame := packetsAt cfg.frameCapacity packetLen
    packetLen
    beaconInterval := 15
    interval_ne := by decide
    plaintextHash := Crypto.completeHash crates cfg.sessionId plaintext
    held := false }

variable (tx : Transmitter)

def hold : Transmitter := { tx with held := true }

def release : Transmitter := { tx with held := false }

def setBeaconInterval (n : UInt32) : Transmitter :=
  { tx with
    beaconInterval := if n = 0 then 1 else n
    interval_ne := by split <;> simp_all }

def chunk (packets : List Bytes) (cursor : Fin packets.length) :
    Nat → List Bytes × Fin packets.length
  | 0 => ([], cursor)
  | count + 1 =>
      let advanced : Fin packets.length :=
        ⟨(cursor + 1) % packets.length, Nat.mod_lt _ (Nat.lt_of_le_of_lt (Nat.zero_le _) cursor.isLt)⟩
      let (rest, final) := chunk packets advanced count
      (packets[cursor] :: rest, final)

def nextFramePacked (packetsPerFrame : Nat) : Frame × Transmitter :=
  let id := tx.frameId
  let counted := { tx with frameId := id + 1 }
  if tx.held ∨ id % tx.beaconInterval = 0 then (.beacon tx.beaconBytes, counted)
  else
    let (packets, cursor) := chunk tx.packets tx.cursor packetsPerFrame
    let sf : SymbolFrame :=
      { sid4 := sid4 tx.beacon.sessionId, frameId := id, packetLen := tx.packetLen, packets }
    (.symbol (sf.encode crates), { counted with cursor })

def nextFrame : Frame × Transmitter := nextFramePacked crates tx tx.packetsPerFrame

def nextFrameAt (capacity : Nat) : Frame × Transmitter :=
  nextFramePacked crates tx (packetsAt capacity tx.packetLen)

/-! The calls a transmitter takes, and the frames that a sequence of them emits. -/

inductive Op where
  | nextFrame
  | nextFrameAt (capacity : Nat)
  | setBeaconInterval (n : UInt32)
  | hold
  | release
  deriving DecidableEq, Repr

def step : Op → Option Frame × Transmitter
  | .nextFrame => let (frame, next) := tx.nextFrame crates; (some frame, next)
  | .nextFrameAt capacity => let (frame, next) := tx.nextFrameAt crates capacity; (some frame, next)
  | .setBeaconInterval n => (none, tx.setBeaconInterval n)
  | .hold => (none, tx.hold)
  | .release => (none, tx.release)

def emitted : Transmitter → List Op → List Frame
  | _, [] => []
  | tx, op :: ops =>
      let (frame, next) := tx.step crates op
      frame.toList ++ emitted next ops

end Transmitter

/-! The receiver. -/

inductive Ingest where
  | ignored
  | beaconAcquired
  | progress (received needed : Nat)
  | done (plaintext : Bytes)
  deriving DecidableEq, Repr

structure Receiver (crates : Crates) where
  beacon : Option Beacon
  key : Option Crypto.SessionKey
  decoder : Option crates.Decoder
  pending : List (Octets 4 × Bytes)
  seen : List Bytes
  ids : Finset (Octets 4)
  received : Nat
  needed : Nat
  done : Bool

namespace Receiver

variable {crates : Crates}

def new (crates : Crates) : Receiver crates where
  beacon := none
  key := none
  decoder := none
  pending := []
  seen := []
  ids := ∅
  received := 0
  needed := 0
  done := false

variable (rx : Receiver crates)

def setKey (key : Crypto.SessionKey) : Receiver crates := { rx with key := some key }

def hold (session : Octets 4) (packets : List Bytes) : Receiver crates :=
  let parked := { rx with pending := rx.pending ++ packets.map fun p => (session, p) }
  match rx.beacon with
  | some b => if session ≠ sid4 b.sessionId then rx else parked
  | none => parked

def restore (session : Octets 4) (packets : List Bytes) : Receiver crates := rx.hold session packets

def payloadId (raw : Bytes) : Option (Octets 4) :=
  if sized : 4 ≤ raw.length then some ⟨raw.take 4, by simpa using sized⟩ else none

/-- One turn of the loop in `absorb`; `none` is a panic. -/
def absorbOne (state : Receiver crates × Option Bytes) (raw : Bytes) :
    Option (Receiver crates × Option Bytes) :=
  let (rx, finished) := state
  match payloadId raw with
  | none => some (rx, finished)
  | some id =>
      if id ∈ rx.ids then some (rx, finished)
      else
        let rx := { rx with
          ids := insert id rx.ids, seen := rx.seen ++ [raw], received := rx.received + 1 }
        match rx.decoder with
        | none => none
        | some dec =>
            match finished with
            | some ct => some (rx, some ct)
            | none =>
                match crates.decode dec raw with
                | none => none
                | some (dec, ct) => some ({ rx with decoder := some dec }, ct)

def openObject (crates : Crates) (key : Crypto.SessionKey) (b : Beacon) (ct : Bytes) :
    Except Error Bytes := do
  let body ← Crypto.decrypt crates key b.nonce b.aad ct
  let plaintext ← maybeDecompress crates body b.compressed
  if plaintext.length ≠ b.plaintextLen.toNat then
    .error (.lengthMismatch b.plaintextLen.toNat plaintext.length)
  else .ok plaintext

def conclude (b : Beacon) (finished : Option Bytes) : Except Error Ingest × Receiver crates :=
  match finished, rx.key with
  | some ct, some key =>
      match openObject crates key b ct with
      | .error error => (.error error, rx)
      | .ok plaintext => (.ok (.done plaintext), { rx with done := true })
  | _, _ => (.ok (.progress rx.received rx.needed), rx)

def queued (b : Beacon) (packets : List Bytes) : List Bytes :=
  (rx.pending.filter fun parked => parked.1 = sid4 b.sessionId).map Prod.snd ++ packets

def absorb (packets : List Bytes) : Option (Except Error Ingest × Receiver crates) := do
  let b ← rx.beacon
  let (absorbed, finished) ← (rx.queued b packets).foldlM absorbOne ({ rx with pending := [] }, none)
  some (absorbed.conclude b finished)

def ingestBeacon (b : Beacon) : Option (Except Error Ingest × Receiver crates) :=
  match rx.beacon with
  | some existing =>
      if existing.sessionId = b.sessionId then some (.ok .ignored, rx)
      else some (.error .foreignSession, rx)
  | none => do
      let sym := max (crates.symbolSize b.oti).toNat 1
      let needed := ((crates.transferLength b.oti).toNat + sym - 1) / sym
      let dec ← crates.newDecoder b.oti
      some (.ok .beaconAcquired, { rx with needed, decoder := some dec, beacon := some b })

def ingestSymbol (sf : SymbolFrame) : Option (Except Error Ingest × Receiver crates) :=
  match rx.beacon with
  | none => some (.ok .ignored, rx.hold sf.sid4 sf.packets)
  | some b =>
      if sf.sid4 ≠ sid4 b.sessionId then some (.error .foreignSession, rx)
      else rx.absorb sf.packets

/-- What a decoder said decides how to go on; its panic is one of the caller's. -/
def decoded {α : Type} (outcome : Outcome Error α)
    (next : α → Option (Except Error Ingest × Receiver crates)) :
    Option (Except Error Ingest × Receiver crates) :=
  match outcome with
  | .ok value => next value
  | .error (.err error) => some (.error error, rx)
  | .error .panic => none

/-- Feed one decoded optical frame; `none` is a panic. -/
def ingest (frame : Bytes) : Option (Except Error Ingest × Receiver crates) :=
  if rx.done then some (.ok .ignored, rx)
  else
    rx.decoded (peekType frame) fun ty =>
      if ty = FrameType.beacon then rx.decoded (Beacon.decode crates frame) rx.ingestBeacon
      else if ty = FrameType.symbol then rx.decoded (SymbolFrame.decode crates frame) rx.ingestSymbol
      else some (.error (.badFrameType ty), rx)

def completeFrame (plaintext : Bytes) (status : Status) : Option Bytes :=
  rx.beacon.map fun b => Complete.encode crates
    { sid4 := sid4 b.sessionId, status, hash8 := Crypto.completeHash crates b.sessionId plaintext }

end Receiver

/-! A small transfer to run the model on. -/

def sampleKey : Crypto.SessionKey := Octets.replicate 32 7
def sampleNonce : Octets 24 := Octets.replicate 24 9
def samplePlaintext : Bytes := [1, 2, 3]

def sampleConfig : TransmitConfig where
  mode := .pair
  sessionId := Octets.replicate 8 4
  sEphPub := Octets.replicate 32 5
  codec := CodecParams.default
  buildHash := Octets.replicate 8 0
  frameCapacity := 100
  senderAuth := false

end Pipeline

end Rabaska
