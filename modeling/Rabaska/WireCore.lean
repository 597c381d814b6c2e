import Rabaska.Crates

/-! Frame layouts and serialization: the executable model of `wire.rs` and of the error type. -/

namespace Rabaska

open Call

inductive Error where
  | truncated (expected got : Nat)
  | badMagic
  | badVersion (version : UInt8)
  | badFrameType (ty : UInt8)
  | badMode (mode : UInt8)
  | badCrc (expected got : UInt32)
  | foreignSession
  | authFailed
  | lengthMismatch (declared got : Nat)
  | decompress
  | missingIdentity
  deriving DecidableEq, Repr

def lowerHex (width value : Nat) : String :=
  String.ofList ((Nat.toDigits 16 value).leftpad width '0')

def Error.display : Error → String
  | .truncated expected got => s!"truncated frame: expected {expected} bytes, got {got}"
  | .badMagic => "not a rabaska frame"
  | .badVersion v => s!"unsupported protocol version {v.toNat}"
  | .badFrameType t => s!"unknown frame type 0x{lowerHex 2 t.toNat}"
  | .badMode m => s!"unknown mode 0x{lowerHex 2 m.toNat}"
  | .badCrc expected got =>
      s!"crc mismatch: expected {lowerHex 8 expected.toNat}, got {lowerHex 8 got.toNat}"
  | .foreignSession => "frame belongs to another session"
  | .authFailed => "authentication tag failed"
  | .lengthMismatch declared got => s!"length mismatch: declared {declared}, got {got}"
  | .decompress => "decompression failed"
  | .missingIdentity => "mode requires an identity key"

namespace Wire

def magic : Bytes := [0x52, 0x42]
def version : UInt8 := 2

def pairReqLen : Nat := 69
def revealLen : Nat := 28
def beaconLen : Nat := 102
def completeLen : Nat := 21
def symbolOverhead : Nat := 19

namespace FrameType
def pairReq : UInt8 := 0x01
def beacon : UInt8 := 0x02
def symbol : UInt8 := 0x03
def complete : UInt8 := 0x04
def reveal : UInt8 := 0x05
end FrameType

namespace Flags
def compressed : UInt8 := 0b00000001
def senderAuth : UInt8 := 0b00000010
def hasIdHint : UInt8 := 0b00000100
end Flags

inductive Mode where
  | pair
  | session
  | seal
  | open
  deriving DecidableEq, Repr

def Mode.toU8 : Mode → UInt8
  | .pair => 0x01
  | .session => 0x02
  | .seal => 0x03
  | .open => 0x04

def Mode.fromU8 (v : UInt8) : Outcome Error Mode :=
  if v = 0x01 then .ok .pair
  else if v = 0x02 then .ok .session
  else if v = 0x03 then .ok .seal
  else if v = 0x04 then .ok .open
  else fail (.badMode v)

inductive Status where
  | ok
  | hashMismatch
  | aborted
  deriving DecidableEq, Repr

def Status.toU8 : Status → UInt8
  | .ok => 0x00
  | .hashMismatch => 0x01
  | .aborted => 0x02

structure CodecParams where
  symbolSize : UInt16
  palette : UInt8
  tilePx : UInt8
  deriving DecidableEq, Repr

def CodecParams.default : CodecParams := { symbolSize := 321, palette := 0, tilePx := 8 }

def sealCrc (crates : Crates) (buf : Bytes) : Bytes :=
  buf ++ (Octets.ofU32 (crates.crc32 buf)).bytes

def checkLen (wantLen : Option Nat) (got : Nat) : Outcome Error Unit :=
  match wantLen with
  | some n => ensure (got = n) (.truncated n got)
  | none => ensure (8 ≤ got) (.truncated 8 got)

/-- Validate length, magic, version, type and CRC, and return what lies between the four header
bytes and the trailing CRC. -/
def openFrame (crates : Crates) (bytes : Bytes) (wantType : UInt8) (wantLen : Option Nat) :
    Outcome Error Bytes := do
  checkLen wantLen bytes.length
  let mark ← slice bytes 0 2
  ensure (mark = magic) .badMagic
  let found ← index bytes 2
  ensure (found = version) (.badVersion found)
  let ty ← index bytes 3
  ensure (ty = wantType) (.badFrameType ty)
  let split ← sub bytes.length 4
  let covered ← slice bytes 0 split
  let expected := crates.crc32 covered
  let trailer ← Octets.sliceAt 4 bytes split bytes.length
  let got := trailer.toU32
  ensure (expected = got) (.badCrc expected got)
  slice bytes 4 split

def commonHeader (ty : UInt8) : Bytes := magic ++ [version, ty]

structure PairReq where
  flags : UInt8
  sessionId : Octets 8
  rEphPub : Octets 32
  idHint : Octets 4
  rCommit : Octets 16
  deriving DecidableEq, Repr

def PairReq.encode (crates : Crates) (req : PairReq) : Bytes :=
  sealCrc crates (commonHeader FrameType.pairReq ++
    ([req.flags] ++ req.sessionId.bytes ++ req.rEphPub.bytes ++ req.idHint.bytes ++
      req.rCommit.bytes))

def PairReq.decode (crates : Crates) (bytes : Bytes) : Outcome Error PairReq := do
  let body ← openFrame crates bytes FrameType.pairReq (some pairReqLen)
  let flags ← index body 0
  let sessionId ← Octets.sliceAt 8 body 1 9
  let rEphPub ← Octets.sliceAt 32 body 9 41
  let idHint ← Octets.sliceAt 4 body 41 45
  let rCommit ← Octets.sliceAt 16 body 45 61
  .ok { flags, sessionId, rEphPub, idHint, rCommit }

structure Beacon where
  mode : Mode
  flags : UInt8
  sessionId : Octets 8
  sEphPub : Octets 32
  nonce : Octets 24
  plaintextLen : UInt32
  oti : Octets 12
  codec : CodecParams
  buildHash : Octets 8
  deriving DecidableEq, Repr

def Beacon.encode (crates : Crates) (beacon : Beacon) : Bytes :=
  sealCrc crates (commonHeader FrameType.beacon ++
    ([beacon.mode.toU8] ++ [beacon.flags] ++ beacon.sessionId.bytes ++ beacon.sEphPub.bytes ++
      beacon.nonce.bytes ++ (Octets.ofU32 beacon.plaintextLen).bytes ++ beacon.oti.bytes ++
      (Octets.ofU16 beacon.codec.symbolSize).bytes ++ [beacon.codec.palette] ++
      [beacon.codec.tilePx] ++ beacon.buildHash.bytes))

def Beacon.decode (crates : Crates) (bytes : Bytes) : Outcome Error Beacon := do
  let body ← openFrame crates bytes FrameType.beacon (some beaconLen)
  let modeByte ← index body 0
  let mode ← Mode.fromU8 modeByte
  let flags ← index body 1
  let sessionId ← Octets.sliceAt 8 body 2 10
  let sEphPub ← Octets.sliceAt 32 body 10 42
  let nonce ← Octets.sliceAt 24 body 42 66
  let plaintextLen ← Octets.sliceAt 4 body 66 70
  let oti ← Octets.sliceAt 12 body 70 82
  let symbolSize ← Octets.sliceAt 2 body 82 84
  let palette ← index body 84
  let tilePx ← index body 85
  let buildHash ← Octets.sliceAt 8 body 86 94
  .ok {
    mode, flags, sessionId, sEphPub, nonce, oti, buildHash
    plaintextLen := plaintextLen.toU32
    codec := { symbolSize := symbolSize.toU16, palette, tilePx }
  }

def Beacon.compressed (beacon : Beacon) : Bool := beacon.flags &&& Flags.compressed != 0

def Beacon.senderAuth (beacon : Beacon) : Bool := beacon.flags &&& Flags.senderAuth != 0

def sid4 (sessionId : Octets 8) : Octets 4 := sessionId.take 4

structure SymbolFrame where
  sid4 : Octets 4
  frameId : UInt32
  packetLen : UInt16
  packets : List Bytes
  deriving DecidableEq, Repr

/-- The count is written as `n as u8`. -/
def SymbolFrame.encode (crates : Crates) (frame : SymbolFrame) : Bytes :=
  sealCrc crates (commonHeader FrameType.symbol ++
    (frame.sid4.bytes ++ (Octets.ofU32 frame.frameId).bytes ++
      [UInt8.ofNat frame.packets.length] ++ (Octets.ofU16 frame.packetLen).bytes ++
      frame.packets.flatten))

def SymbolFrame.decode (crates : Crates) (bytes : Bytes) : Outcome Error SymbolFrame := do
  ensure (symbolOverhead ≤ bytes.length) (.truncated symbolOverhead bytes.length)
  let body ← openFrame crates bytes FrameType.symbol none
  let sid4 ← Octets.sliceAt 4 body 0 4
  let frameId ← Octets.sliceAt 4 body 4 8
  let count ← index body 8
  let packetLen ← Octets.sliceAt 2 body 9 11
  let need := 11 + count.toNat * packetLen.toU16.toNat
  ensure (body.length = need) (.truncated (need + symbolOverhead - 11) bytes.length)
  let rest ← slice body 11 body.length
  let packets ← chunksExact packetLen.toU16.toNat rest
  .ok { sid4, frameId := frameId.toU32, packetLen := packetLen.toU16, packets }

def SymbolFrame.packetsPerFrame (capacity : Nat) (packetLen : UInt16) : Nat :=
  min ((capacity - symbolOverhead) / packetLen.toNat) 255

structure Complete where
  sid4 : Octets 4
  status : Status
  hash8 : Octets 8
  deriving DecidableEq, Repr

def Complete.encode (crates : Crates) (complete : Complete) : Bytes :=
  sealCrc crates (commonHeader FrameType.complete ++
    (complete.sid4.bytes ++ [complete.status.toU8] ++ complete.hash8.bytes))

def Complete.decode (crates : Crates) (bytes : Bytes) : Outcome Error Complete := do
  let body ← openFrame crates bytes FrameType.complete (some completeLen)
  let statusByte ← index body 4
  let status :=
    if statusByte = 0x00 then Status.ok
    else if statusByte = 0x01 then Status.hashMismatch
    else Status.aborted
  let sid4 ← Octets.sliceAt 4 body 0 4
  let hash8 ← Octets.sliceAt 8 body 5 13
  .ok { sid4, status, hash8 }

structure Reveal where
  sid4 : Octets 4
  rNonce : Octets 16
  deriving DecidableEq, Repr

def Reveal.encode (crates : Crates) (reveal : Reveal) : Bytes :=
  sealCrc crates (commonHeader FrameType.reveal ++ (reveal.sid4.bytes ++ reveal.rNonce.bytes))

def Reveal.decode (crates : Crates) (bytes : Bytes) : Outcome Error Reveal := do
  let body ← openFrame crates bytes FrameType.reveal (some revealLen)
  let sid4 ← Octets.sliceAt 4 body 0 4
  let rNonce ← Octets.sliceAt 16 body 4 20
  .ok { sid4, rNonce }

def peekType (bytes : Bytes) : Outcome Error UInt8 := do
  ensure (4 ≤ bytes.length) (.truncated 4 bytes.length)
  let mark ← slice bytes 0 2
  ensure (mark = magic) .badMagic
  let found ← index bytes 2
  ensure (found = version) (.badVersion found)
  index bytes 3

end Wire

end Rabaska
