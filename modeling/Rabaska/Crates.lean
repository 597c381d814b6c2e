import Rabaska.Library.Crc32

/-!
The third-party crates the code calls, as parameters. What a result needs of one of them is a
hypothesis of that result.
-/

namespace Rabaska

/-- An encoded object: the serialized transmission information and the serialized packets, of
which RaptorQ makes at least one. -/
structure Encoded where
  oti : Octets 12
  packets : List Bytes
  packets_ne : packets ≠ []

structure Crates where
  -- crc32fast.
  crc32 : Bytes → UInt32
  -- x25519-dalek: the public key of a secret, and the secret shared with a public key.
  publicKey : Octets 32 → Octets 32
  diffieHellman : Octets 32 → Octets 32 → Octets 32
  -- hkdf over SHA-256: ikm, salt and info to 32 bytes.
  hkdf : Bytes → Bytes → Bytes → Octets 32
  -- sha2.
  sha256 : Bytes → Octets 32
  -- chacha20poly1305: key, nonce, associated data and message.
  xchachaEncrypt : Octets 32 → Octets 24 → Bytes → Bytes → Bytes
  xchachaDecrypt : Octets 32 → Octets 24 → Bytes → Bytes → Option Bytes
  -- miniz_oxide: a level to compress at, a limit on what is inflated.
  compressToVec : Bytes → UInt8 → Bytes
  decompressToVecWithLimit : Bytes → Nat → Option Bytes
  -- raptorq: an object, a packet size and the repair packets of each block.
  encodePackets : Bytes → UInt16 → UInt32 → Encoded
  symbolSize : Octets 12 → UInt16
  transferLength : Octets 12 → UInt64
  Decoder : Type
  -- `none` is a panic, here and in `decode`.
  newDecoder : Octets 12 → Option Decoder
  decode : Decoder → Bytes → Option (Decoder × Option Bytes)

def padded (bytes : Bytes) : Octets 32 := ⟨(bytes ++ List.replicate 32 0).take 32, by simp⟩

/-- A toy instance to run the model on: the checksum is the real one, a key pair is one number,
sealing prefixes the key, nonce and associated data, compression copies, and every packet carries
the whole object behind its own number. -/
def Crates.sample : Crates where
  crc32 := Crc32.checksum
  publicKey secret := secret
  diffieHellman secret peer := ⟨secret.bytes.zipWith (· ^^^ ·) peer.bytes, by simp⟩
  hkdf ikm salt info := padded (ikm ++ salt ++ info)
  sha256 bytes := padded bytes.reverse
  xchachaEncrypt key nonce aad msg := key.bytes ++ nonce.bytes ++ aad ++ msg
  xchachaDecrypt key nonce aad ct :=
    if key.bytes ++ nonce.bytes ++ aad <+: ct then
      some (ct.drop (key.bytes ++ nonce.bytes ++ aad).length)
    else none
  compressToVec plain _ := plain
  decompressToVecWithLimit body limit := if body.length ≤ limit then some body else none
  encodePackets data _ repair :=
    { oti := Octets.replicate 12 1
      packets := (List.range (repair.toNat + 1)).map fun number =>
        [0, 0, 0, UInt8.ofNat number] ++ data
      packets_ne := by simp }
  symbolSize _ := 1
  transferLength _ := 1
  Decoder := Unit
  newDecoder _ := some ()
  decode _ packet := some ((), some (packet.drop 4))

end Rabaska
