import Rabaska.Library.Durable
import Rabaska.CryptoCore

/-! The identity a device keeps: the executable model of `wrappingKey` and `loadIdentity` in `app.js`,
with every call of a page or of several that is under way, and of `from_secret` in `wasm.rs`. -/

namespace Rabaska

open Crypto

namespace Wasm.Identity

variable (crates : Crates)

def fromSecret (bytes : Bytes) : Except String (KeyPair crates) :=
  if sized : bytes.length = 32 then .ok (KeyPair.fromBytes crates ⟨bytes, sized⟩)
  else .error "identity secret must be 32 bytes"

end Wasm.Identity

/-- AES-GCM of the browser's `crypto.subtle`, under keys that only it can read. -/
structure Subtle where
  CryptoKey : Type
  encrypt : CryptoKey → Octets 12 → Bytes → Bytes
  decrypt : CryptoKey → Octets 12 → Bytes → Option Bytes

/-- A toy instance: keys are bytes, and sealing prefixes the key and the IV. -/
def Subtle.sample : Subtle where
  CryptoKey := UInt8
  encrypt key iv message := key :: iv.bytes ++ message
  decrypt key iv ct := if key :: iv.bytes <+: ct then some (ct.drop 13) else none

namespace Shell

open Wasm Durable

variable {crates : Crates} {subtle : Subtle}

structure Wrapped where
  iv : Octets 12
  ct : Bytes
  deriving DecidableEq

/-- The object store `identity`. -/
structure Slots (subtle : Subtle) where
  wrap : Option subtle.CryptoKey
  device : Option Wrapped

namespace Slots

def empty : Slots subtle := { wrap := none, device := none }

/-- What the second visit makes of the two. -/
def unwrap (crates : Crates) (key : subtle.CryptoKey) (stored : Wrapped) : Option (KeyPair crates) :=
  match subtle.decrypt key stored.iv stored.ct with
  | none => none
  | some plain => (Identity.fromSecret crates plain).toOption

end Slots

/-- How far a call of `loadIdentity` has come: a request for the key or for the secret is under way, or
it was found missing and one is made. -/
inductive Loading (crates : Crates) (subtle : Subtle) where
  | wrap
  | makingWrap
  | device (key : subtle.CryptoKey)
  | makingDevice (key : subtle.CryptoKey)
  | loaded (id : KeyPair crates)
  | failed

/-- `writing` is a transaction of this call that is not committed yet. -/
structure Caller (crates : Crates) (subtle : Subtle) where
  load : Loading crates subtle
  writing : Bool

def Caller.done (caller : Caller crates subtle) : Prop :=
  match caller.load with
  | .loaded _ | .failed => True
  | _ => False

structure Identities (crates : Crates) (subtle : Subtle) where
  identity : Store (Slots subtle)
  callers : List (Caller crates subtle)

namespace Identities

def fresh (crates : Crates) (subtle : Subtle) : Identities crates subtle where
  identity := { stored := Slots.empty, queue := [] }
  callers := []

variable (identities : Identities crates subtle)

/-- The next thing a call does, with what it draws at random if it makes a key or an identity. -/
def advance (key : subtle.CryptoKey) (secret : Octets 32) (iv : Octets 12) :
    Loading crates subtle → Loading crates subtle × Option (Slots subtle)
  | .wrap =>
      match identities.identity.stored.wrap with
      | some existing => (.device existing, none)
      | none => (.makingWrap, none)
  | .makingWrap => (.device key, some { identities.identity.stored with wrap := some key })
  | .device key =>
      match identities.identity.stored.device with
      | some stored =>
          match Slots.unwrap crates key stored with
          | some id => (.loaded id, none)
          | none => (.failed, none)
      | none => (.makingDevice key, none)
  | .makingDevice key =>
      let id := KeyPair.fromBytes crates secret
      let stored : Wrapped := { iv, ct := subtle.encrypt key iv id.secret.bytes }
      (.loaded id, some { identities.identity.stored with device := some stored })
  | .loaded id => (.loaded id, none)
  | .failed => (.failed, none)

/-- A transaction waits for the ones before it, so that it finds none uncommitted. -/
def turn (i : Nat) (key : subtle.CryptoKey) (secret : Octets 32) (iv : Octets 12) :
    Identities crates subtle :=
  match identities.callers[i]?, identities.identity.queue with
  | some caller, [] =>
      match identities.advance key secret iv caller.load with
      | (load, none) => { identities with callers := identities.callers.set i { caller with load } }
      | (load, some slots) =>
          { identity := identities.identity.write slots
            callers := identities.callers.set i { load, writing := true } }
  | _, _ => identities

def commit : Identities crates subtle where
  identity := identities.identity.commit
  callers := identities.callers.map fun caller => { caller with writing := false }

/-- A page that is closed aborts its transaction. -/
def close (i : Nat) : Identities crates subtle :=
  match identities.callers[i]? with
  | none => identities
  | some caller =>
      { identity := if caller.writing then identities.identity.crash else identities.identity
        callers := identities.callers.eraseIdx i }

def crash : Identities crates subtle where
  identity := identities.identity.crash
  callers := []

/-- Calls are begun by any page, by `beReceiver` and by `beSender`. -/
inductive Event (subtle : Subtle) where
  | begin
  | turn (i : Nat) (key : subtle.CryptoKey) (secret : Octets 32) (iv : Octets 12)
  | commit
  | close (i : Nat)
  | crash

def step : Event subtle → Unit × Identities crates subtle
  | .begin =>
      ((), { identities with callers := identities.callers ++ [{ load := .wrap, writing := false }] })
  | .turn i key secret iv => ((), identities.turn i key secret iv)
  | .commit => ((), identities.commit)
  | .close i => ((), identities.close i)
  | .crash => ((), identities.crash)

end Identities

end Shell

end Rabaska
