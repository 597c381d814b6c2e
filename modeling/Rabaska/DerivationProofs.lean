import Rabaska.CryptoProofs

/-! What goes into a key: every derivation as a recipe of ingredients, and what the bytes that HKDF
and the hash are given say of the call they come from. -/

namespace Rabaska.Crypto

open Wire

variable {crates : Crates}

inductive Party where
  | senderEphemeral
  | senderIdentity
  | receiverEphemeral
  | receiverIdentity
  deriving DecidableEq, Repr

/-- A piece of what HKDF is given, with the parties whose keys it is made of. -/
inductive Ingredient where
  | session (id : Octets 8)
  | publicKey (party : Party) (key : Octets 32)
  | agreement (sender receiver : Party) (shared : Octets 32)
  | text (bytes : Bytes)
  deriving DecidableEq, Repr

namespace Ingredient

def bytes : Ingredient → Bytes
  | .session id => id.bytes
  | .publicKey _ key => key.bytes
  | .agreement _ _ shared => shared.bytes
  | .text bytes => bytes

def parties : Ingredient → List Party
  | .session _ => []
  | .publicKey party _ => [party]
  | .agreement sender receiver _ => [sender, receiver]
  | .text _ => []

def blank : Ingredient → Ingredient
  | .session _ => .session (Octets.replicate 8 0)
  | .publicKey party _ => .publicKey party (Octets.replicate 32 0)
  | .agreement sender receiver _ => .agreement sender receiver (Octets.replicate 32 0)
  | .text bytes => .text bytes

theorem head_eq {first second : Ingredient} {rest others : Bytes} (shaped : first.blank = second.blank)
    (same : first.bytes ++ rest = second.bytes ++ others) : first = second ∧ rest = others := by
  cases first <;> cases second <;> simp only [blank, bytes, session.injEq, publicKey.injEq,
    agreement.injEq, text.injEq, reduceCtorEq, and_true, Octets.append_inj] at shaped same ⊢
  · exact same
  · exact ⟨⟨shaped, same.1⟩, same.2⟩
  · exact ⟨⟨shaped.1, shaped.2, same.1⟩, same.2⟩
  · subst shaped
    exact ⟨rfl, List.append_cancel_left same⟩

/-- A layout without length prefixes can be read back: the ingredients before one say where it
begins. -/
theorem flatMap_inj {first second : List Ingredient} (shaped : first.map blank = second.map blank)
    (same : first.flatMap bytes = second.flatMap bytes) : first = second := by
  induction first generalizing second with
  | nil => exact (List.map_eq_nil_iff.mp shaped.symm).symm
  | cons ingredient rest ih =>
      obtain ⟨other, others, rfl, head, tail⟩ := List.map_eq_cons_iff.mp shaped.symm
      rw [List.flatMap_cons, List.flatMap_cons] at same
      obtain ⟨rfl, behind⟩ := head_eq head.symm same
      rw [ih tail.symm behind]

end Ingredient

structure HkdfInput where
  ikm : Bytes
  salt : Bytes
  info : Bytes
  deriving DecidableEq, Repr

def HkdfInput.key (crates : Crates) (input : HkdfInput) : SessionKey :=
  crates.hkdf input.ikm input.salt input.info

structure Recipe where
  ikm : List Ingredient
  salt : List Ingredient
  info : Bytes
  deriving DecidableEq, Repr

namespace Recipe

def input (recipe : Recipe) : HkdfInput where
  ikm := recipe.ikm.flatMap Ingredient.bytes
  salt := recipe.salt.flatMap Ingredient.bytes
  info := recipe.info

def parties (recipe : Recipe) : List Party :=
  (recipe.ikm ++ recipe.salt).flatMap Ingredient.parties

def pair (shared rEph sEph : Octets 32) (sessionId : Octets 8) : Recipe where
  ikm := [.agreement .senderEphemeral .receiverEphemeral shared]
  salt := [.session sessionId, .publicKey .receiverEphemeral rEph, .publicKey .senderEphemeral sEph]
  info := infoPair

def session (dh1 dh2 dh3 rEph sEph rId sId : Octets 32) (sessionId : Octets 8) : Recipe where
  ikm := [.agreement .senderEphemeral .receiverIdentity dh1,
    .agreement .senderIdentity .receiverEphemeral dh2,
    .agreement .senderEphemeral .receiverEphemeral dh3]
  salt := [.session sessionId, .publicKey .receiverEphemeral rEph, .publicKey .senderEphemeral sEph,
    .publicKey .receiverIdentity rId, .publicKey .senderIdentity sId]
  info := infoSession

def «seal» (shared : Octets 32) (auth : Option (Octets 32)) (sEph rId : Octets 32) : Recipe where
  ikm := .agreement .senderEphemeral .receiverIdentity shared ::
    (auth.map fun shared => .agreement .senderIdentity .receiverIdentity shared).toList
  salt := [.publicKey .senderEphemeral sEph, .publicKey .receiverIdentity rId]
  info := if auth.isSome then infoSealAuth else infoSeal

def «open» (sessionId : Octets 8) (sEph : Octets 32) : Recipe where
  ikm := [.text (label "rabaska/v2/open/no-confidentiality")]
  salt := [.session sessionId, .publicKey .senderEphemeral sEph]
  info := infoOpen

end Recipe

/-! The calls that derive a key. -/

inductive Derivation (crates : Crates) where
  | pair (role : Role) (own : KeyPair crates) (peerEphPub : Octets 32) (sessionId : Octets 8)
  | session (role : Role) (ownEph ownId : KeyPair crates) (peerEphPub peerIdPub : Octets 32)
      (sessionId : Octets 8)
  | sealSender (sEph : KeyPair crates) (sId : Option (KeyPair crates)) (rIdPub : Octets 32)
  | sealReceiver (rId : KeyPair crates) (sEphPub : Octets 32) (sIdPub : Option (Octets 32))
  | open (sessionId : Octets 8) (sEphPub : Octets 32)

/-- The modes, plain and authenticated SEAL apart. -/
inductive Domain where
  | pair
  | session
  | seal
  | sealAuth
  | open
  deriving DecidableEq, Repr

def Domain.info : Domain → Bytes
  | .pair => infoPair
  | .session => infoSession
  | .seal => infoSeal
  | .sealAuth => infoSealAuth
  | .open => infoOpen

def unset : Octets 32 := Octets.replicate 32 0

def Domain.layout : Domain → List Ingredient
  | .pair => (Recipe.pair unset unset unset (Octets.replicate 8 0)).salt
  | .session => (Recipe.session unset unset unset unset unset unset unset (Octets.replicate 8 0)).salt
  | .seal => (Recipe.seal unset none unset unset).salt
  | .sealAuth => (Recipe.seal unset none unset unset).salt
  | .open => (Recipe.open (Octets.replicate 8 0) unset).salt

theorem Domain.info_injective : Function.Injective Domain.info := by
  intro first second same
  cases first <;> cases second <;> first | rfl | exact absurd same (by decide)

namespace Derivation

def key : Derivation crates → SessionKey
  | .pair role own peerEphPub sessionId => derivePair role own peerEphPub sessionId
  | .session role ownEph ownId peerEphPub peerIdPub sessionId =>
      deriveSession role ownEph ownId peerEphPub peerIdPub sessionId
  | .sealSender sEph sId rIdPub => Crypto.sealSender sEph sId rIdPub
  | .sealReceiver rId sEphPub sIdPub => Crypto.sealReceiver rId sEphPub sIdPub
  | .open sessionId sEphPub => deriveOpen crates sessionId sEphPub

def domain : Derivation crates → Domain
  | .pair .. => .pair
  | .session .. => .session
  | .sealSender _ sId _ => if sId.isSome then .sealAuth else .seal
  | .sealReceiver _ _ sIdPub => if sIdPub.isSome then .sealAuth else .seal
  | .open .. => .open

def recipe : Derivation crates → Recipe
  | .pair .sender own peerEphPub sessionId =>
      .pair (own.dh peerEphPub) peerEphPub own.publicKey sessionId
  | .pair .receiver own peerEphPub sessionId =>
      .pair (own.dh peerEphPub) own.publicKey peerEphPub sessionId
  | .session .sender ownEph ownId peerEphPub peerIdPub sessionId =>
      .session (ownEph.dh peerIdPub) (ownId.dh peerEphPub) (ownEph.dh peerEphPub) peerEphPub
        ownEph.publicKey peerIdPub ownId.publicKey sessionId
  | .session .receiver ownEph ownId peerEphPub peerIdPub sessionId =>
      .session (ownId.dh peerEphPub) (ownEph.dh peerIdPub) (ownEph.dh peerEphPub) ownEph.publicKey
        peerEphPub ownId.publicKey peerIdPub sessionId
  | .sealSender sEph sId rIdPub =>
      .seal (sEph.dh rIdPub) (sId.map fun id => id.dh rIdPub) sEph.publicKey rIdPub
  | .sealReceiver rId sEphPub sIdPub =>
      .seal (rId.dh sEphPub) (sIdPub.map rId.dh) sEphPub rId.publicKey
  | .open sessionId sEphPub => .open sessionId sEphPub

theorem key_eq (derivation : Derivation crates) :
    derivation.key = derivation.recipe.input.key crates := by
  cases derivation with
  | pair role own peerEphPub sessionId =>
      cases role <;> simp [key, recipe, derivePair, Recipe.pair, Recipe.input, HkdfInput.key,
        Ingredient.bytes]
  | session role ownEph ownId peerEphPub peerIdPub sessionId =>
      cases role <;> simp [key, recipe, deriveSession, Recipe.session, Recipe.input, HkdfInput.key,
        Ingredient.bytes]
  | sealSender sEph sId rIdPub =>
      cases sId <;> simp [key, recipe, Crypto.sealSender, Recipe.seal, Recipe.input, HkdfInput.key,
        Ingredient.bytes]
  | sealReceiver rId sEphPub sIdPub =>
      cases sIdPub <;> simp [key, recipe, Crypto.sealReceiver, Recipe.seal, Recipe.input,
        HkdfInput.key, Ingredient.bytes]
  | «open» sessionId sEphPub =>
      simp [key, recipe, deriveOpen, Recipe.open, Recipe.input, HkdfInput.key, Ingredient.bytes]

theorem recipe_info (derivation : Derivation crates) :
    derivation.recipe.info = derivation.domain.info := by
  cases derivation with
  | pair role own peerEphPub sessionId => cases role <;> rfl
  | session role ownEph ownId peerEphPub peerIdPub sessionId => cases role <;> rfl
  | sealSender sEph sId rIdPub => cases sId <;> rfl
  | sealReceiver rId sEphPub sIdPub => cases sIdPub <;> rfl
  | «open» sessionId sEphPub => rfl

theorem salt_shaped {first second : Derivation crates} (domain : first.domain = second.domain) :
    first.recipe.salt.map Ingredient.blank = second.recipe.salt.map Ingredient.blank := by
  have layout : ∀ derivation : Derivation crates,
      derivation.recipe.salt.map Ingredient.blank = derivation.domain.layout := by
    intro derivation
    cases derivation with
    | pair role own peerEphPub sessionId => cases role <;> rfl
    | session role ownEph ownId peerEphPub peerIdPub sessionId => cases role <;> rfl
    | sealSender sEph sId rIdPub => cases sId <;> rfl
    | sealReceiver rId sEphPub sIdPub => cases sIdPub <;> rfl
    | «open» sessionId sEphPub => rfl
  rw [layout, layout, domain]

theorem identity_used_iff (derivation : Derivation crates) :
    .senderIdentity ∈ derivation.recipe.parties ↔
      derivation.domain = .session ∨ derivation.domain = .sealAuth := by
  cases derivation with
  | pair role own peerEphPub sessionId =>
      cases role <;> simp [recipe, domain, Recipe.parties, Recipe.pair, Ingredient.parties]
  | session role ownEph ownId peerEphPub peerIdPub sessionId =>
      cases role <;> simp [recipe, domain, Recipe.parties, Recipe.session, Ingredient.parties]
  | sealSender sEph sId rIdPub =>
      cases sId <;> simp [recipe, domain, Recipe.parties, Recipe.seal, Ingredient.parties]
  | sealReceiver rId sEphPub sIdPub =>
      cases sIdPub <;> simp [recipe, domain, Recipe.parties, Recipe.seal, Ingredient.parties]
  | «open» sessionId sEphPub =>
      simp [recipe, domain, Recipe.parties, Recipe.open, Ingredient.parties]

theorem separate {first second : Derivation crates} (same : first.recipe.input = second.recipe.input) :
    first.domain = second.domain ∧ first.recipe.salt = second.recipe.salt := by
  obtain ⟨-, salt, info⟩ := HkdfInput.mk.inj same
  rw [recipe_info, recipe_info] at info
  have domain := Domain.info_injective info
  exact ⟨domain, Ingredient.flatMap_inj (salt_shaped domain) salt⟩

def choose (mode : Mode) (role : Role) (ownEph : KeyPair crates) (ownId : Option (KeyPair crates))
    (peer : Peer) (sessionId : Octets 8) : Option (Derivation crates) :=
  match mode with
  | .pair => some (.pair role ownEph peer.ephPub sessionId)
  | .session =>
      match ownId, peer.idPub with
      | some id, some peerId => some (.session role ownEph id peer.ephPub peerId sessionId)
      | _, _ => none
  | .seal =>
      match role with
      | .sender => peer.idPub.map fun rId => .sealSender ownEph ownId rId
      | .receiver => some (.sealReceiver ownEph peer.ephPub peer.idPub)
  | .open =>
      match role with
      | .sender => some (.open sessionId ownEph.publicKey)
      | .receiver => some (.open sessionId peer.ephPub)

theorem deriveForMode_eq (mode : Mode) (role : Role) (ownEph : KeyPair crates)
    (ownId : Option (KeyPair crates)) (peer : Peer) (sessionId : Octets 8) :
    deriveForMode mode role ownEph ownId peer sessionId =
      match choose mode role ownEph ownId peer sessionId with
      | some derivation => .ok derivation.key
      | none => .error .missingIdentity := by
  obtain ⟨ephPub, idPub⟩ := peer
  cases mode with
  | pair => rfl
  | session => cases ownId <;> cases idPub <;> rfl
  | «seal» => cases role <;> cases idPub <;> rfl
  | «open» => cases role <;> rfl

/-- HKDF does not give the two one key unless from one input. -/
def Apart (first second : Derivation crates) : Prop :=
  first.key = second.key → first.recipe.input = second.recipe.input

end Derivation

/-! The calls that hash. -/

inductive HashFunction where
  | commit
  | sas
  | idHint
  | completeHash
  deriving DecidableEq, Repr

def HashFunction.label : HashFunction → Bytes
  | .commit => infoCommit
  | .sas => infoSas
  | .idHint => infoIdhint
  | .completeHash => infoComplete

theorem HashFunction.eq_of_prefix {first second : HashFunction} (front : first.label <+: second.label) :
    first = second := by
  cases first <;> cases second <;> first | rfl | exact absurd front (by decide)

inductive Hashing where
  | commit (sessionId : Octets 8) (rEphPub : Octets 32) (rNonce : Octets 16)
  | sas (sessionId : Octets 8) (rEphPub sEphPub : Octets 32) (rNonce : Octets 16)
  | idHint (idPub : Octets 32)
  | completeHash (sessionId : Octets 8) (plaintext : Bytes)
  deriving DecidableEq, Repr

namespace Hashing

def function : Hashing → HashFunction
  | .commit .. => .commit
  | .sas .. => .sas
  | .idHint .. => .idHint
  | .completeHash .. => .completeHash

def fields : Hashing → Bytes
  | .commit sessionId rEphPub rNonce => sessionId.bytes ++ rEphPub.bytes ++ rNonce.bytes
  | .sas sessionId rEphPub sEphPub rNonce =>
      sessionId.bytes ++ rEphPub.bytes ++ sEphPub.bytes ++ rNonce.bytes
  | .idHint idPub => idPub.bytes
  | .completeHash sessionId plaintext => sessionId.bytes ++ plaintext

def transcript (hashing : Hashing) : Bytes := hashing.function.label ++ hashing.fields

/-- The values of `crypto.rs` are all cut from the hash of a transcript. -/
theorem hashed (crates : Crates) :
    (∀ sessionId rEphPub rNonce, Crypto.commit crates sessionId rEphPub rNonce =
      (crates.sha256 (commit sessionId rEphPub rNonce).transcript).take 16) ∧
    (∀ sessionId rEphPub sEphPub rNonce, Crypto.sas crates sessionId rEphPub sEphPub rNonce =
      sasDigits (crates.sha256 (sas sessionId rEphPub sEphPub rNonce).transcript)) ∧
    (∀ idPub, Crypto.idHint crates idPub = (crates.sha256 (idHint idPub).transcript).take 4) ∧
    ∀ sessionId plaintext, Crypto.completeHash crates sessionId plaintext =
      (crates.sha256 (completeHash sessionId plaintext).transcript).take 8 := by
  simp [Crypto.commit, Crypto.sas, sasTranscript, Crypto.idHint, Crypto.completeHash, transcript,
    function, HashFunction.label, fields]

theorem function_eq {first second : Hashing} (same : first.transcript = second.transcript) :
    first.function = second.function := by
  have front : first.function.label <+: second.transcript := by
    rw [← same]
    exact List.prefix_append _ _
  rcases List.prefix_or_prefix_of_prefix front (List.prefix_append _ second.fields) with shorter | longer
  · exact HashFunction.eq_of_prefix shorter
  · exact (HashFunction.eq_of_prefix longer).symm

theorem transcript_injective : Function.Injective transcript := by
  intro first second same
  have functions := function_eq same
  unfold transcript at same
  rw [functions] at same
  replace same := List.append_cancel_left same
  cases first <;> cases second <;> simp only [function, reduceCtorEq] at functions <;>
    simp only [fields, List.append_assoc, Octets.append_inj, Octets.bytes_inj] at same
  · obtain ⟨rfl, rfl, rfl⟩ := same
    rfl
  · obtain ⟨rfl, rfl, rfl, rfl⟩ := same
    rfl
  · rw [same]
  · obtain ⟨rfl, rfl⟩ := same
    rfl

end Hashing

/-- Each key is HKDF of its derivation's input and each hash the hash of its call's transcript. Equal
inputs come from one mode with one salt, and equal transcripts from one call. -/
theorem domains_separate :
    (∀ derivation : Derivation crates, derivation.key = derivation.recipe.input.key crates) ∧
    (∀ first second : Derivation crates, first.recipe.input = second.recipe.input →
      first.domain = second.domain ∧ first.recipe.salt = second.recipe.salt) ∧
    ((∀ sessionId rEphPub rNonce, commit crates sessionId rEphPub rNonce =
        (crates.sha256 (Hashing.commit sessionId rEphPub rNonce).transcript).take 16) ∧
      (∀ sessionId rEphPub sEphPub rNonce, sas crates sessionId rEphPub sEphPub rNonce =
        sasDigits (crates.sha256 (Hashing.sas sessionId rEphPub sEphPub rNonce).transcript)) ∧
      (∀ idPub, idHint crates idPub =
        (crates.sha256 (Hashing.idHint idPub).transcript).take 4) ∧
      ∀ sessionId plaintext, completeHash crates sessionId plaintext =
        (crates.sha256 (Hashing.completeHash sessionId plaintext).transcript).take 8) ∧
    ∀ first second : Hashing, first.transcript = second.transcript → first = second :=
  ⟨Derivation.key_eq, fun _ _ => Derivation.separate, Hashing.hashed crates,
    fun _ _ same => Hashing.transcript_injective same⟩

end Rabaska.Crypto
