import DidMethods.Key.Pair
import DidMethods.Proofs.Base64Url
import DidMethods.Proofs.Outcome
import DidMethods.Proofs.Secp256k1

/-!
# Key pairs as JSON Web Keys

A key pair has a public key, with the defining members and no others, and a private key, which has
one member more (`DidMethods.KeyPair.toPublic_privateJwk`). This member is all that is looked at
when the private key is read, and all that is needed: the key pair that is read is the one that was
written (`DidMethods.KeyPair.ofJwk_privateJwk`).

The name of a key is made of its defining members. That two keys of different members have one name
is not ruled out, names being shorter than keys; where it makes a difference, it is said which keys
they are (`DidMethods.Jwk.Collide`).
-/

namespace DidMethods

namespace Jwk

/-! ### Names that collide -/

/-- Two keys with different defining members and one thumbprint. -/
structure Collide (j k : Jwk) : Prop where
  /-- They do not have the same defining members. -/
  canonical_ne : j.canonical ≠ k.canonical
  /-- They have the same thumbprint. -/
  thumbprint_eq : j.thumbprint = k.thumbprint

theorem thumbprint_eq_of_uri {j k : Jwk} (h : j.uri = k.uri) : j.thumbprint = k.thumbprint := by
  have hlist := congrArg String.toList h
  rw [uri, uri, String.toList_append, String.toList_append] at hlist
  exact String.toList_inj.mp (List.append_cancel_left hlist)

/-- **A name tells which key it is of**, unless two keys collide on it. -/
theorem canonical_eq_or_collide {j k : Jwk} (h : j.uri = k.uri) :
    j.canonical = k.canonical ∨ j.Collide k := by
  by_cases heq : j.canonical = k.canonical
  · exact Or.inl heq
  · exact Or.inr ⟨heq, thumbprint_eq_of_uri h⟩

end Jwk

namespace KeyPair

/-! ### The two keys of a pair -/

@[simp] theorem isPrivate_publicJwk (k : KeyPair) : k.publicJwk.isPrivate = false := by
  cases k <;> rfl

@[simp] theorem canonical_publicJwk (k : KeyPair) : k.publicJwk.canonical = k.publicJwk := by
  cases k <;> rfl

@[simp] theorem isPrivate_privateJwk (k : KeyPair) : k.privateJwk.isPrivate = true := by
  cases k <;> rfl

/-- **The public key is the private key without its private member.** -/
@[simp] theorem toPublic_privateJwk (k : KeyPair) : k.privateJwk.toPublic = k.publicJwk := by
  cases k <;> rfl

theorem ofJwk_publicJwk (k : KeyPair) : Algorithm.ofJwk k.publicJwk = .ok k.algorithm := by
  cases k <;> rfl

/-! ### Reading private keys -/

theorem seedOf_encode (curve : String) (seed : Seed) :
    seedOf curve (some (Base64Url.encode seed)) = .ok seed := by
  rw [seedOf]
  simp only [Base64Url.decode_encode, Outcome.ok_bind, dif_pos seed.property]
  rfl

end KeyPair

/-- A secret scalar is read back from its thirty-two octets. -/
theorem Es256k.secret?_ofNat (secret : Es256k.Secret) :
    secret? (Bytes.ofNat 32 secret) = some secret := by
  have hrange := secret.property
  have hlt : secret.val < 256 ^ 32 := by
    simp only [inRange, Bool.and_eq_true, decide_eq_true_eq] at hrange
    exact hrange.2.trans (by decide)
  have hnat : Bytes.toNat (Bytes.ofNat 32 secret) = secret.val := Bytes.toNat_ofNat hlt
  rw [secret?]
  simp only [hnat, hrange, Bytes.length_ofNat]
  rfl

namespace KeyPair

/-- **A key pair is read back from its private key.** -/
theorem ofJwk_privateJwk (k : KeyPair) : ofJwk k.privateJwk = .ok k := by
  rw [ofJwk]
  cases k with
  | ed25519 seed =>
    change seedOf "Ed25519" (some (Base64Url.encode seed)) >>= _ = _
    rw [seedOf_encode]
    rfl
  | secp256k1 secret =>
    change Base64Url.decode (Base64Url.encode (Bytes.ofNat 32 secret)) >>= _ = _
    rw [Base64Url.decode_encode, Outcome.ok_bind, Es256k.secret?_ofNat]
    rfl
  | x25519 secret =>
    change seedOf "X25519" (some (Base64Url.encode secret)) >>= _ = _
    rw [seedOf_encode]
    rfl

theorem privateJwk_injective : Function.Injective privateJwk := by
  intro k k' h
  have hread : (.ok k : Outcome KeyPair) = .ok k' := by
    rw [← ofJwk_privateJwk, h, ofJwk_privateJwk]
  exact Except.ok.inj hread

end KeyPair

end DidMethods
