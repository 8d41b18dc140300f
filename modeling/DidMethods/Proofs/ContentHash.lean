import DidMethods.Digest.ContentHash
import DidMethods.Proofs.Base64Url
import DidMethods.Proofs.Multiformat
import DidMethods.Proofs.Outcome

/-!
# What the hash of content certifies

The hash of a value is accepted as one (`DidMethods.ContentHash.check_ofJson`) and as the hash of
this value (`DidMethods.ContentHash.verify_ofJson`). Two values of one hash have the same canonical
octets, unless these octets are a collision of SHA-256
(`DidMethods.ContentHash.ofJson_eq_iff`). Collisions are not assumed away: since there are more
texts than digests they exist, and what is said of them is which octets collide.

Nothing else is accepted as the hash of a value (`DidMethods.ContentHash.verify_exact`). How a text
is refused tells whether it is one of URL-safe base64 at all; of which hash it falls short, and of
how, makes no difference.
-/

namespace DidMethods.ContentHash

/-- Two different octet strings with the same digest. -/
def Collide (a b : Bytes) : Prop :=
  a ≠ b ∧ sha256 a = sha256 b

theorem multihash_decode (bytes : Bytes) :
    Multihash.decode? (multihash bytes) = some ⟨Multihash.sha256Code, sha256 bytes⟩ :=
  Multihash.decode?_encode (show Multihash.sha256Code < 2 ^ 64 by decide)
    (by simp [Multihash.maxDigest])

theorem sha256_of_multihash {a b : Bytes} (h : multihash a = multihash b) :
    sha256 a = sha256 b := by
  have ha := multihash_decode a
  rw [h, multihash_decode] at ha
  exact (Multihash.mk.inj (Option.some.inj ha)).2.symm

/-- The multihash of any octets is accepted as a hash. -/
theorem check_multihash (bytes : Bytes) : check (Base64Url.encode (multihash bytes)) = .ok () := by
  rw [check, Base64Url.decode_encode, Outcome.ok_bind, Multihash.decode, multihash_decode]
  rfl

/-- The hash of a value is accepted as a hash. -/
theorem check_ofJson (v : Json) : check (ofJson v) = .ok () :=
  check_multihash _

/-- The commitment to a value is accepted as a hash. -/
theorem check_commitment (v : Json) : check (commitment v) = .ok () :=
  check_multihash _

/-- The hash of a value is accepted as the hash of this value. -/
theorem verify_ofJson (v : Json) : verify v (ofJson v) = .ok () := by
  rw [verify, check_ofJson, Outcome.ok_bind]
  exact if_neg fun h => h rfl

/-- What is accepted as the hash of a value is its hash. -/
theorem eq_ofJson_of_verify {v : Json} {hash : String} (h : verify v hash = .ok ()) :
    hash = ofJson v := by
  rw [verify] at h
  obtain ⟨-, -, h⟩ := Outcome.bind_eq_ok.mp h
  exact (Decidable.not_not.mp (Outcome.ite_fail_eq_ok.mp h).1).symm

/-- **A hash certifies the canonical octets**, or else these are a collision. -/
theorem sameBytes_or_collide {v w : Json} (h : ofJson v = ofJson w) :
    v.canonicalBytes = w.canonicalBytes ∨ Collide v.canonicalBytes w.canonicalBytes := by
  have hsha := sha256_of_multihash (Base64Url.encode_injective h)
  by_cases heq : v.canonicalBytes = w.canonicalBytes
  · exact Or.inl heq
  · exact Or.inr ⟨heq, hsha⟩

/-- **The hashes of two values are the same** if their canonical octets are, or if these collide. -/
theorem ofJson_eq_iff {v w : Json} : ofJson v = ofJson w ↔
    v.canonicalBytes = w.canonicalBytes ∨ Collide v.canonicalBytes w.canonicalBytes := by
  refine ⟨sameBytes_or_collide, ?_⟩
  rintro (hbytes | ⟨-, hdigest⟩)
  · rw [ofJson, hbytes, ofJson]
  · rw [ofJson, multihash, hdigest, ofJson, multihash]

/-! ### Acceptance and refusal -/

section Verify

variable {v : Json} {hash : String}

/-- **What is accepted as the hash of a value** is its hash, and that is accepted. -/
theorem verify_eq_ok : verify v hash = .ok () ↔ hash = ofJson v := by
  refine ⟨eq_ofJson_of_verify, ?_⟩
  rintro rfl
  exact verify_ofJson v

/-- A text that is not one of base64 has the wrong form. -/
theorem coded_verify_of_forall_ne (h : ∀ bytes, Base64Url.encode bytes ≠ hash) :
    (verify v hash).coded = .error .invalidFormat := by
  cases hdecode : Base64Url.decode hash with
  | ok bytes =>
    exact absurd (Base64Url.encode_of_decode? (Base64Url.decode_eq_ok.mp hdecode)) (h bytes)
  | error f =>
    have hcode : f.code = .invalidFormat :=
      List.mem_singleton.mp (Base64Url.failsOnly_decode hash f hdecode)
    have hverify : verify v hash = .error f := by
      rw [verify, check, hdecode]
      rfl
    exact Outcome.coded_eq_error.mpr ⟨f, hverify, hcode⟩

/-- A text of base64 that is refused is refused as a hash, for whichever of the reasons: its octets
are no multihash, or one of another function, or one of something else. -/
theorem coded_verify_encode {bytes : Bytes} (h : Base64Url.encode bytes ≠ ofJson v) :
    (verify v (Base64Url.encode bytes)).coded = .error .invalidHash := by
  have hmem : Code.invalidHash ∈ [Code.invalidHash] := List.mem_singleton_self _
  have hcheck : (check (Base64Url.encode bytes)).FailsOnly [.invalidHash] := by
    rw [check, Base64Url.decode_encode, Outcome.ok_bind]
    exact (Multihash.failsOnly_decode bytes).bind fun _ =>
      (Outcome.failsOnly_fail hmem _).ite (Outcome.failsOnly_ok ())
  have hfails : (verify v (Base64Url.encode bytes)).FailsOnly [.invalidHash] :=
    hcheck.bind fun _ => (Outcome.failsOnly_fail hmem _).ite (Outcome.failsOnly_ok ())
  cases hverify : verify v (Base64Url.encode bytes) with
  | ok u => exact absurd (verify_eq_ok.mp hverify) h
  | error f => exact Outcome.coded_eq_error.mpr ⟨f, rfl, List.mem_singleton.mp (hfails f hverify)⟩

end Verify

/-- **Verification is exact.** The hash of a value and the commitment to it are accepted as hashes.
As the hash of a value its own is accepted and no other text: the hash of another value only if the
two have the same canonical octets, or octets that collide. What is not accepted is refused for its
form if it is no text of base64, and as a hash if it is one. -/
theorem verify_exact (v : Json) (hash : String) :
    check (ofJson v) = .ok () ∧ check (commitment v) = .ok () ∧
      (verify v hash = .ok () ↔ hash = ofJson v) ∧
      (∀ w, verify w (ofJson v) = .ok () ↔
        w.canonicalBytes = v.canonicalBytes ∨ Collide w.canonicalBytes v.canonicalBytes) ∧
      ((verify v hash).coded = .error .invalidFormat ↔ ∀ bytes, Base64Url.encode bytes ≠ hash) ∧
      ((verify v hash).coded = .error .invalidHash ↔
        (∃ bytes, Base64Url.encode bytes = hash) ∧ hash ≠ ofJson v) := by
  refine ⟨check_ofJson v, check_commitment v, verify_eq_ok, fun w => ?_, ?_, ?_⟩
  · rw [verify_eq_ok, eq_comm, ofJson_eq_iff]
  · refine ⟨?_, coded_verify_of_forall_ne⟩
    rintro hrefused bytes rfl
    by_cases hname : Base64Url.encode bytes = ofJson v
    · rw [verify_eq_ok.mpr hname] at hrefused
      cases hrefused
    · rw [coded_verify_encode hname] at hrefused
      cases hrefused
  · constructor
    · intro hrefused
      refine ⟨Classical.byContradiction fun hnone => ?_, ?_⟩
      · rw [coded_verify_of_forall_ne (not_exists.mp hnone)] at hrefused
        cases hrefused
      · rintro rfl
        rw [verify_ofJson] at hrefused
        cases hrefused
    · rintro ⟨⟨bytes, rfl⟩, hne⟩
      exact coded_verify_encode hne

/-- A record with one member. -/
def greeting (text : String) : Json :=
  .object [("msg", .string text)]

theorem verify_exact_greeting :
    verify (greeting "Hello, world!") "EiAI8kfCgAtG4eSjMW5BU3Y8QPr3GNVVYWeFZFn6GfU9jw" = .ok () ∧
      (verify (greeting "Goodbye") (ofJson (greeting "Hello, world!"))).coded =
        .error .invalidHash ∧
      (verify (greeting "Goodbye") "EiAI").coded = .error .invalidHash ∧
      (verify (greeting "Goodbye") "EiAI=").coded = .error .invalidFormat := by
  have hhello : "EiAI8kfCgAtG4eSjMW5BU3Y8QPr3GNVVYWeFZFn6GfU9jw" =
      ofJson (greeting "Hello, world!") := by
    decide +kernel
  have hgoodbye : ofJson (greeting "Hello, world!") ≠ ofJson (greeting "Goodbye") := by
    decide +kernel
  have hpadded : Base64Url.decode? "EiAI=" = none := by decide +kernel
  have hnone : ∀ bytes, Base64Url.encode bytes ≠ "EiAI=" := by
    intro bytes h
    rw [← h, Base64Url.decode?_encode] at hpadded
    cases hpadded
  obtain ⟨-, -, haccepted, -⟩ := verify_exact (greeting "Hello, world!")
    "EiAI8kfCgAtG4eSjMW5BU3Y8QPr3GNVVYWeFZFn6GfU9jw"
  obtain ⟨-, -, -, -, -, hother⟩ :=
    verify_exact (greeting "Goodbye") (ofJson (greeting "Hello, world!"))
  obtain ⟨-, -, -, -, -, hcut⟩ := verify_exact (greeting "Goodbye") "EiAI"
  obtain ⟨-, -, -, -, hform, -⟩ := verify_exact (greeting "Goodbye") "EiAI="
  exact ⟨haccepted.mpr hhello, hother.mpr ⟨⟨_, rfl⟩, hgoodbye⟩,
    hcut.mpr ⟨⟨[0x12, 0x20, 0x08], by decide +kernel⟩, by decide +kernel⟩, hform.mpr hnone⟩

end DidMethods.ContentHash
