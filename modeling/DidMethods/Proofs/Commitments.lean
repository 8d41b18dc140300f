import DidMethods.Proofs.ContentHash
import DidMethods.Proofs.SelfCertification

/-!
# What passes for a hash

A hash of content, or a commitment, is the text of thirty-four octets: the code of SHA-256, the
length of its digests, and such a digest (`DidMethods.ContentHash.IsSha256`). What is checked of a
text that is said to be one is less: that two numbers stand before a digest, of which the first is
the code of SHA-256 and the second the length of the digest, whatever it is, up to sixty-four octets
(`DidMethods.ContentHash.PassesForSha256`). And of the numbers only sixty-four bits count, as
everywhere (`DidMethods.Varint.decode?_eq_some_iff`).

So there are texts that pass the check and are the hash of nothing
(`DidMethods.ContentHash.check_forms`). Since the initial state of a long form is looked at with
this check, a long form can resolve with commitments that no key ever reveals
(`DidMethods.ContentHash.resolve_isOk_iff`).
-/

namespace DidMethods.ContentHash

open IonMethod Sidetree

/-- The text is made of the code of SHA-256, the length of its digests and a digest of this
length. -/
def IsSha256 (hash : String) : Prop :=
  ∃ digest : Bytes, digest.length = 32 ∧ hash = Base64Url.encode (0x12 :: 0x20 :: digest)

/-- The text is made of two numbers and a digest, such that what counts of the numbers is the code
of SHA-256 and the length of the digest. -/
def PassesForSha256 (hash : String) : Prop :=
  ∃ (code size : Nat) (digest : Bytes), code < 2 ^ 70 ∧ code % 2 ^ 64 = Multihash.sha256Code ∧
    size < 2 ^ 70 ∧ size % 2 ^ 64 = digest.length ∧ digest.length ≤ Multihash.maxDigest ∧
    hash = Base64Url.encode (Varint.encode code ++ Varint.encode size ++ digest)

section Forms

variable {hash : String} {digest : Bytes}

theorem check_eq_ok : check hash = .ok () ↔ ∃ bytes digest, Base64Url.decode hash = .ok bytes ∧
    Multihash.decode? bytes = some ⟨Multihash.sha256Code, digest⟩ := by
  rw [check]
  constructor
  · intro h
    obtain ⟨bytes, hbytes, h⟩ := Outcome.bind_eq_ok.mp h
    obtain ⟨⟨code, digest⟩, hread, h⟩ := Outcome.bind_eq_ok.mp h
    obtain rfl : code = Multihash.sha256Code :=
      Decidable.not_not.mp (Outcome.ite_fail_eq_ok.mp h).1
    refine ⟨bytes, digest, hbytes, ?_⟩
    rw [Multihash.decode] at hread
    split at hread
    · next found hfound => rw [hfound, Except.ok.inj hread]
    · cases hread
  · rintro ⟨bytes, digest, hbytes, hread⟩
    rw [hbytes, Outcome.ok_bind, Multihash.decode, hread]
    rfl

/-- **What the check accepts.** -/
theorem check_eq_ok_iff_passes : check hash = .ok () ↔ PassesForSha256 hash := by
  rw [check_eq_ok]
  constructor
  · rintro ⟨bytes, digest, hbytes, hread⟩
    obtain ⟨hmax, code, size, hcodeLt, hcode, hsizeLt, hsize, rfl⟩ :=
      Multihash.decode?_eq_some_iff.mp hread
    exact ⟨code, size, digest, hcodeLt, hcode, hsizeLt, hsize, hmax,
      (Base64Url.encode_of_decode? (Base64Url.decode_eq_ok.mp hbytes)).symm⟩
  · rintro ⟨code, size, digest, hcodeLt, hcode, hsizeLt, hsize, hmax, rfl⟩
    exact ⟨_, digest, Base64Url.decode_encode _, Multihash.decode?_eq_some_iff.mpr
      ⟨hmax, code, size, hcodeLt, hcode, hsizeLt, hsize, rfl⟩⟩

/-- The numbers before a digest of SHA-256 take one octet each. -/
theorem encode_sha256 (h : digest.length = 32) :
    Multihash.encode ⟨Multihash.sha256Code, digest⟩ = 0x12 :: 0x20 :: digest := by
  rw [Multihash.encode, h]
  rfl

theorem isSha256_multihash (bytes : Bytes) : IsSha256 (Base64Url.encode (multihash bytes)) :=
  ⟨sha256 bytes, length_sha256 bytes, by rw [multihash, encode_sha256 (length_sha256 bytes)]⟩

/-- **A text that passes for a hash is one** if its octets begin as those of a hash do. -/
theorem isSha256_iff : IsSha256 hash ↔ check hash = .ok () ∧
    ∃ rest, Base64Url.decode hash = .ok (0x12 :: 0x20 :: rest) := by
  constructor
  · rintro ⟨digest, hlength, rfl⟩
    refine ⟨check_eq_ok.mpr ⟨_, digest, Base64Url.decode_encode _, ?_⟩, digest,
      Base64Url.decode_encode _⟩
    rw [← encode_sha256 hlength]
    exact Multihash.decode?_encode (show Multihash.sha256Code < 2 ^ 64 by decide)
      (show digest.length ≤ 64 by omega)
  · rintro ⟨hcheck, rest, hrest⟩
    obtain ⟨bytes, digest, hbytes, hread⟩ := check_eq_ok.mp hcheck
    obtain rfl := Except.ok.inj (hrest.symm.trans hbytes)
    obtain ⟨-, code, size, hcodeLt, -, hsizeLt, hsize, hform⟩ :=
      Multihash.decode?_eq_some_iff.mp hread
    -- the two octets are the two numbers, and so the second is the length
    have hstart : Varint.encode 0x12 ++ (Varint.encode 0x20 ++ rest) =
        Varint.encode code ++ (Varint.encode size ++ digest) :=
      hform.trans (List.append_assoc _ _ _)
    obtain ⟨-, hbehind⟩ := Varint.encode_append_inj (by decide) hcodeLt hstart
    obtain ⟨rfl, rfl⟩ := Varint.encode_append_inj (by decide) hsizeLt hbehind
    exact ⟨rest, hsize.symm, (Base64Url.encode_of_decode? (Base64Url.decode_eq_ok.mp hrest)).symm⟩

end Forms

/-! ### Commitments in long forms -/

/-- **What it takes for a long form to resolve**, of its commitments and besides. -/
theorem resolve_isOk_iff {did : String} {l : LongForm} {s : InitialState}
    (hl : LongForm.parse did = .ok l) (hs : InitialState.decode l.segment = .ok s) :
    (LongForm.resolve did).isOk = true ↔
      (PassesForSha256 s.suffixData.recoveryCommitment ∧
        PassesForSha256 s.delta.updateCommitment) ∧
      s.delta.check = .ok () ∧ verify s.delta.toJson s.suffixData.deltaHash = .ok () ∧
        s.suffixData.suffix = l.suffix := by
  rw [← check_eq_ok_iff_passes, ← check_eq_ok_iff_passes]
  constructor
  · intro h
    obtain ⟨document, m, hdocument, -⟩ := LongForm.exists_of_resolve h
    obtain ⟨l', s', hl', hs', hcheck, -, -⟩ := LongForm.document_eq_ok.mp hdocument
    obtain rfl := Except.ok.inj (hl'.symm.trans hl)
    obtain rfl := Except.ok.inj (hs'.symm.trans hs)
    obtain ⟨hdelta, hhash, hrecovery, hupdate, hsuffix⟩ := InitialState.check_eq_ok.mp hcheck
    exact ⟨⟨hrecovery, hupdate⟩, hdelta, hhash, hsuffix⟩
  · rintro ⟨⟨hrecovery, hupdate⟩, hdelta, hhash, hsuffix⟩
    have hcheck := InitialState.check_eq_ok.mpr ⟨hdelta, hhash, hrecovery, hupdate, hsuffix⟩
    rw [LongForm.resolve, LongForm.document_eq_ok.mpr ⟨l, s, hl, hs, hcheck, rfl, rfl⟩]
    rfl

/-- **The check of hashes accepts every length of digest, and numbers that overflow.** The texts
that it accepts are hashes of SHA-256 if their first two octets are the code and the length of one,
as those of every name and every commitment are. A long form resolves with all commitments that pass
the check, if nothing else is wrong with it. -/
theorem check_forms (hash : String) :
    (check hash = .ok () ↔ PassesForSha256 hash) ∧
      (IsSha256 hash ↔ check hash = .ok () ∧
        ∃ rest, Base64Url.decode hash = .ok (0x12 :: 0x20 :: rest)) ∧
      (∀ v, hash = ofJson v ∨ hash = commitment v → IsSha256 hash) ∧
      ∀ did l s, LongForm.parse did = .ok l → InitialState.decode l.segment = .ok s →
        ((LongForm.resolve did).isOk = true ↔
          (PassesForSha256 s.suffixData.recoveryCommitment ∧
            PassesForSha256 s.delta.updateCommitment) ∧
          s.delta.check = .ok () ∧ verify s.delta.toJson s.suffixData.deltaHash = .ok () ∧
            s.suffixData.suffix = l.suffix) := by
  refine ⟨check_eq_ok_iff_passes, isSha256_iff, ?_, fun did l s hl hs => resolve_isOk_iff hl hs⟩
  rintro v (rfl | rfl)
  · exact isSha256_multihash _
  · exact isSha256_multihash _

/-- The code of SHA-256 and a digest of no octets. -/
def emptyHash : String := "EgA"

theorem check_emptyHash : check emptyHash = .ok () :=
  Outcome.toOption_eq_some.mp (by decide +kernel)

theorem not_isSha256_emptyHash : ¬ IsSha256 emptyHash := by
  have hoctets : Base64Url.decode emptyHash = .ok [0x12, 0x00] :=
    Outcome.toOption_eq_some.mp (by decide +kernel)
  intro h
  obtain ⟨-, rest, hrest⟩ := isSha256_iff.mp h
  have hsame := Except.ok.inj (hoctets.symm.trans hrest)
  simp at hsame

/-- A request without patches whose two commitments are the empty hash. -/
def emptyRequest : CreateRequest :=
  let delta : Delta := { updateCommitment := emptyHash }
  { suffixData := { deltaHash := delta.hash, recoveryCommitment := emptyHash }, delta }

theorem check_emptyRequest : emptyRequest.delta.check = .ok () := by
  have hsorted : emptyRequest.delta.toJson.sorted =
      .object [("patches", .array []), ("updateCommitment", .string "EgA")] := by
    simp [emptyRequest, emptyHash, Delta.toJson, Json.sortedObject, Json.sortedMembers,
      Json.sortMembers, List.mergeSort, List.MergeSort.Internal.splitInTwo, Utf16.le, Utf16.units,
      Utf16.unitsOfChar, Utf16.listLe]
  have hsize : ¬ emptyRequest.delta.size > Delta.maxSize := by
    rw [Delta.size, Json.canonicalBytes, Json.canonical, hsorted, Bytes.ofString_ofList]
    decide +kernel
  exact if_neg hsize

theorem check_forms_emptyHash :
    check emptyHash = .ok () ∧ PassesForSha256 emptyHash ∧ (∀ v, emptyHash ≠ commitment v) ∧
      ∃ did l s, LongForm.parse did = .ok l ∧ InitialState.decode l.segment = .ok s ∧
        (LongForm.resolve did).isOk = true ∧ s.suffixData.recoveryCommitment = emptyHash ∧
          s.delta.updateCommitment = emptyHash := by
  obtain ⟨haccepted, -, hwritten, hresolves⟩ := check_forms emptyHash
  have hpasses := haccepted.mp check_emptyHash
  have hnetwork : ∀ n ∈ (none : Option String), n ≠ "" → IsNetwork n := nofun
  have hparse := LongForm.parse_longForm hnetwork emptyRequest
  have hdecode : InitialState.decode (InitialState.ofRequest emptyRequest).encode =
      .ok (InitialState.ofRequest emptyRequest) :=
    InitialState.decode_encode (s := InitialState.ofRequest emptyRequest) nofun nofun (by decide)
  have hsuffix : ∀ c ∈ emptyRequest.suffix.toList, Base64Url.isDigit c = true :=
    fun c => Base64Url.isDigit_of_mem_encode
  refine ⟨check_emptyHash, hpasses, ?_, _, _, _, hparse, hdecode, ?_, rfl, rfl⟩
  · exact fun v h => not_isSha256_emptyHash (hwritten v (Or.inr h))
  · exact (hresolves _ _ _ hparse hdecode).mpr ⟨⟨hpasses, hpasses⟩, check_emptyRequest,
      verify_ofJson _, (LongForm.suffix_append hsuffix _).symm⟩

/-- A text can pass the check without being a hash. -/
theorem not_forall_isSha256_of_check : ¬ ∀ hash : String, check hash = .ok () ↔ IsSha256 hash :=
  fun h => not_isSha256_emptyHash ((h emptyHash).mp check_emptyHash)

end DidMethods.ContentHash
