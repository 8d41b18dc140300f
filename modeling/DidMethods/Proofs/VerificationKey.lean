import DidMethods.Key.Verify
import DidMethods.Proofs.KeyDocument

/-!
# Keys that signatures are checked with

A public key is read in two places. Whoever checks a signature reads it to see whether the signature
is one of the key (`DidMethods.Jwk.verify`); whoever writes the key as octets, for a multikey or for
a DID, reads it to see whether it is a key at all (`DidMethods.Multikey.ofJwk`). A check gets as far
as the signature, and its outcome is a verdict on it (`DidMethods.Jwk.IsVerdict`), exactly if the
key is one for signatures and can be written, or if it is miscut (`DidMethods.Jwk.verdict_iff`).

A miscut key (`DidMethods.Jwk.IsMiscut`) has the two coordinates of a point of secp256k1, but what
belongs to the one of them is in the member of the other. Writing the key wants each coordinate as
long as the field does; a check puts the two together before it reads them, so that it does not see
where they were cut. The signatures of a point are thus accepted under sixty-four more keys, each of
which has a name of its own (`DidMethods.Jwk.IsMiscut.exists_writable`), and none of which can be
written (`DidMethods.Jwk.IsMiscut.not_isWritable`).
-/

namespace DidMethods

/-- A key is of no algorithm for one reason only. -/
theorem Algorithm.failsOnly_ofJwk (j : Jwk) : (ofJwk j).FailsOnly [.unsupportedAlgorithm] := by
  have hcode : Code.unsupportedAlgorithm ∈ [Code.unsupportedAlgorithm] :=
    List.mem_singleton_self _
  cases j with
  | okp k =>
    exact (Outcome.failsOnly_ok _).ite ((Outcome.failsOnly_ok _).ite
      (Outcome.failsOnly_fail hcode _))
  | ec k => exact (Outcome.failsOnly_ok _).ite (Outcome.failsOnly_fail hcode _)
  | oct k => exact Outcome.failsOnly_fail hcode _
  | rsa k => exact Outcome.failsOnly_fail hcode _

namespace Jwk

/-! ### Outcomes about the signature -/

/-- The outcome is about the signature: it verifies, or it is the signature that fails. -/
def IsVerdict (x : Outcome Unit) : Prop :=
  x = .ok () ∨ ∃ f, x = .error f ∧ f.code = .verificationFailed

section Verdict

variable {α : Type} {c : Code} {s : String} {x : Outcome Unit}

theorem isVerdict_ok : IsVerdict (.ok ()) :=
  Or.inl rfl

theorem isVerdict_fail : IsVerdict (fail c s) ↔ c = .verificationFailed := by
  constructor
  · rintro (h | ⟨f, h, hcode⟩)
    · cases h
    · obtain rfl := Except.error.inj h
      exact hcode
  · exact fun hc => Or.inr ⟨_, rfl, hc⟩

/-- A step that does not look at the signature has to be successful. -/
theorem isVerdict_bind {y : Outcome α} {f : α → Outcome Unit} {codes : List Code}
    (hy : y.FailsOnly codes) (hcodes : .verificationFailed ∉ codes) :
    IsVerdict (y >>= f) ↔ ∃ a, y = .ok a ∧ IsVerdict (f a) := by
  cases y with
  | error e =>
    refine iff_of_false ?_ (by simp)
    rintro (h | ⟨f, h, hcode⟩)
    · cases h
    · obtain rfl := Except.error.inj h
      exact hcodes (hcode ▸ hy _ rfl)
  | ok a => simp

/-- A check that does not look at the signature has to be passed. -/
theorem isVerdict_ite_fail {p : Prop} [Decidable p] (hc : c ≠ .verificationFailed) :
    IsVerdict (if p then fail c s else x) ↔ ¬ p ∧ IsVerdict x := by
  by_cases hp : p
  · simp [hp, isVerdict_fail, hc]
  · simp [hp]

end Verdict

/-! ### Keys that can be written -/

/-- The key is for signatures. -/
def IsSigning (j : Jwk) : Prop :=
  ∃ algorithm, Algorithm.ofJwk j = .ok algorithm ∧ algorithm.jose?.isSome = true

/-- The key can be written as octets, and these are a public key. -/
def IsWritable (j : Jwk) : Prop :=
  ∃ codec key, Multikey.ofJwk j = .ok (codec, key) ∧ Multikey.validate codec key = .ok ()

/-- The members of the key are the coordinates of a point, one behind the other, but they are not
cut where the one coordinate ends and the other begins. -/
def IsMiscut : Jwk → Prop
  | ec k => k.crv = "secp256k1" ∧ ∃ x y, Base64Url.decode k.x = .ok x ∧
      Base64Url.decode k.y = .ok y ∧ x.length ≠ 32 ∧
      ∃ P : Secp256k1.Point, P.onCurve = true ∧ x ++ y = P.xBytes ++ P.yBytes
  | _ => False

/-- The members of the key are the numbers that its kind of key has, in full length. -/
def HasFullLength : Jwk → Prop
  | okp k => ∃ x, Base64Url.decode k.x = .ok x ∧ x.length = 32
  | ec k => ∃ x y, Base64Url.decode k.x = .ok x ∧ Base64Url.decode k.y = .ok y ∧
      x.length = 32 ∧ y.length = 32
  | _ => False

section Keys

variable {j : Jwk} {message signature : Bytes}

theorem isSigning_okp {k : Okp} : (okp k).IsSigning ↔ k.crv = "Ed25519" := by
  rw [IsSigning, Algorithm.ofJwk]
  split
  · next h => exact iff_of_true ⟨_, rfl, rfl⟩ h
  · next h =>
    refine iff_of_false ?_ h
    rintro ⟨algorithm, halgorithm, hjose⟩
    split at halgorithm
    · obtain rfl := Except.ok.inj halgorithm
      cases hjose
    · cases halgorithm

theorem isSigning_ec {k : Ec} : (ec k).IsSigning ↔ k.crv = "secp256k1" := by
  rw [IsSigning, Algorithm.ofJwk]
  split
  · next h => exact iff_of_true ⟨_, rfl, rfl⟩ h
  · next h =>
    refine iff_of_false ?_ h
    rintro ⟨algorithm, halgorithm, -⟩
    cases halgorithm

/-- A key of Ed25519 can be written if its octets are a point. -/
theorem isWritable_okp {k : Okp} (hcrv : k.crv = "Ed25519") :
    (okp k).IsWritable ↔ ∃ bytes, Base64Url.decode k.x = .ok bytes ∧ bytes.length = 32 ∧
      (Edwards25519.decompress? bytes).isSome = true := by
  have hcodec : Multikey.okpCodec k.crv = .ok Codec.ed25519 := if_pos hcrv
  constructor
  · rintro ⟨codec, key, hkey, hvalid⟩
    obtain ⟨hfound, hoctets, hlength⟩ := Multikey.ofJwk_okp_eq_ok.mp hkey
    obtain rfl := Except.ok.inj (hcodec.symm.trans hfound)
    exact ⟨key, hoctets, hlength, Multikey.validate_eq_ok.mp hvalid⟩
  · rintro ⟨bytes, hoctets, hlength, hpoint⟩
    exact ⟨Codec.ed25519, bytes, Multikey.ofJwk_okp_eq_ok.mpr ⟨hcodec, hoctets, hlength⟩,
      Multikey.validate_eq_ok.mpr hpoint⟩

/-- A key of secp256k1 can be written if its members are the coordinates of a point. -/
theorem isWritable_ec {k : Ec} :
    (ec k).IsWritable ↔ k.crv = "secp256k1" ∧ ∃ P : Secp256k1.Point, P.onCurve = true ∧
      Base64Url.decode k.x = .ok P.xBytes ∧ Base64Url.decode k.y = .ok P.yBytes := by
  constructor
  · rintro ⟨codec, key, hkey, -⟩
    obtain ⟨hcrv, P, hcurve, hx, hy, -⟩ := Multikey.ofJwk_ec_eq_ok.mp hkey
    exact ⟨hcrv, P, hcurve, hx, hy⟩
  · rintro ⟨hcrv, P, hcurve, hx, hy⟩
    refine ⟨_, _, Multikey.ofJwk_ec_eq_ok.mpr ⟨hcrv, P, hcurve, hx, hy, rfl, rfl⟩, ?_⟩
    rw [Multikey.validate_eq_ok, Multikey.isValid_secp256k1, Secp256k1.decode?_compress hcurve]
    rfl

/-- The keys that can be written are the ones that have a DID. -/
theorem isWritable_iff_exists_didOfKey :
    j.IsWritable ↔ ∃ did, KeyMethod.didOfKey j = .ok did := by
  constructor
  · rintro ⟨codec, key, hkey, hvalid⟩
    exact ⟨_, KeyMethod.didOfKey_of_ofJwk hkey (Multikey.length_of_ofJwk hkey)
      (Multikey.validate_eq_ok.mp hvalid)⟩
  · rintro ⟨did, hdid⟩
    obtain ⟨codec, key, hkey, hvalid, -⟩ := KeyMethod.didOfKey_eq_ok hdid
    exact ⟨codec, key, hkey, Multikey.validate_eq_ok.mpr hvalid⟩

theorem IsWritable.hasFullLength (h : j.IsWritable) : j.HasFullLength := by
  cases j with
  | okp k =>
    obtain ⟨codec, key, hkey, -⟩ := h
    obtain ⟨hcodec, hoctets, hlength⟩ := Multikey.ofJwk_okp_eq_ok.mp hkey
    obtain ⟨-, rfl⟩ | ⟨-, rfl⟩ := Multikey.okpCodec_eq_ok hcodec
    · exact ⟨key, hoctets, hlength⟩
    · exact ⟨key, hoctets, hlength⟩
  | ec k =>
    obtain ⟨-, P, -, hx, hy⟩ := isWritable_ec.mp h
    exact ⟨_, _, hx, hy, P.length_xBytes, P.length_yBytes⟩
  | oct k => obtain ⟨codec, key, hkey, -⟩ := h; cases hkey
  | rsa k => obtain ⟨codec, key, hkey, -⟩ := h; cases hkey

/-! ### What it takes for a verdict -/

/-- Only a key for signatures leads to a verdict. -/
theorem IsVerdict.isSigning (h : IsVerdict (j.verify message signature)) : j.IsSigning := by
  rw [verify, isVerdict_bind (Algorithm.failsOnly_ofJwk j) (by decide)] at h
  obtain ⟨algorithm, halgorithm, h⟩ := h
  cases algorithm with
  | ed25519 => exact ⟨_, halgorithm, rfl⟩
  | secp256k1 => exact ⟨_, halgorithm, rfl⟩
  | x25519 => exact absurd (isVerdict_fail.mp h) (by decide)

theorem isVerdict_verifyEd25519 {k : Okp} :
    IsVerdict (verifyEd25519 k message signature) ↔ ∃ bytes, Base64Url.decode k.x = .ok bytes ∧
      bytes.length = 32 ∧ (Edwards25519.decompress? bytes).isSome = true := by
  rw [verifyEd25519, isVerdict_bind (Base64Url.failsOnly_decode k.x) (by decide)]
  refine exists_congr fun bytes => and_congr_right fun _ => ?_
  refine (isVerdict_ite_fail (by decide)).trans (and_congr not_not ?_)
  cases Edwards25519.decompress? bytes with
  | none => exact iff_of_false (fun h => absurd (isVerdict_fail.mp h) (by decide)) (by decide)
  | some key =>
    refine iff_of_true ?_ rfl
    dsimp only
    split
    · exact isVerdict_fail.mpr rfl
    · cases Ed25519.verify key bytes message signature with
      | valid => exact isVerdict_ok
      | scalarOutOfRange => exact isVerdict_fail.mpr rfl
      | mismatch => exact isVerdict_fail.mpr rfl

theorem isVerdict_verifySecp256k1 {k : Ec} :
    IsVerdict (verifySecp256k1 k message signature) ↔ ∃ x, Base64Url.decode k.x = .ok x ∧
      ∃ y, Base64Url.decode k.y = .ok y ∧
        (Secp256k1.decode? (4 :: (x ++ y))).isSome = true := by
  rw [verifySecp256k1, isVerdict_bind (Base64Url.failsOnly_decode k.x) (by decide)]
  refine exists_congr fun x => and_congr_right fun _ => ?_
  rw [isVerdict_bind (Base64Url.failsOnly_decode k.y) (by decide)]
  refine exists_congr fun y => and_congr_right fun _ => ?_
  cases Secp256k1.decode? (4 :: (x ++ y)) with
  | none => exact iff_of_false (fun h => absurd (isVerdict_fail.mp h) (by decide)) (by decide)
  | some key =>
    refine iff_of_true ?_ rfl
    dsimp only
    split
    · split
      · exact isVerdict_ok
      · exact isVerdict_fail.mpr rfl
    · exact isVerdict_fail.mpr rfl

/-- The check of an Ed25519 signature comes to the signature if the key can be written. -/
theorem isVerdict_okp {k : Okp} (hcrv : k.crv = "Ed25519") :
    IsVerdict ((okp k).verify message signature) ↔ (okp k).IsWritable := by
  have hverify : (okp k).verify message signature = verifyEd25519 k message signature := by
    rw [verify, Algorithm.ofJwk, if_pos hcrv]
    rfl
  rw [hverify, isVerdict_verifyEd25519, isWritable_okp hcrv]

theorem verify_ec {k : Ec} (hcrv : k.crv = "secp256k1") (message signature : Bytes) :
    (ec k).verify message signature = verifySecp256k1 k message signature := by
  rw [verify, Algorithm.ofJwk, if_pos hcrv]
  rfl

/-- **The check of a secp256k1 signature comes to the signature** if the two members together are a
point. They need not be cut where its coordinates meet. -/
theorem isVerdict_ec {k : Ec} (hcrv : k.crv = "secp256k1") :
    IsVerdict ((ec k).verify message signature) ↔ (ec k).IsWritable ∨ (ec k).IsMiscut := by
  rw [verify_ec hcrv, isVerdict_verifySecp256k1]
  constructor
  · rintro ⟨x, hx, y, hy, hpoint⟩
    obtain ⟨P, hP⟩ := Option.isSome_iff_exists.mp hpoint
    obtain ⟨hcurve, hboth⟩ := Secp256k1.decode?_four_eq_some.mp hP
    by_cases hlength : x.length = 32
    · obtain ⟨hxBytes, hyBytes⟩ := List.append_inj hboth (hlength.trans P.length_xBytes.symm)
      rw [hxBytes] at hx
      rw [hyBytes] at hy
      exact Or.inl (isWritable_ec.mpr ⟨hcrv, P, hcurve, hx, hy⟩)
    · exact Or.inr ⟨hcrv, x, y, hx, hy, hlength, P, hcurve, hboth⟩
  · rintro (hwritable | ⟨-, x, y, hx, hy, -, P, hcurve, hboth⟩)
    · obtain ⟨-, P, hcurve, hx, hy⟩ := isWritable_ec.mp hwritable
      have hP := Secp256k1.decode?_four_eq_some.mpr ⟨hcurve, rfl⟩
      exact ⟨_, hx, _, hy, Option.isSome_iff_exists.mpr ⟨P, hP⟩⟩
    · have hP := Secp256k1.decode?_four_eq_some.mpr ⟨hcurve, hboth⟩
      exact ⟨x, hx, y, hy, Option.isSome_iff_exists.mpr ⟨P, hP⟩⟩

/-! ### Miscut keys -/

theorem IsMiscut.not_isWritable (h : j.IsMiscut) : ¬ j.IsWritable := by
  cases j with
  | ec k =>
    obtain ⟨-, x, -, hx, -, hlength, -⟩ := h
    intro hwritable
    obtain ⟨-, P, -, hxBytes, -⟩ := isWritable_ec.mp hwritable
    have hsame : x = P.xBytes := Except.ok.inj (hx.symm.trans hxBytes)
    exact hlength ((congrArg List.length hsame).trans P.length_xBytes)
  | okp k => exact h.elim
  | oct k => exact h.elim
  | rsa k => exact h.elim

/-- A check does not see where the two members were cut. -/
theorem verify_ec_congr {k k' : Ec} {x y x' y' : Bytes} (hcrv : k.crv = "secp256k1")
    (hcrv' : k'.crv = "secp256k1") (hx : Base64Url.decode k.x = .ok x)
    (hy : Base64Url.decode k.y = .ok y) (hx' : Base64Url.decode k'.x = .ok x')
    (hy' : Base64Url.decode k'.y = .ok y') (h : x ++ y = x' ++ y') (message signature : Bytes) :
    (ec k).verify message signature = (ec k').verify message signature := by
  rw [verify_ec hcrv, verify_ec hcrv', verifySecp256k1, verifySecp256k1, hx, hx', Outcome.ok_bind,
    Outcome.ok_bind, hy, hy', Outcome.ok_bind, Outcome.ok_bind, h]

/-- **A miscut key is another key for the signatures of a key that can be written.** -/
theorem IsMiscut.exists_writable (h : j.IsMiscut) : ∃ k : Jwk, k.IsWritable ∧
    k.canonical ≠ j.canonical ∧
    ∀ message signature, k.verify message signature = j.verify message signature := by
  cases j with
  | ec k =>
    obtain ⟨hcrv, x, y, hx, hy, hlength, P, hcurve, hboth⟩ := h
    have hxBytes := Base64Url.decode_encode P.xBytes
    have hyBytes := Base64Url.decode_encode P.yBytes
    refine ⟨Multikey.pointJwk P, isWritable_ec.mpr ⟨rfl, P, hcurve, hxBytes, hyBytes⟩, ?_, ?_⟩
    · intro hsame
      -- the first coordinate would be as long as the field wants it
      have hmember : Base64Url.encode P.xBytes = k.x := (Ec.mk.inj (ec.inj hsame)).2.1
      rw [← hmember, hxBytes] at hx
      have hcut : P.xBytes = x := Except.ok.inj hx
      exact hlength ((congrArg List.length hcut).symm.trans P.length_xBytes)
    · exact verify_ec_congr rfl hcrv hxBytes hyBytes hx hy hboth.symm
  | okp k => exact h.elim
  | oct k => exact h.elim
  | rsa k => exact h.elim

end Keys

/-- **Verification and writing agree on keys, but for the place where coordinates are cut.** The
check of a signature comes to the signature exactly if the key is for signatures and can be written,
or is miscut; so what becomes of the key does not depend on message and signature. The keys that can
be written are those that have a DID, and their members have their full length. A miscut key cannot
be written, and its signatures are those of another key, which can. -/
theorem verdict_iff (j : Jwk) (message signature : Bytes) :
    (IsVerdict (j.verify message signature) ↔ j.IsSigning ∧ (j.IsWritable ∨ j.IsMiscut)) ∧
      (j.IsWritable ↔ ∃ did, KeyMethod.didOfKey j = .ok did) ∧
      (j.IsWritable → j.HasFullLength) ∧
      (j.IsMiscut → ¬ j.IsWritable ∧ ∃ k : Jwk, k.IsWritable ∧ k.canonical ≠ j.canonical ∧
        ∀ message signature, k.verify message signature = j.verify message signature) := by
  refine ⟨?_, isWritable_iff_exists_didOfKey, IsWritable.hasFullLength,
    fun h => ⟨h.not_isWritable, h.exists_writable⟩⟩
  cases j with
  | okp k =>
    constructor
    · intro h
      exact ⟨h.isSigning, Or.inl ((isVerdict_okp (isSigning_okp.mp h.isSigning)).mp h)⟩
    · rintro ⟨hsigning, hwritable | hmiscut⟩
      · exact (isVerdict_okp (isSigning_okp.mp hsigning)).mpr hwritable
      · exact hmiscut.elim
  | ec k =>
    constructor
    · intro h
      exact ⟨h.isSigning, (isVerdict_ec (isSigning_ec.mp h.isSigning)).mp h⟩
    · rintro ⟨hsigning, hkey⟩
      exact (isVerdict_ec (isSigning_ec.mp hsigning)).mpr hkey
  | oct k => exact ⟨fun h => absurd h.isSigning nofun, fun h => absurd h.1 nofun⟩
  | rsa k => exact ⟨fun h => absurd h.isSigning nofun, fun h => absurd h.1 nofun⟩

/-- A key of secp256k1 whose first member ends one octet before the first coordinate. -/
def miscutKey : Jwk :=
  .ec
    { crv := "secp256k1", x := "Hl2_Bwl3C1SxDGCFFzt06cNzWOccekNuGtLXtiCPEw",
      y := "QRIrCDMiywSEbSVKLV0mnSRHFhUMIWYRLpg4hQ_IvubU" }

/-- A signature of the text `payload` by this key. -/
def miscutSignature : Bytes :=
  [0xd0, 0x45, 0xf5, 0x9a, 0xd8, 0x0b, 0x06, 0xae, 0x7c, 0xce, 0x60, 0xc4, 0x10, 0x73, 0x2b, 0x6d,
    0x3d, 0x70, 0x4a, 0x2a, 0x86, 0x00, 0x75, 0x11, 0x1a, 0xf7, 0x92, 0xcc, 0xa1, 0x71, 0x89, 0xbf,
    0x78, 0xbf, 0x77, 0x02, 0x5a, 0x61, 0xa1, 0x9d, 0x26, 0x68, 0x29, 0xd1, 0x91, 0x45, 0x31, 0x9b,
    0x73, 0x5e, 0x8c, 0x36, 0xdc, 0xbc, 0x16, 0xf2, 0xd1, 0x46, 0x21, 0x6f, 0xbb, 0xea, 0x8e, 0x58]

theorem verify_miscutKey :
    miscutKey.verify (Bytes.ofString "payload") miscutSignature = .ok () :=
  Outcome.toOption_eq_some.mp (by decide +kernel)

theorem not_isWritable_miscutKey : ¬ miscutKey.IsWritable := by
  have hfails : (Multikey.ofJwk miscutKey).toOption = none := by decide +kernel
  rintro ⟨codec, key, hkey, -⟩
  rw [Outcome.toOption_eq_some.mpr hkey] at hfails
  cases hfails

theorem verdict_iff_miscutKey :
    miscutKey.IsSigning ∧ miscutKey.IsMiscut ∧ ∃ k : Jwk, k.IsWritable ∧
      k.canonical ≠ miscutKey.canonical ∧
      k.verify (Bytes.ofString "payload") miscutSignature = .ok () ∧
      ∃ did, KeyMethod.didOfKey k = .ok did := by
  obtain ⟨hverdict, -, -, hmiscut⟩ :=
    verdict_iff miscutKey (Bytes.ofString "payload") miscutSignature
  obtain ⟨hsigning, hkey⟩ := hverdict.mp (Or.inl verify_miscutKey)
  have hcut : miscutKey.IsMiscut := hkey.resolve_left not_isWritable_miscutKey
  obtain ⟨-, k, hwritable, hcanonical, hsame⟩ := hmiscut hcut
  obtain ⟨-, hdid, -⟩ := verdict_iff k (Bytes.ofString "payload") miscutSignature
  exact ⟨hsigning, hcut, k, hwritable, hcanonical, (hsame _ _).trans verify_miscutKey,
    hdid.mp hwritable⟩

/-- A signature can verify under a key that cannot be written. -/
theorem not_forall_isWritable_of_verdict :
    ¬ ∀ (j : Jwk) (message signature : Bytes),
      IsVerdict (j.verify message signature) → j.IsWritable :=
  fun h => not_isWritable_miscutKey (h miscutKey _ _ (Or.inl verify_miscutKey))

end Jwk

end DidMethods
