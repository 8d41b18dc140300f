import DidMethods.Key.Multikey
import DidMethods.Proofs.Base64Url
import DidMethods.Proofs.MultikeyWord
import DidMethods.Proofs.Outcome
import DidMethods.Proofs.Secp256k1

/-!
# Multikeys and JSON Web Keys

The octets of a valid key are a JSON Web Key, and this is the octets of a valid key again
(`DidMethods.Multikey.ofJwk_toJwk`). These are the same octets but for one spelling: a point of
secp256k1 behind a five is written behind its parity (`DidMethods.Multikey.Plain`).

In the other direction nothing but the defining members is kept: a JSON Web Key that can be written
as octets is read back as its canonical form (`DidMethods.Multikey.toJwk_of_ofJwk`), and the octets
are read back from the multikey that they are written as (`DidMethods.Multikey.decode_of_encode`).
-/

namespace DidMethods

namespace Multikey

/-! ### What can be read -/

theorem validate_eq_ok {codec : Codec} {key : Bytes} :
    validate codec key = .ok () ↔ isValid codec key = true := by
  rw [validate]
  split
  · next h => exact iff_of_true rfl h
  · next h => exact iff_of_false (fail_ne_ok _ _ _) h

/-! ### Keys and their octets -/

/-- The octets of a key are not a point behind a five. -/
def Plain (codec : Codec) (key : Bytes) : Prop :=
  codec = Codec.secp256k1 → key.head? ≠ some 5

/-- **A key of secp256k1 is written as octets exactly if its members are the coordinates of a
point**, each of them as long as the field wants it. -/
theorem ofJwk_ec_eq_ok {k : Jwk.Ec} {codec : Codec} {key : Bytes} :
    ofJwk (.ec k) = .ok (codec, key) ↔ k.crv = "secp256k1" ∧ ∃ P : Secp256k1.Point,
      P.onCurve = true ∧ Base64Url.decode k.x = .ok P.xBytes ∧
        Base64Url.decode k.y = .ok P.yBytes ∧ codec = Codec.secp256k1 ∧
        key = Secp256k1.compress P := by
  rw [ofJwk]
  constructor
  · intro h
    split at h
    · next hcrv =>
      obtain ⟨x, hx, h⟩ := Outcome.bind_eq_ok.mp h
      obtain ⟨y, hy, h⟩ := Outcome.bind_eq_ok.mp h
      obtain ⟨hlengths, h⟩ := Outcome.ite_fail_eq_ok.mp h
      obtain ⟨hcurve, h⟩ := Outcome.ite_fail_eq_ok.mp h
      obtain ⟨rfl, rfl⟩ := Prod.mk.inj (Except.ok.inj h)
      obtain ⟨hxlen, hylen⟩ := not_or.mp hlengths
      -- the coordinates have their full length, so that they are written as they were
      refine ⟨hcrv, ⟨Bytes.toNat x, Bytes.toNat y⟩, not_not.mp hcurve, ?_, ?_, rfl, rfl⟩
      · rw [hx, Secp256k1.Point.xBytes, Bytes.ofNat_toNat_of_length (not_not.mp hxlen)]
      · rw [hy, Secp256k1.Point.yBytes, Bytes.ofNat_toNat_of_length (not_not.mp hylen)]
    · cases h
  · rintro ⟨hcrv, P, hcurve, hx, hy, rfl, rfl⟩
    rw [if_pos hcrv, hx, Outcome.ok_bind, hy, Outcome.ok_bind, if_neg (by simp)]
    dsimp only
    rw [Secp256k1.Point.mk_toNat_bytes hcurve, if_neg (not_not.mpr hcurve)]
    rfl

/-- A key on a curve whose public keys are octets is written as these octets. -/
theorem ofJwk_okp_eq_ok {k : Jwk.Okp} {codec : Codec} {key : Bytes} :
    ofJwk (.okp k) = .ok (codec, key) ↔ okpCodec k.crv = .ok codec ∧
      Base64Url.decode k.x = .ok key ∧ key.length = codec.keyLength := by
  rw [ofJwk]
  constructor
  · intro h
    obtain ⟨found, hcodec, h⟩ := Outcome.bind_eq_ok.mp h
    obtain ⟨octets, hoctets, h⟩ := Outcome.bind_eq_ok.mp h
    obtain ⟨hlength, h⟩ := Outcome.ite_fail_eq_ok.mp h
    obtain ⟨rfl, rfl⟩ := Prod.mk.inj (Except.ok.inj h)
    exact ⟨hcodec, hoctets, not_not.mp hlength⟩
  · rintro ⟨hcodec, hoctets, hlength⟩
    rw [hcodec, Outcome.ok_bind, hoctets, Outcome.ok_bind, if_neg (not_not.mpr hlength)]
    rfl

/-- A key is written in as many octets as its codec says. -/
theorem length_of_ofJwk {j : Jwk} {codec : Codec} {key : Bytes}
    (h : ofJwk j = .ok (codec, key)) : key.length = codec.keyLength := by
  cases j with
  | okp k => exact (ofJwk_okp_eq_ok.mp h).2.2
  | ec k =>
    obtain ⟨-, P, -, -, -, rfl, rfl⟩ := ofJwk_ec_eq_ok.mp h
    simp [Secp256k1.compress, Codec.secp256k1]
  | oct k => cases h
  | rsa k => cases h

/-- A point of the curve is written compressed. -/
theorem ofJwk_pointJwk {P : Secp256k1.Point} (h : P.onCurve = true) :
    ofJwk (pointJwk P) = .ok (Codec.secp256k1, Secp256k1.compress P) :=
  ofJwk_ec_eq_ok.mpr
    ⟨rfl, P, h, Base64Url.decode_encode P.xBytes, Base64Url.decode_encode P.yBytes, rfl, rfl⟩

theorem toJwk_of_decode? {key : Bytes} {P : Secp256k1.Point} (h : Secp256k1.decode? key = some P) :
    toJwk Codec.secp256k1 key = .ok (pointJwk P) := by
  rw [toJwk, if_neg (by decide), if_neg (by decide), if_pos rfl, h]
  rfl

theorem isValid_secp256k1 (key : Bytes) :
    isValid Codec.secp256k1 key = (Secp256k1.decode? key).isSome := by
  rw [isValid, if_neg (by decide), if_pos rfl]

/-- **Keys come back from their JSON Web Keys**: a valid key is written as a valid and plain one,
and as itself exactly if it is plain. -/
theorem ofJwk_toJwk {codec : Codec} {key : Bytes} (hcodec : codec ∈ Codec.table)
    (hlen : key.length = codec.keyLength) (hvalid : isValid codec key = true) :
    ∃ jwk written, toJwk codec key = .ok jwk ∧ ofJwk jwk = .ok (codec, written) ∧
      written.length = codec.keyLength ∧ isValid codec written = true ∧ Plain codec written ∧
      (written = key ↔ Plain codec key) := by
  have hplain : codec ≠ Codec.secp256k1 → Plain codec key := fun hne h => absurd h hne
  simp only [Codec.table, List.mem_cons, List.not_mem_nil, or_false] at hcodec
  rcases hcodec with rfl | rfl | rfl
  · rw [isValid_secp256k1] at hvalid
    obtain ⟨P, hP⟩ := Option.isSome_iff_exists.mp hvalid
    have hwritten := Secp256k1.decode?_compress (Secp256k1.onCurve_of_decode? hlen hP)
    have hwrittenLen : (Secp256k1.compress P).length = 33 := by simp [Secp256k1.compress]
    refine ⟨pointJwk P, Secp256k1.compress P, toJwk_of_decode? hP,
      ofJwk_pointJwk (Secp256k1.onCurve_of_decode? hlen hP), hwrittenLen, ?_, ?_, ?_⟩
    · rw [isValid_secp256k1, hwritten]
      rfl
    · exact fun _ => (Secp256k1.compress_eq_iff hwrittenLen hwritten).mp rfl
    · rw [Secp256k1.compress_eq_iff hlen hP]
      exact ⟨fun h _ => h, fun h => h rfl⟩
  -- the other keys are octets in both forms
  · exact ⟨_, key, rfl, ofJwk_okp_eq_ok.mpr ⟨rfl, Base64Url.decode_encode key, hlen⟩, hlen, hvalid,
      hplain (by decide), iff_of_true rfl (hplain (by decide))⟩
  · exact ⟨_, key, rfl, ofJwk_okp_eq_ok.mpr ⟨rfl, Base64Url.decode_encode key, hlen⟩, hlen, hvalid,
      hplain (by decide), iff_of_true rfl (hplain (by decide))⟩

/-! ### From JSON Web Keys and back -/

/-- The type of a key that a multikey can write. -/
def codecOf? : Jwk → Option Codec
  | .okp k =>
    if k.crv = "Ed25519" then some Codec.ed25519
    else if k.crv = "X25519" then some Codec.x25519
    else none
  | .ec k => if k.crv = "secp256k1" then some Codec.secp256k1 else none
  | _ => none

theorem okpCodec_eq_ok {crv : String} {codec : Codec} (h : okpCodec crv = .ok codec) :
    crv = "Ed25519" ∧ codec = Codec.ed25519 ∨ crv = "X25519" ∧ codec = Codec.x25519 := by
  rw [okpCodec] at h
  split at h
  · next hcrv => exact Or.inl ⟨hcrv, (Except.ok.inj h).symm⟩
  · split at h
    · next hcrv => exact Or.inr ⟨hcrv, (Except.ok.inj h).symm⟩
    · cases h

/-- **A key that is written as octets is read back**, but for the members that do not define it. -/
theorem toJwk_of_ofJwk {j : Jwk} {codec : Codec} {key : Bytes} (h : ofJwk j = .ok (codec, key)) :
    codecOf? j = some codec ∧ codec ∈ Codec.table ∧ toJwk codec key = .ok j.canonical := by
  cases j with
  | okp k =>
    obtain ⟨hcodec, hoctets, -⟩ := ofJwk_okp_eq_ok.mp h
    have hx := Base64Url.encode_of_decode? (Base64Url.decode_eq_ok.mp hoctets)
    rcases okpCodec_eq_ok hcodec with ⟨hcrv, rfl⟩ | ⟨hcrv, rfl⟩
    · refine ⟨if_pos hcrv, by decide, ?_⟩
      rw [toJwk, if_pos rfl, hx, Jwk.canonical, hcrv]
    · refine ⟨(if_neg (by rw [hcrv]; decide)).trans (if_pos hcrv), by decide, ?_⟩
      rw [toJwk, if_neg (by decide), if_pos rfl, hx, Jwk.canonical, hcrv]
  | ec k =>
    obtain ⟨hcrv, P, hcurve, hx, hy, rfl, rfl⟩ := ofJwk_ec_eq_ok.mp h
    refine ⟨if_pos hcrv, by decide, ?_⟩
    rw [toJwk_of_decode? (Secp256k1.decode?_compress hcurve), pointJwk,
      Base64Url.encode_of_decode? (Base64Url.decode_eq_ok.mp hx),
      Base64Url.encode_of_decode? (Base64Url.decode_eq_ok.mp hy), Jwk.canonical, hcrv]
  | oct k => cases h
  | rsa k => cases h

end Multikey

end DidMethods
