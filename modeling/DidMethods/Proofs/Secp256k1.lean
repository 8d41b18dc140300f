import DidMethods.Curve.Secp256k1
import DidMethods.Proofs.Modular
import Mathlib.Tactic.LinearCombination

/-!
# Points of secp256k1 as octets

Every point of the curve is read back from the octets that it is written as
(`DidMethods.Secp256k1.decode?_compress`). Sixty-five octets that write a point are a four and its
two coordinates (`DidMethods.Secp256k1.decode?_four_eq_some`). Thirty-three octets that write a
point are these octets, with one exception: a point whose second coordinate is even can also stand
behind a five (`DidMethods.Secp256k1.eq_compress_or_compact`). The parity of the second coordinate
tells it from its opposite, because neither is zero: there is no cube root of minus seven
(`DidMethods.Secp256k1.cubic_ne_zero`), the field being one of a prime number of elements
(`DidMethods.Secp256k1.prime_p`).
-/

namespace DidMethods

/-! ### Numbers as octets -/

namespace Bytes

theorem toNat_concat (b : Bytes) (x : UInt8) : toNat (b ++ [x]) = toNat b * 256 + x.toNat := by
  rw [toNat, List.foldl_append]
  rfl

/-- A number that fits is read back. -/
theorem toNat_ofNat {len n : Nat} (h : n < 256 ^ len) : toNat (ofNat len n) = n := by
  induction len generalizing n with
  | zero =>
    rw [pow_zero, Nat.lt_one_iff] at h
    rw [h]
    rfl
  | succ len ih =>
    have hdiv : n / 256 < 256 ^ len := by
      rw [pow_succ] at h
      exact Nat.div_lt_of_lt_mul (by omega)
    rw [ofNat, toNat_concat, ih hdiv, UInt8.toNat_ofNat']
    omega

/-- Octets are written again from their number. -/
theorem ofNat_toNat (b : Bytes) : ofNat b.length (toNat b) = b := by
  induction b using List.reverseRecOn with
  | nil => rfl
  | append_singleton b x ih =>
    have hx : x.toNat < 256 := x.toNat_lt
    have hdiv : (toNat b * 256 + x.toNat) / 256 = toNat b := by omega
    have hlast : UInt8.ofNat (toNat b * 256 + x.toNat) = x := by
      rw [← UInt8.toNat_inj, UInt8.toNat_ofNat']
      omega
    rw [List.length_append, List.length_singleton, toNat_concat, ofNat, hdiv, ih, hlast]

theorem ofNat_toNat_of_length {len : Nat} {b : Bytes} (h : b.length = len) :
    ofNat len (toNat b) = b := by
  rw [← h, ofNat_toNat]

end Bytes

namespace Secp256k1

/-! ### The field -/

/-- **The field has a prime number of elements.** -/
theorem prime_p : p.Prime := by
  have h₁ : Nat.Prime 173378833005251801 :=
    Curve.prime_of_powers 6 [2, 2, 2, 5, 5, 2621, 24809, 13331831] (by norm_num)
      (by simp only [List.forall_mem_cons]; norm_num) (by norm_num) (by decide +kernel)
      (by decide +kernel)
  have h₂ : Nat.Prime 22149492674086928081353 :=
    Curve.prime_of_powers 5 [2, 2, 2, 3, 5323, 173378833005251801] (by norm_num)
      (by simp only [List.forall_mem_cons, h₁]; norm_num) (by norm_num) (by decide +kernel)
      (by decide +kernel)
  have h₃ : Nat.Prime 132896956044521568488119 :=
    Curve.prime_of_powers 6 [2, 3, 22149492674086928081353] (by norm_num)
      (by simp only [List.forall_mem_cons, h₂]; norm_num) (by norm_num) (by decide +kernel)
      (by decide +kernel)
  have h₄ : Nat.Prime 255515944373312847190720520512484175977 :=
    Curve.prime_of_powers 3
      [2, 2, 2, 7, 7, 11, 1627, 2657, 4423, 41201, 96557, 7240687, 107590001] (by norm_num)
      (by simp only [List.forall_mem_cons]; norm_num) (by norm_num) (by decide +kernel)
      (by decide +kernel)
  have h₅ : Nat.Prime 205115282021455665897114700593932402728804164701536103180137503955397371 :=
    Curve.prime_of_powers 10 [2, 3, 5, 29, 29, 31, 7723, 132896956044521568488119,
      255515944373312847190720520512484175977] (by norm_num)
      (by simp only [List.forall_mem_cons, h₃, h₄]; norm_num) (by norm_num) (by decide +kernel)
      (by decide +kernel)
  exact Curve.prime_of_powers 3 [2, 3, 7, 13441,
    205115282021455665897114700593932402728804164701536103180137503955397371] (by norm_num [p])
    (by simp only [List.forall_mem_cons, h₅]; norm_num) (by norm_num [p]) (by decide +kernel)
    (by decide +kernel)

/-- **No point is its own opposite**: minus seven is not a cube. If it was one, its power to a third
of the order of the field's group would be one. -/
theorem cubic_ne_zero (x : Nat) : cubic x ≠ 0 := by
  intro h
  have : Fact p.Prime := ⟨prime_p⟩
  have hcast : ((x * x % p * x + 7 : Nat) : ZMod p) = 0 := by
    rw [← ZMod.natCast_mod]
    exact congrArg Nat.cast h
  have hcube : (x : ZMod p) ^ 3 = ((p - 7 : Nat) : ZMod p) := by
    have hp : ((p - 7 + 7 : Nat) : ZMod p) = 0 := ZMod.natCast_self p
    push_cast at hcast hp
    rw [ZMod.natCast_mod] at hcast
    push_cast at hcast
    linear_combination hcast - hp
  have hx : (x : ZMod p) ≠ 0 := by
    intro hzero
    rw [hzero, zero_pow three_ne_zero] at hcube
    have hdvd : p ∣ p - 7 := (ZMod.natCast_eq_zero_iff _ _).mp hcube.symm
    exact absurd (Nat.le_of_dvd (by decide) hdvd) (by decide)
  have hone : ((p - 7 : Nat) : ZMod p) ^ ((p - 1) / 3) = 1 := by
    have hexp : 3 * ((p - 1) / 3) = p - 1 := by decide
    rw [← hcube, ← pow_mul, hexp]
    exact ZMod.pow_card_sub_one_eq_one hx
  exact absurd (Curve.power_eq_one prime_p.one_lt hone) (by decide +kernel)

/-! ### Points -/

theorem Point.onCurve_iff {P : Point} :
    P.onCurve = true ↔ P.x < p ∧ P.y < p ∧ P.y * P.y % p = cubic P.x := by
  rw [onCurve, Bool.and_eq_true, Bool.and_eq_true, decide_eq_true_iff, decide_eq_true_iff,
    beq_iff_eq, and_assoc]

/-- A square root, or else its opposite, has the parity that is asked for. -/
theorem root_of_parity {root c y : Nat} {odd : Bool} (hlt : root < p) (hne : root ≠ 0)
    (hroot : root * root % p = c)
    (hy : y = if (root % 2 == 1) == odd then root else Curve.sub p 0 root) :
    y < p ∧ y * y % p = c ∧ (y % 2 == 1) = odd := by
  have hp : p % 2 = 1 := by decide
  by_cases hparity : (root % 2 == 1) = odd
  · obtain rfl : y = root := hy.trans (if_pos (beq_iff_eq.mpr hparity))
    exact ⟨hlt, hroot, hparity⟩
  · obtain rfl : y = p - root :=
      (hy.trans (if_neg fun h => hparity (beq_iff_eq.mp h))).trans (Curve.sub_zero_left hlt hne)
    refine ⟨by omega, ?_, ?_⟩
    · rw [Curve.mul_self_mod_eq (Nat.add_sub_of_le hlt.le), hroot]
    · -- the field has an odd number of elements
      have hflip : (p - root) % 2 = 1 ↔ ¬ root % 2 = 1 := by omega
      cases odd <;> simp_all

/-- **The point that is found has the coordinate and the parity that were asked for.** -/
theorem lift?_eq_some {x : Nat} {odd : Bool} {P : Point} (h : lift? x odd = some P) :
    P.x = x ∧ P.onCurve = true ∧ (P.y % 2 == 1) = odd := by
  rw [lift?] at h
  split at h
  · cases h
  · next hx =>
    dsimp only at h
    split at h
    · next hsquare =>
      obtain rfl := Option.some.inj h
      have hne : Curve.power p (cubic x) ((p + 1) / 4) ≠ 0 := by
        intro hzero
        rw [hzero] at hsquare
        exact cubic_ne_zero x hsquare.symm
      obtain ⟨hy, hroot, hodd⟩ :=
        root_of_parity (Curve.power_lt prime_p.pos _ _) hne hsquare rfl
      exact ⟨rfl, Point.onCurve_iff.mpr ⟨Nat.lt_of_not_le hx, hy, hroot⟩, hodd⟩
    · cases h

/-- **Every point of the curve is found** by its first coordinate and the parity of its second. -/
theorem lift?_of_onCurve {P : Point} (h : P.onCurve = true) :
    lift? P.x (P.y % 2 == 1) = some P := by
  obtain ⟨hx, hy, hcurve⟩ := Point.onCurve_iff.mp h
  have hp : p % 2 = 1 := by decide
  have hne : P.y ≠ 0 := by
    intro hzero
    rw [hzero] at hcurve
    exact cubic_ne_zero P.x hcurve.symm
  have hroot := Curve.power_root prime_p (by decide) hy hne hcurve
  have hsquare : Curve.power p (cubic P.x) ((p + 1) / 4) *
      Curve.power p (cubic P.x) ((p + 1) / 4) % p = cubic P.x := by
    rcases hroot with hroot | hroot
    · rw [hroot, hcurve]
    · rw [hroot, Curve.mul_self_mod_eq (Nat.add_sub_of_le hy.le), hcurve]
  rw [lift?, if_neg (Nat.not_le.mpr hx)]
  dsimp only
  rw [if_pos hsquare, Option.some.injEq]
  -- one of the two roots has the parity of the second coordinate, and the other one has not
  rcases hroot with hroot | hroot
  · rw [hroot, if_pos (beq_self_eq_true _)]
  · have hflip : ((p - P.y) % 2 == 1) ≠ (P.y % 2 == 1) := by
      intro hsame
      have hiff : (p - P.y) % 2 = 1 ↔ P.y % 2 = 1 := by
        rw [← beq_iff_eq, hsame, beq_iff_eq]
      omega
    rw [hroot, if_neg (fun hsame => hflip (beq_iff_eq.mp hsame)),
      Curve.sub_zero_left (by omega) (by omega), Nat.sub_sub_self hy.le]

/-! ### Points as octets -/

@[simp] theorem Point.length_xBytes (P : Point) : P.xBytes.length = 32 :=
  Bytes.length_ofNat 32 P.x

@[simp] theorem Point.length_yBytes (P : Point) : P.yBytes.length = 32 :=
  Bytes.length_ofNat 32 P.y

/-- The coordinates of a point of the curve are read back from their octets. -/
theorem Point.mk_toNat_bytes {P : Point} (h : P.onCurve = true) :
    (⟨Bytes.toNat P.xBytes, Bytes.toNat P.yBytes⟩ : Point) = P := by
  obtain ⟨hx, hy, -⟩ := onCurve_iff.mp h
  have hp : p < 256 ^ 32 := by decide
  rw [xBytes, yBytes, Bytes.toNat_ofNat (hx.trans hp), Bytes.toNat_ofNat (hy.trans hp)]

/-- **Behind a four stand the two coordinates of a point of the curve**, one after the other. -/
theorem decode?_four_eq_some {bytes : Bytes} {P : Point} :
    decode? (4 :: bytes) = some P ↔ P.onCurve = true ∧ bytes = P.xBytes ++ P.yBytes := by
  rw [decode?, if_pos rfl]
  dsimp only
  constructor
  · intro h
    split at h
    · next hread =>
      obtain ⟨hlength, hcurve⟩ := hread
      obtain rfl := Option.some.inj h
      have hx : (bytes.take 32).length = 32 := by
        rw [List.length_take]
        omega
      have hy : (bytes.drop 32).length = 32 := by
        rw [List.length_drop]
        omega
      refine ⟨hcurve, ?_⟩
      rw [Point.xBytes, Point.yBytes, Bytes.ofNat_toNat_of_length hx,
        Bytes.ofNat_toNat_of_length hy, List.take_append_drop]
    · cases h
  · rintro ⟨hcurve, hbytes⟩
    have hlength : bytes.length = 64 := by
      rw [hbytes, List.length_append, Point.length_xBytes, Point.length_yBytes]
    have htake : bytes.take 32 = P.xBytes := by
      rw [hbytes, List.take_left' P.length_xBytes]
    have hdrop : bytes.drop 32 = P.yBytes := by
      rw [hbytes, List.drop_left' P.length_xBytes]
    rw [htake, hdrop, Point.mk_toNat_bytes hcurve, if_pos ⟨hlength, hcurve⟩]

/-- Thirty-three octets that write a point are a tag, which gives the parity of the second
coordinate, and the first coordinate. -/
theorem decode?_eq_some {bytes : Bytes} {P : Point} (hlen : bytes.length = 33)
    (h : decode? bytes = some P) :
    ∃ tag odd, bytes = tag :: P.xBytes ∧ lift? P.x odd = some P ∧
      (odd = false ∧ (tag = 2 ∨ tag = 5) ∨ odd = true ∧ tag = 3) := by
  cases bytes with
  | nil => cases h
  | cons tag rest =>
    have hrest : rest.length = 32 := by simpa using hlen
    have hx : ∀ odd, lift? (Bytes.toNat rest) odd = some P →
        tag :: rest = tag :: P.xBytes ∧ lift? P.x odd = some P := by
      intro odd hlift
      have hcoordinate : P.x = Bytes.toNat rest := (lift?_eq_some hlift).1
      rw [Point.xBytes, hcoordinate, ← hrest, Bytes.ofNat_toNat]
      exact ⟨rfl, hlift⟩
    have hnot : ¬ (rest.length = 64 ∧
        Point.onCurve ⟨Bytes.toNat (rest.take 32), Bytes.toNat (rest.drop 32)⟩ = true) := by
      rw [hrest]
      rintro ⟨hfull, -⟩
      exact absurd hfull (by decide)
    by_cases hfour : tag = 4
    · rw [decode?, if_pos hfour] at h
      dsimp only at h
      rw [if_neg hnot] at h
      cases h
    · rw [decode?, if_neg hfour, if_neg (not_not.mpr hrest)] at h
      split at h
      · next heven =>
        exact ⟨tag, false, (hx _ h).1, (hx _ h).2, Or.inl ⟨rfl, heven⟩⟩
      · split at h
        · next hodd =>
          exact ⟨tag, true, (hx _ h).1, (hx _ h).2, Or.inr ⟨rfl, hodd⟩⟩
        · cases h

/-- **What thirty-three octets can write a point as**: the way it is written, or, if its second
coordinate is even, with a five in front. -/
theorem eq_compress_or_compact {bytes : Bytes} {P : Point} (hlen : bytes.length = 33)
    (h : decode? bytes = some P) :
    bytes = compress P ∨ bytes = 5 :: P.xBytes ∧ P.y % 2 = 0 := by
  obtain ⟨tag, odd, rfl, hlift, ⟨rfl, rfl | rfl⟩ | ⟨rfl, rfl⟩⟩ := decode?_eq_some hlen h
  · have heven : P.y % 2 = 0 := by simpa using (lift?_eq_some hlift).2.2
    left
    rw [compress, if_pos heven, Point.xBytes]
  · exact Or.inr ⟨rfl, by simpa using (lift?_eq_some hlift).2.2⟩
  · have hodd : P.y % 2 = 1 := by simpa using (lift?_eq_some hlift).2.2
    left
    rw [compress, if_neg (by omega), Point.xBytes]

/-- A point is on the curve if thirty-three octets write it. -/
theorem onCurve_of_decode? {bytes : Bytes} {P : Point} (hlen : bytes.length = 33)
    (h : decode? bytes = some P) : P.onCurve = true := by
  obtain ⟨-, odd, -, hlift, -⟩ := decode?_eq_some hlen h
  exact (lift?_eq_some hlift).2.1

/-- **A point of the curve is read back from its octets.** -/
theorem decode?_compress {P : Point} (h : P.onCurve = true) : decode? (compress P) = some P := by
  have hx : P.x < 256 ^ 32 := (Point.onCurve_iff.mp h).1.trans (by decide)
  have hlift := lift?_of_onCurve h
  rw [compress, decode?]
  by_cases heven : P.y % 2 = 0
  · have hparity : (P.y % 2 == 1) = false := by rw [heven]; rfl
    rw [hparity] at hlift
    simp [heven, Bytes.toNat_ofNat hx, hlift]
  · have hparity : (P.y % 2 == 1) = true := beq_iff_eq.mpr (by omega)
    rw [hparity] at hlift
    simp [heven, Bytes.toNat_ofNat hx, hlift]

/-- **Only a five in front makes a difference** to the octets that the point is written as. -/
theorem compress_eq_iff {bytes : Bytes} {P : Point} (hlen : bytes.length = 33)
    (h : decode? bytes = some P) : compress P = bytes ↔ bytes.head? ≠ some 5 := by
  rcases eq_compress_or_compact hlen h with rfl | ⟨rfl, heven⟩
  · refine iff_of_true rfl ?_
    rw [compress]
    split <;> simp
  · refine iff_of_false ?_ (by simp)
    rw [compress, if_pos heven]
    simp

end Secp256k1

end DidMethods
