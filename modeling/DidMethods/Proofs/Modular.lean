import DidMethods.Curve.Modular
import Mathlib.Data.List.Prime
import Mathlib.FieldTheory.Finite.Basic
import Mathlib.NumberTheory.LucasPrimality
import Mathlib.Tactic.NormNum.Prime

/-!
# Powers modulo a prime

Powers by squaring are powers (`DidMethods.Curve.power_eq`), so that a few powers tell that a number
is prime: some other number has an order that it can only have modulo a prime
(`DidMethods.Curve.prime_of_powers`). One power of a square is a root of it, where the prime is
three modulo four (`DidMethods.Curve.power_root`).
-/

namespace DidMethods.Curve

/-! ### Squaring -/

/-- What has been multiplied so far, times the power that is left. -/
theorem powerOnto_eq {m acc base e : Nat} (hacc : acc % m = acc) :
    powerOnto m acc base e = acc * base ^ e % m := by
  fun_induction powerOnto m acc base e with
  | case1 acc base => rw [pow_zero, mul_one, hacc]
  | case2 acc base e he next ih =>
    have hsquare : base ^ e = base ^ (e % 2) * (base * base) ^ (e / 2) := by
      rw [← pow_two, ← pow_mul, ← pow_add, Nat.mod_add_div]
    by_cases hodd : e % 2 = 1
    · have hnext : next = acc * base % m := if_pos hodd
      rw [ih (by rw [hnext, Nat.mod_mod]), hnext, hsquare, hodd, pow_one, ← mul_assoc]
      exact Nat.ModEq.mul (Nat.mod_modEq _ _) ((Nat.mod_modEq _ _).pow _)
    · have hnext : next = acc := if_neg hodd
      rw [ih (by rw [hnext, hacc]), hnext, hsquare, Nat.mod_two_ne_one.mp hodd, pow_zero, one_mul]
      exact Nat.ModEq.mul_left _ ((Nat.mod_modEq _ _).pow _)

/-- **Powers by squaring are powers.** -/
theorem power_eq (m b e : Nat) : power m b e = b ^ e % m := by
  rw [power, powerOnto_eq (Nat.mod_mod _ _)]
  have hone : 1 % m * (b % m) ^ e ≡ 1 * b ^ e [MOD m] :=
    (Nat.mod_modEq _ _).mul ((Nat.mod_modEq _ _).pow _)
  rwa [one_mul] at hone

theorem power_lt {m : Nat} (hm : 0 < m) (b e : Nat) : power m b e < m := by
  rw [power_eq]
  exact Nat.mod_lt _ hm

/-! ### Primes -/

/-- A power that is computed is the power among the residues. -/
theorem cast_power (p a e : Nat) : (power p a e : ZMod p) = (a : ZMod p) ^ e := by
  rw [power_eq, ZMod.natCast_mod, Nat.cast_pow]

/-- A power that is one among the residues is computed to be one. -/
theorem power_eq_one {p a e : Nat} (hp : 1 < p) (h : (a : ZMod p) ^ e = 1) : power p a e = 1 := by
  have hcast : (power p a e : ZMod p) = (1 : Nat) := by rw [cast_power, h, Nat.cast_one]
  have hmod : power p a e ≡ 1 [MOD p] := (ZMod.natCast_eq_natCast_iff _ _ _).mp hcast
  exact hmod.eq_of_lt_of_lt (power_lt (by omega) _ _) hp

/-- **A number is prime if some power is one no sooner than it has to be.** It is enough to look at
the prime factors of its predecessor. -/
theorem prime_of_powers {p : Nat} (a : Nat) (factors : List Nat) (hp : 1 < p)
    (hfactors : ∀ q ∈ factors, q.Prime) (hprod : factors.prod = p - 1)
    (hone : power p a (p - 1) = 1) (hne : ∀ q ∈ factors, power p a ((p - 1) / q) ≠ 1) :
    p.Prime := by
  refine lucas_primality p (a : ZMod p) ?_ ?_
  · rw [← cast_power, hone, Nat.cast_one]
  · intro q hq hdvd hpow
    rw [← hprod] at hdvd
    obtain ⟨r, hr, hqr⟩ := (Prime.dvd_prod_iff hq.prime).mp hdvd
    obtain rfl := (Nat.prime_dvd_prime_iff_eq hq (hfactors r hr)).mp hqr
    exact hne q hr (power_eq_one hp hpow)

/-! ### Opposite residues -/

/-- Opposite residues have the same square. -/
theorem mul_self_mod_eq {m r s : Nat} (h : r + s = m) : s * s % m = r * r % m := by
  have hsum : s * s + m * r = r * r + m * s := by
    subst h
    ring
  calc s * s % m = (s * s + m * r) % m := (Nat.add_mul_mod_self_left _ _ _).symm
    _ = (r * r + m * s) % m := by rw [hsum]
    _ = r * r % m := Nat.add_mul_mod_self_left _ _ _

/-- The opposite of a residue that is not zero. -/
theorem sub_zero_left {p r : Nat} (hr : r < p) (hne : r ≠ 0) : sub p 0 r = p - r := by
  rw [sub, Nat.zero_add, Nat.mod_eq_of_lt (by omega)]

/-! ### Square roots -/

/-- **A power of a square is a root of it**, or the opposite of one, if the prime is three modulo
four: by Fermat's theorem the power squared is the square times one. -/
theorem power_root {p y c : Nat} (hp : p.Prime) (hfour : p % 4 = 3) (hlt : y < p) (hne : y ≠ 0)
    (hc : y * y % p = c) :
    power p c ((p + 1) / 4) = y ∨ power p c ((p + 1) / 4) = p - y := by
  have : Fact p.Prime := ⟨hp⟩
  have hroot := power_lt hp.pos c ((p + 1) / 4)
  have hcast : (power p c ((p + 1) / 4) : ZMod p) = (y : ZMod p) ^ (2 * ((p + 1) / 4)) := by
    rw [cast_power, ← hc, ZMod.natCast_mod, Nat.cast_mul, ← pow_two, ← pow_mul]
  have hy : (y : ZMod p) ≠ 0 := fun hzero =>
    hne (Nat.eq_zero_of_dvd_of_lt ((ZMod.natCast_eq_zero_iff _ _).mp hzero) hlt)
  have hsquare : (power p c ((p + 1) / 4) : ZMod p) * (power p c ((p + 1) / 4) : ZMod p) =
      (y : ZMod p) * (y : ZMod p) := by
    have hexp : 2 * ((p + 1) / 4) + 2 * ((p + 1) / 4) = (p - 1) + 2 := by omega
    rw [hcast, ← pow_add, hexp, pow_add, ZMod.pow_card_sub_one_eq_one hy, one_mul, pow_two]
  have hnat : ∀ {m : Nat}, m < p → (power p c ((p + 1) / 4) : ZMod p) = (m : ZMod p) →
      power p c ((p + 1) / 4) = m := fun hm h =>
    ((ZMod.natCast_eq_natCast_iff _ _ _).mp h).eq_of_lt_of_lt hroot hm
  rcases mul_self_eq_mul_self_iff.mp hsquare with h | h
  · exact Or.inl (hnat hlt h)
  · refine Or.inr (hnat (by omega) ?_)
    rw [h, Nat.cast_sub hlt.le, ZMod.natCast_self, zero_sub]

end DidMethods.Curve
