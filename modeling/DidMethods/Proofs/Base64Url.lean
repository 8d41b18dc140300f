import DidMethods.Proofs.Multiformat
import DidMethods.Text.Base64Url

/-!
# Reading back what was written in URL-safe base64

Writing octets in groups of `k` bits and reading the groups loses nothing
(`DidMethods.BitGroups.decode?_encode`), as long as a group is no longer than an octet: then the
zeros that fill up the last group are fewer than eight, so that they never make up an octet of their
own. For groups of six bits this is the round trip of URL-safe base64
(`DidMethods.Base64Url.decode?_encode`), and with it the fact that different octets have different
texts (`DidMethods.Base64Url.encode_injective`).

The converse holds as well, since what is left of the last group must be zeros: the groups that can
be read are the ones that are written (`DidMethods.BitGroups.encode_of_decode?`), so that octets
have one text (`DidMethods.Base64Url.encode_of_decode?`).
-/

namespace DidMethods

namespace BitGroups

/-! ### Bits and numbers -/

theorem foldl_value (bits : List Bool) (n : Nat) :
    bits.foldl (fun n b => 2 * n + b.toNat) n = n * 2 ^ bits.length + value bits := by
  induction bits generalizing n with
  | nil => simp [value]
  | cons b bits ih =>
    have hstep : value (b :: bits) = (2 * 0 + b.toNat) * 2 ^ bits.length + value bits := ih _
    rw [List.foldl_cons, ih, hstep, List.length_cons, Nat.pow_succ]
    grind

@[simp] theorem value_nil : value [] = 0 := rfl

@[simp] theorem value_cons (b : Bool) (bits : List Bool) :
    value (b :: bits) = b.toNat * 2 ^ bits.length + value bits := by
  have h := foldl_value bits (2 * 0 + b.toNat)
  simpa [value] using h

theorem value_lt (bits : List Bool) : value bits < 2 ^ bits.length := by
  induction bits with
  | nil => simp
  | cons b bits ih =>
    have hb : b.toNat * 2 ^ bits.length ≤ 1 * 2 ^ bits.length :=
      Nat.mul_le_mul_right _ (by cases b <;> decide)
    rw [value_cons, List.length_cons, Nat.pow_succ]
    omega

/-- The bits above the ones that are asked for do not count. -/
theorem bitsOf_add_mul (k m n : Nat) : bitsOf k (m * 2 ^ k + n) = bitsOf k n := by
  induction k generalizing m with
  | zero => rfl
  | succ k ih =>
    have hsplit : m * 2 ^ (k + 1) + n = (2 * m) * 2 ^ k + n := by
      rw [Nat.pow_succ]
      grind
    have hbit : ((2 * m) * 2 ^ k + n).testBit k = n.testBit k := by
      rw [Nat.testBit_eq_decide_div_mod_eq, Nat.testBit_eq_decide_div_mod_eq, Nat.add_comm,
        Nat.add_mul_div_right _ _ (Nat.two_pow_pos k), Nat.add_mul_mod_self_left]
    rw [hsplit, bitsOf, hbit, ih, bitsOf]

/-- The number that some bits write has these bits. -/
theorem bitsOf_value (bits : List Bool) : bitsOf bits.length (value bits) = bits := by
  induction bits with
  | nil => rfl
  | cons b bits ih =>
    have hlt := value_lt bits
    have htop : (b.toNat * 2 ^ bits.length + value bits).testBit bits.length = b := by
      cases b
      · simpa using Nat.testBit_lt_two_pow hlt
      · rw [Bool.toNat_true, Nat.one_mul, Nat.testBit_two_pow_add_eq, Nat.testBit_lt_two_pow hlt]
        rfl
    rw [value_cons, List.length_cons, bitsOf, htop, bitsOf_add_mul, ih]

/-- The bits of a number write it again, as far as they go. -/
theorem value_bitsOf (k n : Nat) : value (bitsOf k n) = n % 2 ^ k := by
  induction k with
  | zero => simp [bitsOf, Nat.mod_one]
  | succ k ih =>
    rw [bitsOf, value_cons, length_bitsOf, ih, Nat.mod_pow_succ, Nat.testBit_eq_decide_div_mod_eq]
    rcases Nat.mod_two_eq_zero_or_one (n / 2 ^ k) with h | h <;> simp [h, Nat.add_comm]

/-! ### Groups -/

theorem groups_of_ne_nil {k : Nat} {bits : List Bool} (hk : 0 < k) (hne : bits ≠ []) :
    groups k bits =
      (bits.take k ++ List.replicate (k - (bits.take k).length) false) ::
        groups k (bits.drop k) := by
  rw [groups, dif_neg]
  rintro (h | h)
  · exact hne h
  · omega

/-- Bits that make up a whole group come off the front. -/
theorem groups_append {k : Nat} {g rest : List Bool} (hk : 0 < k) (hg : g.length = k) :
    groups k (g ++ rest) = g :: groups k rest := by
  have hne : g ++ rest ≠ [] := by
    intro h
    have := congrArg List.length h
    simp only [List.length_append, List.length_nil] at this
    omega
  rw [groups_of_ne_nil hk hne, ← hg, List.take_left, List.drop_left]
  simp

/-- **Cutting into groups loses nothing.** The groups put together again are the bits and the zeros
that fill up the last group; each of the groups is whole. -/
theorem flatten_groups {k : Nat} (hk : 0 < k) (bits : List Bool) :
    (∃ z, z < k ∧ (groups k bits).flatten = bits ++ List.replicate z false) ∧
      ∀ g ∈ groups k bits, g.length = k := by
  by_cases hne : bits = []
  · subst hne
    exact ⟨⟨0, hk, by simp⟩, by simp⟩
  · have hpos : 0 < bits.length := List.length_pos_iff.mpr hne
    obtain ⟨⟨z, hz, hflat⟩, hlen⟩ := flatten_groups hk (bits.drop k)
    rw [groups_of_ne_nil hk hne]
    constructor
    · rcases Nat.lt_or_ge bits.length k with hshort | hlong
      · -- the last group, which is filled up
        have hdrop : bits.drop k = [] := List.drop_eq_nil_of_le (by omega)
        refine ⟨k - bits.length, by omega, ?_⟩
        rw [List.take_of_length_le (by omega), hdrop]
        simp
      · refine ⟨z, hz, ?_⟩
        have hfull : k - (bits.take k).length = 0 := by
          rw [List.length_take]
          omega
        rw [List.flatten_cons, hflat, hfull, List.replicate_zero, List.append_nil,
          ← List.append_assoc, List.take_append_drop]
    · intro g hg
      rcases List.mem_cons.mp hg with rfl | hg
      · simp only [List.length_append, List.length_take, List.length_replicate]
        omega
      · exact hlen g hg
termination_by bits.length
decreasing_by
  rw [List.length_drop]
  omega

/-- The octets of some bits that are whole octets. -/
theorem groups_flatMap_bitsOf (b : Bytes) :
    (groups 8 (b.flatMap fun x => bitsOf 8 x.toNat)).map (fun g => UInt8.ofNat (value g)) = b := by
  induction b with
  | nil => simp
  | cons x b ih =>
    have hx : UInt8.ofNat (x.toNat % 2 ^ 8) = x := by
      rw [Nat.mod_eq_of_lt x.toNat_lt, UInt8.ofNat_toNat]
    rw [List.flatMap_cons, groups_append (by decide) (length_bitsOf _ _), List.map_cons,
      value_bitsOf, hx, ih]

theorem length_flatMap_bitsOf (b : Bytes) :
    (b.flatMap fun x => bitsOf 8 x.toNat).length = 8 * b.length := by
  induction b with
  | nil => rfl
  | cons x b ih =>
    simp only [List.flatMap_cons, List.length_append, length_bitsOf, ih, List.length_cons]
    omega

theorem lt_of_mem_encode {k : Nat} (hk : 0 < k) {b : Bytes} {d : Nat} (hd : d ∈ encode k b) :
    d < 2 ^ k := by
  obtain ⟨g, hg, rfl⟩ := List.mem_map.mp hd
  rw [← (flatten_groups hk _).2 g hg]
  exact value_lt g

/-- **Reading groups of bits gives back the octets that were written.** -/
theorem decode?_encode {k : Nat} (hk : 0 < k) (hk8 : k ≤ 8) (b : Bytes) :
    decode? k (encode k b) = some b := by
  obtain ⟨⟨z, hz, hflat⟩, hlen⟩ := flatten_groups hk (b.flatMap fun x => bitsOf 8 x.toNat)
  have hbits : (encode k b).flatMap (bitsOf k) =
      (b.flatMap fun x => bitsOf 8 x.toNat) ++ List.replicate z false := by
    rw [← hflat, encode, List.flatMap_map, List.flatMap_def,
      List.map_congr_left (g := id) fun g hg => by rw [← hlen g hg, bitsOf_value, id],
      List.map_id]
  -- fewer than eight zeros were added, so that the whole octets are the ones that were written
  have hlength := length_flatMap_bitsOf b
  have hwhole : ((b.flatMap fun x => bitsOf 8 x.toNat) ++ List.replicate z false).length / 8 * 8 =
      (b.flatMap fun x => bitsOf 8 x.toNat).length := by
    rw [List.length_append, List.length_replicate, hlength]
    omega
  rw [decode?, hbits]
  simp only [hwhole, List.drop_left, List.take_left]
  rw [if_pos (by simpa using hz), groups_flatMap_bitsOf]

/-! ### Groups that are written again -/

/-- The groups of some bits are the only whole ones that give these bits and fewer zeros than a
group. -/
theorem groups_eq {k z : Nat} {bits : List Bool} {gs : List (List Bool)} (hz : z < k)
    (hlen : ∀ g ∈ gs, g.length = k) (hflat : gs.flatten = bits ++ List.replicate z false) :
    groups k bits = gs := by
  induction gs generalizing bits z with
  | nil =>
    obtain ⟨rfl, -⟩ := List.append_eq_nil_iff.mp hflat.symm
    exact groups_nil k
  | cons g gs ih =>
    have hg := hlen g List.mem_cons_self
    have hlength := congrArg List.length hflat
    simp only [List.flatten_cons, List.length_append, List.length_replicate] at hlength
    have hne : bits ≠ [] := by
      rintro rfl
      simp only [List.length_nil] at hlength
      omega
    have hfirst := congrArg (List.take k) hflat
    have hrest := congrArg (List.drop k) hflat
    rw [List.flatten_cons, ← hg, List.take_left, hg, List.take_append, List.take_replicate]
      at hfirst
    rw [List.flatten_cons, ← hg, List.drop_left, hg, List.drop_append, List.drop_replicate] at hrest
    have hfill : min (k - bits.length) z = k - (bits.take k).length := by
      rw [List.length_take]
      omega
    rw [groups_of_ne_nil (by omega) hne, hfirst, hfill,
      ih (Nat.lt_of_le_of_lt (Nat.sub_le _ _) hz) (fun h hh => hlen h (List.mem_cons_of_mem _ hh))
        hrest]

/-- Bits that are whole octets are the bits of their octets. -/
theorem flatMap_bitsOf_groups {bits : List Bool} (h : 8 ∣ bits.length) :
    ((groups 8 bits).map fun g => UInt8.ofNat (value g)).flatMap (fun x => bitsOf 8 x.toNat) =
      bits := by
  obtain ⟨⟨z, hz, hflat⟩, hlen⟩ := flatten_groups (k := 8) (by decide) bits
  have hbits : ∀ g ∈ groups 8 bits, bitsOf 8 (UInt8.ofNat (value g)).toNat = g := by
    intro g hg
    have hlt := value_lt g
    rw [hlen g hg] at hlt
    rw [Bytes.toNat_octet hlt]
    have hvalue := bitsOf_value g
    rwa [hlen g hg] at hvalue
  have hzero : z = 0 := by
    have hlength := congrArg List.length hflat
    rw [List.length_flatten, List.map_congr_left hlen, List.map_const', List.sum_replicate_nat,
      List.length_append, List.length_replicate] at hlength
    omega
  rw [List.flatMap_map, List.flatMap_def, List.map_congr_left (g := id) hbits, List.map_id, hflat,
    hzero, List.replicate_zero, List.append_nil]

/-- **Groups that can be read are the ones that are written** for what they are read as. -/
theorem encode_of_decode? {k : Nat} {digits : List Nat} (hdigits : ∀ d ∈ digits, d < 2 ^ k)
    {b : Bytes} (h : decode? k digits = some b) : encode k b = digits := by
  rw [decode?] at h
  split at h
  · next hrest =>
    obtain ⟨hshort, hzeros⟩ := hrest
    obtain rfl := Option.some.inj h
    generalize hbits : digits.flatMap (bitsOf k) = bits at *
    have hfill : bits.drop (bits.length / 8 * 8) =
        List.replicate (bits.drop (bits.length / 8 * 8)).length false :=
      List.eq_replicate_iff.mpr ⟨rfl, fun b hb => beq_iff_eq.mp (List.all_eq_true.mp hzeros b hb)⟩
    have hwhole : 8 ∣ (bits.take (bits.length / 8 * 8)).length := by
      rw [List.length_take]
      omega
    have hgroups : groups k (bits.take (bits.length / 8 * 8)) = digits.map (bitsOf k) := by
      refine groups_eq hshort ?_ ?_
      · simp
      · rw [← hfill, List.take_append_drop, ← List.flatMap_def, hbits]
    rw [encode, flatMap_bitsOf_groups hwhole, hgroups, List.map_map]
    refine (List.map_congr_left fun d hd => ?_).trans (List.map_id digits)
    rw [Function.comp_apply, value_bitsOf, Nat.mod_eq_of_lt (hdigits d hd), id]
  · cases h

end BitGroups

namespace Base64Url

theorem value?_digit {n : Nat} (h : n < 64) : value? (digit n) = some n := by
  have hall : ∀ n : Fin 64, value? (digit n) = some n.val := by decide +kernel
  exact hall ⟨n, h⟩

theorem isDigit_digit {n : Nat} (h : n < 64) : isDigit (digit n) = true := by
  rw [isDigit, value?_digit h]
  rfl

/-- What is true of each character of the alphabet is true of each digit. -/
theorem of_isDigit {p : Char → Bool} (hall : alphabet.all p = true) {c : Char}
    (h : isDigit c = true) : p c = true := by
  rw [isDigit, value?, Option.isSome_iff_ne_none, ne_eq, List.idxOf?_eq_none_iff,
    Classical.not_not] at h
  exact List.all_eq_true.mp hall c h

theorem toList_encode (b : Bytes) : (encode b).toList = (BitGroups.encode 6 b).map digit :=
  String.toList_ofList

/-- A text of URL-safe base64 is written with its digits only. -/
theorem isDigit_of_mem_encode {b : Bytes} {c : Char} (hc : c ∈ (encode b).toList) :
    isDigit c = true := by
  rw [toList_encode] at hc
  obtain ⟨d, hd, rfl⟩ := List.mem_map.mp hc
  exact isDigit_digit (BitGroups.lt_of_mem_encode (by decide) hd)

theorem mapM_value?_digit (digits : List Nat) (h : ∀ d ∈ digits, d < 64) :
    (digits.map digit).mapM value? = some digits := by
  have hread : (digits.map digit).mapM value? = some (digits.map id) :=
    mapM_map_eq_some fun d hd => value?_digit (h d hd)
  exact hread.trans (congrArg some (List.map_id _))

/-- **Reading gives back the octets that were written.** -/
@[simp] theorem decode?_encode (b : Bytes) : decode? (encode b) = some b := by
  have hdigits : (encode b).toList.mapM value? = some (BitGroups.encode 6 b) := by
    rw [toList_encode]
    exact mapM_value?_digit _ fun d hd => BitGroups.lt_of_mem_encode (by decide) hd
  rw [decode?, hdigits]
  exact BitGroups.decode?_encode (by decide) (by decide) b

@[simp] theorem decode_encode (b : Bytes) : decode (encode b) = .ok b := by
  rw [decode, decode?_encode]

theorem map_digit_of_mapM_value? {s : List Char} {digits : List Nat}
    (h : s.mapM value? = some digits) : digits.map digit = s ∧ ∀ d ∈ digits, d < 64 := by
  have hlength : alphabet.length = 64 := by decide +kernel
  obtain ⟨hs, hlt⟩ := Multibase.map_getD_of_mapM_idxOf? 'A' h
  exact ⟨hs, hlength ▸ hlt⟩

/-- **A text that can be read is the one that is written** for the octets. -/
theorem encode_of_decode? {s : String} {b : Bytes} (h : decode? s = some b) : encode b = s := by
  obtain ⟨digits, hdigits, hb⟩ := Option.bind_eq_some_iff.mp h
  obtain ⟨hs, hlt⟩ := map_digit_of_mapM_value? hdigits
  rw [← String.toList_inj, toList_encode, BitGroups.encode_of_decode? hlt hb, hs]

theorem decode_eq_ok {s : String} {b : Bytes} : decode s = .ok b ↔ decode? s = some b := by
  rw [decode]
  cases decode? s <;> simp

/-- A text that cannot be read has the wrong form. -/
theorem failsOnly_decode (s : String) : (decode s).FailsOnly [.invalidFormat] := by
  rw [decode]
  cases decode? s with
  | some b => exact Outcome.failsOnly_ok b
  | none =>
    intro f hf
    obtain rfl := Except.error.inj hf
    exact List.mem_singleton_self _

/-- Different octets are written differently. -/
theorem encode_injective {b c : Bytes} (h : encode b = encode c) : b = c := by
  have hb := decode?_encode b
  rw [h, decode?_encode] at hb
  exact (Option.some.inj hb).symm

end Base64Url

end DidMethods
