import DidMethods.Multiformat.Multibase
import DidMethods.Multiformat.Multihash
import DidMethods.Proofs.Outcome
import Mathlib.Algebra.Group.Nat.Defs

/-!
# Self-describing formats read back

What `DidMethods.Varint`, `DidMethods.Radix`, `DidMethods.Multibase` and `DidMethods.Multihash`
write is read back as it was. For base58 the converse holds as well: every text with the mark of
base58 that can be read at all is the text that writing gives, so that octets have one base58 text
and a base58 text has one list of octets.

For varints the converse holds up to overflow. The reader wants the shortest form, but ten octets
have room for seventy bits, and the six above the number that is meant are dropped without a word
(`DidMethods.Varint.decode?_eq_some_iff`).

| format | round trip |
|---|---|
| varint, read back | `DidMethods.Varint.decode?_encode_append` |
| varint, written again | `DidMethods.Varint.decode?_eq_some_iff` |
| digits in another base | `DidMethods.Radix.convert_convert` |
| base58, read back | `DidMethods.Multibase.decode?_encode58` |
| base58, written again | `DidMethods.Multibase.encode58_of_decode?` |
| multihash, read back | `DidMethods.Multihash.decode?_encode` |
| multihash, written again | `DidMethods.Multihash.decode?_eq_some_iff` |
-/

namespace DidMethods

/-- A number below 256 is the value of its octet. -/
theorem Bytes.toNat_octet {n : Nat} (h : n < 256) : (UInt8.ofNat n).toNat = n :=
  UInt8.toNat_ofNat_of_lt' h

theorem Bytes.octet_inj {m n : Nat} (hm : m < 256) (hn : n < 256)
    (h : UInt8.ofNat m = UInt8.ofNat n) : m = n := by
  rw [← toNat_octet hm, h, toNat_octet hn]

namespace Varint

/-- The lowest group of a number, and the groups above it. -/
theorem groups_mul (low high i : Nat) :
    (low + high * 128) * 128 ^ i = low * 128 ^ i + high * 128 ^ (i + 1) := by
  rw [Nat.add_mul, Nat.mul_assoc, Nat.pow_succ, Nat.mul_comm 128]

/-- Without its lowest group, a number takes one octet less. -/
theorem div_lt_pow {n fuel : Nat} (h : n < 128 ^ (fuel + 1)) : n / 128 < 128 ^ fuel :=
  Nat.div_lt_of_lt_mul (by rwa [← Nat.pow_succ'])

/-- **The reader stops exactly where the number ends**, and keeps sixty-four bits of it. It has read
`i` octets, which gave `acc`, and the groups that are left write `n`. -/
theorem decodeFrom?_encodeUpTo {fuel i acc n : Nat} (rest : Bytes)
    (hfuel : i + fuel < maxLength) (hn : n < 128 ^ (fuel + 1)) (hi : 0 < i → n ≠ 0) :
    decodeFrom? i acc (encodeUpTo (fuel + 1) n ++ rest) =
      some ((acc + n * 128 ^ i) % 2 ^ 64, rest) := by
  by_cases hlt : n < 128
  · -- the last octet: it is not zero unless it is the only one
    have hoctet : (UInt8.ofNat n).toNat = n := Bytes.toNat_octet (by omega)
    rw [encodeUpTo, if_pos hlt, List.singleton_append, decodeFrom?]
    simp only [hoctet, Nat.mod_eq_of_lt hlt, Nat.pow_eq, if_pos hlt]
    rw [if_neg fun h => hi h.2 h.1]
  · cases fuel with
    | zero => exact absurd (by simpa using hn) hlt
    | succ fuel =>
      have hoctet : (UInt8.ofNat (n % 128 + 128)).toNat = n % 128 + 128 :=
        Bytes.toNat_octet (by omega)
      have hlow : (n % 128 + 128) % 128 = n % 128 := by omega
      have hsplit : n * 128 ^ i = n % 128 * 128 ^ i + n / 128 * 128 ^ (i + 1) := by
        rw [← groups_mul, Nat.mod_add_div']
      rw [encodeUpTo, if_neg hlt, List.cons_append, decodeFrom?]
      simp only [hoctet, hlow, Nat.pow_eq]
      rw [if_neg (by omega), if_pos (by omega),
        decodeFrom?_encodeUpTo rest (by omega) (div_lt_pow hn) (fun _ => by omega), Nat.mod_add_mod,
        Nat.add_assoc, ← hsplit]

/-- **What is read was written in the shortest form.** The reader has room for `fuel` more octets
after the next one. -/
theorem exists_of_decodeFrom? (fuel : Nat) {i acc m : Nat} {bytes rest : Bytes}
    (hfuel : i + fuel + 1 = maxLength) (h : decodeFrom? i acc bytes = some (m, rest)) :
    ∃ n < 128 ^ (fuel + 1), (0 < i → n ≠ 0) ∧ (acc + n * 128 ^ i) % 2 ^ 64 = m ∧
      bytes = encodeUpTo (fuel + 1) n ++ rest := by
  cases bytes with
  | nil => cases h
  | cons b bytes =>
    rw [decodeFrom?] at h
    simp only [Nat.pow_eq] at h
    by_cases hlast : b.toNat < 128
    · rw [if_pos hlast] at h
      split at h
      · cases h
      · next hzero =>
        obtain ⟨rfl, rfl⟩ := Prod.mk.inj (Option.some.inj h)
        refine ⟨b.toNat, ?_, fun hi hb => hzero ⟨hb, hi⟩, ?_, ?_⟩
        · exact Nat.lt_of_lt_of_le hlast (Nat.le_self_pow (Nat.succ_ne_zero fuel) 128)
        · rw [Nat.mod_eq_of_lt hlast]
        · rw [encodeUpTo, if_pos hlast, UInt8.ofNat_toNat, List.singleton_append]
    · rw [if_neg hlast] at h
      split at h
      · next hroom =>
        obtain ⟨fuel, rfl⟩ : ∃ f, fuel = f + 1 := ⟨fuel - 1, by omega⟩
        obtain ⟨n, hn, hne, hm, rfl⟩ := exists_of_decodeFrom? fuel (by omega) h
        have hpos := hne (Nat.succ_pos i)
        have hoctet := b.toNat_lt
        -- the octet is the lowest group of the number, and the others are what follows it
        have hlow : (b.toNat % 128 + n * 128) % 128 + 128 = b.toNat := by omega
        have hhigh : (b.toNat % 128 + n * 128) / 128 = n := by omega
        refine ⟨b.toNat % 128 + n * 128, ?_, fun _ => by omega, ?_, ?_⟩
        · rw [Nat.pow_succ]
          omega
        · rw [← hm, Nat.mod_add_mod, groups_mul, Nat.add_assoc]
        · have hwrite : encodeUpTo (fuel + 2) (b.toNat % 128 + n * 128) =
              b :: encodeUpTo (fuel + 1) n := by
            rw [encodeUpTo, if_neg (by omega), hlow, hhigh, UInt8.ofNat_toNat]
          rw [hwrite, List.cons_append]
      · cases h

/-- No number begins like another one. -/
theorem encodeUpTo_append_inj {fuel m n : Nat} {r s : Bytes} (hm : m < 128 ^ fuel)
    (hn : n < 128 ^ fuel) (h : encodeUpTo fuel m ++ r = encodeUpTo fuel n ++ s) :
    m = n ∧ r = s := by
  induction fuel generalizing m n with
  | zero => exact ⟨by omega, h⟩
  | succ fuel ih =>
    rw [encodeUpTo, encodeUpTo] at h
    split at h <;> split at h
    · obtain ⟨hhead, htail⟩ := List.cons.inj h
      exact ⟨Bytes.octet_inj (by omega) (by omega) hhead, htail⟩
    -- an octet that another one follows is not a last one
    · have hhead := Bytes.octet_inj (by omega) (by omega) (List.cons.inj h).1
      omega
    · have hhead := Bytes.octet_inj (by omega) (by omega) (List.cons.inj h).1
      omega
    · obtain ⟨hhead, htail⟩ := List.cons.inj h
      have hlow := Bytes.octet_inj (by omega) (by omega) hhead
      obtain ⟨hhigh, hrest⟩ := ih (div_lt_pow hm) (div_lt_pow hn) htail
      exact ⟨by omega, hrest⟩

/-- **A number is read modulo two to the sixty-fourth.** It is written in the shortest form, for
which ten octets have room to spare: the bits above the sixty-fourth are read and do not count. -/
theorem decode?_eq_some_iff {bytes rest : Bytes} {n : Nat} :
    decode? bytes = some (n, rest) ↔
      ∃ m < 2 ^ 70, m % 2 ^ 64 = n ∧ bytes = encode m ++ rest := by
  have hpow : (2 : Nat) ^ 70 = 128 ^ (9 + 1) := by decide
  rw [decode?, hpow]
  constructor
  · intro h
    obtain ⟨m, hm, -, hn, hbytes⟩ := exists_of_decodeFrom? 9 rfl h
    exact ⟨m, hm, by simpa using hn, hbytes⟩
  · rintro ⟨m, hm, rfl, rfl⟩
    rw [encode, maxLength,
      decodeFrom?_encodeUpTo rest (by decide) hm (fun h => absurd h (by decide))]
    simp

/-- No number begins like another one. -/
theorem encode_append_inj {m n : Nat} {r s : Bytes} (hm : m < 2 ^ 70) (hn : n < 2 ^ 70)
    (h : encode m ++ r = encode n ++ s) : m = n ∧ r = s := by
  have hpow : (2 : Nat) ^ 70 = 128 ^ maxLength := by decide
  rw [hpow] at hm hn
  exact encodeUpTo_append_inj hm hn h

/-- **A number is read off the front of whatever follows it.** -/
theorem decode?_encode_append {n : Nat} (hn : n < 2 ^ 64) (rest : Bytes) :
    decode? (encode n ++ rest) = some (n, rest) :=
  decode?_eq_some_iff.mpr ⟨n, Nat.lt_trans hn (by decide), Nat.mod_eq_of_lt hn, rfl⟩

end Varint

namespace Radix

/-! ### Numbers and their digits -/

theorem foldl_ofDigits (b n : Nat) (digits : List Nat) :
    digits.foldl (fun n d => n * b + d) n = n * b ^ digits.length + ofDigits b digits := by
  induction digits generalizing n with
  | nil => simp [ofDigits]
  | cons d digits ih =>
    have hstep : ofDigits b (d :: digits) = (0 * b + d) * b ^ digits.length + ofDigits b digits :=
      ih _
    rw [List.foldl_cons, ih, hstep, List.length_cons, Nat.pow_succ]
    grind

theorem ofDigits_append (b : Nat) (ds es : List Nat) :
    ofDigits b (ds ++ es) = ofDigits b ds * b ^ es.length + ofDigits b es := by
  rw [ofDigits, List.foldl_append, foldl_ofDigits]
  rfl

/-- Zeros in front do not count. -/
theorem ofDigits_zeros_append (b : Nat) {zeros : List Nat} (h : ∀ d ∈ zeros, d = 0)
    (ds : List Nat) : ofDigits b (zeros ++ ds) = ofDigits b ds := by
  induction zeros with
  | nil => rfl
  | cons d zeros ih =>
    have hd := h d List.mem_cons_self
    subst hd
    rw [List.cons_append, ← ih fun e he => h e (List.mem_cons_of_mem _ he)]
    simp [ofDigits]

theorem digitsOnto_append (b n : Nat) (acc rest : List Nat) :
    digitsOnto b n (acc ++ rest) = digitsOnto b n acc ++ rest := by
  fun_induction digitsOnto b n acc with
  | case1 n acc h => rw [digitsOnto, dif_pos h]
  | case2 n acc h ih => rw [digitsOnto, dif_neg h, ← List.cons_append, ih]

@[simp] theorem toDigits_zero (b : Nat) : toDigits b 0 = [] := by
  rw [toDigits, digitsOnto, dif_pos (Or.inl rfl)]

/-- The last digit is the remainder. -/
theorem toDigits_mul_add {b n d : Nat} (hd : d < b) (hne : n * b + d ≠ 0) (hb : 2 ≤ b) :
    toDigits b (n * b + d) = toDigits b n ++ [d] := by
  have hdiv : (n * b + d) / b = n := by
    rw [Nat.add_comm, Nat.add_mul_div_right _ _ (by omega), Nat.div_eq_of_lt hd, Nat.zero_add]
  have hmod : (n * b + d) % b = d := by
    rw [Nat.add_comm, Nat.add_mul_mod_self_right, Nat.mod_eq_of_lt hd]
  rw [toDigits, digitsOnto, dif_neg (by omega), hdiv, hmod, toDigits, ← digitsOnto_append,
    List.nil_append]

/-- The number of which some digits are the last ones. -/
theorem toDigits_foldl {b n : Nat} (hb : 2 ≤ b) (hn : n ≠ 0) {ds : List Nat}
    (hds : ∀ d ∈ ds, d < b) :
    toDigits b (ds.foldl (fun n d => n * b + d) n) = toDigits b n ++ ds := by
  induction ds generalizing n with
  | nil => simp
  | cons d ds ih =>
    have hpos : 0 < n * b := Nat.mul_pos (Nat.pos_of_ne_zero hn) (by omega)
    rw [List.foldl_cons, ih (by omega) fun e he => hds e (List.mem_cons_of_mem _ he),
      toDigits_mul_add (hds d List.mem_cons_self) (by omega) hb, List.append_assoc,
      List.singleton_append]

/-- **Digits without zeros in front are the digits of their number.** -/
theorem toDigits_ofDigits {b : Nat} (hb : 2 ≤ b) {ds : List Nat} (hds : ∀ d ∈ ds, d < b)
    (hhead : ∀ d ∈ ds.head?, d ≠ 0) : toDigits b (ofDigits b ds) = ds := by
  cases ds with
  | nil => exact toDigits_zero b
  | cons d ds =>
    have hd : d ≠ 0 := hhead d rfl
    have hone : toDigits b d = [d] := by
      have h := toDigits_mul_add (n := 0) (hds d List.mem_cons_self) (by omega) hb
      simpa using h
    have hrest := toDigits_foldl hb hd fun e he => hds e (List.mem_cons_of_mem _ he)
    rw [ofDigits, List.foldl_cons, Nat.zero_mul, Nat.zero_add, hrest, hone, List.singleton_append]

/-- **The digits of a number write it**, each of them is a digit, and the first is not zero. -/
theorem toDigits_spec {b : Nat} (hb : 2 ≤ b) (n : Nat) :
    ofDigits b (toDigits b n) = n ∧ (∀ d ∈ toDigits b n, d < b) ∧
      ∀ d ∈ (toDigits b n).head?, d ≠ 0 := by
  by_cases hn : n = 0
  · subst hn
    simp [ofDigits]
  · obtain ⟨hval, hlt, hhead⟩ := toDigits_spec hb (n / b)
    have hmod : n % b < b := Nat.mod_lt _ (by omega)
    have hdm : n / b * b + n % b = n := Nat.div_add_mod' n b
    have hsnoc : toDigits b n = toDigits b (n / b) ++ [n % b] := by
      rw [← toDigits_mul_add hmod (by omega) hb, hdm]
    rw [hsnoc]
    refine ⟨?_, ?_, ?_⟩
    · rw [ofDigits_append, hval]
      simpa [ofDigits] using hdm
    · intro d hd
      rcases List.mem_append.mp hd with hd | hd
      · exact hlt d hd
      · rw [List.mem_singleton.mp hd]
        exact hmod
    · intro d hd
      by_cases hq : n / b = 0
      · -- the number is a single digit
        rw [hq, toDigits_zero, List.nil_append] at hd
        obtain rfl : n % b = d := by simpa using hd
        rw [hq] at hdm
        omega
      · have hne : toDigits b (n / b) ≠ [] := by
          intro h
          rw [h] at hval
          exact hq hval.symm
        rw [List.head?_append, Option.or_of_isSome (by simpa using hne)] at hd
        exact hhead d hd
termination_by n
decreasing_by exact Nat.div_lt_self (Nat.pos_of_ne_zero hn) (by omega)

/-! ### Changing the base -/

theorem eq_zero_of_mem_takeWhile {ds : List Nat} {d : Nat} (h : d ∈ ds.takeWhile (· == 0)) :
    d = 0 := by
  induction ds with
  | nil => simp at h
  | cons e ds ih =>
    by_cases he : e = 0
    · rw [List.takeWhile_cons_of_pos (by simpa using he)] at h
      rcases List.mem_cons.mp h with rfl | h
      · exact he
      · exact ih h
    · rw [List.takeWhile_cons_of_neg (by simpa using he)] at h
      simp at h

theorem head?_dropWhile_ne_zero {ds : List Nat} : ∀ d ∈ (ds.dropWhile (· == 0)).head?, d ≠ 0 := by
  induction ds with
  | nil => simp
  | cons e ds ih =>
    by_cases he : e = 0
    · rw [List.dropWhile_cons_of_pos (by simpa using he)]
      exact ih
    · rw [List.dropWhile_cons_of_neg (by simpa using he)]
      simpa using he

theorem lt_of_mem_convert {source target : Nat} (ht : 2 ≤ target) {digits : List Nat} {d : Nat}
    (hd : d ∈ convert source target digits) : d < target := by
  rcases List.mem_append.mp hd with hd | hd
  · rw [eq_zero_of_mem_takeWhile hd]
    omega
  · exact (toDigits_spec ht _).2.1 d hd

/-- **Changing the base and back loses nothing**, the zeros in front included. -/
theorem convert_convert {source target : Nat} (hs : 2 ≤ source) (ht : 2 ≤ target)
    {digits : List Nat} (hd : ∀ d ∈ digits, d < source) :
    convert target source (convert source target digits) = digits := by
  have hzeros : ∀ d ∈ digits.takeWhile (· == 0), d = 0 := fun d h => eq_zero_of_mem_takeWhile h
  have hsplit : digits.takeWhile (· == 0) ++ digits.dropWhile (· == 0) = digits :=
    List.takeWhile_append_dropWhile
  obtain ⟨hval, -, hhead⟩ := toDigits_spec ht (ofDigits source digits)
  -- the zeros in front of the new digits are the old ones
  have hfront : (convert source target digits).takeWhile (· == 0) =
      digits.takeWhile (· == 0) := by
    rw [convert, List.takeWhile_append_of_pos (by simpa using hzeros)]
    cases hdigits : toDigits target (ofDigits source digits) with
    | nil => simp
    | cons d ds =>
      rw [hdigits] at hhead
      rw [List.takeWhile_cons_of_neg (by simpa using hhead d rfl), List.append_nil]
  have hnumber : ofDigits target (convert source target digits) =
      ofDigits source (digits.dropWhile (· == 0)) := by
    rw [convert, ofDigits_zeros_append _ hzeros, hval,
      ← ofDigits_zeros_append source hzeros (digits.dropWhile (· == 0)), hsplit]
  have hback : toDigits source (ofDigits source (digits.dropWhile (· == 0))) =
      digits.dropWhile (· == 0) :=
    toDigits_ofDigits hs (fun d h => hd d (List.dropWhile_sublist _ |>.subset h))
      head?_dropWhile_ne_zero
  calc convert target source (convert source target digits)
      = digits.takeWhile (· == 0) ++ digits.dropWhile (· == 0) := by
        rw [convert, hfront, hnumber, hback]
    _ = digits := hsplit

/-- Octets are read back from their digits. -/
theorem decode_encode {b : Nat} (hb : 2 ≤ b) (bytes : Bytes) :
    decode b (encode b bytes) = bytes := by
  have hconv : convert b 256 (encode b bytes) = bytes.map UInt8.toNat :=
    convert_convert (by decide) hb fun d hd => by
      obtain ⟨x, -, rfl⟩ := List.mem_map.mp hd
      exact x.toNat_lt
  rw [decode, hconv, List.map_map]
  exact List.map_id'' (fun x => UInt8.ofNat_toNat) bytes

/-- Digits are written again from their octets. -/
theorem encode_decode {b : Nat} (hb : 2 ≤ b) {digits : List Nat} (hd : ∀ d ∈ digits, d < b) :
    encode b (decode b digits) = digits := by
  have hoctets : (decode b digits).map UInt8.toNat = convert b 256 digits := by
    rw [decode, List.map_map]
    refine (List.map_congr_left fun d h => ?_).trans (List.map_id _)
    exact Bytes.toNat_octet (lt_of_mem_convert (by decide) h)
  rw [encode, hoctets, convert_convert hb (by decide) hd]

end Radix

namespace Multibase

/-- A character of an alphabet stands at its index. -/
theorem getD_of_idxOf? {table : List Char} {c : Char} {i : Nat} (default : Char)
    (h : table.idxOf? c = some i) : i < table.length ∧ table.getD i default = c := by
  induction table generalizing i with
  | nil => simp at h
  | cons a table ih =>
    rw [List.idxOf?_cons] at h
    by_cases ha : a = c
    · subst ha
      obtain rfl : 0 = i := by simpa using h
      simp
    · rw [if_neg (by simpa using ha)] at h
      obtain ⟨j, hj, rfl⟩ := Option.map_eq_some_iff.mp h
      obtain ⟨hlt, hget⟩ := ih hj
      exact ⟨by simpa using hlt, by simpa using hget⟩

/-- Characters of an alphabet are read as their indices, where they stand. -/
theorem map_getD_of_mapM_idxOf? {table s : List Char} {digits : List Nat} (default : Char)
    (h : s.mapM (fun c => table.idxOf? c) = some digits) :
    digits.map (fun d => table.getD d default) = s ∧ ∀ d ∈ digits, d < table.length := by
  induction s generalizing digits with
  | nil =>
    obtain rfl : [] = digits := by simpa using h
    simp
  | cons c s ih =>
    rw [List.mapM_cons] at h
    obtain ⟨d, hd, h⟩ := Option.bind_eq_some_iff.mp h
    obtain ⟨ds, hds, h⟩ := Option.bind_eq_some_iff.mp h
    obtain rfl := Option.some.inj h
    obtain ⟨hlt, hget⟩ := getD_of_idxOf? default hd
    obtain ⟨hs, hall⟩ := ih hds
    exact ⟨by rw [List.map_cons, hget, hs], List.forall_mem_cons.mpr ⟨hlt, hall⟩⟩

theorem length_bitcoin : bitcoin.length = 58 := by
  decide +kernel

theorem idxOf?_digit58 {n : Nat} (h : n < 58) : bitcoin.toList.idxOf? (digit58 n) = some n := by
  have hall : ∀ n : Fin 58, bitcoin.toList.idxOf? (digit58 n) = some n.val := by decide +kernel
  exact hall ⟨n, h⟩

theorem values?_digit58 {digits : List Nat} (h : ∀ d ∈ digits, d < 58) :
    values? bitcoin .exact (digits.map digit58) = some digits := by
  have hread : (digits.map digit58).mapM (fun c => bitcoin.toList.idxOf? c) =
      some (digits.map id) := mapM_map_eq_some fun d hd => idxOf?_digit58 (h d hd)
  exact hread.trans (congrArg some (List.map_id _))

/-- Characters that are digits of base58 are the characters of these digits. -/
theorem eq_map_digit58 {s : List Char} {digits : List Nat}
    (h : values? bitcoin .exact s = some digits) :
    s = digits.map digit58 ∧ ∀ d ∈ digits, d < 58 := by
  have hlength : bitcoin.toList.length = 58 := String.length_toList.trans length_bitcoin
  obtain ⟨hs, hlt⟩ := map_getD_of_mapM_idxOf? '1' h
  exact ⟨hs.symm, hlength ▸ hlt⟩

theorem lookup_mark58 : schemes.lookup mark58 = some (.radix bitcoin .exact) := by
  decide +kernel

/-- **Octets are read back from their base58 text.** -/
theorem decode?_encode58 (bytes : Bytes) : decode? (encode58 bytes) = some (mark58, bytes) := by
  have hlist : (encode58 bytes).toList = mark58 :: (Radix.encode 58 bytes).map digit58 :=
    String.toList_ofList
  have hvalues := values?_digit58 fun d (hd : d ∈ Radix.encode 58 bytes) =>
    Radix.lt_of_mem_convert (by decide) hd
  rw [decode?, hlist]
  simp only [lookup_mark58, Scheme.decode?, hvalues, length_bitcoin, Option.bind_eq_bind,
    Option.bind_some, Radix.decode_encode (by decide : 2 ≤ 58)]
  rfl

/-- **A base58 text that can be read is the one that is written**: there is no second spelling of
the same octets. -/
theorem encode58_of_decode? {s : String} {bytes : Bytes} (h : decode? s = some (mark58, bytes)) :
    encode58 bytes = s := by
  rw [decode?] at h
  split at h
  · exact absurd h (by simp)
  · rename_i mark rest hs
    obtain ⟨scheme, hscheme, h⟩ := Option.bind_eq_some_iff.mp h
    obtain ⟨octets, hoctets, h⟩ := Option.bind_eq_some_iff.mp h
    obtain ⟨rfl, rfl⟩ := Prod.mk.inj (Option.some.inj h)
    obtain rfl := Option.some.inj (hscheme.symm.trans lookup_mark58)
    obtain ⟨digits, hdigits, h⟩ := Option.bind_eq_some_iff.mp hoctets
    obtain rfl := Option.some.inj h
    obtain ⟨hrest, hlt⟩ := eq_map_digit58 hdigits
    rw [length_bitcoin, encode58, Radix.encode_decode (by decide) hlt, ← hrest, ← hs,
      String.ofList_toList]

theorem encode58_injective {b c : Bytes} (h : encode58 b = encode58 c) : b = c := by
  have hb := decode?_encode58 b
  rw [h, decode?_encode58] at hb
  exact (Prod.mk.inj (Option.some.inj hb)).2.symm

end Multibase

namespace Multihash

/-- **A multihash is read in the form in which it is written**, but for what does not count of its
two numbers. -/
theorem decode?_eq_some_iff {bytes : Bytes} {h : Multihash} :
    decode? bytes = some h ↔ h.digest.length ≤ maxDigest ∧
      ∃ code size : Nat, code < 2 ^ 70 ∧ code % 2 ^ 64 = h.code ∧ size < 2 ^ 70 ∧
        size % 2 ^ 64 = h.digest.length ∧
        bytes = Varint.encode code ++ Varint.encode size ++ h.digest := by
  rw [decode?]
  constructor
  · intro hread
    obtain ⟨⟨first, rest⟩, hfirst, hrest⟩ := Option.bind_eq_some_iff.mp hread
    obtain ⟨⟨second, digest⟩, hsecond, hdigest⟩ := Option.bind_eq_some_iff.mp hrest
    obtain ⟨⟨hmax, hlength⟩, hh⟩ := Option.ite_none_right_eq_some.mp hdigest
    obtain rfl := Option.some.inj hh
    obtain ⟨code, hcodeLt, hcode, hbytes⟩ := Varint.decode?_eq_some_iff.mp hfirst
    obtain ⟨size, hsizeLt, hsize, hbehind⟩ := Varint.decode?_eq_some_iff.mp hsecond
    refine ⟨hlength ▸ hmax, code, size, hcodeLt, hcode, hsizeLt, hsize.trans hlength.symm, ?_⟩
    rw [hbytes, hbehind, List.append_assoc]
  · rintro ⟨hmax, code, size, hcodeLt, hcode, hsizeLt, hsize, rfl⟩
    have hfirst := Varint.decode?_eq_some_iff.mpr
      ⟨code, hcodeLt, hcode, List.append_assoc _ (Varint.encode size) h.digest⟩
    have hsecond := Varint.decode?_eq_some_iff.mpr
      ⟨size, hsizeLt, hsize, rfl (a := Varint.encode size ++ h.digest)⟩
    rw [hfirst]
    simp only [Option.bind_eq_bind, Option.bind_some, hsecond]
    exact if_pos ⟨hmax, trivial⟩

/-- **A digest is read back with the code of its hash function.** -/
theorem decode?_encode {h : Multihash} (hcode : h.code < 2 ^ 64)
    (hdigest : h.digest.length ≤ maxDigest) : decode? h.encode = some h := by
  have hroom : (2 : Nat) ^ 64 < 2 ^ 70 := by decide
  have hsize : h.digest.length < 2 ^ 64 := Nat.lt_of_le_of_lt hdigest (by decide)
  exact decode?_eq_some_iff.mpr ⟨hdigest, h.code, h.digest.length, Nat.lt_trans hcode hroom,
    Nat.mod_eq_of_lt hcode, Nat.lt_trans hsize hroom, Nat.mod_eq_of_lt hsize, rfl⟩

/-- Octets that write no multihash are no hash. -/
theorem failsOnly_decode (bytes : Bytes) : (decode bytes).FailsOnly [.invalidHash] := by
  rw [decode]
  split
  · exact Outcome.failsOnly_ok _
  · intro f hf
    obtain rfl := Except.error.inj hf
    exact List.mem_singleton_self _

end Multihash

end DidMethods
