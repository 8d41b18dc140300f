import DidMethods.Key.Multikey
import DidMethods.Proofs.Multiformat
import Mathlib.Order.Basic

/-!
# Multikeys as words

A multikey is a word in base58: the code of its type as a varint, and behind it the octets of the
key (`DidMethods.Multikey.word`). Reading a word finds the end of the code whatever the code and the
key are, and then it looks into the table. So what is written is read back with the type that the
table has for the code, and it is refused if the table has none, or one for keys of another length
(`DidMethods.Multikey.decode_written`).

In the other direction, base58 has no second spelling of the same octets, and the varint has to be
the shortest one for its number. But the number is read modulo two to the sixty-fourth, and ten
octets have room for seventy bits. So a key has sixty-four words
(`DidMethods.Multikey.decode_eq_ok_iff`). One of them is written; the others are the ones whose
number is too large (`DidMethods.Multikey.Overflows`), and apart from these a word that can be read
is the one that is written (`DidMethods.Multikey.written_of_decode`).
-/

namespace DidMethods

namespace Codec

/-- A codec of the table is the only one with its code. -/
theorem eq_of_code_eq {c d : Codec} (hc : c ∈ table) (hd : d ∈ table) (h : c.code = d.code) :
    c = d := by
  have hall : ∀ c ∈ table, ∀ d ∈ table, c.code = d.code → c = d := by decide
  exact hall c hc d hd h

theorem code_lt {c : Codec} (hc : c ∈ table) : c.code < 2 ^ 64 := by
  have hall : ∀ c ∈ table, c.code < 2 ^ 64 := by decide
  exact hall c hc

theorem ofCode?_eq_some {code : Nat} {c : Codec} :
    ofCode? code = some c ↔ c ∈ table ∧ c.code = code := by
  constructor
  · intro h
    rw [ofCode?] at h
    have hcode := List.find?_some h
    exact ⟨List.mem_of_find?_eq_some h, beq_iff_eq.mp hcode⟩
  · rintro ⟨hc, rfl⟩
    have hall : ∀ c ∈ table, ofCode? c.code = some c := by decide
    exact hall c hc

theorem ofCode?_eq_none {code : Nat} : ofCode? code = none ↔ ∀ c ∈ table, c.code ≠ code := by
  simp [ofCode?, List.find?_eq_none]

end Codec

namespace Multikey

variable {codec : Codec} {key : Bytes} {s : String}

theorem checkLength_eq_ok : checkLength codec key = .ok () ↔ key.length = codec.keyLength := by
  rw [checkLength]
  split
  · next h => exact iff_of_true rfl h
  · next h => exact iff_of_false (fail_ne_ok _ _ _) h

theorem checkLength_eq_error (h : key.length ≠ codec.keyLength) :
    ∃ f, checkLength codec key = .error f ∧ f.code = .invalidPublicKeyLength := by
  rw [checkLength, if_neg h]
  exact ⟨_, rfl, rfl⟩

/-! ### Words -/

/-- The word of a code and the octets of a key. The code need not fit into sixty-four bits. -/
def word (code : Nat) (key : Bytes) : String :=
  Multibase.encode58 (Varint.encode code ++ key)

/-- Different codes or keys have different words. -/
theorem word_inj {code code' : Nat} {key' : Bytes} (hcode : code < 2 ^ 70)
    (hcode' : code' < 2 ^ 70) (h : word code key = word code' key') : code = code' ∧ key = key' :=
  Varint.encode_append_inj hcode hcode' (Multibase.encode58_injective h)

theorem encode_eq_ok :
    encode codec key = .ok s ↔ key.length = codec.keyLength ∧ s = word codec.code key := by
  constructor
  · intro h
    obtain ⟨⟨⟩, hlength, h⟩ := Outcome.bind_eq_ok.mp h
    exact ⟨checkLength_eq_ok.mp hlength, (Except.ok.inj h).symm⟩
  · rintro ⟨hlength, rfl⟩
    rw [encode, checkLength_eq_ok.mpr hlength]
    rfl

theorem encode_eq_error (h : key.length ≠ codec.keyLength) :
    ∃ f, encode codec key = .error f ∧ f.code = .invalidPublicKeyLength := by
  obtain ⟨f, hf, hcode⟩ := checkLength_eq_error h
  rw [encode, hf]
  exact ⟨f, rfl, hcode⟩

/-! ### Reading words -/

/-- What a multikey is read as. -/
theorem decode_eq_ok (h : decode s = .ok (codec, key)) :
    ∃ data, Multibase.decode? s = some (Multibase.mark58, data) ∧
      Varint.decode? data = some (codec.code, key) ∧ codec ∈ Codec.table ∧
      key.length = codec.keyLength := by
  rw [decode] at h
  split at h
  · next mark data hdata =>
    obtain ⟨hmark, h⟩ := Outcome.ite_fail_eq_ok.mp h
    split at h
    · next code rest hcode =>
      split at h
      · next found hfound =>
        obtain ⟨⟨⟩, hlength, h⟩ := Outcome.bind_eq_ok.mp h
        obtain ⟨rfl, rfl⟩ := Prod.mk.inj (Except.ok.inj h)
        obtain ⟨hcodec, rfl⟩ := Codec.ofCode?_eq_some.mp hfound
        refine ⟨data, ?_, hcode, hcodec, checkLength_eq_ok.mp hlength⟩
        rw [hdata, not_not.mp hmark]
      · cases h
    · cases h
  · cases h

/-- **A word is read up to its key**, and it is the table that decides what becomes of it. -/
theorem decode_word {code : Nat} (hcode : code < 2 ^ 70) (key : Bytes) :
    decode (word code key) =
      match Codec.ofCode? (code % 2 ^ 64) with
      | some codec => checkLength codec key >>= fun _ => .ok (codec, key)
      | none => fail .unsupportedPublicKeyType
          s!"unsupported multicodec: 0x{Hex.ofNat (code % 2 ^ 64)}" := by
  have hread := Varint.decode?_eq_some_iff.mpr
    ⟨code, hcode, rfl, @rfl _ (Varint.encode code ++ key)⟩
  rw [decode, word]
  simp only [Multibase.decode?_encode58, ne_eq, not_true_eq_false, if_false, hread]
  cases Codec.ofCode? (code % 2 ^ 64) <;> rfl

/-- A word whose code the table has. -/
theorem decode_word_of_mem (hcodec : codec ∈ Codec.table) {code : Nat} (hcode : code < 2 ^ 70)
    (hmod : code % 2 ^ 64 = codec.code) (key : Bytes) :
    decode (word code key) = checkLength codec key >>= fun _ => .ok (codec, key) := by
  rw [decode_word hcode, Codec.ofCode?_eq_some.mpr ⟨hcodec, hmod.symm⟩]

/-- **The words that can be read**: those of a codec of the table and a key of its length, with any
number for a code that is the right one in its lower sixty-four bits. -/
theorem decode_eq_ok_iff :
    decode s = .ok (codec, key) ↔ codec ∈ Codec.table ∧ key.length = codec.keyLength ∧
      ∃ code < 2 ^ 70, code % 2 ^ 64 = codec.code ∧ s = word code key := by
  constructor
  · intro h
    obtain ⟨data, hdata, hcode, hcodec, hlength⟩ := decode_eq_ok h
    obtain ⟨code, hlt, hmod, rfl⟩ := Varint.decode?_eq_some_iff.mp hcode
    exact ⟨hcodec, hlength, code, hlt, hmod, (Multibase.encode58_of_decode? hdata).symm⟩
  · rintro ⟨hcodec, hlength, code, hlt, hmod, rfl⟩
    rw [decode_word_of_mem hcodec hlt hmod, checkLength_eq_ok.mpr hlength]
    rfl

/-- **What was written is read back.** -/
theorem decode_of_encode (hcodec : codec ∈ Codec.table) (h : encode codec key = .ok s) :
    s = word codec.code key ∧ decode s = .ok (codec, key) := by
  obtain ⟨hlength, rfl⟩ := encode_eq_ok.mp h
  have hlt := Codec.code_lt hcodec
  exact ⟨rfl, decode_eq_ok_iff.mpr
    ⟨hcodec, hlength, codec.code, Nat.lt_trans hlt (by decide), Nat.mod_eq_of_lt hlt, rfl⟩⟩

/-- **Writing and reading, for any code at all.** Writing fails exactly for a key of the wrong
length. What is written is read as a key of the type that the table has for the code; it is refused
if keys of that type have another length, or if the table has no such type. -/
theorem decode_written (codec : Codec) (hcode : codec.code < 2 ^ 64) (key : Bytes) :
    (key.length ≠ codec.keyLength ↔
        ∃ f, encode codec key = .error f ∧ f.code = .invalidPublicKeyLength) ∧
      (key.length = codec.keyLength → ∃ s, encode codec key = .ok s ∧
        (∀ known ∈ Codec.table, known.code = codec.code →
          (known.keyLength = key.length → decode s = .ok (known, key)) ∧
          (known.keyLength ≠ key.length →
            ∃ f, decode s = .error f ∧ f.code = .invalidPublicKeyLength)) ∧
        ((∀ known ∈ Codec.table, known.code ≠ codec.code) →
          ∃ f, decode s = .error f ∧ f.code = .unsupportedPublicKeyType)) := by
  have hlt : codec.code < 2 ^ 70 := Nat.lt_trans hcode (by decide)
  have hmod : codec.code % 2 ^ 64 = codec.code := Nat.mod_eq_of_lt hcode
  refine ⟨⟨encode_eq_error, ?_⟩, fun hlength => ?_⟩
  · rintro ⟨f, hf, -⟩ hlength
    rw [encode_eq_ok.mpr ⟨hlength, rfl⟩] at hf
    cases hf
  · refine ⟨_, encode_eq_ok.mpr ⟨hlength, rfl⟩, fun known hknown hsame => ?_, fun hunknown => ?_⟩
    · rw [decode_word_of_mem hknown hlt (hmod.trans hsame.symm)]
      constructor
      · intro hfits
        rw [checkLength_eq_ok.mpr hfits.symm]
        rfl
      · intro hother
        obtain ⟨f, hf, hfault⟩ := checkLength_eq_error (Ne.symm hother)
        rw [hf]
        exact ⟨f, rfl, hfault⟩
    · rw [decode_word hlt, hmod, Codec.ofCode?_eq_none.mpr hunknown]
      exact ⟨_, rfl, rfl⟩

/-- The largest code, which no key of the table has. -/
def largestCodec : Codec := ⟨"largest", 2 ^ 64 - 1, 1⟩

/-- Another type of key with the code of Ed25519 keys. -/
def shortCodec : Codec := ⟨"short", Codec.ed25519.code, 1⟩

theorem decode_written_zeros :
    (∃ s, encode Codec.secp256k1 (List.replicate 33 0) = .ok s ∧
      decode s = .ok (Codec.secp256k1, List.replicate 33 0)) ∧
    (∃ s f, encode shortCodec [0] = .ok s ∧ decode s = .error f ∧
      f.code = .invalidPublicKeyLength) ∧
    (∃ s f, encode largestCodec [0] = .ok s ∧ decode s = .error f ∧
      f.code = .unsupportedPublicKeyType) ∧
    ∃ f, encode largestCodec [] = .error f ∧ f.code = .invalidPublicKeyLength := by
  obtain ⟨s, hs, hknown, -⟩ :=
    (decode_written Codec.secp256k1 (by decide) (List.replicate 33 0)).2 rfl
  obtain ⟨t, ht, hother, -⟩ := (decode_written shortCodec (by decide) [0]).2 rfl
  obtain ⟨u, hu, -, hunknown⟩ := (decode_written largestCodec (by decide) [0]).2 rfl
  obtain ⟨f, hf, hfault⟩ := (hother Codec.ed25519 (by decide) rfl).2 (by decide)
  obtain ⟨g, hg, hgault⟩ := hunknown (by decide)
  exact ⟨⟨s, hs, (hknown Codec.secp256k1 (by decide) rfl).1 rfl⟩, ⟨t, f, ht, hf, hfault⟩,
    ⟨u, g, hu, hg, hgault⟩, (decode_written largestCodec (by decide) []).1.mp (by decide)⟩

/-! ### Words that are not written -/

/-- The number in front of the key does not fit into sixty-four bits. -/
def Overflows (s : String) : Prop :=
  ∃ code key, 2 ^ 64 ≤ code ∧ code < 2 ^ 70 ∧ s = word code key

theorem overflows_word {code : Nat} (hcode : code < 2 ^ 70) :
    Overflows (word code key) ↔ 2 ^ 64 ≤ code := by
  constructor
  · rintro ⟨code', key', hle, hlt, h⟩
    rwa [(word_inj hcode hlt h).1]
  · exact fun hle => ⟨code, key, hle, hcode, rfl⟩

/-- A word that can be read is the one that is written exactly if its number fits. -/
theorem encode_iff_not_overflows (h : decode s = .ok (codec, key)) :
    encode codec key = .ok s ↔ ¬ Overflows s := by
  obtain ⟨hcodec, hlength, code, hcode, hmod, rfl⟩ := decode_eq_ok_iff.mp h
  rw [encode_eq_ok, overflows_word hcode, Nat.not_le]
  constructor
  · rintro ⟨-, hword⟩
    rw [(word_inj hcode (Nat.lt_trans (Codec.code_lt hcodec) (by decide)) hword).1]
    exact Codec.code_lt hcodec
  · intro hlt
    rw [← hmod, Nat.mod_eq_of_lt hlt]
    exact ⟨hlength, rfl⟩

/-- **A word that can be read is the one that is written, unless its number overflows.** The type is
one of the table, the key has its length, and the number is the code of the type with up to six bits
above the sixty-fourth, of which reading takes no notice. Two words of one key that do not overflow
are the same. -/
theorem written_of_decode (h : decode s = .ok (codec, key)) :
    codec ∈ Codec.table ∧ key.length = codec.keyLength ∧
      (∃ high < 64, s = word (codec.code + high * 2 ^ 64) key) ∧
      (encode codec key = .ok s ↔ ¬ Overflows s) ∧
      ∀ s', decode s' = .ok (codec, key) → ¬ Overflows s → ¬ Overflows s' → s' = s := by
  obtain ⟨hcodec, hlength, code, hcode, hmod, hs⟩ := decode_eq_ok_iff.mp h
  have hwritten := encode_iff_not_overflows h
  refine ⟨hcodec, hlength, ⟨code / 2 ^ 64, by omega, ?_⟩, hwritten, fun s' h' hfits hfits' => ?_⟩
  · rw [hs, ← hmod, Nat.mod_add_div']
  · have hsame := (encode_iff_not_overflows h').mpr hfits'
    rw [hwritten.mpr hfits] at hsame
    exact (Except.ok.inj hsame).symm

/-- The octets of an Ed25519 key. -/
def sampleKey : Bytes :=
  [0xd7, 0x5a, 0x98, 0x01, 0x82, 0xb1, 0x0a, 0xb7, 0xd5, 0x4b, 0xfe, 0xd3, 0xc9, 0x64, 0x07, 0x3a,
    0x0e, 0xe1, 0x72, 0xf3, 0xda, 0xa6, 0x23, 0x25, 0xaf, 0x02, 0x1a, 0x68, 0xf7, 0x07, 0x51, 0x1a]

/-- The word that is written for the key. -/
def sampleWord : String := "z6MktwupdmLXVVqTzCw4i46r4uGyosGXRnR3XjN4Zq7oMMsw"

/-- A word of the same key whose code is too large by two to the sixty-fourth. -/
def overflowingWord : String := "z4xuPqU1vhofKmLnvb6DDCVKC1Qm4joVm3iYhXuBP1r7ms5ng1WPnLE2pZf"

theorem encode_sampleKey : encode Codec.ed25519 sampleKey = .ok sampleWord :=
  Outcome.toOption_eq_some.mp (by decide +kernel)

theorem decode_sampleWord : decode sampleWord = .ok (Codec.ed25519, sampleKey) :=
  (decode_of_encode (by decide) encode_sampleKey).2

theorem decode_overflowingWord : decode overflowingWord = .ok (Codec.ed25519, sampleKey) :=
  Outcome.toOption_eq_some.mp (by decide +kernel)

theorem written_of_decode_sample :
    decode sampleWord = .ok (Codec.ed25519, sampleKey) ∧ ¬ Overflows sampleWord ∧
      decode overflowingWord = .ok (Codec.ed25519, sampleKey) ∧ Overflows overflowingWord := by
  obtain ⟨-, -, -, hplain, -⟩ := written_of_decode decode_sampleWord
  obtain ⟨-, -, -, hoverflow, -⟩ := written_of_decode decode_overflowingWord
  refine ⟨decode_sampleWord, hplain.mp encode_sampleKey, decode_overflowingWord, ?_⟩
  refine by_contra fun hfits => ?_
  have hsame := hoverflow.mpr hfits
  rw [encode_sampleKey] at hsame
  exact absurd (Except.ok.inj hsame) (by decide)

/-- A word that can be read need not be the one that is written. -/
theorem not_forall_written :
    ¬ ∀ (s : String) (codec : Codec) (key : Bytes), decode s = .ok (codec, key) →
      codec ∈ Codec.table ∧ key.length = codec.keyLength ∧ encode codec key = .ok s := by
  intro h
  obtain ⟨-, -, hsame⟩ := h overflowingWord Codec.ed25519 sampleKey decode_overflowingWord
  rw [encode_sampleKey] at hsame
  exact absurd (Except.ok.inj hsame) (by decide)

end Multikey

end DidMethods
