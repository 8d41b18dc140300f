import DidMethods.Proofs.LongForm

/-!
# A long form certifies itself

The suffix of a DID is the hash of its suffix data, which hold the hash of the delta. So two long
forms of one suffix that both resolve carry the same operation, whoever wrote them
(`DidMethods.IonMethod.LongForm.agree_or_collide_of_suffix_eq`): the same commitments, and the same
document but for the DID that it is the document of (`DidMethods.Sidetree.InitialState.Agree`). The
only way out is a collision of the hash between octets that these very long forms carry
(`DidMethods.Sidetree.InitialState.Collide`).

The octets that are hashed are canonical JSON, in which a number is a double; what they fix of a
document is the document only as far as no number occurs. The commitments are fixed in any case:
they are texts of base64 digits, which stand for themselves in JSON, and the one to the update key
ends the text of the delta (`DidMethods.Sidetree.Delta.updateCommitment_eq`).
-/

namespace DidMethods

open Json

/-! ### Texts of base64 digits -/

namespace Base64Url

theorem isDigit_of_decode? {s : String} {b : Bytes} (h : decode? s = some b) :
    ∀ c ∈ s.toList, isDigit c = true := by
  rw [← encode_of_decode? h]
  exact fun _ => isDigit_of_mem_encode

theorem ne_quote_of_isDigit {c : Char} (h : isDigit c = true) : c ≠ '"' := by
  rintro rfl
  exact absurd h (by decide)

end Base64Url

/-- A digit of base64 is written as it is. -/
theorem Json.writeChar_of_isDigit {c : Char} (h : Base64Url.isDigit c = true) (ascii : Bool) :
    writeChar ascii c = [c] := by
  have hall : Base64Url.alphabet.all (fun c => writeChar ascii c == [c]) = true := by
    cases ascii <;> decide +kernel
  exact beq_iff_eq.mp (Base64Url.of_isDigit hall h)

theorem Json.writeString_of_isDigit {s : String} (h : ∀ c ∈ s.toList, Base64Url.isDigit c = true)
    (ascii : Bool) : writeString ascii s = '"' :: s.toList ++ ['"'] := by
  have hflat : s.toList.flatMap (writeChar ascii) = s.toList := by
    rw [List.flatMap_def, List.map_congr_left fun c hc => writeChar_of_isDigit (h c hc) ascii]
    exact List.flatMap_singleton' _
  rw [writeString, hflat]

namespace ContentHash

/-- What is accepted as a hash is made of base64 digits. -/
theorem isDigit_of_check {hash : String} (h : check hash = .ok ()) :
    ∀ c ∈ hash.toList, Base64Url.isDigit c = true := by
  obtain ⟨bytes, hbytes, -⟩ := Outcome.bind_eq_ok.mp h
  rw [Base64Url.decode] at hbytes
  split at hbytes
  · next hdecode => exact Base64Url.isDigit_of_decode? hdecode
  · cases hbytes

end ContentHash

namespace Sidetree

/-! ### Deltas -/

namespace Delta

/-- The canonical text of a delta ends with the commitment. -/
theorem exists_canonical_eq (d : Delta)
    (h : ∀ c ∈ d.updateCommitment.toList, Base64Url.isDigit c = true) :
    ∃ before, d.toJson.canonical.toList =
      (before ++ '"' :: d.updateCommitment.toList) ++ ['"', '}'] := by
  have hle : Utf16.le "patches" "updateCommitment" = true := by decide +kernel
  have hsorted : d.toJson.sorted = .object
      [("patches", .array (d.patches.map fun p => p.toJson.sorted)),
        ("updateCommitment", .string d.updateCommitment)] := by
    simp only [toJson, sorted_object, sortedObject, sortedMembers_eq_map, List.map_cons,
      List.map_nil, sorted_array, sorted_string, List.map_map]
    refine congrArg Json.object (sortMembers_of_pairwise ?_)
    simp [hle]
  refine ⟨?before, ?_⟩
  case before => exact '{' :: writeString false "patches" ++ ':' ::
    (Json.array (d.patches.map fun p => p.toJson.sorted)).write ecma ++
      ',' :: writeString false "updateCommitment" ++ [':']
  rw [canonical, hsorted, String.toList_ofList]
  simp only [write, writeMembers, ecma, writeString_of_isDigit h]
  simp only [List.cons_append, List.append_assoc, List.nil_append]

/-- **The canonical octets of a delta fix its commitment**, whatever numbers occur in it. -/
theorem updateCommitment_eq {c d : Delta}
    (hc : ContentHash.check c.updateCommitment = .ok ())
    (hd : ContentHash.check d.updateCommitment = .ok ())
    (h : c.toJson.canonicalBytes = d.toJson.canonicalBytes) :
    c.updateCommitment = d.updateCommitment := by
  have hc := ContentHash.isDigit_of_check hc
  have hd := ContentHash.isDigit_of_check hd
  obtain ⟨before, hbefore⟩ := c.exists_canonical_eq hc
  obtain ⟨before', hbefore'⟩ := d.exists_canonical_eq hd
  have htext := hbefore.symm.trans ((congrArg String.toList (Bytes.ofString_injective h)).trans
    hbefore')
  -- the commitment has no quotation mark in it: it is what follows the last one but its own
  have hlast := congrArg (Text.afterLast '"') (List.append_inj_left' htext rfl)
  rw [Text.afterLast_append before fun hmem => Base64Url.ne_quote_of_isDigit (hc _ hmem) rfl,
    Text.afterLast_append before' fun hmem => Base64Url.ne_quote_of_isDigit (hd _ hmem) rfl]
    at hlast
  exact String.toList_inj.mp hlast

/-- Deltas with the same octets and without numbers are the same, up to the order of members. -/
theorem ordered_eq_of_canonicalBytes {c d : Delta}
    (hc : ∀ e ∈ c.services, e.endpoint.toJson.distinctNames = true)
    (hd : ∀ e ∈ d.services, e.endpoint.toJson.distinctNames = true)
    (hcn : ∀ e ∈ c.services, e.endpoint.toJson.hasNumber = false)
    (hdn : ∀ e ∈ d.services, e.endpoint.toJson.hasNumber = false)
    (h : c.toJson.canonicalBytes = d.toJson.canonicalBytes) : c.ordered = d.ordered := by
  have hsorted := sorted_eq_of_canonicalBytes (hasNumber_toJson hcn) (hasNumber_toJson hdn) h
  have hread := ofJson?_toJson hc
  rw [hsorted, ofJson?_toJson hd] at hread
  exact (Option.some.inj hread).symm

end Delta

/-! ### Initial states -/

namespace InitialState

/-- Two initial states are the same operation, as far as its octets tell. -/
structure Agree (s t : InitialState) : Prop where
  /-- The suffix data are the same. -/
  suffixData : s.suffixData = t.suffixData
  /-- The deltas have the same canonical octets. -/
  delta : s.delta.toJson.canonicalBytes = t.delta.toJson.canonicalBytes
  /-- The commitments to the next update key are the same. -/
  updateCommitment : s.delta.updateCommitment = t.delta.updateCommitment
  /-- The states of the document are the same maps and lists, unless they hold numbers. -/
  state : (∀ e ∈ s.delta.services ++ t.delta.services, e.endpoint.toJson.hasNumber = false) →
    s.state.ordered = t.state.ordered

/-- A collision of the hash between octets that two initial states carry. -/
def Collide (s t : InitialState) : Prop :=
  ContentHash.Collide s.suffixData.toJson.canonicalBytes t.suffixData.toJson.canonicalBytes ∨
    ContentHash.Collide s.delta.toJson.canonicalBytes t.delta.toJson.canonicalBytes

theorem state_ordered (s : InitialState) :
    s.state.ordered = State.applyAll {} (s.delta.ordered.patches) :=
  State.ordered_applyAll s.delta.patches {}

/-- What is decoded has maps with distinct names. -/
theorem distinctNames_of_decode {segment : String} {s : InitialState}
    (h : decode segment = .ok s) :
    ∀ e ∈ s.delta.services, e.endpoint.toJson.distinctNames = true := by
  obtain ⟨bytes, -, h⟩ := Outcome.bind_eq_ok.mp h
  obtain ⟨v, -, h⟩ := Option.bind_eq_some_iff.mp (Outcome.orFail_eq_ok.mp h)
  exact distinctNames_of_ofJson? h

/-- **A suffix fixes the initial state**, as long as the hash does not collide on its parts. -/
theorem agree_or_collide {s t : InitialState} {suffix : String}
    (hs : ∀ e ∈ s.delta.services, e.endpoint.toJson.distinctNames = true)
    (ht : ∀ e ∈ t.delta.services, e.endpoint.toJson.distinctNames = true)
    (hcs : s.check suffix = .ok ()) (hct : t.check suffix = .ok ()) : Agree s t ∨ Collide s t := by
  obtain ⟨-, hsdelta, -, hsupdate, hssuffix⟩ := check_eq_ok.mp hcs
  obtain ⟨-, htdelta, -, htupdate, htsuffix⟩ := check_eq_ok.mp hct
  -- the outer hash: the suffix
  rcases ContentHash.sameBytes_or_collide (hssuffix.trans htsuffix.symm) with hbytes | hcollide
  · have hdata := SuffixData.eq_of_canonicalBytes hbytes
    -- the inner hash: the delta hash in the suffix data
    have hhash : ContentHash.ofJson s.delta.toJson = ContentHash.ofJson t.delta.toJson := by
      rw [← ContentHash.eq_ofJson_of_verify hsdelta, ← ContentHash.eq_ofJson_of_verify htdelta,
        hdata]
    rcases ContentHash.sameBytes_or_collide hhash with hdelta | hcollide
    · refine Or.inl ⟨hdata, hdelta, Delta.updateCommitment_eq hsupdate htupdate hdelta, ?_⟩
      intro hnumber
      obtain ⟨hsn, htn⟩ := List.forall_mem_append.mp hnumber
      rw [state_ordered, state_ordered,
        Delta.ordered_eq_of_canonicalBytes hs ht hsn htn hdelta]
    · exact Or.inr (Or.inr hcollide)
  · exact Or.inr (Or.inl hcollide)

end InitialState

end Sidetree

/-! ### Long forms -/

namespace IonMethod.LongForm

theorem exists_of_resolve {did : String} (h : (LongForm.resolve did).isOk = true) :
    ∃ document m, LongForm.document did = .ok (document, m) ∧
      LongForm.resolve did = .ofDocument document m := by
  rw [LongForm.resolve] at h ⊢
  cases hdoc : LongForm.document did with
  | ok found => exact ⟨found.1, found.2, rfl, rfl⟩
  | error f =>
    rw [hdoc] at h
    cases h

/-- **A long form certifies itself.** Of two long forms with one suffix that resolve, each carries
an initial state and resolves to the document of this state for its own bare DID. The two states
agree, or else there is a collision of SHA-256 between octets that the two carry. -/
theorem agree_or_collide_of_suffix_eq {did₁ did₂ : String} {l₁ l₂ : LongForm}
    (h₁ : (LongForm.resolve did₁).isOk = true) (h₂ : (LongForm.resolve did₂).isOk = true)
    (hl₁ : LongForm.parse did₁ = .ok l₁) (hl₂ : LongForm.parse did₂ = .ok l₂)
    (hsuffix : l₁.suffix = l₂.suffix) :
    ∃ s₁ s₂ : Sidetree.InitialState,
      Sidetree.InitialState.decode l₁.segment = .ok s₁ ∧
      Sidetree.InitialState.decode l₂.segment = .ok s₂ ∧
      LongForm.resolve did₁ =
        .ofDocument (s₁.state.toDocument l₁.uri) (unanchoredMetadata l₁.short s₁) ∧
      LongForm.resolve did₂ =
        .ofDocument (s₂.state.toDocument l₂.uri) (unanchoredMetadata l₂.short s₂) ∧
      (s₁.Agree s₂ ∨ s₁.Collide s₂) := by
  obtain ⟨_, _, hdoc₁, hres₁⟩ := exists_of_resolve h₁
  obtain ⟨_, _, hdoc₂, hres₂⟩ := exists_of_resolve h₂
  -- both states have passed their checks against the one suffix
  obtain ⟨l, s₁, hl, hs₁, hc₁, rfl, rfl⟩ := document_eq_ok.mp hdoc₁
  obtain rfl : l = l₁ := Except.ok.inj (hl.symm.trans hl₁)
  obtain ⟨l', s₂, hl', hs₂, hc₂, rfl, rfl⟩ := document_eq_ok.mp hdoc₂
  obtain rfl : l' = l₂ := Except.ok.inj (hl'.symm.trans hl₂)
  refine ⟨s₁, s₂, hs₁, hs₂, hres₁, hres₂, ?_⟩
  rw [← hsuffix] at hc₂
  exact Sidetree.InitialState.agree_or_collide
    (Sidetree.InitialState.distinctNames_of_decode hs₁)
    (Sidetree.InitialState.distinctNames_of_decode hs₂) hc₁ hc₂

theorem agree_or_collide_sample :
    ∃ l₁ l₂ : LongForm,
      LongForm.parse (longForm none sampleRequest) = .ok l₁ ∧
      LongForm.parse (longForm (some "test") sampleRequest) = .ok l₂ ∧
      ∃ s₁ s₂ : Sidetree.InitialState,
        Sidetree.InitialState.decode l₁.segment = .ok s₁ ∧
        Sidetree.InitialState.decode l₂.segment = .ok s₂ ∧
        LongForm.resolve (longForm none sampleRequest) =
          .ofDocument (s₁.state.toDocument l₁.uri) (unanchoredMetadata l₁.short s₁) ∧
        LongForm.resolve (longForm (some "test") sampleRequest) =
          .ofDocument (s₂.state.toDocument l₂.uri) (unanchoredMetadata l₂.short s₂) ∧
        (s₁.Agree s₂ ∨ s₁.Collide s₂) := by
  have hmain : ∀ n ∈ (none : Option String), n ≠ "" → IsNetwork n := nofun
  have htest : ∀ n ∈ some "test", n ≠ "" → IsNetwork n :=
    fun _ hn _ => Option.mem_some.mp hn ▸ isNetwork_test
  have hl₁ := LongForm.parse_longForm hmain sampleRequest
  have hl₂ := LongForm.parse_longForm htest sampleRequest
  refine ⟨_, _, hl₁, hl₂, agree_or_collide_of_suffix_eq ?_ ?_ hl₁ hl₂ ?_⟩
  · rw [LongForm.resolve, document_sample hmain]
    rfl
  · rw [LongForm.resolve, document_sample htest]
    rfl
  · have hdigit : ∀ c ∈ sampleRequest.suffix.toList, Base64Url.isDigit c = true :=
      fun c => Base64Url.isDigit_of_mem_encode
    rw [LongForm.suffix_append hdigit, LongForm.suffix_append hdigit]

end IonMethod.LongForm

end DidMethods
