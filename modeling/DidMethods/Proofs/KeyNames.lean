import DidMethods.Key.Jwk

/-!
# The names of a key

A key is named by its thumbprint, a key manager knows it by a URI, and it can be committed to. All
of these are made of the defining members, so that keys with the same canonical key have all of them
in common (`DidMethods.Jwk.sameNames_of_canonical`). Among these are a key and its public part, and
a key under other descriptive members.
-/

namespace DidMethods.Jwk

theorem canonicalText_canonical (k : Jwk) : k.canonical.canonicalText = k.canonicalText := by
  cases k <;> rfl

theorem canonical_toPublic (k : Jwk) : k.toPublic.canonical = k.canonical := by
  cases k <;> rfl

theorem canonical_withParams (params : Params) (k : Jwk) :
    (k.withParams params).canonical = k.canonical := by
  cases k <;> rfl

/-- Two keys have the same canonical form, and all names that are made of it in common. -/
structure SameNames (j k : Jwk) : Prop where
  /-- The canonical form is the same. -/
  canonicalText : j.canonicalText = k.canonicalText
  /-- The thumbprint is the same. -/
  thumbprint : j.thumbprint = k.thumbprint
  /-- A key manager knows the keys by the same name. -/
  uri : j.uri = k.uri
  /-- The commitment to the key is the same. -/
  commitment : j.commitment = k.commitment

/-- **All names are made of the canonical key.** -/
theorem sameNames_of_canonical {j k : Jwk} (h : j.canonical = k.canonical) : SameNames j k := by
  have htext : j.canonicalText = k.canonicalText := by
    rw [← canonicalText_canonical j, h, canonicalText_canonical]
  have hthumbprint : j.thumbprint = k.thumbprint := by rw [thumbprint, htext, thumbprint]
  refine ⟨htext, hthumbprint, ?_, ?_⟩
  · rw [uri, hthumbprint, uri]
  · rw [commitment, h, commitment]

end DidMethods.Jwk
