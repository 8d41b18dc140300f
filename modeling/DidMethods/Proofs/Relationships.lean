import DidMethods.Document.Basic

/-!
# Entries of relationships

An entry that is added to a relationship comes last in it, and nothing else of the document is
another (`DidMethods.Document.relationship_addRelation`). So what an entry does not change, many
entries do not change either (`DidMethods.Document.foldl_addRelation`), and of many entries, each
relationship gets its own in their order (`DidMethods.Document.relationship_foldl_addRelation`).
-/

namespace DidMethods.Document

theorem relationship?_withRelationship (d : Document) (p q : Purpose)
    (entries : Option (List Relation)) :
    (d.withRelationship p entries).relationship? q =
      if q = p then entries else d.relationship? q := by
  cases p <;> cases q <;> rfl

/-- An entry that is added for a purpose is an entry of this purpose only. -/
theorem relationship_addRelation (d : Document) (p q : Purpose) (entry : Relation) :
    (d.addRelation p entry).relationship q =
      if q = p then d.relationship q ++ [entry] else d.relationship q := by
  rw [relationship, addRelation, relationship?_withRelationship]
  by_cases h : q = p
  · subst h
    rw [if_pos rfl, if_pos rfl, Option.getD_some]
  · rw [if_neg h, if_neg h, relationship]

@[simp] theorem id_addRelation (d : Document) (p : Purpose) (entry : Relation) :
    (d.addRelation p entry).id = d.id := by
  cases p <;> rfl

@[simp] theorem services_addRelation (d : Document) (p : Purpose) (entry : Relation) :
    (d.addRelation p entry).services = d.services := by
  cases p <;> rfl

/-- What a new entry of a relationship does not change, many of them do not change either. -/
theorem foldl_addRelation {α β : Type} {field : Document → β}
    (hfield : ∀ d p r, field (d.addRelation p r) = field d) (purpose : α → Purpose)
    (relation : α → Relation) (items : List α) (d : Document) :
    field (items.foldl (fun d a => d.addRelation (purpose a) (relation a)) d) = field d := by
  induction items generalizing d with
  | nil => rfl
  | cons a items ih => rw [List.foldl_cons, ih, hfield]

/-- **Of many new entries, each relationship gets its own**, in the order in which they come. -/
theorem relationship_foldl_addRelation {α : Type} (purpose : α → Purpose) (relation : α → Relation)
    (items : List α) (d : Document) (q : Purpose) :
    (items.foldl (fun d a => d.addRelation (purpose a) (relation a)) d).relationship q =
      d.relationship q ++ (items.filter fun a => purpose a = q).map relation := by
  induction items generalizing d with
  | nil => simp
  | cons a items ih =>
    rw [List.foldl_cons, ih, relationship_addRelation]
    by_cases h : purpose a = q
    · rw [if_pos h.symm, List.filter_cons_of_pos (by simpa using h), List.map_cons,
        List.append_assoc, List.singleton_append]
    · rw [if_neg (Ne.symm h), List.filter_cons_of_neg (by simpa using h)]

end DidMethods.Document
