import DidMethods.Fault

/-!
# Actions

What changes a state and can fail (`Action`). A failure does not take back what was changed before
it.
-/

namespace DidMethods

/-- A computation on some state that can fail; a failure keeps the changes made before it. -/
abbrev Action (σ α : Type) := ExceptT Fault (StateM σ) α

namespace Action

variable {σ τ α : Type}

/-- What can be told from the state. -/
def query (f : σ → Outcome α) : Action σ α := fun s => (f s, s)

/-- What does not depend on the state. -/
def ofOutcome (a : Outcome α) : Action σ α := query fun _ => a

/-- What concerns the first of two states. -/
def first (x : Action σ α) : Action (σ × τ) α := fun (s, t) =>
  let (a, s) := x s
  (a, (s, t))

/-- What concerns the second of two states. -/
def second (x : Action τ α) : Action (σ × τ) α := fun (s, t) =>
  let (a, t) := x t
  (a, (s, t))

end Action

end DidMethods
