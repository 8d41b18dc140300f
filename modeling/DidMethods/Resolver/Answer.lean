import DidMethods.Resolution.Result
import DidMethods.Time.Duration

/-!
# Answers in time

What a resolution comes to, and how long that takes.
-/

namespace DidMethods

/-- What a resolution comes to, and when. -/
structure Answer where
  /-- The result. -/
  result : Resolution
  /-- The time that passes until it is there. -/
  after : Duration := .zero
deriving DecidableEq, Repr

end DidMethods
