/-!
How a list of locals differs from the list before it, as far as the compact frame forms can say it.
-/

namespace JvmFrames

/-- Either locals were appended (positive) or dropped (negative) at the end, or the lists differ
in some other place. -/
inductive LocalsChange where
  | atEnd (difference : Int)
  | elsewhere
  deriving DecidableEq, Repr

end JvmFrames
