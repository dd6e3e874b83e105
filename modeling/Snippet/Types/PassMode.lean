/-!
The ways to pass an argument.
-/

namespace Snippet

/-- How a parameter receives its argument. -/
inductive PassMode where
  | value
  /-- Passed without being copied back; the parameter is readonly. -/
  | input
  /-- Passed and copied back. -/
  | ref
  /-- Copied back only; the parameter starts unassigned. -/
  | out
deriving DecidableEq, Repr

namespace PassMode

/-- Whether the parameter's final value is copied back. -/
def writesBack : PassMode → Bool
  | ref | out => true
  | value | input => false

/-- The keyword in front of the parameter's type. -/
def keyword? : PassMode → Option String
  | value => none
  | input => some "in"
  | ref => some "ref"
  | out => some "out"

/-- A type's shown form behind the keyword. -/
def label (mode : PassMode) (type : String) : String :=
  match mode.keyword? with
  | some keyword => keyword ++ " " ++ type
  | none => type

end PassMode

end Snippet
