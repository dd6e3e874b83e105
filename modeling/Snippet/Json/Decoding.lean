import Snippet.Json.Basic

/-!
Decoding of JSON values into records and variants. A record is an object with named members or an
array of the values in order; a variant is its name, or an object whose only member has that name.
-/

namespace Snippet.Json

/-- A whole number in a range. -/
def intIn? (low high : Int) : Json → Option Int
  | int value => if low ≤ value ∧ value ≤ high then some value else none
  | _ => none

/-- An unsigned number below a bound. -/
def unsigned? (bound : Nat) (json : Json) : Option Nat :=
  (json.intIn? 0 (bound - 1)).map Int.toNat

/-- A text. -/
def text? : Json → Option String
  | string value => some value
  | _ => none

/-- A truth value. -/
def bool? : Json → Option Bool
  | bool value => some value
  | _ => none

/-- An array whose items all decode. -/
def list? {α : Type} (item? : Json → Option α) : Json → Option (List α)
  | array items => items.mapM item?
  | _ => none

/-- A value that may be null. -/
def nullable? {α : Type} (value? : Json → Option α) : Json → Option (Option α)
  | null => some none
  | json => (value? json).map some

/-- The only member of a name; none if the name is missing, an error if it occurs twice. -/
def member? (members : List (String × Json)) (name : String) : Option (Option Json) :=
  match members.filter (·.1 == name) with
  | [] => some none
  | [(_, value)] => some (some value)
  | _ => none

/-- The fields of a record in order, absent ones as none. Other members of an object are ignored;
an array holds at least the first `least` fields and no more than all. -/
def record? (names : List String) (least : Nat) : Json → Option (List (Option Json))
  | object members => names.mapM (member? members)
  | array items =>
    if least ≤ items.length ∧ items.length ≤ names.length then
      some (items.map some ++ List.replicate (names.length - items.length) none)
    else none
  | _ => none

/-- The name of a variant and its content. -/
def variant? : Json → Option (String × Option Json)
  | string name => some (name, none)
  | object [(name, content)] => some (name, some content)
  | _ => none

/-- Whether a variant without content may be written with this one. -/
def isUnit : Option Json → Bool
  | none | some null => true
  | some _ => false

/-- The name of a variant without content. -/
def unitName? (json : Json) : Option String := do
  let (name, content) ← json.variant?
  if isUnit content then some name else none

end Snippet.Json
