import Snippet.Json.Basic
import Snippet.Value.World

/-!
The written form of values, for other programs. A list or an object that contains itself has none.
-/

namespace Snippet.Value

/-- The written form of a value whose lists and objects are nested at most `depth` deep. -/
def writtenWithin? (store : Store) : Nat → Value → Option Json
  | _, null => some .null
  | _, bool truth => some (.bool truth)
  | _, int number => some (.int number.toInt)
  | _, long number => some (.int number.toInt)
  | _, double number => some (if number.isFinite then .real number else .null)
  | _, text content => some (.string content)
  | 0, list _ _ | 0, object _ _ => none
  | depth + 1, list _ reference => do
    return .array (← (store.items reference).toList.mapM (writtenWithin? store depth))
  | depth + 1, object _ reference => do
    let members ← (store.fields reference).mapM fun (name, value) => do
      return (name, ← writtenWithin? store depth value)
    return .object (Json.sortMembers members)

/-- The written form of a value; none if it has no end. Nothing is nested deeper than there are
lists and objects, a reference that leads nowhere counted as one more, unless it contains itself. -/
def written? (store : Store) (value : Value) : Option Json :=
  writtenWithin? store (store.lists.size + store.objects.size + 1) value

end Snippet.Value
