import Snippet.Text.Case
import Snippet.Text.Split
import Snippet.Value.BuiltinMember
import Snippet.Value.World

/-!
What the built-in members do. Indices and lengths count characters.
-/

namespace Snippet.BuiltinMember

/-- A length as a 32-bit number; longer ones stop at its end. -/
def lengthValue (length : Nat) : Value := .int (.ofNat (min length 0x7FFFFFFF))

/-- A text argument; null is refused under the parameter's name. -/
def textArgument (arguments : List Value) (index : Nat) (parameter : String) :
    Except Exception String :=
  match arguments[index]? with
  | some (.text value) => .ok value
  | some .null | none => .error (.argumentNull parameter)
  | some other => .error (.invalidCast other.typeNameOrNull TypeNames.string)

/-- A text argument; anything else counts as empty. -/
def textOrEmpty : Option Value → String
  | some (.text value) => value
  | _ => ""

/-- A whole number as an argument. -/
def intArgument (arguments : List Value) (index : Nat) (parameter : String) :
    Except Exception Int :=
  match arguments[index]? with
  | some (.int value) => .ok value.toInt
  | _ => .error (.argumentOutOfRange parameter)

/-- The characters from a start on, up to a count of them if one is given. Start and end lie in the
text. -/
def substring (text : String) (start : Int) (count : Option Int) : Except Exception String :=
  let characters := text.toList
  let length := characters.length
  if start < 0 ∨ (length : Int) < start then .error (.argumentOutOfRange "startIndex")
  else
    let behind := characters.drop start.toNat
    match count with
    | none => .ok (String.ofList behind)
    | some count =>
      if count < 0 ∨ (length : Int) < start + count then .error (.argumentOutOfRange "length")
      else .ok (String.ofList (behind.take count.toNat))

/-- The result of a member of texts; other members have none. -/
def onText? (member : BuiltinMember) (text : String) (arguments : List Value) :
    Option (Except Exception Value) :=
  match member with
  | textLength => some (.ok (lengthValue text.length))
  | textToUpper => some (.ok (.text (Text.upper text)))
  | textToLower => some (.ok (.text (Text.lower text)))
  | textTrim => some (.ok (.text (Text.trim text)))
  | textContains => some do
    return .bool (Text.occursIn (← textArgument arguments 0 "value") text)
  | textStartsWith => some do
    return .bool (Text.beginsWith text (← textArgument arguments 0 "value"))
  | textEndsWith => some do
    return .bool (Text.endsWith text (← textArgument arguments 0 "value"))
  | textIndexOf => some do
    match Text.indexOf? text (← textArgument arguments 0 "value") with
    | some index => return lengthValue index
    | none => return .int (-1)
  | textReplace => some do
    let pattern ← textArgument arguments 0 "oldValue"
    if pattern.isEmpty then throw .emptyPattern
    return .text (Text.replaceAll text pattern (textOrEmpty arguments[1]?))
  | textSubstring => some do
    return .text (← substring text (← intArgument arguments 0 "startIndex") none)
  | textSubstringRange => some do
    let start ← intArgument arguments 0 "startIndex"
    let count ← intArgument arguments 1 "length"
    return .text (← substring text start (some count))
  | _ => none

/-- The effect and the result of a member of lists; other members have none. -/
def onList? (member : BuiltinMember) (reference : Nat) (arguments : List Value) :
    Option (Action (Option Value)) :=
  let argument := arguments.head?.getD .null
  match member with
  | listCount => some do
    return some (lengthValue ((← Action.store).items reference).size)
  | listAdd => some do
    Action.modifyStore fun store =>
      store.setItems reference ((store.items reference).push argument)
    return none
  | listClear => some do
    Action.modifyStore (·.setItems reference #[])
    return none
  | listContains => some do
    return some (.bool (((← Action.store).items reference).any (·.same argument)))
  | _ => none

/-- The result of a member that every value but null has; other members have none. -/
def onAny? (member : BuiltinMember) (receiver : Value) (arguments : List Value) : Option Value :=
  match member with
  | toText => some (.text receiver.shown)
  | equals => some (.bool (arguments.head?.any receiver.same))
  | _ => none

/-- Calls a member on a value. A member without a result gives none. -/
def apply (member : BuiltinMember) (receiver : Value) (arguments : List Value) :
    Action (Option Value) :=
  let undefined : Action (Option Value) :=
    throw (.undefinedMember member.name (receiver.typeName?.getD ""))
  match receiver, onAny? member receiver arguments with
  | .null, _ => throw (.nullReference member.name)
  | _, some result => return some result
  | .text text, none =>
    match onText? member text arguments with
    | some result => some <$> Action.ofExcept result
    | none => undefined
  | .list _ reference, none => (onList? member reference arguments).getD undefined
  | _, none => undefined

end Snippet.BuiltinMember
