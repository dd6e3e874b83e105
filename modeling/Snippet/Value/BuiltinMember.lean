/-!
The members that texts, lists and all values have without a library: their names and signatures.
-/

namespace Snippet

/-- A built-in member. -/
inductive BuiltinMember where
  | textLength
  | textToUpper
  | textToLower
  | textTrim
  | textContains
  | textStartsWith
  | textEndsWith
  | textIndexOf
  | textReplace
  | textSubstring
  | textSubstringRange
  | listCount
  | listAdd
  | listClear
  | listContains
  | toText
  | equals
deriving DecidableEq, Repr

/-- The values that have a member. -/
inductive MemberOwner where
  | text
  | list
  | any
deriving DecidableEq, Repr

/-- The type of a parameter or a result of a member. -/
inductive MemberSlot where
  | void
  | bool
  | int
  | text
  | object
  /-- The element type of the list that the member is called on. -/
  | element
deriving DecidableEq, Repr

/-- The name of a slot type in listings. -/
def MemberSlot.name : MemberSlot → String
  | void => "Void"
  | bool => "Bool"
  | int => "Int"
  | text => "String"
  | object => "Object"
  | element => "Element"

/-- The name and the signature of a member. -/
structure MemberSignature where
  owner : MemberOwner
  name : String
  /-- Whether the member is read without parentheses. -/
  isProperty : Bool
  parameters : List MemberSlot
  result : MemberSlot
deriving DecidableEq, Repr

namespace BuiltinMember

/-- Every member, in the order in which overloads are listed. -/
def all : List BuiltinMember :=
  [textLength, textToUpper, textToLower, textTrim, textContains, textStartsWith, textEndsWith,
    textIndexOf, textReplace, textSubstring, textSubstringRange, listCount, listAdd, listClear,
    listContains, toText, equals]

/-- The name of a member in images. -/
def code : BuiltinMember → String
  | textLength => "StringLength"
  | textToUpper => "StringToUpper"
  | textToLower => "StringToLower"
  | textTrim => "StringTrim"
  | textContains => "StringContains"
  | textStartsWith => "StringStartsWith"
  | textEndsWith => "StringEndsWith"
  | textIndexOf => "StringIndexOf"
  | textReplace => "StringReplace"
  | textSubstring => "StringSubstring"
  | textSubstringRange => "StringSubstringRange"
  | listCount => "ListCount"
  | listAdd => "ListAdd"
  | listClear => "ListClear"
  | listContains => "ListContains"
  | toText => "ToString"
  | equals => "Equals"

/-- The member with a name in images. -/
def ofCode? (code : String) : Option BuiltinMember := all.find? (·.code == code)

/-- The name and the signature of a member. -/
def signature : BuiltinMember → MemberSignature
  | textLength => ⟨.text, "Length", true, [], .int⟩
  | textToUpper => ⟨.text, "ToUpper", false, [], .text⟩
  | textToLower => ⟨.text, "ToLower", false, [], .text⟩
  | textTrim => ⟨.text, "Trim", false, [], .text⟩
  | textContains => ⟨.text, "Contains", false, [.text], .bool⟩
  | textStartsWith => ⟨.text, "StartsWith", false, [.text], .bool⟩
  | textEndsWith => ⟨.text, "EndsWith", false, [.text], .bool⟩
  | textIndexOf => ⟨.text, "IndexOf", false, [.text], .int⟩
  | textReplace => ⟨.text, "Replace", false, [.text, .text], .text⟩
  | textSubstring => ⟨.text, "Substring", false, [.int], .text⟩
  | textSubstringRange => ⟨.text, "Substring", false, [.int, .int], .text⟩
  | listCount => ⟨.list, "Count", true, [], .int⟩
  | listAdd => ⟨.list, "Add", false, [.element], .void⟩
  | listClear => ⟨.list, "Clear", false, [], .void⟩
  | listContains => ⟨.list, "Contains", false, [.element], .bool⟩
  | toText => ⟨.any, "ToString", false, [], .text⟩
  | equals => ⟨.any, "Equals", false, [.object], .bool⟩

/-- The name under which a member is called. -/
def name (member : BuiltinMember) : String := member.signature.name

/-- The number of arguments besides the value that the member is called on. -/
def arity (member : BuiltinMember) : Nat := member.signature.parameters.length

/-- Whether a call gives a value. -/
def hasResult (member : BuiltinMember) : Bool := member.signature.result != .void

/-- The members of a name on a kind of value, the ones of every value included. -/
def named (owner : Option MemberOwner) (name : String) (isProperty : Bool) : List BuiltinMember :=
  all.filter fun member =>
    let signature := member.signature
    signature.name == name && signature.isProperty == isProperty &&
      (signature.owner == .any || owner == some signature.owner)

end BuiltinMember

end Snippet
