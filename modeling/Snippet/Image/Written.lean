import Snippet.Image.Basic
import Snippet.Json.Decoding
import Snippet.Json.Reading

/-!
The written form of images. Doubles are written by their bits, so that every double comes back.
-/

namespace Snippet

/-- Why a text or a JSON value is no image of the current version. -/
inductive ImageFault where
  | malformed
  | version (found : UInt32)
deriving DecidableEq, Repr

/-- The wording of a fault. -/
def ImageFault.message : ImageFault → String
  | malformed => "malformed module image: ..."
  | version found =>
    s!"unsupported image format version {found} (expected {Image.currentVersion})"

namespace Json

/-- A number of 32 bits. -/
def ofUInt32 (number : UInt32) : Json := .int number.toNat

/-- A number of 16 bits. -/
def ofUInt16 (number : UInt16) : Json := .int number.toNat

/-- Reads a number of 32 bits. -/
def uint32? (json : Json) : Option UInt32 := (json.unsigned? UInt32.size).map .ofNat

/-- Reads a number of 16 bits. -/
def uint16? (json : Json) : Option UInt16 := (json.unsigned? UInt16.size).map .ofNat

/-- A variant with content. -/
def variant (name : String) (content : Json) : Json := .object [(name, content)]

/-- A text that may be missing. -/
def ofText? (text : Option String) : Json := text.elim .null .string

/-- Texts in order. -/
def ofTexts (texts : List String) : Json := .array (texts.map .string)

/-- The content that a record's field must have. -/
def field? {α : Type} (read? : Json → Option α) (content : Option Json) : Option α :=
  content.bind read?

/-- The content of a field that may be missing or null. -/
def optionalField? {α : Type} (read? : Json → Option α) : Option Json → Option (Option α)
  | none => some none
  | some json => json.nullable? read?

end Json

/-- The written form of a constant. -/
def Constant.toJson : Constant → Json
  | null => .string "Null"
  | bool value => .variant "Bool" (.bool value)
  | int value => .variant "Int" (.int value.toInt)
  | long value => .variant "Long" (.int value.toInt)
  | double bits => .variant "Double" (.int bits.toNat)
  | text value => .variant "Str" (.string value)

/-- Reads a constant. -/
def Constant.ofJson? (json : Json) : Option Constant := do
  let (name, content) ← json.variant?
  match name, content with
  | "Null", content => if Json.isUnit content then some null else none
  | "Bool", some json => json.bool?.map bool
  | "Int", some json => (json.intIn? Int32.minValue.toInt Int32.maxValue.toInt).map fun value => int (.ofInt value)
  | "Long", some json => (json.intIn? Int64.minValue.toInt Int64.maxValue.toInt).map fun value => long (.ofInt value)
  | "Double", some json => (json.unsigned? UInt64.size).map fun value => double (.ofNat value)
  | "Str", some json => json.text?.map text
  | _, _ => none

/-- The name of a passing mode in images. -/
def PassMode.code : PassMode → String
  | value => "Value"
  | input => "In"
  | ref => "Ref"
  | out => "Out"

/-- Reads a passing mode. -/
def PassMode.ofJson? (json : Json) : Option PassMode := do
  let name ← json.unitName?
  [value, input, ref, out].find? (·.code == name)

namespace Instruction

/-- The written form of an instruction. -/
def toJson : Instruction → Json
  | const index => .variant "Const" (.ofUInt32 index)
  | load slot => .variant "LoadLocal" (.ofUInt16 slot)
  | store slot => .variant "StoreLocal" (.ofUInt16 slot)
  | duplicate => .string "Dup"
  | drop => .string "Pop"
  | operate operation => .string operation.code
  | negate => .string "Neg"
  | not => .string "Not"
  | convert conversion => .variant "Convert" (.string conversion.name)
  | cast type => .variant "CastTo" (.ofUInt32 type)
  | jump target => .variant "Jump" (.ofUInt32 target)
  | jumpIfFalse target => .variant "JumpIfFalse" (.ofUInt32 target)
  | jumpIfTrue target => .variant "JumpIfTrue" (.ofUInt32 target)
  | call method => .variant "Call" (.ofUInt32 method)
  | hostCall function => .variant "CallHost" (.ofUInt32 function)
  | builtin member => .variant "Intrinsic" (.string member.code)
  | newList element => .variant "NewList" (.ofUInt32 element)
  | newObject type => .variant "NewObject" (.ofUInt32 type)
  | loadField name => .variant "LoadField" (.ofUInt32 name)
  | storeField name => .variant "StoreField" (.ofUInt32 name)
  | giveBack => .string "Return"
  | giveBackNothing => .string "ReturnVoid"

/-- The instruction of a name that takes no operand. -/
def plain? (name : String) : Option Instruction :=
  match name with
  | "Dup" => some duplicate
  | "Pop" => some drop
  | "Neg" => some negate
  | "Not" => some not
  | "Return" => some giveBack
  | "ReturnVoid" => some giveBackNothing
  | _ => (Operation.ofCode? name).map operate

/-- The instruction of a name with its operand. -/
def applied? (name : String) (operand : Json) : Option Instruction :=
  match name with
  | "Const" => operand.uint32?.map const
  | "LoadLocal" => operand.uint16?.map load
  | "StoreLocal" => operand.uint16?.map store
  | "Convert" => do convert (← NumericConversion.ofName? (← operand.unitName?))
  | "CastTo" => operand.uint32?.map cast
  | "Jump" => operand.uint32?.map jump
  | "JumpIfFalse" => operand.uint32?.map jumpIfFalse
  | "JumpIfTrue" => operand.uint32?.map jumpIfTrue
  | "Call" => operand.uint32?.map call
  | "CallHost" => operand.uint32?.map hostCall
  | "Intrinsic" => do builtin (← BuiltinMember.ofCode? (← operand.unitName?))
  | "NewList" => operand.uint32?.map newList
  | "NewObject" => operand.uint32?.map newObject
  | "LoadField" => operand.uint32?.map loadField
  | "StoreField" => operand.uint32?.map storeField
  | _ => none

/-- Reads an instruction. -/
def ofJson? (json : Json) : Option Instruction := do
  let (name, content) ← json.variant?
  match content with
  | none => plain? name
  | some .null => plain? name
  | some operand => applied? name operand

end Instruction

/-- The written form of a signature. -/
def MethodSignature.toJson (signature : MethodSignature) : Json :=
  let parameter (parameter : SignatureParameter) : Json :=
    .object [("name", .string parameter.name), ("mode", .string parameter.mode.code),
      ("type_name", .string parameter.typeName)]
  .object [("params", .array (signature.parameters.map parameter)),
    ("result", .ofText? signature.result)]

/-- Reads a parameter of a signature. -/
def SignatureParameter.ofJson? (json : Json) : Option SignatureParameter := do
  match ← json.record? ["name", "mode", "type_name"] 3 with
  | [name, mode, typeName] =>
    return ⟨← Json.field? Json.text? name, ← Json.field? PassMode.ofJson? mode,
      ← Json.field? Json.text? typeName⟩
  | _ => none

/-- Reads a signature. -/
def MethodSignature.ofJson? (json : Json) : Option MethodSignature := do
  match ← json.record? ["params", "result"] 2 with
  | [parameters, result] =>
    return ⟨← Json.field? (Json.list? SignatureParameter.ofJson?) parameters,
      ← Json.optionalField? Json.text? result⟩
  | _ => none

/-- The written form of an import. -/
def Import.toJson : Import → Json
  | function imported => .variant "Function" <| .object
      [("type_name", .string imported.typeName), ("method", .string imported.method),
        ("params", .ofTexts imported.parameters), ("result", .ofText? imported.result)]
  | type typeName => .variant "Class" (.object [("type_name", .string typeName)])

/-- Reads an imported function. -/
def FunctionImport.ofJson? (json : Json) : Option FunctionImport := do
  match ← json.record? ["type_name", "method", "params", "result"] 4 with
  | [typeName, method, parameters, result] =>
    return ⟨← Json.field? Json.text? typeName, ← Json.field? Json.text? method,
      ← Json.field? (Json.list? Json.text?) parameters, ← Json.optionalField? Json.text? result⟩
  | _ => none

/-- Reads an import. -/
def Import.ofJson? (json : Json) : Option Import := do
  match ← json.variant? with
  | ("Function", some content) => return function (← FunctionImport.ofJson? content)
  | ("Class", some content) =>
    match ← content.record? ["type_name"] 1 with
    | [typeName] => return type (← Json.field? Json.text? typeName)
    | _ => none
  | _ => none

/-- The written form of a class. -/
def ClassImage.toJson (type : ClassImage) : Json :=
  .object [("full_name", .string type.fullName), ("is_public", .bool type.isPublic),
    ("is_static", .bool type.isStatic), ("methods", .array (type.methods.map .ofUInt32))]

/-- Reads a class. -/
def ClassImage.ofJson? (json : Json) : Option ClassImage := do
  match ← json.record? ["full_name", "is_public", "is_static", "methods"] 4 with
  | [fullName, isPublic, isStatic, methods] =>
    return ⟨← Json.field? Json.text? fullName, ← Json.field? Json.bool? isPublic,
      ← Json.field? Json.bool? isStatic, ← Json.field? (Json.list? Json.uint32?) methods⟩
  | _ => none

/-- The written form of a method. -/
def MethodImage.toJson (method : MethodImage) : Json :=
  .object [("name", .string method.name), ("class", .ofUInt32 method.owner),
    ("is_public", .bool method.isPublic), ("is_static", .bool method.isStatic),
    ("signature", method.signature.toJson), ("local_count", .ofUInt16 method.slotCount),
    ("code", .array (method.code.map (·.toJson)))]

/-- Reads a method. -/
def MethodImage.ofJson? (json : Json) : Option MethodImage := do
  let names := ["name", "class", "is_public", "is_static", "signature", "local_count", "code"]
  match ← json.record? names 7 with
  | [name, owner, isPublic, isStatic, signature, slotCount, code] =>
    return ⟨← Json.field? Json.text? name, ← Json.field? Json.uint32? owner,
      ← Json.field? Json.bool? isPublic, ← Json.field? Json.bool? isStatic,
      ← Json.field? MethodSignature.ofJson? signature, ← Json.field? Json.uint16? slotCount,
      ← Json.field? (Json.list? Instruction.ofJson?) code⟩
  | _ => none

namespace Image

/-- The written form of an image. -/
def toJson (image : Image) : Json :=
  .object [("format_version", .ofUInt32 image.formatVersion),
    ("module_name", .string image.moduleName),
    ("constants", .array (image.constants.map (·.toJson))),
    ("strings", .ofTexts image.strings),
    ("imports", .array (image.imports.map (·.toJson))),
    ("classes", .array (image.classes.map (·.toJson))),
    ("methods", .array (image.methods.map (·.toJson)))]

/-- The text of an image. -/
def encode (image : Image) : String := image.toJson.compact

/-- Reads an image of any version. -/
def ofJson? (json : Json) : Option Image := do
  let names :=
    ["format_version", "module_name", "constants", "strings", "imports", "classes", "methods"]
  match ← json.record? names 7 with
  | [version, moduleName, constants, strings, imports, classes, methods] =>
    return ⟨← Json.field? Json.uint32? version, ← Json.field? Json.text? moduleName,
      ← Json.field? (Json.list? Constant.ofJson?) constants,
      ← Json.field? (Json.list? Json.text?) strings,
      ← Json.field? (Json.list? Import.ofJson?) imports,
      ← Json.field? (Json.list? ClassImage.ofJson?) classes,
      ← Json.field? (Json.list? MethodImage.ofJson?) methods⟩
  | _ => none

/-- Reads an image of the current version. -/
def decode (json : Json) : Except ImageFault Image :=
  match ofJson? json with
  | none => .error .malformed
  | some image =>
    if image.formatVersion == currentVersion then .ok image
    else .error (.version image.formatVersion)

/-- Reads the text of an image of the current version. -/
def decodeText (text : String) : Except ImageFault Image :=
  match Json.read? text with
  | none => .error .malformed
  | some json => decode json

end Image

end Snippet
