import Snippet.Image.Written
import Snippet.Library.Basic

/-!
Modules: images whose indices are checked and whose imports are connected to libraries.
-/

namespace Snippet

/-- Why an image cannot be loaded. -/
inductive LoadFault where
  /-- There is no image. -/
  | absent
  | undecodable (fault : ImageFault)
  | unknownMethod (type : String) (index : UInt32)
  | unknownClass (method : String) (index : UInt32)
  | fewSlots (method : String)
  | missingFunction (function : FunctionImport)
  | missingType (name : String)
deriving DecidableEq, Repr

/-- The wording of a fault. -/
def LoadFault.message : LoadFault → String
  | absent => "the toolchain reported success but produced no image"
  | undecodable fault => fault.message
  | unknownMethod type index => s!"class {type} lists unknown method {index}"
  | unknownClass method index => s!"method {method} belongs to unknown class {index}"
  | fewSlots method => s!"method {method} has fewer locals than parameters"
  | missingFunction function => s!"Method not found: '{function.shown}'."
  | missingType name => s!"Could not load type '{name}' from the referenced libraries."

/-- An import connected to a library. -/
inductive LinkedImport where
  | function (run : List Value → Action Value) (arity : Nat) (hasResult : Bool)
  /-- A type of objects, with the values of the fields of a new one. -/
  | type (name : String) (fields : Fields)

/-- A module that can run. -/
structure Module where
  image : Image
  imports : List LinkedImport
  /-- The number of calls that may be nested, at least one. -/
  maxDepth : Nat

/-- The number of nested calls that is allowed unless another one is asked for. -/
def Module.defaultMaxDepth : Nat := 256

namespace Image

/-- The first class that lists a method which the image lacks. -/
def classFault? (image : Image) : Option LoadFault :=
  image.classes.findSome? fun type =>
    (type.methods.find? fun index => image.methods.length ≤ index.toNat).map
      (.unknownMethod type.fullName)

/-- What is wrong with the header of a method. -/
def methodFault? (image : Image) (method : MethodImage) : Option LoadFault :=
  if image.classes.length ≤ method.owner.toNat then some (.unknownClass method.name method.owner)
  else if method.slotCount.toNat < method.signature.parameters.length then
    some (.fewSlots method.name)
  else none

/-- The first fault of the image's tables, classes before methods. -/
def fault? (image : Image) : Option LoadFault :=
  image.classFault? <|> image.methods.findSome? image.methodFault?

end Image

/-- Whether a host function is the one that an import asks for. -/
def HostFunction.fits (function : HostFunction) (wanted : FunctionImport) : Bool :=
  function.parameters.mapM (·.fullName?) == some wanted.parameters &&
    match function.result with
    | none => wanted.result.isNone
    | some type => type.fullName?.isSome && type.fullName? == wanted.result

/-- Connects an imported function. -/
def FunctionImport.link (function : FunctionImport) (libraries : LibrarySet) :
    Except LoadFault LinkedImport :=
  let found := (libraries.findType? function.typeName).bind fun type =>
    (type.overloads function.method).find? (·.fits function)
  match found with
  | some found => .ok (.function found.run found.parameters.length found.result.isSome)
  | none => .error (.missingFunction function)

/-- Connects an imported type, which must be one of objects. -/
def linkType (name : String) (libraries : LibrarySet) : Except LoadFault LinkedImport :=
  match libraries.findType? name with
  | some type =>
    if type.kind == .data then
      .ok (.type type.fullName
        (.ofPairs (type.fields.map fun field => (field.name, field.type.defaultValue))))
    else .error (.missingType name)
  | none => .error (.missingType name)

/-- Connects an import. -/
def Import.link (libraries : LibrarySet) : Import → Except LoadFault LinkedImport
  | .function wanted => wanted.link libraries
  | .type name => linkType name libraries

namespace Module

/-- Loads an image: its tables are checked and then its imports connected in order. -/
def load (image : Image) (libraries : LibrarySet) (maxDepth : Nat) : Except LoadFault Module := do
  if let some fault := image.fault? then throw fault
  let imports ← image.imports.mapM (·.link libraries)
  return ⟨image, imports, max maxDepth 1⟩

/-- The name of the module. -/
def name (module : Module) : String := module.image.moduleName

/-- The first class of a full name. -/
def findClass? (module : Module) (fullName : String) : Option ClassImage :=
  module.image.classes.find? (·.fullName == fullName)

/-- The method of an index. -/
def method? (module : Module) (index : UInt32) : Option MethodImage :=
  module.image.methods[index.toNat]?

/-- The index of the first public static method of a name in a class. -/
def findMethod? (module : Module) (type : ClassImage) (name : String) : Option UInt32 :=
  type.methods.find? fun index =>
    (module.method? index).any fun method =>
      method.name == name && method.isPublic && method.isStatic

end Module

end Snippet
