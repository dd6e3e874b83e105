import Mathlib.Data.List.Forall2
import Snippet.Library.Basic
import Snippet.Typing.Operators

/-!
What static types mean: which types exist among some libraries, when a value of one type is one of
another, and what operations do with types. Main statements: widening is an order, and existing
types with one full name are the same type.
-/

namespace Snippet

namespace Ty

/-- Whether values may have the type: void occurs nowhere in it. -/
def holdsValues : Ty → Bool
  | void => false
  | list element => element.holdsValues
  | _ => true

/-- Whether the type exists: its classes are known to the libraries under names of classes. -/
def Defined (libraries : LibrarySet) : Ty → Prop
  | bool | int | long | double | string | object => True
  | list element => element.Defined libraries
  | data name => (libraries.findType? name).isSome ∧ ofDefinition name [] = data name
  | void | null | error => False

/-- Whether no error stands in the type. -/
def IsWhole : Ty → Prop
  | list element => element.IsWhole
  | error => False
  | void | null | bool | int | long | double | string | object | data _ => True

/-- Whether a value of the first type is also one of the second. -/
def Widens (source target : Ty) : Prop :=
  source = target ∨ (source = null ∧ target.isReference) ∨ (target = object ∧ source ≠ void)

/-- Whether the value of a constant belongs to the type. -/
def AdmitsConstant : Ty → Constant → Prop
  | object, _ | bool, .bool _ | int, .int _ | long, .long _ | double, .double _ | string, .text _ =>
    True
  | type, .null => type.isReference
  | _, _ => False

namespace Widens

theorem refl (type : Ty) : type.Widens type := .inl rfl

theorem trans {first second third : Ty} (head : first.Widens second) (tail : second.Widens third) :
    first.Widens third := by
  rcases head with rfl | ⟨rfl, isReference⟩ | ⟨rfl, hasValue⟩
  · exact tail
  · rcases tail with rfl | ⟨rfl, isReference'⟩ | ⟨rfl, -⟩
    · exact .inr (.inl ⟨rfl, isReference⟩)
    · exact .inr (.inl ⟨rfl, isReference'⟩)
    · exact .inr (.inr ⟨rfl, nofun⟩)
  · rcases tail with rfl | ⟨isNull, -⟩ | ⟨rfl, -⟩
    · exact .inr (.inr ⟨rfl, hasValue⟩)
    · cases isNull
    · exact .inr (.inr ⟨rfl, hasValue⟩)

/-- Only void is used as void. -/
theorem eq_void {target : Ty} (widens : Ty.void.Widens target) : target = .void := by
  rcases widens with rfl | ⟨isNull, -⟩ | ⟨-, hasValue⟩
  · rfl
  · cases isNull
  · exact absurd rfl hasValue

theorem ne_void {source target : Ty} (widens : source.Widens target) (hasValue : target ≠ .void) :
    source ≠ .void := by
  rintro rfl
  exact hasValue widens.eq_void

/-- A constant of a type is one of every wider type. -/
theorem admitsConstant {source target : Ty} (widens : source.Widens target) {value : Constant}
    (admits : source.AdmitsConstant value) : target.AdmitsConstant value := by
  rcases widens with rfl | ⟨rfl, isReference⟩ | ⟨rfl, -⟩
  · exact admits
  · cases value with
    | null => cases target <;> trivial
    | _ => cases admits
  · trivial

end Widens

theorem Defined.holdsValues {libraries : LibrarySet} {type : Ty} (defined : type.Defined libraries) :
    type.holdsValues = true := by
  induction type with
  | list element ih => exact ih defined
  | void | null | error => cases defined
  | _ => rfl

theorem ne_void_of_holdsValues {type : Ty} (holds : type.holdsValues = true) : type ≠ .void := by
  rintro rfl
  cases holds

theorem ne_void_of_isNumeric {type : Ty} (isNumber : type.isNumeric = true) : type ≠ .void := by
  rintro rfl
  cases isNumber

theorem ne_void_of_isReference {type : Ty} (isReference : type.isReference = true) : type ≠ .void := by
  rintro rfl
  cases isReference

/-- Numbers are no references. -/
theorem isReference_of_isNumeric (type : Ty) (isNumber : type.isNumeric = true) :
    type.isReference = false := by
  cases type <;> first | rfl | cases isNumber

/-- A type of which a constant is given admits it. -/
theorem ofConstant_admits (value : Constant) : (ofConstant value).AdmitsConstant value := by
  cases value <;> trivial

/-- The constant of an unassigned variable belongs to the variable's type. -/
theorem Defined.admits_default {libraries : LibrarySet} {type : Ty} (defined : type.Defined libraries) :
    type.AdmitsConstant type.defaultConstant := by
  cases type <;> trivial

/-- The type of a definition holds values if its arguments do. -/
theorem ofDefinition_holdsValues (name : String) {arguments : List Ty}
    (hold : ∀ argument ∈ arguments, argument.holdsValues = true) :
    (ofDefinition name arguments).holdsValues = true := by
  unfold ofDefinition
  split_ifs <;> try rfl
  cases arguments with
  | nil => rfl
  | cons first rest => exact hold first (List.mem_cons_self ..)

mutual

theorem ofDesc_holdsValues : ∀ type : TypeDesc, (ofDesc type).holdsValues = true
  | ⟨none, _, _, _, _⟩ => rfl
  | ⟨some _, _, _, arguments, _⟩ => by
    rw [ofDesc]
    exact ofDefinition_holdsValues _ (ofDescs_holdValues arguments)

theorem ofDescs_holdValues : ∀ types : List TypeDesc, ∀ type ∈ ofDescs types, type.holdsValues = true
  | [], _, member => absurd member List.not_mem_nil
  | first :: rest, type, member => by
    rw [ofDescs] at member
    rcases List.mem_cons.1 member with rfl | inRest
    · exact ofDesc_holdsValues first
    · exact ofDescs_holdValues rest type inRest

end

end Ty

/-! ### Closed libraries -/

namespace LibrarySet

/-- Whether a described type is an existing one with the same full name. -/
def Knows (libraries : LibrarySet) (type : TypeDesc) : Prop :=
  (Ty.ofDesc type).Defined libraries ∧ type.fullName? = some (Ty.ofDesc type).fullName

/-- What a host type mentions in its members. -/
structure ClosedType (libraries : LibrarySet) (type : HostType) : Prop where
  fields : ∀ field ∈ type.fields, libraries.Knows field.type
  constants : ∀ constant ∈ type.constants,
    libraries.Knows constant.type ∧ constant.type.accepts constant.value = true
  functions : ∀ function ∈ type.functions,
    (∀ parameter ∈ function.parameters, libraries.Knows parameter) ∧
      ∀ result ∈ function.result, libraries.Knows result

/-- Whether every type that the libraries mention is closed and defined, and no class is named like
a list. -/
structure Closed (libraries : LibrarySet) : Prop where
  types : ∀ (name : String) (type : HostType), libraries.findType? name = some type →
    libraries.ClosedType type
  unlisted : ∀ name element : String, (libraries.findType? name).isSome →
    name ≠ TypeNames.listOf element

/-- Whether values of a type have a field of a name and a type. -/
def HasField (libraries : LibrarySet) (owner : Ty) (name : String) (type : Ty) : Prop :=
  ∃ (host : HostType) (field : HostField), owner = .data host.fullName ∧
    libraries.findType? host.fullName = some host ∧ host.field? name = some field ∧
    Ty.ofDesc field.type = type

theorem empty_closed : empty.Closed where
  types _ _ found := by cases found
  unlisted _ _ found := by cases found

/-- Fields have existing types. -/
theorem Closed.field_defined {libraries : LibrarySet} (closed : libraries.Closed) {owner type : Ty}
    {name : String} (has : libraries.HasField owner name type) : type.Defined libraries := by
  obtain ⟨host, field, -, found, has, rfl⟩ := has
  exact ((closed.types _ host found).fields field (List.mem_of_find?_eq_some has)).1

/-- A found type has the name that was asked for. -/
theorem fullName_of_findType? {libraries : LibrarySet} {name : String} {type : HostType}
    (found : libraries.findType? name = some type) : type.fullName = name := by
  obtain ⟨library, _, inLibrary⟩ := List.exists_of_findSome?_eq_some found
  simpa using List.find?_some inLibrary

end LibrarySet

namespace TypeNames

theorem listOf_injective {first second : String} (same : listOf first = listOf second) :
    first = second := by
  unfold listOf at same
  rwa [String.append_left_inj, String.append_right_inj] at same

theorem length_listOf (element : String) : (listOf element).length = element.length + 33 := by
  have prefixLength : (list ++ "<").length = 32 := by decide
  rw [listOf, String.length_append, String.length_append, prefixLength]
  have suffixLength : ">".length = 1 := by decide
  omega

/-- A list is named longer than every basic type. -/
theorem listOf_ne_of_short {element name : String} (short : name.length < 33) : listOf element ≠ name := by
  intro same
  have length := length_listOf element
  rw [same] at length
  omega

end TypeNames

namespace Ty

/-- The types whose names are keywords. -/
def isBasic : Ty → Bool
  | bool | int | long | double | string | object => true
  | _ => false

theorem length_fullName_of_isBasic {type : Ty} (basic : type.isBasic = true) :
    type.fullName.length < 33 := by
  cases type <;> first | decide | cases basic

/-- A class has no name of a basic type. -/
theorem ofDefinition_fullName {type : Ty} (basic : type.isBasic = true) :
    ofDefinition type.fullName [] = type := by
  cases type <;> first | decide | cases basic

theorem fullName_injective_of_isBasic {first second : Ty} (one : first.isBasic = true)
    (other : second.isBasic = true) (same : first.fullName = second.fullName) : first = second := by
  rw [← ofDefinition_fullName one, same, ofDefinition_fullName other]

theorem Defined.cases {libraries : LibrarySet} {type : Ty} (defined : type.Defined libraries) :
    type.isBasic = true ∨ (∃ element : Ty, type = list element ∧ element.Defined libraries) ∨
      ∃ name, type = data name ∧ (libraries.findType? name).isSome ∧
        ofDefinition name [] = data name := by
  cases type with
  | void | null | error => cases defined
  | list element => exact .inr (.inl ⟨element, rfl, defined⟩)
  | data name => exact .inr (.inr ⟨name, rfl, defined⟩)
  | _ => exact .inl rfl

theorem fullName_ne_of_isBasic {type : Ty} {name : String} (basic : type.isBasic = true)
    (plain : ofDefinition name [] = data name) : type.fullName ≠ name := by
  rintro rfl
  rw [ofDefinition_fullName basic] at plain
  rw [plain] at basic
  cases basic

theorem listOf_ne_of_isBasic {type : Ty} {element : String} (basic : type.isBasic = true) :
    TypeNames.listOf element ≠ type.fullName :=
  TypeNames.listOf_ne_of_short (length_fullName_of_isBasic basic)

section

variable {libraries : LibrarySet} (closed : libraries.Closed) {first second : Ty}

include closed

theorem Defined.eq_of_fullName_of_ne_list (one : first.Defined libraries)
    (other : second.Defined libraries) (notList : ∀ element : Ty, first ≠ list element)
    (same : first.fullName = second.fullName) : first = second := by
  rcases one.cases with basic | ⟨element, isList, -⟩ | ⟨name, rfl, known, plain⟩
  · rcases other.cases with basic' | ⟨element, rfl, -⟩ | ⟨name, rfl, -, plain⟩
    · exact fullName_injective_of_isBasic basic basic' same
    · exact absurd same.symm (listOf_ne_of_isBasic basic)
    · exact absurd same (fullName_ne_of_isBasic basic plain)
  · exact absurd isList (notList element)
  · rcases other.cases with basic' | ⟨element, rfl, -⟩ | ⟨name', rfl, -, -⟩
    · exact absurd same.symm (fullName_ne_of_isBasic basic' plain)
    · exact absurd same (closed.unlisted name _ known)
    · exact congrArg data same

/-- Existing types with one full name are the same type. -/
theorem Defined.eq_of_fullName (one : first.Defined libraries) (other : second.Defined libraries)
    (same : first.fullName = second.fullName) : first = second := by
  induction first generalizing second with
  | list element ih =>
      rcases other.cases with basic | ⟨element', rfl, defined⟩ | ⟨name, rfl, known, -⟩
      · exact absurd same (listOf_ne_of_isBasic basic)
      · exact congrArg list (ih one defined (TypeNames.listOf_injective same))
      · exact absurd same.symm (closed.unlisted name _ known)
  | _ => exact one.eq_of_fullName_of_ne_list closed other nofun same

end

end Ty

namespace Ty

/-- Types that are no value types have null. -/
theorem isReference_of_not_isValueType {libraries : LibrarySet} {type : TypeDesc}
    (defined : (ofDesc type).Defined libraries) (isNoValue : type.isValueType = false) :
    (ofDesc type).isReference = true := by
  obtain ⟨space, enclosing, name, arguments, origin⟩ := type
  cases space with
  | none =>
    rw [ofDesc] at defined
    cases defined
  | some space =>
    rw [ofDesc]
    have isNoValue : TypeNames.isValueType (String.intercalate "."
        ((if space.isEmpty then [] else [space]) ++ enclosing ++ [name])) = false := isNoValue
    generalize String.intercalate "." _ = definition at isNoValue ⊢
    simp only [TypeNames.isValueType, Bool.or_eq_false_iff] at isNoValue
    simp only [ofDefinition, isNoValue]
    split_ifs <;> first | rfl | contradiction

/-- A described type admits the constants that it accepts. -/
theorem admits_of_accepts {libraries : LibrarySet} (closed : libraries.Closed) {type : TypeDesc}
    (knows : libraries.Knows type) {value : Value} (accepts : type.accepts value = true)
    {constant : Constant} (isConstant : Constant.ofValue? value = some constant) :
    (ofDesc type).AdmitsConstant constant := by
  obtain ⟨defined, named⟩ := knows
  have byName {basic : Ty} (isBasic : basic.isBasic = true) (same : basic.fullName = (ofDesc type).fullName) :
      ofDesc type = basic := by
    have isDefined : basic.Defined libraries := by cases basic <;> trivial
    exact defined.eq_of_fullName closed isDefined same.symm
  unfold TypeDesc.accepts at accepts
  rw [named] at accepts
  simp only at accepts
  split at accepts
  · next isObject =>
    rw [byName (show object.isBasic = true from rfl) (beq_iff_eq.1 isObject).symm]
    trivial
  · cases value with
    | null =>
      cases isConstant
      have isNoValue : type.isValueType = false := by simpa [Value.typeName?] using accepts
      have isReference := isReference_of_not_isValueType defined isNoValue
      generalize ofDesc type = described at isReference
      cases described <;> trivial
    | bool value | int value | long value | double value | text value =>
      have isType : ofDesc type = ofConstant constant := by
        cases isConstant
        exact byName rfl (beq_iff_eq.1 accepts)
      rw [isType]
      exact ofConstant_admits constant
    | list element reference | object type reference => cases isConstant

end Ty

/-! ### Operations -/

/-- What an operation gives for operands of two types. -/
inductive Operation.Takes : Operation → Ty → Ty → Ty → Prop where
  | arithmetic {operation : Operation} {type : Ty} (isNumber : type.isNumeric = true)
      (computes : operation ∈ [.add, .subtract, .multiply, .divide, .remainder]) :
    Takes operation type type type
  | comparison {operation : Operation} {type : Ty} (isNumber : type.isNumeric = true)
      (compares : operation ∈ [.less, .lessEqual, .greater, .greaterEqual]) :
    Takes operation type type .bool
  | equality {operation : Operation} {first second : Ty} (tests : operation ∈ [.equal, .notEqual])
      (hasFirst : first ≠ .void) (hasSecond : second ≠ .void) : Takes operation first second .bool
  | concat {first second : Ty} (hasFirst : first ≠ .void) (hasSecond : second ≠ .void) :
    Takes .concat first second .string

namespace Operation.Takes

variable {operation : Operation} {first second result : Ty}

theorem first_ne_void (takes : operation.Takes first second result) : first ≠ .void := by
  cases takes with
  | arithmetic isNumber _ | comparison isNumber _ => exact Ty.ne_void_of_isNumeric isNumber
  | equality _ hasFirst _ | concat hasFirst _ => exact hasFirst

theorem second_ne_void (takes : operation.Takes first second result) : second ≠ .void := by
  cases takes with
  | arithmetic isNumber _ | comparison isNumber _ => exact Ty.ne_void_of_isNumeric isNumber
  | equality _ _ hasSecond | concat _ hasSecond => exact hasSecond

end Operation.Takes

end Snippet
