import Snippet.Proofs.Block.Plan
import Snippet.Proofs.Block.Tree
import Snippet.Proofs.Stack.Values

/-!
The types of the operands on the stack, as an analysis of blocks. How many operands a command takes
and gives always counts; which types they have counts only in a checked analysis.
-/

namespace Snippet

/-- The types of the final values that a call of a method gives back, in order. -/
def MethodType.written (method : MethodType) : List Ty :=
  (method.parameters.filter (·.mode.writesBack)).map (·.type)

/-- The operands that an expression of a type leaves: none or one. -/
def Ty.pushed (type : Ty) : List Ty := if type = .void then [] else [type]

theorem Ty.forall₂_widens_trans {checked : Prop} {first second third : List Ty}
    (head : List.Forall₂ (fun source target => checked → Ty.Widens source target) first second)
    (tail : List.Forall₂ (fun source target => checked → Ty.Widens source target) second third) :
    List.Forall₂ (fun source target => checked → Ty.Widens source target) first third := by
  induction head generalizing third with
  | nil => exact tail
  | cons widens _ ih =>
      cases tail with
      | cons widens' tail => exact .cons (fun known => (widens known).trans (widens' known)) (ih tail)

/-- What is known of the operands at a point of a method: their static types, the top one first, and
the type of the number that a temporary holds, if one does. -/
structure StackPoint where
  operands : List Ty
  saved : Option (Nat × Ty)

namespace StackPoint

/-- A point at which no temporary is in use. -/
def plain (operands : List Ty) : StackPoint := ⟨operands, none⟩

/-- Whether everything that may happen at a point may happen at another one: it has as many operands,
in a checked analysis of narrower types. -/
def Entails (checked : Prop) (first second : StackPoint) : Prop :=
  List.Forall₂ (fun source target => checked → Ty.Widens source target) first.operands second.operands ∧
    (second.saved = none ∨ second.saved = first.saved)

/-- The operands behind a command, in front of which they are the given ones. Behind the end of a
method everything may be known. -/
inductive After (checked : Prop) (typing : Typing) : StackPoint → Command → StackPoint → Prop where
  | const {rest : List Ty} {saved : Option (Nat × Ty)} {type : Ty} {value : Constant}
      (admits : checked → type.AdmitsConstant value) :
    After checked typing ⟨rest, saved⟩ (.const value) ⟨type :: rest, saved⟩
  | load {rest : List Ty} {saved : Option (Nat × Ty)} {type : Ty} {index : Nat}
      (holds : checked → ∃ slot, typing.slots[index]? = some slot ∧ slot.type.Widens type) :
    After checked typing ⟨rest, saved⟩ (.load index) ⟨type :: rest, saved⟩
  | loadSaved {rest : List Ty} {type : Ty} {index : Nat} :
    After checked typing ⟨rest, some (index, type)⟩ (.load index) ⟨type :: rest, some (index, type)⟩
  | store {rest : List Ty} {saved : Option (Nat × Ty)} {type : Ty} {index : Nat}
      (fits : checked → ∃ slot, typing.slots[index]? = some slot ∧ type.Widens slot.type) :
    After checked typing ⟨type :: rest, saved⟩ (.store index) ⟨rest, saved⟩
  | save {rest : List Ty} {saved : Option (Nat × Ty)} {type : Ty} {index : Nat}
      (isTemporary : typing.slots.length ≤ index) :
    After checked typing ⟨type :: rest, saved⟩ (.store index) ⟨rest, some (index, type)⟩
  | duplicate {rest : List Ty} {saved : Option (Nat × Ty)} {type : Ty} :
    After checked typing ⟨type :: rest, saved⟩ .duplicate ⟨type :: type :: rest, saved⟩
  | drop {rest : List Ty} {saved : Option (Nat × Ty)} {type : Ty} :
    After checked typing ⟨type :: rest, saved⟩ .drop ⟨rest, saved⟩
  | operate {rest : List Ty} {saved : Option (Nat × Ty)} {first second type : Ty} {operation : Operation}
      (takes : checked → ∃ result, operation.Takes first second result ∧ result.Widens type) :
    After checked typing ⟨second :: first :: rest, saved⟩ (.operate operation) ⟨type :: rest, saved⟩
  | negate {rest : List Ty} {saved : Option (Nat × Ty)} {operand type : Ty}
      (isNumber : checked → operand.isNumeric = true ∧ operand.Widens type) :
    After checked typing ⟨operand :: rest, saved⟩ .negate ⟨type :: rest, saved⟩
  | not {rest : List Ty} {saved : Option (Nat × Ty)} {operand type : Ty}
      (isBool : checked → operand = .bool ∧ Ty.bool.Widens type) :
    After checked typing ⟨operand :: rest, saved⟩ .not ⟨type :: rest, saved⟩
  | convert {rest : List Ty} {saved : Option (Nat × Ty)} {operand type : Ty} {conversion : NumericConversion}
      (converts : checked → operand = conversion.source ∧ conversion.target.Widens type) :
    After checked typing ⟨operand :: rest, saved⟩ (.convert conversion) ⟨type :: rest, saved⟩
  | cast {rest : List Ty} {saved : Option (Nat × Ty)} {operand type : Ty} {name : String}
      (casts : checked → ∃ target : Ty, target.Defined typing.libraries ∧ target.fullName = name ∧
        target.Widens type) :
    After checked typing ⟨operand :: rest, saved⟩ (.cast name) ⟨type :: rest, saved⟩
  | call {rest passed : List Ty} {saved : Option (Nat × Ty)} {index : Nat} {method : MethodType}
      (found : typing.methods[index]? = some method)
      (fits : List.Forall₂ (fun source (parameter : TypedParameter) =>
        checked → source.Widens parameter.type) passed method.parameters) :
    After checked typing ⟨passed.reverse ++ rest, saved⟩ (.call index)
      ⟨method.written.reverse ++ (method.result.pushed ++ rest), saved⟩
  | hostCall {rest passed : List Ty} {saved : Option (Nat × Ty)} {type : Ty} {function : FunctionImport}
      (count : passed.length = function.parameters.length) (gives : type = .void ↔ function.result = none)
      (fits : checked → ∃ parameters, function.Takes typing.libraries parameters ∧
        List.Forall₂ Ty.Widens passed parameters ∧
        (type ≠ .void → ∃ result, function.Gives typing.libraries result ∧ result.Widens type)) :
    After checked typing ⟨passed.reverse ++ rest, saved⟩ (.hostCall function) ⟨type.pushed ++ rest, saved⟩
  | builtin {rest passed : List Ty} {saved : Option (Nat × Ty)} {receiver type : Ty} {member : BuiltinMember}
      (count : passed.length = member.arity) (gives : type = .void ↔ member.hasResult = false)
      (fits : checked → member.BelongsTo typing.libraries receiver ∧
        List.Forall₂ Ty.Widens passed (member.signature.parameters.map receiver.slot) ∧
        (receiver.slot member.signature.result).Widens type) :
    After checked typing ⟨passed.reverse ++ receiver :: rest, saved⟩ (.builtin member)
      ⟨type.pushed ++ rest, saved⟩
  | newList {rest : List Ty} {saved : Option (Nat × Ty)} {type : Ty} {name : String}
      (isList : checked → ∃ element : Ty, element.Defined typing.libraries ∧ element.fullName = name ∧
        (Ty.list element).Widens type) :
    After checked typing ⟨rest, saved⟩ (.newList name) ⟨type :: rest, saved⟩
  | newObject {rest : List Ty} {saved : Option (Nat × Ty)} {type : Ty} {name : String}
      (isData : checked → (Ty.data name).Widens type) :
    After checked typing ⟨rest, saved⟩ (.newObject name) ⟨type :: rest, saved⟩
  | loadField {rest : List Ty} {saved : Option (Nat × Ty)} {owner type : Ty} {name : String}
      (has : checked → ∃ held, typing.libraries.HasField owner name held ∧ held.Widens type) :
    After checked typing ⟨owner :: rest, saved⟩ (.loadField name) ⟨type :: rest, saved⟩
  | storeField {rest : List Ty} {saved : Option (Nat × Ty)} {owner stored type : Ty} {name : String}
      (has : checked → ∃ held, typing.libraries.HasField owner name held ∧ stored.Widens held ∧
        stored.Widens type) :
    After checked typing ⟨stored :: owner :: rest, saved⟩ (.storeField name) ⟨type :: rest, saved⟩
  | giveBack {saved : Option (Nat × Ty)} {type : Ty} {after : StackPoint}
      (hasResult : typing.result ≠ .void) (fits : checked → type.Widens typing.result) :
    After checked typing ⟨[type], saved⟩ .giveBack after
  | giveBackNothing {saved : Option (Nat × Ty)} {after : StackPoint} (isVoid : typing.result = .void) :
    After checked typing ⟨[], saved⟩ .giveBackNothing after

/-- The operands behind a test: it takes a truth value. -/
def Test (checked : Prop) (before after : StackPoint) : Prop :=
  ∃ type rest, before.operands = type :: rest ∧ (checked → type = .bool) ∧
    Entails checked ⟨rest, before.saved⟩ after

/-- Whether a part of the source leaves what it should. -/
def Spans (extent : Extent) (before after : StackPoint) : Prop :=
  match extent with
  | .statement => before.operands.length = 0 ∧ after.operands.length = 0
  | .value type => after.operands.length = before.operands.length + type.pushed.length

namespace Entails

variable {checked : Prop} {first second third : StackPoint}

theorem refl (point : StackPoint) : point.Entails checked point :=
  ⟨List.forall₂_same.2 fun type _ _ => .refl type, .inr rfl⟩

theorem trans (head : first.Entails checked second) (tail : second.Entails checked third) :
    first.Entails checked third := by
  refine ⟨Ty.forall₂_widens_trans head.1 tail.1, ?_⟩
  rcases tail.2 with isNone | same
  · exact .inl isNone
  · rw [same]
    exact head.2

theorem length (entails : first.Entails checked second) :
    first.operands.length = second.operands.length := entails.1.length_eq

end Entails

end StackPoint

/-- The analysis of operands in the body of a method. -/
def Analysis.stack (checked : Prop) (typing : Typing) : Analysis StackPoint where
  Entails := StackPoint.Entails checked
  After := StackPoint.After checked typing
  Test before _ after := StackPoint.Test checked before after
  Spans := StackPoint.Spans
  refl := .refl
  trans := .trans
  spans_mono {extent first second first' second'} spans head tail := by
    cases extent <;> simp only [StackPoint.Spans, ← head.length, ← tail.length] <;> exact spans

end Snippet
