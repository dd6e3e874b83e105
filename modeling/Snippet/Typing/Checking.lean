import Snippet.Typing.Names
import Snippet.Typing.Overload

/-!
The state of the checker inside one method: the slots of its frame, the scopes that are open, and
what is known about the use of each slot.
-/

namespace Snippet

/-- A method as its callers see it. -/
structure MethodHeader where
  name : String
  label : String
  /-- The index of its class. -/
  owner : Nat
  modifiers : Modifiers
  parameters : List TypedParameter
  result : Ty
  decl : MethodDecl

/-- What every method body is checked against: the names and the methods of the program, and the
method that is being checked. -/
structure BodyContext where
  environment : Environment
  methods : Array MethodHeader
  /-- The index of the class around the body. -/
  owner : Nat
  label : String
  result : Ty

/-- What is known about the use of a slot. -/
structure Usage where
  isRead : Bool
  isWritten : Bool
  /-- Whether anything but a constant was assigned. -/
  isComputed : Bool
deriving DecidableEq, Repr

/-- The state of the checker inside a method. -/
structure BodyState where
  slots : Array Slot
  usage : Array Usage
  /-- The names of the open scopes with their slots, the innermost scope first and in it the name
  declared last. -/
  scopes : List (List (String × Nat))
  loopDepth : Nat
  findings : Array Finding

/-- A step of the checker. It may stop with a finding; changes of the state made before remain. -/
abbrev Check (α : Type) := ReaderT BodyContext (ExceptT Finding (StateM BodyState)) α

namespace Check

/-- Stops with a problem at a place. -/
def fail {α : Type} (problem : Problem) (span : Span) : Check α := throw ⟨problem, span⟩

/-- Reports a finding and goes on. -/
def report (finding : Finding) : Check PUnit :=
  modify fun state => { state with findings := state.findings.push finding }

/-- The result of a step, which may be the finding that stopped it. -/
def attempt {α : Type} (step : Check α) : Check (Except Finding α) :=
  tryCatch (Except.ok <$> step) fun finding => pure (.error finding)

/-- The result of a step that may be a finding. -/
def ofExcept {α : Type} : Except Finding α → Check α
  | .ok value => pure value
  | .error finding => throw finding

/-- The names and types around the body. -/
def environment : Check Environment := return (← read).environment

/-- The slot of the innermost variable of a name. -/
def lookup? (name : String) : Check (Option Nat) :=
  return (← get).scopes.findSome? fun scope => scope.lookup name

/-- The slot of an index. -/
def slot (index : Nat) : Check Slot :=
  return (← get).slots.getD index ⟨"", .error, ⟨0, 0⟩, none⟩

/-- Changes what is known about the use of a slot. -/
def modifyUsage (index : Nat) (change : Usage → Usage) : Check PUnit :=
  modify fun state => { state with usage := state.usage.modify index change }

/-- Notes that a slot is read. -/
def noteRead (index : Nat) : Check PUnit := modifyUsage index ({ · with isRead := true })

/-- Notes that a slot is assigned a value. -/
def noteWrite (index : Nat) (value : TypedExpr) : Check PUnit :=
  modifyUsage index fun usage =>
    { usage with isWritten := true, isComputed := usage.isComputed || value.constant?.isNone }

/-- Runs a step in a new innermost scope, which is closed even if the step stops. -/
def inScope {α : Type} (step : Check α) : Check α := do
  modify fun state => { state with scopes := [] :: state.scopes }
  let result ← attempt step
  modify fun state => { state with scopes := state.scopes.drop 1 }
  ofExcept result

/-- Runs a step inside one more loop. -/
def inLoop {α : Type} (step : Check α) : Check α := do
  modify fun state => { state with loopDepth := state.loopDepth + 1 }
  let result ← attempt step
  modify fun state => { state with loopDepth := state.loopDepth - 1 }
  ofExcept result

/-- Declares a variable in the innermost scope and gives its slot. -/
def declare (name : String) (type : Ty) (span : Span) : Check Nat := do
  let state ← get
  if (state.scopes.head?.getD []).any (·.1 == name) then fail (.duplicateVariable name) span
  if (← lookup? name).isSome then fail (.shadowedVariable name) span
  let index := state.slots.size
  if 65535 < index then fail (.unsupported "more than 65535 locals") span
  set { state with
    slots := state.slots.push ⟨name, type, span, none⟩
    usage := state.usage.push ⟨false, false, false⟩
    scopes := match state.scopes with
      | scope :: outer => ((name, index) :: scope) :: outer
      | [] => [] }
  return index

end Check

/-- Uses a value by a coercion. A constant is converted at once. -/
def TypedExpr.coerced (value : TypedExpr) (coercion : Coercion) (target : Ty) : TypedExpr :=
  match coercion with
  | .identity => value
  | .reference => value.withType target
  | .convert conversion =>
    let converted := TypedExpr.mk (.convert conversion value) target value.span
    match conversion, value.constant? with
    | .numeric numeric, some constant =>
      match Constant.ofValue? (numeric.apply constant.toValue) with
      | some folded => .mk (.const folded) target value.span
      | none => converted
    | _, _ => converted

/-- The problem of a missing implicit conversion; a cast may help. -/
def conversionProblem (source target : Ty) : Problem :=
  if (Coercion.explicit? source target).isSome then .needsCast source.shown target.shown
  else .noConversion source.shown target.shown

/-- Uses a value as one of another type, if that needs no cast. -/
def TypedExpr.coerce (value : TypedExpr) (target : Ty) : Except Finding TypedExpr :=
  match Coercion.implicit? value.type target with
  | some coercion => .ok (value.coerced coercion target)
  | none => .error ⟨conversionProblem value.type target, value.span⟩

end Snippet
