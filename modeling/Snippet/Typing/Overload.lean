import Snippet.Diagnostic.Problem
import Snippet.Library.Basic
import Snippet.Typing.Tree

/-!
Overload resolution: which candidates a list of arguments fits, and which of them is best.
-/

namespace Snippet

/-- What a call runs. -/
inductive CallTarget where
  | compiled (method : Nat)
  | host (function : FunctionImport)
  | builtin (member : BuiltinMember)
deriving Repr

/-- A method that a call may mean. -/
structure Candidate where
  parameters : List (PassMode × Ty)
  result : Ty
  target : CallTarget
  label : String

/-- A checked argument of a call. -/
structure CheckedArgument where
  mode : PassMode
  value : TypedExpr
  span : Span

namespace CheckedArgument

/-- Whether a type is taken as it is by a parameter passed by reference. -/
def sameType (first second : Ty) : Bool := first == second || first == .error || second == .error

/-- Whether an argument fits a parameter. -/
def fits (argument : CheckedArgument) (mode : PassMode) (type : Ty) : Bool :=
  let source := argument.value.type
  match mode with
  | .value => argument.mode == .value && (Coercion.implicit? source type).isSome
  | .input =>
    match argument.mode with
    | .value => (Coercion.implicit? source type).isSome
    | .input => sameType source type
    | .ref | .out => false
  | .ref | .out => argument.mode == mode && sameType source type

end CheckedArgument

namespace Candidate

/-- Whether the arguments fit the parameters one by one. -/
def applies (candidate : Candidate) (arguments : List CheckedArgument) : Bool :=
  candidate.parameters.length == arguments.length &&
    (arguments.zip candidate.parameters).all fun (argument, mode, type) => argument.fits mode type

/-- Whether converting a type to the first target beats converting it to the second. -/
def betterConversion? (source first second : Ty) : Option Bool :=
  if first = second then none
  else if source = first then some true
  else if source = second then some false
  else
    match (Coercion.implicit? first second).isSome, (Coercion.implicit? second first).isSome with
    | true, false => some true
    | false, true => some false
    | _, _ => none

/-- The comparison of two candidates argument by argument. -/
def comparisons (first second : Candidate) (arguments : List CheckedArgument) :
    List (Option Bool) :=
  (arguments.zip (first.parameters.zip second.parameters)).map fun (argument, one, other) =>
    betterConversion? argument.value.type one.2 other.2

/-- Whether a candidate is better than another: no conversion is worse, and one is better. -/
def isBetter (first second : Candidate) (arguments : List CheckedArgument) : Bool :=
  let results := comparisons first second arguments
  !results.contains (some false) && results.contains (some true)

/-- The first candidate that is better than all others at other positions. -/
def best? (candidates : List Candidate) (arguments : List CheckedArgument) : Option Candidate :=
  let numbered := candidates.zipIdx
  (numbered.find? fun (candidate, index) =>
    numbered.all fun (other, position) =>
      index == position || candidate.isBetter other arguments).map (·.1)

/-- What is wrong with one argument for one parameter. -/
def argumentProblem? (position : Nat) (argument : CheckedArgument) (mode : PassMode) (type : Ty) :
    Option Problem :=
  let forbidden : Bool := match mode with
    | .value => argument.mode != .value
    | .input => argument.mode.writesBack
    | .ref | .out => false
  if mode.writesBack && argument.mode != mode then
    some (.keywordRequired position (mode.keyword?.getD ""))
  else if forbidden then some (.keywordForbidden position (argument.mode.keyword?.getD ""))
  else if !argument.fits mode type then
    some (.badArgument position (argument.mode.label argument.value.type.shown) (mode.label type.shown))
  else none

/-- Why no candidate fits: the first argument that does not fit the first candidate with as many
parameters, or the number of arguments. -/
def mismatch (candidates : List Candidate) (arguments : List CheckedArgument) (name : String)
    (span : Span) : Finding :=
  let noOverload : Finding := ⟨.noOverload name arguments.length, span⟩
  match candidates.find? fun candidate => candidate.parameters.length == arguments.length with
  | none => noOverload
  | some candidate =>
    let pairs := arguments.zip candidate.parameters
    let found := pairs.zipIdx.findSome? fun ((argument, mode, type), index) =>
      (argumentProblem? (index + 1) argument mode type).map (Finding.mk · argument.span)
    found.getD noOverload

/-- The candidate of a host function. One whose types have no full names cannot be called. -/
def ofHost? (owner : HostType) (shown : String) (function : HostFunction) : Option Candidate := do
  let parameters ← function.parameters.mapM (·.fullName?)
  let result ← match function.result with
    | none => some none
    | some type => type.fullName?.map some
  let types := function.parameters.map Ty.ofDesc
  some {
    parameters := types.map (PassMode.value, ·)
    result := (function.result.map Ty.ofDesc).getD .void
    target := .host ⟨owner.fullName, function.name, parameters, result⟩
    label := shown ++ "." ++ function.name ++ "(" ++
      String.intercalate ", " (types.map Ty.shown) ++ ")" }

/-- The candidate of a built-in member of a type. -/
def ofMember (receiver : Ty) (member : BuiltinMember) : Candidate :=
  let types := member.signature.parameters.map receiver.slot
  { parameters := types.map (PassMode.value, ·)
    result := receiver.slot member.signature.result
    target := .builtin member
    label := receiver.shown ++ "." ++ member.name ++ "(" ++
      String.intercalate ", " (types.map Ty.shown) ++ ")" }

end Candidate

end Snippet
