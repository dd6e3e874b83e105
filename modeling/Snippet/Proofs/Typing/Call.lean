import Snippet.Proofs.Typing.Conversion

/-!
Calls of checked arguments: what a call may mean is described by the program, the libraries or the
type that it is made on, and the best candidate takes the converted arguments.
-/

namespace Snippet

/-! ### Candidates -/

/-- Whether parameters of a call are those of a target, which gives the result. -/
def CallTarget.Meets (typing : Typing) (receiver : Option TypedExpr) (parameters : List (PassMode × Ty))
    (result : Ty) : CallTarget → Prop
  | compiled method => ∃ signature, typing.methods[method]? = some signature ∧
      parameters = signature.parameters.map (fun parameter => (parameter.mode, parameter.type)) ∧
      result = signature.result
  | host function => ∃ types : List Ty, parameters = types.map (PassMode.value, ·) ∧
      types.length = function.parameters.length ∧ (result = .void ↔ function.result = none) ∧
      function.Links typing.libraries ∧ (typing.Strict → function.Takes typing.libraries types ∧
        (result ≠ .void → function.Gives typing.libraries result))
  | builtin member => ∃ object, receiver = some object ∧ object.Checked typing ∧
      parameters = (member.signature.parameters.map object.type.slot).map (PassMode.value, ·) ∧
      result = object.type.slot member.signature.result ∧
      (result = .void ↔ member.hasResult = false) ∧
      (typing.Strict → member.BelongsTo typing.libraries object.type)

/-- Whether a candidate of a call means what it says. -/
structure Candidate.Meets (typing : Typing) (receiver : Option TypedExpr) (candidate : Candidate) : Prop where
  parameters : ∀ parameter ∈ candidate.parameters, parameter.2.Stores typing
  result : candidate.result = .void ∨ candidate.result.Stores typing
  target : candidate.target.Meets typing receiver candidate.parameters candidate.result

/-- Whether all candidates of a call mean what they say. -/
def Callee.Meets (typing : Typing) (callee : Callee) : Prop :=
  ∀ candidate ∈ callee.candidates, candidate.Meets typing callee.receiver

namespace Candidate

/-- The candidates that are better than all others are candidates. -/
theorem best?_mem {candidates : List Candidate} {arguments : List CheckedArgument} {candidate : Candidate}
    (isBest : best? candidates arguments = some candidate) : candidate ∈ candidates := by
  unfold best? at isBest
  obtain ⟨entry, found, rfl⟩ := Option.map_eq_some_iff.1 isBest
  have member := List.mem_of_find?_eq_some found
  exact List.fst_mem_of_mem_zipIdx member

theorem argumentProblem?_isError {position : Nat} {argument : CheckedArgument} {mode : PassMode} {type : Ty}
    {problem : Problem} (found : argumentProblem? position argument mode type = some problem) :
    problem.isWarning = false := by
  unfold argumentProblem? at found
  extract_lets forbidden at found
  clear_value forbidden
  split_ifs at found <;> cases found <;> rfl

/-- That no candidate fits is an error. -/
theorem mismatch_isError (candidates : List Candidate) (arguments : List CheckedArgument) (name : String)
    (span : Span) : (mismatch candidates arguments name span).isError = true := by
  unfold mismatch
  dsimp only
  split
  · rfl
  · next candidate _ =>
    generalize found : List.findSome? _ _ = result
    cases result with
    | none => rfl
    | some finding =>
      obtain ⟨⟨⟨argument, mode, type⟩, index⟩, _, isFinding⟩ := List.exists_of_findSome?_eq_some found
      obtain ⟨problem, isProblem, rfl⟩ := Option.map_eq_some_iff.1 isFinding
      simp [Finding.isError, argumentProblem?_isError isProblem]

end Candidate

/-! ### Arguments -/

/-- Whether an argument of a call is good. What is passed by reference is a variable. -/
structure CheckedArgument.Good (typing : Typing) (argument : CheckedArgument) : Prop where
  checked : argument.value.Checked typing
  isVariable : argument.mode ≠ .value → ∃ index slot, argument.value.node = .slot index ∧
    typing.slots[index]? = some slot ∧ (argument.mode.writesBack = true → slot.mode ≠ some .input) ∧
      slot.type = argument.value.type

/-- Whether an argument is passed as a parameter asks for. -/
def TypedArgument.Passes (typing : Typing) (parameter : PassMode × Ty) : TypedArgument → Prop
  | .mk mode value => mode = parameter.1 ∧ value.Fits typing ∧
      (typing.Strict → value.type = parameter.2) ∧
      (mode.writesBack = true → ∃ index slot, value.node = .slot index ∧
        typing.slots[index]? = some slot ∧ slot.mode ≠ some .input ∧ slot.type = value.type)

namespace Check

variable {typing : Typing}

theorem coerceArgument_resolves (typing : Typing) (argument : CheckedArgument) (mode : PassMode) (type : Ty)
    (fits : argument.fits mode type = true) :
    Resolves (fun converted => argument.Good typing → type.Stores typing →
        converted.Passes typing (mode, type))
      (do
        let value ← if mode.writesBack then pure argument.value else argument.value.coerce type
        return TypedArgument.mk mode value) := by
  split
  · next writesBack =>
    intro good stores
    have sameMode : argument.mode = mode ∧ CheckedArgument.sameType argument.value.type type = true := by
      cases mode <;> simp_all [CheckedArgument.fits, PassMode.writesBack]
    have byReference : argument.mode ≠ .value := by
      rw [sameMode.1]
      rintro rfl
      cases writesBack
    obtain ⟨index, slot, isSlot, found, assignable, isType⟩ := good.isVariable byReference
    refine ⟨rfl, good.checked.fits, fun strict => ?_,
      fun _ => ⟨index, slot, isSlot, found, assignable (sameMode.1 ▸ writesBack), isType⟩⟩
    have sameType := sameMode.2
    simp only [CheckedArgument.sameType, Bool.or_eq_true, beq_iff_eq] at sameType
    rcases sameType with (same | isError) | isError
    · exact same
    · exact absurd isError (good.checked.type.ne_error strict)
    · exact absurd isError (stores.ne_error strict)
  · next noWriteBack =>
    refine (argument.value.coerce_resolves typing type).bind fun used holds good stores => ?_
    obtain ⟨checked, isType⟩ := holds good.checked stores
    exact ⟨rfl, checked.fits, isType, fun writesBack => absurd writesBack noWriteBack⟩

/-- Arguments that fit the parameters are converted to them. -/
theorem coerceArguments_resolves (typing : Typing) (arguments : List CheckedArgument) (parameters : List (PassMode × Ty))
    (sameLength : parameters.length = arguments.length)
    (fits : ∀ entry ∈ arguments.zip parameters, entry.1.fits entry.2.1 entry.2.2 = true) :
    Resolves (fun converted => (∀ argument ∈ arguments, argument.Good typing) →
        (∀ parameter ∈ parameters, parameter.2.Stores typing) →
        List.Forall₂ (TypedArgument.Passes typing) parameters converted)
      (coerceArguments arguments parameters) := by
  induction arguments generalizing parameters with
  | nil =>
      rw [List.length_eq_zero_iff.1 sameLength]
      exact fun _ _ => .nil
  | cons argument arguments ih =>
      obtain ⟨⟨mode, type⟩, parameters, rfl⟩ := List.exists_cons_of_length_eq_add_one sameLength
      have fitsRest (entry) (member : entry ∈ arguments.zip parameters) :=
        fits entry (List.mem_cons_of_mem _ member)
      have sameRest : parameters.length = arguments.length := Nat.succ.inj sameLength
      have isFirst := coerceArgument_resolves typing argument mode type
        (fits _ (List.mem_cons_self ..))
      unfold coerceArguments
      rw [List.zip_cons_cons, List.mapM_cons]
      refine isFirst.bind fun first holdsFirst => ?_
      refine (ih parameters sameRest fitsRest).bind fun rest holdsRest good stores => ?_
      exact .cons (holdsFirst (good _ (List.mem_cons_self ..)) (stores _ (List.mem_cons_self ..)))
        (holdsRest (fun argument member => good argument (List.mem_cons_of_mem _ member))
          fun parameter member => stores parameter (List.mem_cons_of_mem _ member))

/-! ### Calls -/

/-- Converted arguments fit the parameters of a method. -/
theorem allFit_of_passes {parameters : List TypedParameter} {converted : List TypedArgument}
    (defined : typing.Strict → ∀ parameter ∈ parameters, parameter.type ≠ .void)
    (passes : List.Forall₂ (TypedArgument.Passes typing)
      (parameters.map fun parameter => (parameter.mode, parameter.type)) converted) :
    TypedArgument.AllFit typing parameters converted := by
  induction parameters generalizing converted with
  | nil =>
      cases passes
      trivial
  | cons parameter parameters ih =>
      cases passes with
      | @cons _ argument _ rest passes others =>
      obtain ⟨mode, value⟩ := argument
      obtain ⟨sameMode, fits, isType, isVariable⟩ := passes
      rw [TypedArgument.AllFit]
      refine ⟨sameMode, fits, fun strict => ?_, fun writesBack => ?_, ih (fun strict other member =>
        defined strict other (List.mem_cons_of_mem _ member)) others⟩
      · rw [isType strict]
        exact ⟨defined strict parameter (List.mem_cons_self ..), .refl _⟩
      · obtain ⟨index, slot, isSlot, found, assignable, sameType⟩ := isVariable writesBack
        exact ⟨index, slot, isSlot, found, assignable, fun strict => ⟨isType strict, sameType.trans (isType strict)⟩⟩

/-- Arguments that are passed by value are expressions of the types of the parameters. -/
theorem values_of_passes {types : List Ty} {converted : List TypedArgument}
    (passes : List.Forall₂ (TypedArgument.Passes typing) (types.map (PassMode.value, ·)) converted) :
    (argumentValues converted).length = types.length ∧ TypedExpr.AllFit typing (argumentValues converted) ∧
      (typing.Strict → List.Forall₂ Ty.Widens ((argumentValues converted).map (·.type)) types) := by
  induction types generalizing converted with
  | nil =>
      cases passes
      exact ⟨rfl, trivial, fun _ => .nil⟩
  | cons type types ih =>
      cases passes with
      | @cons _ argument _ rest passes others =>
      obtain ⟨mode, value⟩ := argument
      obtain ⟨-, fits, isType, -⟩ := passes
      obtain ⟨length, allFit, widen⟩ := ih others
      refine ⟨congrArg (· + 1) length, ⟨fits, allFit⟩, fun strict => .cons (.inl (isType strict)) (widen strict)⟩

section

variable {candidate : Candidate} {receiver : Option TypedExpr} {converted : List TypedArgument}

theorem call_fits (meets : candidate.Meets typing receiver) {method : Nat}
    (isTarget : candidate.target = .compiled method)
    (passes : List.Forall₂ (TypedArgument.Passes typing) candidate.parameters converted) :
    (TypedNode.call method converted).Fits typing candidate.result := by
  have target := meets.target
  rw [isTarget] at target
  obtain ⟨signature, found, areParameters, isResult⟩ := target
  have defined (strict : typing.Strict) (parameter : TypedParameter) (member : parameter ∈ signature.parameters) :
      parameter.type ≠ .void := by
    have mapped : (parameter.mode, parameter.type) ∈ candidate.parameters := by
      rw [areParameters]
      exact List.mem_map_of_mem member
    exact (meets.parameters _ mapped).ne_void
  rw [areParameters] at passes
  rw [isResult, TypedNode.Fits]
  exact ⟨signature, found, Iff.rfl, allFit_of_passes defined passes, fun _ => .refl _⟩

theorem hostCall_fits (meets : candidate.Meets typing receiver) {function : FunctionImport}
    (isTarget : candidate.target = .host function)
    (passes : List.Forall₂ (TypedArgument.Passes typing) candidate.parameters converted) :
    (TypedNode.hostCall function (argumentValues converted)).Fits typing candidate.result := by
  have target := meets.target
  rw [isTarget] at target
  obtain ⟨types, areParameters, sameLength, isResult, links, described⟩ := target
  rw [areParameters] at passes
  obtain ⟨length, allFit, widen⟩ := values_of_passes passes
  rw [TypedNode.Fits]
  refine ⟨length.trans sameLength, isResult, allFit, links, fun strict => ?_⟩
  obtain ⟨takes, gives⟩ := described strict
  exact ⟨types, takes, widen strict, fun hasResult => ⟨_, gives hasResult, .refl _⟩⟩

theorem builtin_fits (meets : candidate.Meets typing receiver) {member : BuiltinMember}
    (isTarget : candidate.target = .builtin member) (span : Span)
    (passes : List.Forall₂ (TypedArgument.Passes typing) candidate.parameters converted) :
    (TypedNode.builtin member (receiver.getD (.wrong span)) (argumentValues converted)).Fits typing
      candidate.result := by
  have target := meets.target
  rw [isTarget] at target
  obtain ⟨object, rfl, checked, areParameters, isResult, sameResult, belongs⟩ := target
  rw [areParameters] at passes
  obtain ⟨length, allFit, widen⟩ := values_of_passes passes
  rw [TypedNode.Fits]
  refine ⟨checked.fits, ?_, sameResult, allFit, fun strict =>
    ⟨belongs strict, widen strict, .inl isResult.symm⟩⟩
  rw [length, List.length_map]
  rfl

end

section

variable {context : BodyContext} {before : BodyState} {callee : Callee} {arguments : List CheckedArgument}

/-- The arguments of a candidate that applies are converted, and its target takes them. -/
theorem target_checked {candidate : Candidate} (member : candidate ∈ callee.candidates)
    (applies : candidate.applies arguments = true) (node : List TypedArgument → TypedNode)
    (fits : candidate.Meets typing callee.receiver → ∀ converted,
      List.Forall₂ (TypedArgument.Passes typing) candidate.parameters converted →
      (node converted).Fits typing candidate.result) (span : Span) :
    Yields typing context before
      (callee.Meets typing ∧ ∀ argument ∈ arguments, argument.Good typing)
      (do
        let converted ← Check.ofExcept (coerceArguments arguments candidate.parameters)
        return .mk (node converted) candidate.result span)
      (TypedExpr.Checked typing) := by
  unfold Candidate.applies at applies
  simp only [Bool.and_eq_true, beq_iff_eq, List.all_eq_true] at applies
  have resolves := coerceArguments_resolves typing arguments candidate.parameters applies.1 applies.2
  refine .bind (.ofResolves resolves) fun converted after grows => .pure fun ⟨⟨meets, good⟩, passes⟩ => ?_
  have means := meets candidate member
  refine ⟨TypedExpr.fits_mk (fits means converted (passes good means.parameters)), ?_⟩
  rcases means.result with isVoid | stores
  · rw [isVoid]
    exact ⟨.inl rfl, fun _ => .inl rfl⟩
  · exact stores.sits

/-- The call of the best candidate. -/
theorem resolveCall_checked (callee : Callee) (arguments : List CheckedArgument) (span : Span) :
    Yields typing context before
      (callee.Meets typing ∧ ∀ argument ∈ arguments, argument.Good typing)
      (resolveCall callee arguments span) (TypedExpr.Checked typing) := by
  unfold resolveCall
  dsimp only
  split
  · exact .throw (Candidate.mismatch_isError ..)
  · exact .fail rfl
  · next candidate isBest _ =>
    obtain ⟨member, applies⟩ := List.mem_filter.1 (Candidate.best?_mem isBest)
    refine .read_bind ?_
    split
    · next method isTarget =>
      refine .refuse rfl fun _ => ?_
      exact target_checked member applies (.call method ·) (fun meets _ => call_fits meets isTarget) span
    · next function isTarget =>
      exact target_checked member applies (fun converted => .hostCall function (argumentValues converted))
        (fun meets _ => hostCall_fits meets isTarget) span
    · next member' isTarget =>
      exact target_checked member applies (fun converted => .builtin member' (callee.receiver.getD (.wrong span))
        (argumentValues converted)) (fun meets _ => builtin_fits meets isTarget span) span

/-- An expression that is a variable of the method. -/
theorem slot_checked {index : Nat} {slot : Slot} (found : typing.slots[index]? = some slot)
    (stores : slot.type.Stores typing) (span : Span) :
    (TypedExpr.mk (.slot index) slot.type span).Checked typing := by
  refine ⟨TypedExpr.fits_mk ?_, stores.sits⟩
  rw [TypedNode.Fits]
  exact ⟨stores.ne_void, slot, found, fun _ => .refl _⟩

/-- Looks for the variable that a target names. -/
theorem target_bind {α : Type} {known : Prop} {target : Expr} {next : Option Nat → Check α} {goal : α → Prop}
    (missing : Yields typing context before known (next none) goal)
    (found : ∀ index : Nat, index < before.slots.size → ∀ span name, target = .name span name →
      Yields typing context before known (next (some index)) goal) :
    Yields typing context before known
      (do
        let slot? ← match target with
          | .name _ name => lookup? name
          | _ => pure none
        next slot?) goal := by
  cases target with
  | name span name => exact .lookup_bind missing fun index inside => found index inside span name rfl
  | _ => exact missing

/-- An argument that is passed by reference is a variable. -/
theorem referenceArgument_good {known : Prop} (span : Span) (mode : PassMode) (target : Expr) {check : Check TypedExpr}
    (checks : Yields typing context before known check (TypedExpr.Checked typing)) :
    Yields typing context before known (referenceArgument span mode target check)
      (CheckedArgument.Good typing) := by
  unfold referenceArgument
  refine target_bind ?_ fun index inside nameSpan name isName => ?_
  · cases target <;>
    · refine checks.bind fun value after grows => ?_
      split
      · exact .fail rfl
      · exact .fail rfl
      · exact .fail rfl
  · subst isName
    refine .slot_bind inside fun slot => .refuse rfl fun notRefused => ?_
    refine .bind (.modifyUsage index _) fun _ after grows => .pure fun holds => ?_
    obtain ⟨⟨-, found, stores⟩, -⟩ := holds
    have assignable (writesBack : mode.writesBack = true) : slot.mode ≠ some .input := by
      intro isInput
      simp [isInput, writesBack] at notRefused
    exact ⟨slot_checked found stores _, fun _ => ⟨index, slot, rfl, found, assignable, rfl⟩⟩

end

end Check

end Snippet
