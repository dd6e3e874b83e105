import Snippet.Proofs.Stack.Values
import Snippet.Proofs.Typing.Choice
import Snippet.Proofs.Typing.Outcome

/-!
Calls of host functions: every one in a checked expression is of the overload that resolution chose for its
arguments. Main statement: `Check.expression_callsChosen`.
-/

namespace Snippet

/-- Whether a call of a host function with some values is that of the overload that resolution chooses for the
arguments that it is written with. -/
inductive LibrarySet.Calls (libraries : LibrarySet) (function : FunctionImport) (passed : List TypedExpr)
    (overload : HostFunction) : Prop where
  | chosen {definition shown name : String} {owner : HostType} {arguments : List CheckedArgument}
      {candidate : Candidate} {converted : List TypedArgument}
      (found : libraries.findType? definition = some owner)
      (chooses : owner.Chooses shown name arguments overload candidate)
      (isTarget : candidate.target = .host function)
      (converts : Check.coerceArguments arguments candidate.parameters = .ok converted)
      (isPassed : passed = Check.argumentValues converted)

/-- Whether a node, if it calls a host function, calls the chosen overload, and its type is that of a value if the
overload has a result. -/
def TypedNode.CallsChosen (libraries : LibrarySet) (node : TypedNode) (type : Ty) : Prop :=
  ∀ function passed, node = .hostCall function passed →
    ∃ overload, libraries.Calls function passed overload ∧ (overload.result.isSome = true ↔ type ≠ .void)

/-- Whether every node of an expression that calls a host function calls the chosen overload. -/
def TypedExpr.CallsChosen (libraries : LibrarySet) (value : TypedExpr) : Prop :=
  value.Every (TypedNode.CallsChosen libraries)

variable {libraries : LibrarySet}

namespace TypedExpr

/-- A node that calls no host function calls the chosen one. -/
theorem callsChosen_mk {node : TypedNode} {type : Ty} {span : Span}
    (noCall : ∀ function passed, node ≠ .hostCall function passed)
    (inner : node.Every (TypedNode.CallsChosen libraries)) : (mk node type span).CallsChosen libraries :=
  ⟨fun function passed isCall => absurd isCall (noCall function passed), inner⟩

theorem callsChosen_const (value : Constant) (type : Ty) (span : Span) :
    (mk (.const value) type span).CallsChosen libraries := callsChosen_mk nofun trivial

/-- Another static type makes no difference, as long as it is that of a value if the old one is. -/
theorem CallsChosen.relabel {value : TypedExpr} (chosen : value.CallsChosen libraries) {type : Ty}
    (same : value.type ≠ .void ↔ type ≠ .void) (span : Span) :
    (mk value.node type span).CallsChosen libraries := by
  obtain ⟨node, old, place⟩ := value
  refine ⟨fun function passed isCall => ?_, chosen.2⟩
  obtain ⟨overload, calls, hasResult⟩ := chosen.1 function passed isCall
  exact ⟨overload, calls, hasResult.trans same⟩

/-- A conversion makes no difference. -/
theorem CallsChosen.convert {value : TypedExpr} (chosen : value.CallsChosen libraries) (conversion : Conversion)
    (target : Ty) : (value.coerced (.convert conversion) target).CallsChosen libraries := by
  have converted : (mk (.convert conversion value) target value.span).CallsChosen libraries :=
    callsChosen_mk nofun chosen
  unfold coerced
  dsimp only
  split
  · split
    · exact callsChosen_const ..
    · exact converted
  · exact converted

theorem CallsChosen.coerced {value : TypedExpr} {target : Ty} {coercion : Coercion}
    (chosen : value.CallsChosen libraries) (implicit : Coercion.implicit? value.type target = some coercion) :
    (value.coerced coercion target).CallsChosen libraries := by
  rcases Coercion.implicit?_cases implicit with ⟨rfl, -⟩ | ⟨conversion, rfl, -⟩ | ⟨rfl, hasValue, widens⟩
  · exact chosen
  · exact chosen.convert _ target
  · have isValue : target ≠ .void := by
      rintro rfl
      rcases widens with same | ⟨-, isReference⟩ | ⟨isObject, -⟩
      · exact hasValue same
      · cases isReference
      · cases isObject
    exact chosen.relabel (iff_of_true hasValue isValue) _

theorem coerce_callsChosen (value : TypedExpr) (target : Ty) :
    Resolves (fun used => value.CallsChosen libraries → used.CallsChosen libraries) (value.coerce target) :=
  resolves_coerce fun _ implicit chosen => chosen.coerced implicit

theorem CallsChosen.coerce {value : TypedExpr} (chosen : value.CallsChosen libraries) (target : Ty) :
    Resolves (TypedExpr.CallsChosen libraries) (value.coerce target) :=
  (value.coerce_callsChosen target).mono fun _ converts => converts chosen

/-- A cast to a type that can be written down makes no difference. -/
theorem CallsChosen.cast {typing : Typing} {value : TypedExpr} {target : Ty} (named : target.Named typing)
    {coercion : Coercion} (chosen : value.CallsChosen libraries)
    (explicit : Coercion.explicit? value.type target = some coercion) (span : Span) :
    (mk (value.coerced coercion target).node target span).CallsChosen libraries := by
  have hasValue : target ≠ .void := named.ne_void
  have converts (conversion : Conversion) :
      (mk (value.coerced (.convert conversion) target).node target span).CallsChosen libraries := by
    have isTarget : (value.coerced (.convert conversion) target).type = target := by
      unfold TypedExpr.coerced
      dsimp only
      split
      · split <;> rfl
      · rfl
    exact (chosen.convert conversion target).relabel (by rw [isTarget]) span
  rcases Coercion.explicit?_cases explicit with implicit | ⟨conversion, rfl, -⟩ | ⟨rfl, -⟩
  · rcases Coercion.implicit?_cases implicit with ⟨rfl, same⟩ | ⟨conversion, rfl, -⟩ | ⟨rfl, isValue, -⟩
    · refine chosen.relabel (iff_of_true ?_ hasValue) span
      rcases same with same | isError | isError
      · exact same ▸ hasValue
      · rw [isError]
        nofun
      · exact absurd isError named.written
    · exact converts _
    · exact chosen.relabel (iff_of_true isValue hasValue) span
  · exact converts _
  · exact converts _

end TypedExpr

/-- The candidate of a host function has a value if the function has a result. -/
theorem Candidate.hasResult_iff {owner : HostType} {shown : String} {function : HostFunction} {candidate : Candidate}
    (isCandidate : ofHost? owner shown function = some candidate) :
    function.result.isSome = true ↔ candidate.result ≠ .void := by
  obtain ⟨-, -, -, -, -, isResult, -⟩ := ofHost?_eq_some isCandidate
  rw [isResult]
  cases function.result with
  | none => simp
  | some type => exact iff_of_true rfl (Ty.ne_void_of_holdsValues (Ty.ofDesc_holdsValues type))

/-- Whether what is meant calls chosen overloads only. -/
def Referent.CallsChosen (libraries : LibrarySet) : Referent → Prop
  | .value denoted => denoted.CallsChosen libraries
  | _ => True

/-- Whether the candidates of a call are all overloads of a host function, or none of them is one. -/
structure Callee.CallsChosen (libraries : LibrarySet) (callee : Callee) : Prop where
  receiver : ∀ value ∈ callee.receiver, value.CallsChosen libraries
  candidates : (∀ candidate ∈ callee.candidates, ∀ function, candidate.target ≠ .host function) ∨
    ∃ definition shown name owner, libraries.findType? definition = some owner ∧
      callee.candidates = (owner.overloads name).filterMap (Candidate.ofHost? owner shown)

namespace Check

variable {context : BodyContext}

/-! ### Names -/

theorem asValue_callsChosen {referent : Referent} (chosen : referent.CallsChosen libraries) (span : Span) :
    Gives context (asValue referent span) (TypedExpr.CallsChosen libraries) := by
  cases referent with
  | value value => exact .pure chosen
  | _ => exact .fail

theorem ofMeaning_callsChosen (environment : Environment) (meaning : Meaning) :
    (ofMeaning environment meaning).CallsChosen libraries := by
  cases meaning <;> trivial

theorem denoteName_callsChosen (name : String) (span : Span) :
    Gives context (denoteName name span) (Referent.CallsChosen libraries) := by
  unfold denoteName
  refine .read_bind (.bind_any fun slot? => ?_)
  split
  · refine .bind_any fun _ => .bind_any fun slot => .pure ?_
    exact TypedExpr.callsChosen_mk nofun trivial
  · split
    · exact .pure trivial
    · split
      · exact .pure (ofMeaning_callsChosen ..)
      · exact .fail
      · exact .fail

theorem denoteStatic_callsChosen (symbol : TypeSymbol) (shown name : String) (span : Span) :
    Gives context (denoteStatic symbol shown name span) (Referent.CallsChosen libraries) := by
  unfold denoteStatic
  refine .read_bind ?_
  cases symbol with
  | compiled owner =>
    dsimp only
    split
    · exact .pure trivial
    · split
      · exact .fail
      · exact .pure trivial
  | host definition arguments =>
    dsimp only
    split
    · split
      · exact .pure (TypedExpr.callsChosen_const ..)
      · exact .fail
    · split
      · exact .pure trivial
      · split
        · exact .fail
        · split
          · exact .pure trivial
          · exact .fail

theorem denoteInstance_callsChosen {object : TypedExpr} (chosen : object.CallsChosen libraries) (name : String)
    (span : Span) : Gives context (denoteInstance object name span) (Referent.CallsChosen libraries) := by
  unfold denoteInstance
  dsimp only
  split
  · exact .fail
  · exact .fail
  · exact .pure (TypedExpr.callsChosen_const ..)
  · refine .environment_bind ?_
    split
    · exact .pure (TypedExpr.callsChosen_mk nofun chosen)
    · split
      · exact .pure (TypedExpr.callsChosen_mk nofun ⟨chosen, trivial⟩)
      · split
        · exact .fail
        · exact .pure trivial

theorem denoteMember_callsChosen {base : Referent} (chosen : base.CallsChosen libraries) (name : String)
    (span : Span) : Gives context (denoteMember base name span) (Referent.CallsChosen libraries) := by
  unfold denoteMember
  cases base with
  | space space =>
    refine .environment_bind ?_
    split
    · exact .pure (ofMeaning_callsChosen ..)
    · exact .fail
  | methods label => exact .fail
  | type symbol shown => exact denoteStatic_callsChosen symbol shown name span
  | value object => exact denoteInstance_callsChosen chosen name span

/-! ### Calls -/

/-- Methods of the program are no host functions. -/
theorem compiledCandidates_callsChosen (methods : List (Nat × MethodHeader)) (name : String) :
    (Callee.mk (compiledCandidates methods) none name).CallsChosen libraries := by
  refine ⟨nofun, .inl fun candidate member function isTarget => ?_⟩
  obtain ⟨⟨index, header⟩, -, rfl⟩ := List.mem_map.1 member
  cases isTarget

theorem calleeOfName_callsChosen (name : String) (span : Span) :
    Gives context (calleeOfName name span) (Callee.CallsChosen libraries) := by
  unfold calleeOfName
  refine .read_bind (.bind_any fun slot? => .refuse fun _ => ?_)
  dsimp only
  split
  · exact .pure (compiledCandidates_callsChosen ..)
  · split
    · exact .fail
    · exact .fail

theorem calleeOfMember_callsChosen (same : context.environment.libraries = libraries) {base : Referent}
    (chosen : base.CallsChosen libraries) (name : String) (span : Span) :
    Gives context (calleeOfMember base name span) (Callee.CallsChosen libraries) := by
  unfold calleeOfMember
  refine .read_bind ?_
  cases base with
  | space space => exact .fail
  | methods label => exact .fail
  | type symbol shown =>
    cases symbol with
    | compiled owner =>
      dsimp only
      split
      · split
        · exact .fail
        · exact .fail
      · exact .pure (compiledCandidates_callsChosen ..)
    | host definition arguments =>
      dsimp only
      split
      · split
        · exact .fail_bind
        · exact .fail_bind
      · refine .pure ⟨nofun, ?_⟩
        cases found : context.environment.libraries.findType? definition with
        | none => exact .inl nofun
        | some owner => exact .inr ⟨definition, shown, name, owner, same ▸ found, rfl⟩
  | value object =>
    dsimp only
    refine .refuse fun _ => ?_
    split
    · split
      · exact .fail
      · exact .fail
    · refine .pure ⟨fun value isObject => Option.some.inj isObject ▸ chosen, .inl ?_⟩
      intro candidate member function isTarget
      obtain ⟨member', -, rfl⟩ := List.mem_map.1 member
      cases isTarget

/-- The values of arguments that are converted. -/
theorem coerceArguments_callsChosen {arguments : List CheckedArgument}
    (chosen : ∀ argument ∈ arguments, argument.value.CallsChosen libraries) (parameters : List (PassMode × Ty)) :
    Resolves (fun converted => TypedArgument.EveryOfAll (TypedNode.CallsChosen libraries) converted ∧
        TypedExpr.EveryOfAll (TypedNode.CallsChosen libraries) (argumentValues converted))
      (coerceArguments arguments parameters) := by
  induction arguments generalizing parameters with
  | nil => exact ⟨trivial, trivial⟩
  | cons argument arguments ih =>
      rw [List.forall_mem_cons] at chosen
      cases parameters with
      | nil => exact ⟨trivial, trivial⟩
      | cons parameter parameters =>
        obtain ⟨mode, type⟩ := parameter
        have isFirst : Resolves (fun first : TypedArgument => first.value.CallsChosen libraries)
            (do
              let value ← if mode.writesBack then pure argument.value else argument.value.coerce type
              return TypedArgument.mk mode value) := by
          split
          · exact chosen.1
          · exact (chosen.1.coerce type).bind fun used good => good
        unfold coerceArguments
        rw [List.zip_cons_cons, List.mapM_cons]
        refine isFirst.bind fun ⟨mode, value⟩ good => Resolves.bind (ih chosen.2 parameters) fun rest are => ?_
        exact ⟨⟨good, are.1⟩, good, are.2⟩

/-- A call of the best candidate is a call of the chosen overload. -/
theorem resolveCall_callsChosen {callee : Callee} (chosen : callee.CallsChosen libraries)
    {arguments : List CheckedArgument} (areChosen : ∀ argument ∈ arguments, argument.value.CallsChosen libraries)
    (span : Span) : Gives context (resolveCall callee arguments span) (TypedExpr.CallsChosen libraries) := by
  unfold resolveCall
  dsimp only
  split
  · exact .throw
  · exact .fail
  · next candidate isBest _ =>
    refine .read_bind ?_
    have converts := coerceArguments_callsChosen areChosen candidate.parameters
    split
    · next method isTarget =>
      refine .refuse fun _ => .bind (.ofResolves converts) fun converted are => ?_
      exact .pure (TypedExpr.callsChosen_mk nofun are.1)
    · next function isTarget =>
      refine .bind (.ofExcept fun converted => id) fun converted isConverted => .pure ?_
      rw [isConverted] at converts
      refine ⟨fun called passed isCall => ?_, converts.2⟩
      cases isCall
      obtain ⟨member, -⟩ := List.mem_filter.1 (Candidate.best?_mem isBest)
      rcases chosen.candidates with noHost | ⟨definition, shown, name, owner, found, are⟩
      · exact absurd isTarget (noHost candidate member function)
      · rw [are] at isBest
        obtain ⟨overload, chooses⟩ := HostType.exists_chooses isBest
        refine ⟨overload, .chosen found chooses isTarget isConverted rfl, ?_⟩
        exact Candidate.hasResult_iff chooses.isCandidate
    · next member isTarget =>
      refine .bind (.ofResolves converts) fun converted are => ?_
      refine .pure (TypedExpr.callsChosen_mk nofun ⟨?_, are.2⟩)
      cases isReceiver : callee.receiver with
      | none => exact TypedExpr.callsChosen_const ..
      | some receiver => exact chosen.receiver receiver isReceiver

/-- The variable that a target names, if it names one, does not matter. -/
theorem target_bind_any {α : Type} {target : Expr} {next : Option Nat → Check α} {goal : α → Prop}
    (tail : ∀ slot?, Gives context (next slot?) goal) :
    Gives context
      (do
        let slot? ← match target with
          | .name _ name => lookup? name
          | _ => pure none
        next slot?) goal := by
  cases target <;> exact .bind_any tail

theorem referenceArgument_callsChosen (span : Span) (mode : PassMode) (target : Expr) (check : Check TypedExpr) :
    Gives context (referenceArgument span mode target check) fun argument =>
      argument.value.CallsChosen libraries := by
  unfold referenceArgument
  refine target_bind_any fun slot? => ?_
  split
  · refine .bind_any fun slot => .refuse fun _ => .bind_any fun _ => .pure ?_
    exact TypedExpr.callsChosen_mk nofun trivial
  · refine .bind_any fun value => ?_
    split
    · exact .fail
    · exact .fail
    · exact .fail

/-! ### Creation and assignment -/

theorem created_callsChosen (target : Ty) (count : Nat) (span : Span) :
    Gives context (created target count span) (TypedExpr.CallsChosen libraries) := by
  unfold created
  refine .refuse fun _ => ?_
  split
  · exact .pure (TypedExpr.callsChosen_mk nofun trivial)
  · exact .pure (TypedExpr.callsChosen_mk nofun trivial)
  · exact .pure (TypedExpr.callsChosen_const ..)
  · exact .pure (TypedExpr.callsChosen_const ..)
  · exact .pure (TypedExpr.callsChosen_const ..)
  · exact .pure (TypedExpr.callsChosen_const ..)
  · exact .fail
  · exact .fail

theorem create_callsChosen (type : TypeName) (count : Nat) (span : Span) :
    Gives context (create type count span) (TypedExpr.CallsChosen libraries) := by
  unfold create
  refine .read_bind (.bind_any fun symbol => ?_)
  cases symbol with
  | host definition arguments =>
    exact .refuse fun _ => .bind_any fun target => created_callsChosen target count span
  | compiled index => exact .refuse fun _ => .bind_any fun target => created_callsChosen target count span

theorem placeOf_callsChosen (target : Expr) {check : Check TypedExpr} (reads isStep : Bool)
    (checks : Gives context check (TypedExpr.CallsChosen libraries)) :
    Gives context (placeOf target check reads isStep) fun found =>
      found.1.Every (TypedNode.CallsChosen libraries) := by
  unfold placeOf
  refine target_bind_any fun slot? => ?_
  split
  · refine .bind_any fun slot => .refuse fun _ => ?_
    dsimp only
    split
    · exact .bind_any fun _ => .pure trivial
    · exact .pure trivial
  · refine checks.bind fun value chosen => ?_
    split
    · next object name isField =>
      obtain ⟨node, type, span⟩ := value
      cases isField
      exact .pure chosen.2
    · exact .fail
    · exact .fail

section

variable {place : Place} {value left right : TypedExpr} (span : Span)

theorem assignPlain_callsChosen (inPlace : place.Every (TypedNode.CallsChosen libraries)) (type : Ty)
    (chosen : value.CallsChosen libraries) :
    Gives context (assignPlain place type value span) (TypedExpr.CallsChosen libraries) := by
  unfold assignPlain
  refine .bind (.ofResolves (chosen.coerce type)) fun converted good => ?_
  have assigned : (TypedExpr.mk (.assign place converted) type span).CallsChosen libraries :=
    TypedExpr.callsChosen_mk nofun ⟨inPlace, good⟩
  cases place with
  | slot index => exact .bind_any fun _ => .pure assigned
  | field object name => exact .pure assigned

theorem convertOperand_callsChosen (type? : Option Ty) (chosen : value.CallsChosen libraries) :
    Gives context (convertOperand type? value) (TypedExpr.CallsChosen libraries) := by
  cases type? with
  | none => exact .pure chosen
  | some type => exact .ofResolves (chosen.coerce type)

theorem assignUpdate_callsChosen (operator : BinaryOperator)
    (inPlace : place.Every (TypedNode.CallsChosen libraries)) (type : Ty) (chosen : value.CallsChosen libraries) :
    Gives context (assignUpdate operator place type value span) (TypedExpr.CallsChosen libraries) := by
  unfold assignUpdate
  split
  · exact .pure (TypedExpr.callsChosen_const ..)
  · split
    · exact .fail
    · next operators _ =>
      have updates : Gives context
          (do return .mk (.update place operators.operation (← convertOperand operators.operands value)) type span)
          (TypedExpr.CallsChosen libraries) :=
        .bind (convertOperand_callsChosen _ chosen) fun operand good =>
          .pure (TypedExpr.callsChosen_mk nofun ⟨inPlace, good⟩)
      split
      · exact updates
      · exact updates
      · exact .fail

/-! ### Operators -/

theorem logical_callsChosen (isAnd : Bool) (one : left.CallsChosen libraries) (other : right.CallsChosen libraries) :
    (logical isAnd left right span).CallsChosen libraries := by
  unfold logical
  split
  · exact TypedExpr.callsChosen_const ..
  · exact TypedExpr.callsChosen_mk nofun ⟨one, other⟩

theorem folded_callsChosen (operation : Operation) (type : Ty) (one : left.CallsChosen libraries)
    (other : right.CallsChosen libraries) :
    Gives context (folded operation type left right span) (TypedExpr.CallsChosen libraries) := by
  have unfolded : (TypedExpr.mk (.binary operation left right) type span).CallsChosen libraries :=
    TypedExpr.callsChosen_mk nofun ⟨one, other⟩
  unfold folded
  dsimp only
  split
  · split
    · exact .pure (TypedExpr.callsChosen_const ..)
    · exact .pure unfolded
    · exact .fail
  · exact .pure unfolded

theorem binary_callsChosen (operator : BinaryOperator) (one : left.CallsChosen libraries)
    (other : right.CallsChosen libraries) :
    Gives context (binary operator left right span) (TypedExpr.CallsChosen libraries) := by
  unfold binary
  split
  · exact .pure (TypedExpr.callsChosen_const ..)
  · dsimp only
    split
    · exact .refuse fun _ => .pure (logical_callsChosen span _ one other)
    · split
      · exact .fail
      · refine .bind (convertOperand_callsChosen _ one) fun first good => ?_
        refine .bind (convertOperand_callsChosen _ other) fun second goodToo => ?_
        exact folded_callsChosen span _ _ good goodToo

theorem negate_callsChosen (chosen : value.CallsChosen libraries) :
    Gives context (negate value span) (TypedExpr.CallsChosen libraries) := by
  have unfolded : (TypedExpr.mk (.negate value) value.type span).CallsChosen libraries :=
    TypedExpr.callsChosen_mk nofun chosen
  unfold negate
  dsimp only
  split
  · exact .pure unfolded
  · split
    · exact .pure (TypedExpr.callsChosen_const ..)
    · exact .pure unfolded
    · exact .fail

theorem unary_callsChosen (operator : UnaryOperator) (chosen : value.CallsChosen libraries) :
    Gives context (unary operator value span) (TypedExpr.CallsChosen libraries) := by
  unfold unary
  split
  · exact .pure chosen
  · cases operator with
    | not =>
      refine .refuse fun _ => ?_
      split
      · exact .pure (TypedExpr.callsChosen_const ..)
      · exact .pure (TypedExpr.callsChosen_mk nofun chosen)
    | plus =>
      dsimp only
      split
      · exact .pure chosen
      · exact .fail
    | negate =>
      dsimp only
      split
      · exact negate_callsChosen span chosen
      · exact .fail

theorem conditional_callsChosen {condition : TypedExpr} (test : condition.CallsChosen libraries)
    (one : left.CallsChosen libraries) (other : right.CallsChosen libraries) :
    Gives context (conditional condition left right span) (TypedExpr.CallsChosen libraries) := by
  unfold conditional
  dsimp only
  split
  · exact .pure (TypedExpr.callsChosen_const ..)
  · split
    · exact .fail
    · next type _ =>
      refine .bind (.ofResolves (one.coerce type)) fun first good => ?_
      refine .bind (.ofResolves (other.coerce type)) fun second goodToo => ?_
      exact .pure (TypedExpr.callsChosen_mk nofun ⟨test, good, goodToo⟩)

/-- A cast to a type that can be written down. -/
theorem cast_callsChosen {typing : Typing} {target : Ty} (named : target.Named typing)
    (chosen : value.CallsChosen libraries) :
    Gives context (cast target value span) (TypedExpr.CallsChosen libraries) := by
  unfold cast
  split
  · next coercion explicit => exact .pure (chosen.cast named explicit span)
  · exact .fail

end

/-! ### Expressions -/

section

variable {α : Type} {denoted : Check Referent} {step : Check TypedExpr}

/-- What is denoted is used as a value. -/
theorem value_callsChosen (span : Span) (chosen : Gives context denoted (Referent.CallsChosen libraries)) :
    Gives context (denoted >>= fun referent => asValue referent span) (TypedExpr.CallsChosen libraries) :=
  chosen.bind fun _ good => asValue_callsChosen good span

/-- What is denoted is used as a value in what comes next. -/
theorem value_bind_callsChosen {span : Span} {next : TypedExpr → Check α} {goal : α → Prop}
    (chosen : Gives context denoted (Referent.CallsChosen libraries))
    (tail : ∀ value : TypedExpr, value.CallsChosen libraries → Gives context (next value) goal) :
    Gives context (denoted >>= fun referent => asValue referent span >>= next) goal :=
  chosen.bind fun _ good => (asValue_callsChosen good span).bind tail

theorem return_callsChosen (chosen : Gives context step (TypedExpr.CallsChosen libraries)) :
    Gives context (step >>= fun value => pure (.value value)) (Referent.CallsChosen libraries) :=
  chosen.bind fun _ good => .pure good

end

mutual

/-- Every call of a host function in an expression is one of the chosen overload. -/
theorem denote_callsChosen (same : context.environment.libraries = libraries) (source : Expr) :
    Gives context (denote source) (Referent.CallsChosen libraries) := by
  match source with
  | .int _ _ | .long _ _ | .double _ _ | .text _ _ | .bool _ _ | .null _ =>
    rw [denote]
    exact .pure (TypedExpr.callsChosen_const ..)
  | .name span name =>
    rw [denote]
    exact denoteName_callsChosen name span
  | .basicType span type =>
    rw [denote]
    exact .pure trivial
  | .member span object name =>
    rw [denote]
    exact (denote_callsChosen same object).bind fun base good => denoteMember_callsChosen good name span
  | .paren span inner =>
    rw [denote]
    exact value_bind_callsChosen (denote_callsChosen same inner) fun _ good => .pure good
  | .call span callee arguments =>
    rw [denote]
    refine (denoteCallee_callsChosen same callee).bind fun callee good => ?_
    refine (checkArguments_callsChosen same arguments).bind fun arguments are => ?_
    exact return_callsChosen (resolveCall_callsChosen good are span)
  | .create span type arguments =>
    rw [denote]
    exact return_callsChosen (create_callsChosen type arguments.length span)
  | .assign span operator target value =>
    rw [denote]
    have place := placeOf_callsChosen target.core operator.isSome false
      (value_callsChosen target.span (denote_callsChosen same target))
    refine place.bind fun found inPlace => value_bind_callsChosen (denote_callsChosen same value) fun value good => ?_
    cases operator with
    | none => exact return_callsChosen (assignPlain_callsChosen span inPlace found.2 good)
    | some operator => exact return_callsChosen (assignUpdate_callsChosen span operator inPlace found.2 good)
  | .binary span operator left right =>
    rw [denote]
    refine value_bind_callsChosen (denote_callsChosen same left) fun left one => ?_
    refine value_bind_callsChosen (denote_callsChosen same right) fun right other => ?_
    exact return_callsChosen (binary_callsChosen span operator one other)
  | .unary span operator operand =>
    rw [denote]
    split
    · exact .pure (TypedExpr.callsChosen_const ..)
    · refine value_bind_callsChosen (denote_callsChosen same operand) fun value good => ?_
      exact return_callsChosen (unary_callsChosen span operator good)
  | .step span isIncrement isFront target =>
    rw [denote]
    have place := placeOf_callsChosen target.core true true
      (value_callsChosen target.span (denote_callsChosen same target))
    refine place.bind fun found inPlace => .refuse fun _ => .pure ?_
    exact TypedExpr.callsChosen_mk nofun inPlace
  | .conditional span condition thenValue elseValue =>
    rw [denote]
    refine value_bind_callsChosen (denote_callsChosen same condition) fun condition good => ?_
    refine .bind (.ofResolves (good.coerce .bool)) fun condition test => ?_
    refine value_bind_callsChosen (denote_callsChosen same thenValue) fun first one => ?_
    refine value_bind_callsChosen (denote_callsChosen same elseValue) fun second other => ?_
    exact return_callsChosen (conditional_callsChosen span test one other)
  | .cast span type operand =>
    rw [denote]
    refine .read_bind ?_
    let typing : Typing := ⟨context.environment.libraries, [], [], .void⟩
    have named : Resolves (Ty.Named typing) (context.environment.resolveType context.owner .cast type) :=
      Environment.resolveType_named rfl context.owner .cast type
    refine .bind (.ofResolves named) fun target named => ?_
    refine value_bind_callsChosen (denote_callsChosen same operand) fun value good => ?_
    exact return_callsChosen (cast_callsChosen span named good)

theorem denoteCallee_callsChosen (same : context.environment.libraries = libraries) (source : Expr) :
    Gives context (denoteCallee source) (Callee.CallsChosen libraries) := by
  match source with
  | .paren span inner =>
    rw [denoteCallee]
    exact denoteCallee_callsChosen same inner
  | .name span name =>
    rw [denoteCallee]
    exact calleeOfName_callsChosen name span
  | .member span object name =>
    rw [denoteCallee]
    exact (denote_callsChosen same object).bind fun base good => calleeOfMember_callsChosen same good name span
  | .int _ _ | .long _ _ | .double _ _ | .text _ _ | .bool _ _ | .null _ | .basicType _ _ | .call _ _ _
  | .create _ _ _ | .assign _ _ _ _ | .binary _ _ _ _ | .unary _ _ _ | .step _ _ _ _
  | .conditional _ _ _ _ | .cast _ _ _ =>
    rw [denoteCallee]
    · exact .fail
    all_goals nofun

theorem checkArguments_callsChosen (same : context.environment.libraries = libraries)
    (sources : List Argument) : Gives context (checkArguments sources) fun arguments =>
      ∀ argument ∈ arguments, argument.value.CallsChosen libraries := by
  match sources with
  | [] =>
    rw [checkArguments]
    exact .pure fun _ member => absurd member List.not_mem_nil
  | .mk span mode value :: rest =>
    rw [checkArguments]
    have others (first : CheckedArgument) (good : first.value.CallsChosen libraries) :
        Gives context (checkArguments rest >>= fun rest => pure (first :: rest)) fun arguments =>
          ∀ argument ∈ arguments, argument.value.CallsChosen libraries :=
      (checkArguments_callsChosen same rest).bind fun rest are => .pure (List.forall_mem_cons.2 ⟨good, are⟩)
    split
    · exact (value_callsChosen value.span (denote_callsChosen same value)).bind fun value good => others _ good
    · exact (referenceArgument_callsChosen span mode value.core _).bind others

end

theorem expression_callsChosen (same : context.environment.libraries = libraries) (source : Expr) :
    Gives context (expression source) (TypedExpr.CallsChosen libraries) :=
  value_callsChosen source.span (denote_callsChosen same source)

theorem condition_callsChosen (same : context.environment.libraries = libraries) (source : Expr) :
    Gives context (condition source) (TypedExpr.CallsChosen libraries) :=
  (expression_callsChosen same source).bind fun _ good => .ofResolves (good.coerce .bool)

end Check

end Snippet
