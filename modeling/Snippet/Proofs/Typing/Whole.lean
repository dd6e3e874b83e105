import Snippet.Proofs.Stack.Values
import Snippet.Proofs.Typing.Call
import Snippet.Proofs.Typing.Outcome

/-!
Types, trees and libraries in which no error stands, and a logic of the steps of the checker that build such trees. A
step that finds an error may build anything.
-/

namespace Snippet

namespace Ty

instance decidableIsWhole : (type : Ty) → Decidable type.IsWhole
  | list element => element.decidableIsWhole
  | error => isFalse id
  | void | null | bool | int | long | double | string | object | data _ => isTrue trivial

theorem IsWhole.ne_error {type : Ty} (whole : type.IsWhole) : type ≠ .error := by
  rintro rfl
  exact whole

theorem isWhole_ofConstant (value : Constant) : (ofConstant value).IsWhole := by
  cases value <;> trivial

/-- The members of a whole type have whole types. -/
theorem IsWhole.slot {receiver : Ty} (whole : receiver.IsWhole) (slot : MemberSlot) : (receiver.slot slot).IsWhole := by
  cases slot with
  | element => cases receiver <;> first | exact whole | trivial
  | _ => trivial

end Ty

/-! ### Trees -/

/-- Whether no error stands in the types of an expression and of all expressions in it. -/
def TypedExpr.IsWhole (value : TypedExpr) : Prop := value.Every fun _ type => type.IsWhole

/-- Whether no error stands in the types of the expressions in a node. -/
def TypedNode.IsWhole (node : TypedNode) : Prop := node.Every fun _ type => type.IsWhole

/-- Whether no error stands in the types of the expressions in a place. -/
def Place.IsWhole (place : Place) : Prop := place.Every fun _ type => type.IsWhole

namespace TypedExpr

variable {value : TypedExpr}

theorem IsWhole.type (whole : value.IsWhole) : value.type.IsWhole := by
  cases value
  exact whole.1

theorem IsWhole.node (whole : value.IsWhole) : value.node.IsWhole := by
  cases value
  exact whole.2

theorem isWhole_constant (value : Constant) (span : Span) : (constant value span).IsWhole :=
  ⟨Ty.isWhole_ofConstant value, trivial⟩

/-- A converted value is whole if the target is. -/
theorem IsWhole.coerced (whole : value.IsWhole) {target : Ty} (isTarget : target.IsWhole) (coercion : Coercion) :
    (value.coerced coercion target).IsWhole := by
  unfold TypedExpr.coerced
  split
  · exact whole
  · exact ⟨isTarget, whole.node⟩
  · dsimp only
    split
    · split
      · exact ⟨isTarget, trivial⟩
      · exact ⟨isTarget, whole⟩
    · exact ⟨isTarget, whole⟩

theorem coerce_whole (value : TypedExpr) (target : Ty) :
    Resolves (fun used => value.IsWhole → target.IsWhole → used.IsWhole) (value.coerce target) :=
  resolves_coerce fun coercion _ whole isTarget => whole.coerced isTarget coercion

theorem everyOfAll_iff {property : TypedNode → Ty → Prop} {values : List TypedExpr} :
    EveryOfAll property values ↔ ∀ value ∈ values, value.Every property := by
  induction values with
  | nil => exact ⟨fun _ => nofun, fun _ => trivial⟩
  | cons first rest ih => rw [List.forall_mem_cons, ← ih, EveryOfAll]

end TypedExpr

theorem TypedArgument.everyOfAll_iff {property : TypedNode → Ty → Prop} {passed : List TypedArgument} :
    EveryOfAll property passed ↔ ∀ argument ∈ passed, argument.value.Every property := by
  induction passed with
  | nil => exact ⟨fun _ => nofun, fun _ => trivial⟩
  | cons first rest ih =>
    obtain ⟨mode, value⟩ := first
    rw [List.forall_mem_cons, ← ih, EveryOfAll, TypedArgument.value]

/-! ### Libraries, methods and states -/

/-- Whether no error stands in the types of a host type's members, as far as a program can use them. A function with
an open type cannot be called. -/
structure HostType.IsWhole (type : HostType) : Prop where
  fields : ∀ field ∈ type.fields, (Ty.ofDesc field.type).IsWhole
  constants : ∀ constant ∈ type.constants, (Ty.ofDesc constant.type).IsWhole
  functions : ∀ function ∈ type.functions, ∀ desc ∈ function.parameters ++ function.result.toList,
    desc.fullName?.isSome → (Ty.ofDesc desc).IsWhole

/-- Whether no error stands in the types of the members that a program can use. -/
def LibrarySet.IsWhole (libraries : LibrarySet) : Prop :=
  ∀ (name : String) (type : HostType), libraries.findType? name = some type → type.IsWhole

/-- Whether no error stands in the types of a method that its callers see. -/
structure MethodHeader.IsWhole (header : MethodHeader) : Prop where
  parameters : ∀ parameter ∈ header.parameters, parameter.type.IsWhole
  result : header.result.IsWhole

/-- Whether no error stands in the types that a body is checked against. -/
structure BodyContext.IsWhole (context : BodyContext) : Prop where
  libraries : context.environment.libraries.IsWhole
  methods : ∀ header ∈ context.methods.toList, header.IsWhole
  result : context.result.IsWhole

namespace BodyState

/-- Whether no error stands in the types of the slots, and every name in scope has one. -/
structure IsWhole (state : BodyState) : Prop where
  named : state.Scoped
  slots : ∀ slot ∈ state.slots.toList, slot.type.IsWhole

variable {state : BodyState}

theorem IsWhole.openScope (whole : state.IsWhole) : ({ state with scopes := [] :: state.scopes } : BodyState).IsWhole := by
  refine ⟨fun scope member => ?_, whole.slots⟩
  rcases List.mem_cons.1 member with rfl | outer
  · exact fun _ member => absurd member List.not_mem_nil
  · exact whole.named scope outer

theorem IsWhole.closeScope (whole : state.IsWhole) :
    ({ state with scopes := state.scopes.drop 1 } : BodyState).IsWhole :=
  ⟨fun scope member => whole.named scope (List.mem_of_mem_drop member), whole.slots⟩

theorem IsWhole.declare (whole : state.IsWhole) {type : Ty} (isType : type.IsWhole) (name : String) (span : Span) :
    (state.declare name type span).IsWhole := by
  refine ⟨scoped_declare name type span whole.named, fun slot member => ?_⟩
  rcases List.mem_append.1 (Array.toList_push ▸ member : slot ∈ state.slots.toList ++ _) with old | new
  · exact whole.slots slot old
  · rw [List.mem_singleton.1 new]
    exact isType

end BodyState

/-! ### The rules -/

namespace Check

variable {α β : Type}

/-- Whether what a step gives is good and the state behind it whole, unless an error is found, if the state in front of it
is whole and the facts hold. -/
def Builds (context : BodyContext) (facts : Prop) (step : Check α) (good : α → Prop) : Prop :=
  Ends context (fun state => facts ∧ state.IsWhole) step fun result state =>
    state.IsWhole ∧ ∀ value, result = .ok value → good value

namespace Builds

variable {context : BodyContext} {facts facts' : Prop} {step : Check α} {good good' : α → Prop} {goal : β → Prop}

theorem weaken (builds : Builds context facts step good) (stronger : facts' → facts) :
    Builds context facts' step good := Ends.mono builds (fun _ => And.imp stronger id) fun _ _ => id

theorem pure {value : α} (holds : facts → good value) : Builds context facts (Pure.pure value) good :=
  Ends.pure fun _ known => ⟨known.2, fun _ isOk => Except.ok.inj isOk ▸ holds known.1⟩

theorem throw {finding : Finding} (isError : finding.isError = true) :
    Builds context facts (MonadExcept.throw finding : Check α) good :=
  Ends.throw isError fun _ known => ⟨known.2, nofun⟩

theorem fail {problem : Problem} {span : Span} (isError : problem.isWarning = false) :
    Builds context facts (Check.fail problem span : Check α) good := throw (by simp [Finding.isError, isError])

/-- What is known in front of a step is known behind it. -/
theorem carried (builds : Builds context facts step good) :
    Ends context (fun state => facts ∧ state.IsWhole) step fun result state =>
      (facts ∧ ∀ value, result = .ok value → good value) ∧ state.IsWhole := fun before =>
  ⟨(builds before).1, (builds before).2.1, fun isFree holds =>
    ⟨⟨holds.1, ((builds before).2.2 isFree holds).2⟩, ((builds before).2.2 isFree holds).1⟩⟩

theorem bind {rest : α → Check β} (head : Builds context facts step good)
    (tail : ∀ value, Builds context (facts ∧ good value) (rest value) goal) :
    Builds context facts (step >>= rest) goal :=
  head.carried.bind (fun _ _ ends => ⟨ends.2, nofun⟩) fun value =>
    Ends.mono (tail value) (fun _ ends => ⟨⟨ends.1.1, ends.1.2 value rfl⟩, ends.2⟩) fun _ _ => id

theorem readBind {rest : BodyContext → Check α} (go : Builds context facts (rest context) good) :
    Builds context facts (read >>= rest) good := go

theorem environment {rest : Environment → Check α} (go : Builds context facts (rest context.environment) good) :
    Builds context facts (Check.environment >>= rest) good := go

theorem getBind {rest : BodyState → Check α} (go : ∀ state, Builds context facts (rest state) good) :
    Builds context facts (get >>= rest) good := fun before => go before before

theorem choose {condition : Prop} [Decidable condition] {first second : Check α}
    (yes : condition → Builds context facts first good) (no : ¬condition → Builds context facts second good) :
    Builds context facts (if condition then first else second) good := by
  split
  · next holds => exact yes holds
  · next fails => exact no fails

theorem ofResolves {result : Except Finding α} (resolves : Resolves (facts → good ·) result) :
    Builds context facts (Check.ofExcept result) good := by
  cases result with
  | ok value => exact .pure resolves
  | error finding => exact .throw resolves

/-- What stopped a step may stop another one behind it instead. -/
theorem attemptBind {rest : Except Finding α → Check β} (head : Builds context facts step good)
    (tail : ∀ result : Except Finding α, (∀ finding, result = .error finding → finding.isError = true) →
      Builds context (facts ∧ ∀ value, result = .ok value → good value) (rest result) goal) :
    Builds context facts (attempt step >>= rest) goal :=
  head.carried.attemptBind fun result isError => tail result isError

theorem report {finding : Finding} (isError : finding.isError = true) :
    Builds context facts (Check.report finding) fun _ => False := Ends.report isError

theorem modifyUsage (index : Nat) (change : Usage → Usage) :
    Builds context facts (Check.modifyUsage index change) fun _ => True :=
  Ends.modifyUsage fun _ known => ⟨⟨known.2.named, known.2.slots⟩, fun _ _ => trivial⟩

theorem inScope (inner : Builds context facts step good) : Builds context facts (Check.inScope step) good :=
  Ends.inScope inner (fun _ known => ⟨known.1, known.2.openScope⟩) fun _ _ ends => ⟨ends.1.closeScope, ends.2⟩

theorem inLoop (inner : Builds context facts step good) : Builds context facts (Check.inLoop step) good :=
  Ends.inLoop inner (fun _ known => ⟨known.1, ⟨known.2.named, known.2.slots⟩⟩) fun _ _ ends =>
    ⟨⟨ends.1.named, ends.1.slots⟩, ends.2⟩

theorem declare {type : Ty} (isType : facts → type.IsWhole) (name : String) (span : Span) :
    Builds context facts (Check.declare name type span) fun _ => True :=
  Ends.declare (fun _ _ known => ⟨known.2, nofun⟩) fun _ known =>
    ⟨known.2.declare (isType known.1) name span, fun _ _ => trivial⟩

end Builds

/-- Whether a step builds something good if a slot exists. -/
def BuildsFrom (context : BodyContext) (facts : Prop) (index : Nat) (step : Check α) (good : α → Prop) : Prop :=
  Ends context (fun state => (facts ∧ state.IsWhole) ∧ index < state.slots.size) step fun result state =>
    state.IsWhole ∧ ∀ value, result = .ok value → good value

section

variable {context : BodyContext} {facts : Prop} {index : Nat} {good : α → Prop}

/-- A name in scope has a slot. -/
theorem Builds.lookup? {name : String} {rest : Option Nat → Check α} (missing : Builds context facts (rest none) good)
    (found : ∀ index, BuildsFrom context facts index (rest (some index)) good) :
    Builds context facts (Check.lookup? name >>= rest) good := by
  intro before
  have runs : (((Check.lookup? name >>= rest).run context).run.run before) =
      ((rest (before.scopes.findSome? fun scope => scope.lookup name)).run context).run.run before := rfl
  rw [runs]
  cases isFound : before.scopes.findSome? fun scope => scope.lookup name with
  | none => exact missing before
  | some index =>
    exact ⟨(found index before).1, (found index before).2.1, fun isFree known =>
      (found index before).2.2 isFree ⟨known, known.2.named.inside isFound⟩⟩

/-- The slot may not matter. -/
theorem Builds.fromAny {step : Check α} (builds : Builds context facts step good) :
    BuildsFrom context facts index step good := Ends.mono builds (fun _ => And.left) fun _ _ => id

/-- The type of a slot is whole. -/
theorem BuildsFrom.slot {rest : Slot → Check α}
    (go : ∀ slot, Builds context (facts ∧ slot.type.IsWhole) (rest slot) good) :
    BuildsFrom context facts index (Check.slot index >>= rest) good := by
  intro before
  have runs : (((Check.slot index >>= rest : Check α).run context).run.run before) =
      ((rest (before.slots.getD index ⟨"", .error, ⟨0, 0⟩, none⟩)).run context).run.run before := rfl
  rw [runs]
  refine ⟨(go _ before).1, (go _ before).2.1, fun isFree ⟨⟨holds, whole⟩, inside⟩ =>
    (go _ before).2.2 isFree ⟨⟨holds, ?_⟩, whole⟩⟩
  have isSlot : before.slots.getD index ⟨"", .error, ⟨0, 0⟩, none⟩ = before.slots[index] := by simp [inside]
  rw [isSlot]
  exact whole.slots _ (by simp)

theorem BuildsFrom.noteRead {place : Nat} {rest : Check α} (go : BuildsFrom context facts index rest good) :
    BuildsFrom context facts index (do Check.noteRead place; rest) good := by
  have noted : Ends context (fun state => (facts ∧ state.IsWhole) ∧ index < state.slots.size) (Check.noteRead place)
      fun _ state => (facts ∧ state.IsWhole) ∧ index < state.slots.size :=
    .modifyUsage fun _ ⟨⟨holds, whole⟩, inside⟩ => ⟨⟨holds, ⟨whole.named, whole.slots⟩⟩, inside⟩
  exact noted.bind (fun _ _ known => ⟨known.1.2, nofun⟩) fun _ => go

end

end Check

end Snippet
