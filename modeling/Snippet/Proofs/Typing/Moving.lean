import Snippet.Proofs.Typing.Checker
import Snippet.Proofs.Typing.Spans

/-!
The checker and the places of a tree: a logic of steps that give the same on trees with changed places, and the names
of types.
-/

namespace Snippet

namespace Check

/-- Whether two steps agree on trees that differ in places only: the results and the states left correspond. -/
def Moves {α β : Type} (change : Span → Span) (context : BodyContext) (move : α → β) (step : Check α)
    (moved : Check β) : Prop :=
  ∀ before : BodyState, (moved.run (context.mapSpans change)).run.run (before.mapSpans change) =
    (moveResult change move ((step.run context).run.run before).1,
      ((step.run context).run.run before).2.mapSpans change)

namespace Moves

variable {α β γ δ : Type} {change : Span → Span} {context : BodyContext} {move : α → β} {through : γ → δ}

theorem pure {value : α} {result : β} (same : result = move value) :
    Moves change context move (Pure.pure value) (Pure.pure result) := by
  subst same
  exact fun _ => rfl

theorem throw {finding finding' : Finding} (same : finding' = finding.mapSpans change) :
    Moves change context move (MonadExcept.throw finding) (MonadExcept.throw finding') := by
  subst same
  exact fun _ => rfl

theorem fail {problem : Problem} {span : Span} :
    Moves change context move (Check.fail problem span) (Check.fail problem (change span)) := throw rfl

theorem bind {first : Check γ} {first' : Check δ} {rest : γ → Check α} {rest' : δ → Check β}
    (head : Moves change context through first first')
    (tail : ∀ value : γ, Moves change context move (rest value) (rest' (through value))) :
    Moves change context move (first >>= rest) (first' >>= rest') := by
  intro before
  rw [Yields.run_bind, Yields.run_bind, head before]
  generalize (first.run context).run.run before = result
  obtain ⟨finding | value, after⟩ := result
  · rfl
  · exact tail value after

theorem pureBind {value : γ} {result : δ} {rest : γ → Check α} {rest' : δ → Check β}
    (go : Moves change context move (rest value) (rest' result)) :
    Moves change context move (Pure.pure value >>= rest) (Pure.pure result >>= rest') := go

theorem readBind {rest : BodyContext → Check α} {rest' : BodyContext → Check β}
    (go : Moves change context move (rest context) (rest' (context.mapSpans change))) :
    Moves change context move (read >>= rest) (read >>= rest') := go

theorem environment {rest : Environment → Check α} {rest' : Environment → Check β}
    (go : Moves change context move (rest context.environment) (rest' context.environment)) :
    Moves change context move (Check.environment >>= rest) (Check.environment >>= rest') := go

theorem getBind {rest : BodyState → Check α} {rest' : BodyState → Check β}
    (go : ∀ state : BodyState, Moves change context move (rest state) (rest' (state.mapSpans change))) :
    Moves change context move (get >>= rest) (get >>= rest') := fun before => go before before

theorem choose {condition : Prop} [Decidable condition] {first second : Check α} {first' second' : Check β}
    (yes : Moves change context move first first') (no : Moves change context move second second') :
    Moves change context move (if condition then first else second) (if condition then first' else second') := by
  split
  · exact yes
  · exact no

theorem ofExcept {result : Except Finding α} {result' : Except Finding β}
    (same : result' = moveResult change move result) :
    Moves change context move (Check.ofExcept result) (Check.ofExcept result') := by
  subst same
  cases result with
  | ok value => exact .pure rfl
  | error finding => exact .throw rfl

theorem attempt {step : Check α} {moved : Check β} (inner : Moves change context move step moved) :
    Moves change context (moveResult change move) (Check.attempt step) (Check.attempt moved) := by
  intro before
  rw [Yields.run_attempt, Yields.run_attempt, inner before]
  rfl

theorem modify {update update' : BodyState → BodyState}
    (same : ∀ state : BodyState, update' (state.mapSpans change) = (update state).mapSpans change) :
    Moves change context id (MonadStateOf.modifyGet fun state => (PUnit.unit, update state) : Check PUnit)
      (MonadStateOf.modifyGet fun state => (PUnit.unit, update' state) : Check PUnit) := by
  intro before
  show (Except.ok PUnit.unit, update' (before.mapSpans change)) = _
  rw [same]
  rfl

theorem set {state state' : BodyState} (same : state' = state.mapSpans change) :
    Moves change context id (MonadStateOf.set state : Check PUnit) (MonadStateOf.set state') := by
  subst same
  exact fun _ => rfl

theorem report {finding finding' : Finding} (same : finding' = finding.mapSpans change) :
    Moves change context id (Check.report finding) (Check.report finding') := by
  subst same
  refine modify fun state => ?_
  simp [BodyState.mapSpans]

theorem modifyUsage (index : Nat) (update : Usage → Usage) :
    Moves change context id (Check.modifyUsage index update) (Check.modifyUsage index update) := fun _ => rfl

theorem inScope {step : Check α} {moved : Check β} (inner : Moves change context move step moved) :
    Moves change context move (Check.inScope step) (Check.inScope moved) := by
  intro before
  rw [Yields.run_inScope, Yields.run_inScope]
  have ran := inner { before with scopes := [] :: before.scopes }
  have opened : { before.mapSpans change with scopes := [] :: (before.mapSpans change).scopes } =
      BodyState.mapSpans change { before with scopes := [] :: before.scopes } := rfl
  dsimp only
  rw [opened, ran]
  rfl

theorem inLoop {step : Check α} {moved : Check β} (inner : Moves change context move step moved) :
    Moves change context move (Check.inLoop step) (Check.inLoop moved) := by
  intro before
  rw [Yields.run_inLoop, Yields.run_inLoop]
  have ran := inner { before with loopDepth := before.loopDepth + 1 }
  have entered : { before.mapSpans change with loopDepth := (before.mapSpans change).loopDepth + 1 } =
      BodyState.mapSpans change { before with loopDepth := before.loopDepth + 1 } := rfl
  dsimp only
  rw [entered, ran]
  rfl

theorem lookup? {name : String} {rest : Option Nat → Check α} {rest' : Option Nat → Check β}
    (go : ∀ found : Option Nat, Moves change context move (rest found) (rest' found)) :
    Moves change context move (Check.lookup? name >>= rest) (Check.lookup? name >>= rest') := fun before => go _ before

/-- Of a slot everything but its place stays. -/
theorem slot {index : Nat} {rest : Slot → Check α} {rest' : Slot → Check β}
    (go : ∀ found found' : Slot, found'.name = found.name → found'.type = found.type → found'.mode = found.mode →
      Moves change context move (rest found) (rest' found')) :
    Moves change context move (Check.slot index >>= rest) (Check.slot index >>= rest') := by
  intro before
  refine go (before.slots.getD index ⟨"", .error, ⟨0, 0⟩, none⟩)
    ((before.mapSpans change).slots.getD index ⟨"", .error, ⟨0, 0⟩, none⟩) ?_ ?_ ?_ before <;>
  · simp only [BodyState.mapSpans, Array.getD_eq_getD_getElem?, Array.getElem?_map]
    cases before.slots[index]? <;> rfl

theorem declare (name : String) (type : Ty) (span : Span) :
    Moves change context id (Check.declare name type span) (Check.declare name type (change span)) := by
  rw [Check.declare, Check.declare]
  refine getBind fun state => choose fail (lookup? fun found => choose fail ?_)
  have sameSize : (state.mapSpans change).slots.size = state.slots.size := Array.size_map
  rw [sameSize]
  refine choose fail ((set ?_).bind fun _ => .pure rfl)
  simp [BodyState.mapSpans, Slot.mapSpans]

end Moves

theorem noteRead_moves {change : Span → Span} {context : BodyContext} (index : Nat) :
    Moves change context id (noteRead index) (noteRead index) := .modifyUsage index _

theorem noteWrite_moves {change : Span → Span} {context : BodyContext} (index : Nat) (value : TypedExpr) :
    Moves change context id (noteWrite index value) (noteWrite index (value.mapSpans change)) := by
  rw [noteWrite, noteWrite, TypedExpr.constant?_mapSpans]
  exact .modifyUsage index _

end Check

/-! ### Names of types -/

namespace Environment

variable (environment : Environment) (change : Span → Span)

theorem withArguments_mapSpans (meaning : Meaning) (arguments : List Ty) (name : String) (span : Span) :
    environment.withArguments meaning arguments name (change span) =
      moveResult change id (environment.withArguments meaning arguments name span) := by
  cases meaning with
  | space name => simp only [withArguments]; split <;> rfl
  | type symbol =>
      cases symbol with
      | compiled index => simp only [withArguments]; split <;> rfl
      | host definition held => simp only [withArguments]; split <;> split <;> rfl

theorem symbolType_mapSpans (use : StaticTypeUse) (span : Span) (symbol : TypeSymbol) :
    environment.symbolType use (change span) symbol =
      moveResult change id (environment.symbolType use span symbol) := by
  cases symbol with
  | compiled index => rfl
  | host definition arguments =>
      simp only [symbolType]
      split
      · split <;> rfl
      · rfl

mutual

theorem resolveSymbol_mapSpans (index : Nat) (type : TypeName) :
    environment.resolveSymbol index (type.mapSpans change) =
      moveResult change id (environment.resolveSymbol index type) := by
  match type with
  | .basic _ _ => rfl
  | .named _ [] => rfl
  | .named span (segment :: rest) =>
    rw [TypeName.mapSpans, TypeSegment.mapSpansOfAll, resolveSymbol, resolveSymbol, resolveFirst_mapSpans]
    refine moveResult_bind fun first => ?_
    rw [resolveRest_mapSpans]
    refine moveResult_bind fun meaning => ?_
    cases meaning <;> rfl

theorem resolveFirst_mapSpans (index : Nat) (span : Span) (segment : TypeSegment) :
    environment.resolveFirst index (change span) (segment.mapSpans change) =
      moveResult change id (environment.resolveFirst index span segment) := by
  match segment with
  | .mk name arguments =>
    rw [TypeSegment.mapSpans, resolveFirst, resolveFirst, resolveArguments_mapSpans]
    refine moveResult_bind fun types => ?_
    cases environment.findSimple index name with
    | found meaning => exact environment.withArguments_mapSpans change meaning types name span
    | ambiguous | missing => rfl

theorem resolveRest_mapSpans (index : Nat) (span : Span) (container : Meaning) (segments : List TypeSegment) :
    environment.resolveRest index (change span) container (TypeSegment.mapSpansOfAll change segments) =
      moveResult change id (environment.resolveRest index span container segments) := by
  match segments with
  | [] => rfl
  | segment :: rest =>
    rw [TypeSegment.mapSpansOfAll, resolveRest, resolveRest, resolveNext_mapSpans]
    exact moveResult_bind fun next => resolveRest_mapSpans index span next rest

theorem resolveNext_mapSpans (index : Nat) (span : Span) (container : Meaning) (segment : TypeSegment) :
    environment.resolveNext index (change span) container (segment.mapSpans change) =
      moveResult change id (environment.resolveNext index span container segment) := by
  match segment with
  | .mk name arguments =>
    rw [TypeSegment.mapSpans, resolveNext, resolveNext, resolveArguments_mapSpans]
    refine moveResult_bind fun types => ?_
    cases environment.findMember? container name with
    | some meaning => exact environment.withArguments_mapSpans change meaning types name span
    | none => rfl

theorem resolveArguments_mapSpans (index : Nat) (types : List TypeName) :
    environment.resolveArguments index (TypeName.mapSpansOfAll change types) =
      moveResult change id (environment.resolveArguments index types) := by
  match types with
  | [] => rfl
  | type :: rest =>
    rw [TypeName.mapSpansOfAll, resolveArguments, resolveArguments, resolveSymbol_mapSpans]
    refine moveResult_bind fun symbol => ?_
    rw [TypeName.span_mapSpans, id, symbolType_mapSpans]
    refine moveResult_bind fun first => ?_
    rw [resolveArguments_mapSpans]
    exact moveResult_bind fun others => rfl

end

theorem resolveType_mapSpans (index : Nat) (use : StaticTypeUse) (type : TypeName) :
    environment.resolveType index use (type.mapSpans change) =
      moveResult change id (environment.resolveType index use type) := by
  rw [resolveType, resolveType, resolveSymbol_mapSpans]
  refine moveResult_bind fun symbol => ?_
  rw [TypeName.span_mapSpans]
  exact environment.symbolType_mapSpans change use type.span symbol

end Environment

end Snippet
