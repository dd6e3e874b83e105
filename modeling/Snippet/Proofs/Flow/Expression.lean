import Snippet.Proofs.Block.Plan
import Snippet.Proofs.Block.Tree
import Snippet.Proofs.Flow.Report

/-!
Definite assignment as an analysis of blocks, and its derivation for expressions: a clean report of
the flow analysis is a derivation for the block of the expression.
-/

namespace Snippet

/-- The truth value that a constant is. -/
def Constant.truth? : Constant → Option Bool
  | bool truth => some truth
  | _ => none

/-- What the flow analysis knows at a point of a block: which slots are assigned, and which constant
truth value lies on top of the stack, if one does. -/
structure FlowPoint where
  reached : Reached
  constant : Option Bool

namespace FlowPoint

/-- A point with nothing known of the stack. -/
def plain (reached : Reached) : FlowPoint := ⟨reached, none⟩

/-- Whether everything that may happen at a point may happen at another one. -/
def Entails (first second : FlowPoint) : Prop :=
  first.reached.isSome → first.reached.Entails second.reached ∧
    (second.constant = none ∨ second.constant = first.constant)

/-- What is known behind a command. Only assigned slots are loaded, and a method ends only where
every `out` parameter is assigned. -/
def After (slots : List Slot) (before : FlowPoint) (single : Command) (after : FlowPoint) : Prop :=
  match single with
  | .const value => after = ⟨before.reached, value.truth?⟩
  | .load slot => before.reached.lacks slot = false ∧ after = plain before.reached
  | .store slot => after = plain (before.reached.assign slot)
  | .giveBack | .giveBackNothing => before.reached.AssignsOut slots ∧ after = plain none
  | _ => after = plain before.reached

/-- Whether as much is known behind a command as in front of it. -/
def Keeps (slots : List Slot) (reached : Reached) (single : Command) : Prop :=
  ∃ after : FlowPoint, (plain reached).After slots single after ∧ after.Entails (plain reached)

/-- What is known behind a test with a result. A constant has only one. -/
def Test (before : FlowPoint) (truth : Bool) (after : FlowPoint) : Prop :=
  before.constant ≠ some (!truth) → (plain before.reached).Entails after

namespace Entails

variable {first second third : FlowPoint} {one other : Reached}

theorem refl (point : FlowPoint) : point.Entails point := fun _ => ⟨.refl _, .inr rfl⟩

theorem trans (head : first.Entails second) (tail : second.Entails third) : first.Entails third := by
  intro known
  obtain ⟨entails, constant⟩ := head known
  obtain ⟨entails', constant'⟩ := tail (entails known).1
  refine ⟨entails.trans entails', ?_⟩
  rcases constant' with isNone | same
  · exact .inl isNone
  · rw [same]
    exact constant

theorem plain (entails : one.Entails other) (constant : Option Bool) :
    Entails ⟨one, constant⟩ (.plain other) := fun _ => ⟨entails, .inl rfl⟩

end Entails

end FlowPoint

/-- The analysis of definite assignment in a method with the given slots. -/
def Analysis.flow (slots : List Slot) : Analysis FlowPoint where
  Entails := FlowPoint.Entails
  After := FlowPoint.After slots
  Test := FlowPoint.Test
  Spans _ _ _ := True
  refl := .refl
  trans := .trans
  spans_mono _ _ _ := trivial

namespace Reached

/-- Whether a point is behind another one: nothing assigned there is forgotten. -/
structure Grows (count : Nat) (before after : Reached) : Prop where
  sized : after.Sized count
  entails : after.Entails before

namespace Grows

variable {count : Nat} {first second third : Reached}

theorem refl (sized : first.Sized count) : first.Grows count first := ⟨sized, .refl first⟩

theorem trans (head : first.Grows count second) (tail : second.Grows count third) :
    first.Grows count third := ⟨tail.sized, tail.entails.trans head.entails⟩

theorem join (one : first.Grows count second) (other : first.Grows count third) :
    first.Grows count (second.join third) :=
  ⟨one.sized.join other.sized, .join one.sized other.sized one.entails other.entails⟩

theorem none (count : Nat) (before : Reached) : before.Grows count none := ⟨sized_none count, .of_none before⟩

theorem assign (sized : first.Sized count) (slot : Nat) : first.Grows count (first.assign slot) :=
  ⟨sized.assign slot, assign_entails first slot⟩

theorem assignAll (sized : first.Sized count) (slots : List Nat) :
    first.Grows count (first.assignAll slots) :=
  ⟨sized.assignAll slots, assignAll_entails first slots⟩

end Grows

end Reached

/-- Whether a block leads from what is known in front of it to what is known behind it, in every
loop. -/
def Flow.Runs (slots : List Slot) (before : Reached) (block : Block) (after : FlowPoint) : Prop :=
  ∀ done round : FlowPoint, (Analysis.flow slots).Derives done round (.plain before) block after

namespace Flow.Runs

variable {slots : List Slot} {before middle other last : Reached} {after : FlowPoint}
  {block first second : Block}

theorem append {constant : Option Bool} (head : Runs slots before first ⟨middle, constant⟩)
    (tail : Runs slots middle second after) : Runs slots before (first ++ second) after :=
  fun done round => .append (head done round)
    (.weaken (.plain (.refl middle) constant) (tail done round) (.refl after))

/-- Less may be known behind a block. -/
theorem weaken {constant : Option Bool} (runs : Runs slots before block ⟨middle, constant⟩)
    (weaker : middle.Entails last) : Runs slots before block (.plain last) :=
  fun done round => .weaken (.refl _) (runs done round) (.plain weaker constant)

theorem forget {constant : Option Bool} (runs : Runs slots before block ⟨middle, constant⟩) :
    Runs slots before block (.plain middle) := runs.weaken (.refl middle)

theorem scope (extent : Extent) (runs : Runs slots before block after) :
    Runs slots before (.scope extent block) after :=
  fun done round => .scope trivial (runs done round)

theorem empty (slots : List Slot) (before : Reached) : Runs slots before .empty (.plain before) :=
  fun _ _ => .empty

theorem command {single : Command} (changes : (FlowPoint.plain before).After slots single after) :
    Runs slots before (.command single) after := fun _ _ => .command changes

/-- Commands behind which as much is known as in front of them. -/
theorem ofList {commands : List Command}
    (keep : ∀ single ∈ commands, FlowPoint.Keeps slots before single) :
    Runs slots before (.ofList commands) (.plain before) := by
  induction commands with
  | nil => exact .empty slots before
  | cons first rest ih =>
      obtain ⟨after, changes, entails⟩ := keep first (List.mem_cons_self ..)
      have tail := ih fun single member => keep single (List.mem_cons_of_mem first member)
      exact fun done round => .append (.command changes) (.weaken entails (tail done round) (.refl _))

/-- Stores assign their slots. -/
theorem stores (indices : List Nat) :
    Runs slots before (.ofList (indices.map .store)) (.plain (before.assignAll indices)) := by
  induction indices generalizing before with
  | nil => exact .empty slots before
  | cons first rest ih => exact append (.command rfl) ih

/-- Behind a guard is known what is known on both ways. -/
theorem guard {count : Nat} {truth : Bool} {tested : FlowPoint} {inside skipped : Reached}
    (passes : tested.Test truth (.plain inside)) (skips : tested.Test (!truth) (.plain skipped))
    (sized : skipped.Sized count) (sized' : last.Sized count)
    (inner : Runs slots inside block (.plain last)) (done round : FlowPoint) :
    (Analysis.flow slots).Derives done round tested (.guard truth block) (.plain (skipped.join last)) := by
  refine .guard passes (fun possible => (skips possible).trans ?_) (.weaken (.refl _) (inner done round) ?_)
  · exact .plain (Reached.entails_join_left sized sized') none
  · exact .plain (Reached.entails_join_right sized sized') none

end Flow.Runs

/-! ### Expressions -/

theorem TypedExpr.constantBool?_mk_const (value : Constant) (type : Ty) (span : Span) :
    (TypedExpr.mk (.const value) type span).constantBool? = value.truth? := by
  cases value <;> rfl

/-- What is passed as `out` is written back. -/
theorem Flow.outSlots_subset (passed : List TypedArgument) : outSlots passed ⊆ Emit.writtenSlots passed := by
  intro index member
  obtain ⟨argument, inPassed, isOut⟩ := List.mem_filterMap.1 member
  refine List.mem_filterMap.2 ⟨argument, inPassed, ?_⟩
  split at isOut
  · exact isOut
  · cases isOut

namespace Flow

variable {slots : List Slot} {reached : Reached}

theorem keeps_load {index : Nat} (assigned : reached.lacks index = false) :
    FlowPoint.Keeps slots reached (.load index) := ⟨_, ⟨assigned, rfl⟩, .refl _⟩

theorem keeps_store (index : Nat) : FlowPoint.Keeps slots reached (.store index) :=
  ⟨_, rfl, .plain (Reached.assign_entails reached index) none⟩

theorem keeps_one (type : Ty) : FlowPoint.Keeps slots reached (.const type.one) :=
  ⟨_, rfl, fun _ => ⟨.refl _, .inl rfl⟩⟩

/-- Where the variable is assigned, a step of it is derived. -/
theorem runs_stepSlot {index : Nat} (assigned : reached.lacks index = false) (type : Ty)
    (isIncrement isFront : Bool) :
    Runs slots reached (.stepSlot type index isIncrement isFront) (.plain reached) := by
  refine .ofList ?_
  have load : FlowPoint.Keeps slots reached (.load index) := keeps_load assigned
  have store : FlowPoint.Keeps slots reached (.store index) := keeps_store index
  have one : FlowPoint.Keeps slots reached (.const type.one) := keeps_one type
  have operate : FlowPoint.Keeps slots reached (.operate (stepOperation isIncrement)) := ⟨_, rfl, .refl _⟩
  have duplicate : FlowPoint.Keeps slots reached .duplicate := ⟨_, rfl, .refl _⟩
  cases isFront <;> simp [Block.change, load, store, one, operate, duplicate]

/-- Behind its object a step of a field is derived. -/
theorem runs_stepField (sized : reached.Sized slots.length) (type : Ty) (name : String)
    (isIncrement isFront : Bool) {temporary : Nat} (known : slots.length ≤ temporary) :
    Runs slots reached (.stepField type name isIncrement isFront temporary) (.plain reached) := by
  have load : FlowPoint.Keeps slots reached (.load temporary) := keeps_load (sized.lacks_eq_false known)
  have store : FlowPoint.Keeps slots reached (.store temporary) := keeps_store temporary
  have one : FlowPoint.Keeps slots reached (.const type.one) := keeps_one type
  have operate : FlowPoint.Keeps slots reached (.operate (stepOperation isIncrement)) := ⟨_, rfl, .refl _⟩
  have duplicate : FlowPoint.Keeps slots reached .duplicate := ⟨_, rfl, .refl _⟩
  have drop : FlowPoint.Keeps slots reached .drop := ⟨_, rfl, .refl _⟩
  have loadField : FlowPoint.Keeps slots reached (.loadField name) := ⟨_, rfl, .refl _⟩
  have storeField : FlowPoint.Keeps slots reached (.storeField name) := ⟨_, rfl, .refl _⟩
  cases isFront with
  | true => exact .ofList (by simp [Block.change, one, operate, duplicate, loadField, storeField])
  | false =>
    refine .ofList ?_
    simp [Block.change, load, store, one, operate, duplicate, drop, loadField, storeField]

/-- What a step of the analysis promises for the block of the expressions that it visits. -/
abbrev Derived (slots : List Slot) (reached : Reached) (block : Block) (constant : Option Bool)
    (step : Flow Reached) : Prop :=
  Yields slots step (reached.Grows slots.length) fun after => Runs slots reached block ⟨after, constant⟩

namespace Derived

variable {first second block : Block} {constant constant' : Option Bool} {step : Flow Reached}

/-- Steps follow each other like their blocks. -/
theorem append {next : Reached → Flow Reached} (head : Derived slots reached first constant step)
    (tail : ∀ middle : Reached, reached.Grows slots.length middle →
      Derived slots middle second constant' (next middle)) :
    Derived slots reached (first ++ second) constant' (step >>= next) :=
  head.bind fun middle grows =>
    (tail middle grows).weaken (fun _ => grows.trans) fun _ _ runs head => head.append runs

/-- A command that keeps what is known may follow. -/
theorem followed {single : Command} (head : Derived slots reached block constant step)
    (keeps : ∀ middle : Reached, (FlowPoint.plain middle).After slots single (.plain middle)) :
    Derived slots reached (block ++ .command single) none step :=
  head.weaken (fun _ => id) fun middle _ runs => runs.append (.command (keeps middle))

theorem scope (extent : Extent) (head : Derived slots reached block constant step) :
    Derived slots reached (.scope extent block) constant step :=
  head.weaken (fun _ => id) fun _ _ runs => runs.scope extent

/-- An expression without parts whose commands keep what is known. -/
theorem leaf (sized : reached.Sized slots.length) {single : Command}
    (keeps : (FlowPoint.plain reached).After slots single ⟨reached, constant⟩) :
    Derived slots reached (.command single) constant (pure reached) :=
  Yields.pure (.refl sized) (.command keeps)

end Derived

end Flow

mutual

/-- What the analysis finds behind an expression is derived for its block. -/
theorem TypedExpr.flow_derived {slots : List Slot} {reached : Reached} (value : TypedExpr) (free : Nat)
    (sized : reached.Sized slots.length) (known : slots.length ≤ free) :
    Flow.Derived slots reached (value.block free) value.constantBool? (Flow.expression reached value) := by
  match value with
  | .mk node type span => exact (node.flow_derived type span free sized known).scope (.value type)

/-- What the analysis finds behind a node is derived for its block. -/
theorem TypedNode.flow_derived {slots : List Slot} {reached : Reached} (node : TypedNode)
    (type : Ty) (span : Span) (free : Nat) (sized : reached.Sized slots.length)
    (known : slots.length ≤ free) :
    Flow.Derived slots reached (node.block free type) (TypedExpr.mk node type span).constantBool?
      (Flow.node reached span node) := by
  match node with
  | .const value =>
    rw [TypedExpr.constantBool?_mk_const]
    exact .leaf sized rfl
  | .newList name | .newObject name => exact .leaf sized rfl
  | .slot index =>
    refine (Flow.yields_readSlot sized index span).bind fun _ _ => .pure (.refl sized) fun assigned => ?_
    exact .command ⟨assigned, rfl⟩
  | .field object name => exact (object.flow_derived free sized known).followed fun _ => rfl
  | .assign (.slot index) value =>
    refine (value.flow_derived free sized known).bind fun after grows => ?_
    refine .pure (grows.trans (.assign grows.sized index)) fun runs => ?_
    exact .append runs (fun done round => .append (.command rfl) (.append (.command rfl) .empty))
  | .assign (.field object name) value =>
    exact ((object.flow_derived free sized known).append fun middle grows =>
      value.flow_derived (free + object.temporaries) grows.sized (by omega)).followed fun _ => rfl
  | .update (.slot index) operation value =>
    refine (Flow.yields_readSlot sized index span).bind fun _ _ => ?_
    refine (value.flow_derived free sized known).weaken (fun _ => id) fun after _ runs assigned => ?_
    have load : Flow.Runs slots reached (.command (.load index)) (.plain reached) :=
      .command ⟨assigned, rfl⟩
    refine (load.append runs).append (.ofList ?_)
    have operate : FlowPoint.Keeps slots after (.operate operation) := ⟨_, rfl, .refl _⟩
    have duplicate : FlowPoint.Keeps slots after .duplicate := ⟨_, rfl, .refl _⟩
    simp [operate, duplicate, Flow.keeps_store]
  | .update (.field object name) operation value =>
    have opened : Flow.Derived slots reached
        (object.block free ++ .ofList [.duplicate, .loadField name]) none (Flow.expression reached object) :=
      (object.flow_derived free sized known).weaken (fun _ => id) fun middle _ runs => by
        have duplicate : FlowPoint.Keeps slots middle .duplicate := ⟨_, rfl, .refl _⟩
        have loadField : FlowPoint.Keeps slots middle (.loadField name) := ⟨_, rfl, .refl _⟩
        exact runs.append (.ofList (by simp [duplicate, loadField]))
    refine (opened.append fun middle grows =>
      value.flow_derived (free + object.temporaries) grows.sized (by omega)).weaken (fun _ => id)
        fun after _ runs => runs.append (.ofList ?_)
    have operate : FlowPoint.Keeps slots after (.operate operation) := ⟨_, rfl, .refl _⟩
    have storeField : FlowPoint.Keeps slots after (.storeField name) := ⟨_, rfl, .refl _⟩
    simp [operate, storeField]
  | .step (.slot index) isIncrement isFront =>
    refine (Flow.yields_readSlot sized index span).bind fun _ _ => .pure (.refl sized) fun assigned => ?_
    exact Flow.runs_stepSlot assigned type isIncrement isFront
  | .step (.field object name) isIncrement isFront =>
    refine (object.flow_derived free sized known).weaken (fun _ => id) fun after grows runs => ?_
    exact runs.append (Flow.runs_stepField grows.sized type name isIncrement isFront (by omega))
  | .binary operation left right =>
    exact ((left.flow_derived free sized known).append fun middle grows =>
      right.flow_derived (free + left.temporaries) grows.sized (by omega)).followed fun _ => rfl
  | .logical isAnd left right =>
    refine (left.flow_derived free sized known).bind fun middle grows => ?_
    refine (right.flow_derived (free + left.temporaries) grows.sized (by omega)).bind fun after grows' => ?_
    refine .pure (grows.trans (.join (.refl grows.sized) grows')) fun rightRuns leftRuns => ?_
    have duplicate : Flow.Runs slots middle (.command .duplicate) (.plain middle) := .command rfl
    have drop : Flow.Runs slots middle (.command .drop) (.plain middle) := .command rfl
    refine (leftRuns.append duplicate).append fun done round => ?_
    exact Flow.Runs.guard (fun _ => .refl _) (fun _ => .refl _) grows.sized grows'.sized
      (drop.append rightRuns).forget done round
  | .not operand | .negate operand | .convert (.numeric _) operand | .convert (.cast _) operand =>
    exact (operand.flow_derived free sized known).followed fun _ => rfl
  | .conditional condition thenValue elseValue =>
    refine (condition.flow_derived free sized known).bind fun decided grows => ?_
    refine (thenValue.flow_derived (free + condition.temporaries) grows.sized (by omega)).bind
      fun afterThen growsThen => ?_
    refine (elseValue.flow_derived (free + condition.temporaries + thenValue.temporaries) grows.sized
      (by omega)).bind fun afterElse growsElse => ?_
    refine .pure (grows.trans (growsThen.join growsElse)) fun elseRuns thenRuns testRuns => ?_
    refine testRuns.forget.append fun done round => ?_
    refine .choose (fun _ => .refl _) (fun _ => .refl _) ?_ ?_
    · exact thenRuns.weaken (Reached.entails_join_left growsThen.sized growsElse.sized) done round
    · exact elseRuns.weaken (Reached.entails_join_right growsThen.sized growsElse.sized) done round
  | .call method passed =>
    refine (TypedArgument.flow_derived passed free sized known).bind fun after grows => ?_
    refine .pure (grows.trans (.assignAll grows.sized _)) fun runs => ?_
    have called : Flow.Runs slots after (.command (.call method)) (.plain after) := .command rfl
    refine (runs.append called).append ((Flow.Runs.stores _).weaken ?_)
    refine Reached.assignAll_entails_of_subset after fun index member => ?_
    exact List.mem_reverse.2 (Flow.outSlots_subset passed member)
  | .hostCall function passed =>
    exact (TypedExpr.flow_derived_all passed free sized known).followed fun _ => rfl
  | .builtin member receiver passed =>
    exact ((receiver.flow_derived free sized known).append fun middle grows =>
      TypedExpr.flow_derived_all passed (free + receiver.temporaries) grows.sized (by omega)).followed
        fun _ => rfl

/-- What the analysis finds behind expressions is derived for their block. -/
theorem TypedExpr.flow_derived_all {slots : List Slot} {reached : Reached} (values : List TypedExpr)
    (free : Nat) (sized : reached.Sized slots.length) (known : slots.length ≤ free) :
    Flow.Derived slots reached (TypedExpr.blockOfAll free values) none (Flow.expressions reached values) := by
  match values with
  | [] => exact Flow.Yields.pure (.refl sized) (.empty slots reached)
  | first :: rest =>
    exact (first.flow_derived free sized known).append fun middle grows =>
      TypedExpr.flow_derived_all rest (free + first.temporaries) grows.sized (by omega)

/-- What the analysis finds behind the arguments of a call is derived for their block. -/
theorem TypedArgument.flow_derived {slots : List Slot} {reached : Reached} (passed : List TypedArgument)
    (free : Nat) (sized : reached.Sized slots.length) (known : slots.length ≤ free) :
    Flow.Derived slots reached (TypedArgument.blockOfAll free passed) none (Flow.arguments reached passed) := by
  match passed with
  | [] => exact Flow.Yields.pure (.refl sized) (.empty slots reached)
  | .mk mode value :: rest =>
    unfold TypedArgument.blockOfAll
    split
    · next isEmpty => cases isEmpty
    · next type span rest isArgument =>
      cases isArgument
      refine (TypedArgument.flow_derived rest free sized known).weaken (fun _ => id) fun after _ runs => ?_
      have unassigned : Flow.Runs slots reached (.command (.const type.defaultConstant))
          ⟨reached, type.defaultConstant.truth?⟩ := .command rfl
      exact unassigned.append runs
    · next rest' noOut isArgument =>
      cases isArgument
      have step : Flow.arguments reached (.mk mode value :: rest) =
          (do Flow.arguments (← Flow.expression reached value) rest) := by
        rw [Flow.arguments]
        exact noOut
      rw [step]
      exact (value.flow_derived free sized known).append fun middle grows =>
        TypedArgument.flow_derived rest (free + value.temporaries) grows.sized (by omega)

end

end Snippet
