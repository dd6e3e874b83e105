import Snippet.Emit.Basic
import Snippet.Machine.Step
import Snippet.Proofs.Emit.Characters
import Snippet.Proofs.Typing.Conversion
import Snippet.Proofs.Typing.Outcome

/-!
What can be assigned to. Main statement: a place is a variable that can be written to, or the field that is named by
the target below its parentheses, casts and operators in front.
-/

namespace Snippet

/-- The expression below all parentheses, casts and operators in front. -/
def Expr.bared : Expr → Expr
  | .paren _ inner | .cast _ _ inner | .unary _ _ inner => inner.bared
  | other => other

/-- How an expression can come to be a use of a field as one of a type: parentheses change nothing, and an operator or
a cast may leave the use of the field as it is and at most relabel it. -/
inductive Expr.UsesField (name : String) (declared : Ty) : Expr → Ty → Prop where
  | named (span : Span) (base : Expr) : UsesField name declared (.member span base name) declared
  | paren {inner : Expr} {type : Ty} (span : Span) (uses : UsesField name declared inner type) :
    UsesField name declared (.paren span inner) type
  | signed {operand : Expr} {type : Ty} (span : Span) (operator : UnaryOperator)
      (uses : UsesField name declared operand type) : UsesField name declared (.unary span operator operand) type
  | cast {operand : Expr} {type target : Ty} (span : Span) (written : TypeName)
      (uses : UsesField name declared operand type) (widens : type.Widens target ∨ type = .error) :
    UsesField name declared (.cast span written operand) target

namespace Expr.UsesField

variable {name : String} {declared type : Ty} {source : Expr}

theorem bared (uses : source.UsesField name declared type) : ∃ span base, source.bared = .member span base name := by
  induction uses with
  | named span base => exact ⟨span, base, by rw [Expr.bared]; all_goals nofun⟩
  | paren span uses ih | signed span operator uses ih | cast span written uses widens ih =>
    rw [Expr.bared]
    exact ih

/-- An open type of a field fits everywhere. -/
theorem widens (uses : source.UsesField name declared type) : declared.Widens type ∨ declared = .error := by
  induction uses with
  | named span base => exact .inl (.refl _)
  | paren span uses ih | signed span operator uses ih => exact ih
  | cast span written uses widens ih =>
    rcases ih with before | isError
    · rcases widens with behind | rfl
      · exact .inl (before.trans behind)
      · rcases before with same | ⟨-, isReference⟩ | ⟨isObject, -⟩
        · exact .inr same
        · cases isReference
        · cases isObject
    · exact .inr isError

/-- Without casts and operators a field is used as one of its own type. -/
theorem type_eq (uses : source.UsesField name declared type) (plain : source.core = source.bared) :
    type = declared := by
  induction uses with
  | named span base => rfl
  | paren span uses ih =>
    rw [Expr.core, Expr.bared] at plain
    exact ih plain
  | signed span operator uses ih | cast span written uses widens ih =>
    obtain ⟨place, base, isMember⟩ := uses.bared
    rw [Expr.core, Expr.bared, isMember] at plain
    · cases plain
    all_goals nofun

end Expr.UsesField

/-- Whether a value, if it is a field of an object, is used as the expression that it comes from allows. -/
def TypedExpr.Uses (environment : Environment) (source : Expr) (value : TypedExpr) : Prop :=
  ∀ object name, value.node = .field object name →
    ∃ field, Check.fieldOf? environment object.type name = some field ∧
      source.UsesField name (Ty.ofDesc field.type) value.type

/-- Whether what is meant, if it is a field of an object, is used as the expression that means it allows. -/
def Referent.Uses (environment : Environment) (source : Expr) : Referent → Prop
  | .value denoted => denoted.Uses environment source
  | _ => True

variable {environment : Environment} {source : Expr}

/-- Whether an expression is no field of an object. -/
def TypedExpr.NoField (value : TypedExpr) : Prop := ∀ object name, value.node ≠ .field object name

theorem TypedExpr.NoField.uses {value : TypedExpr} (noField : value.NoField) : value.Uses environment source :=
  fun object name isField => absurd isField (noField object name)

theorem TypedExpr.noField_constant (value : Constant) (span : Span) : (constant value span).NoField := nofun

theorem TypedExpr.noField_step (place : Place) (isIncrement isFront : Bool) (type : Ty) (span : Span) :
    (mk (.step place isIncrement isFront) type span).NoField := nofun

theorem TypedExpr.noField_convert (value : TypedExpr) (conversion : Conversion) (target : Ty) :
    (value.coerced (.convert conversion) target).NoField := by
  unfold coerced
  dsimp only
  split
  · split <;> nofun
  · nofun

/-- A cast to a type that can be written down relabels a field or converts it. -/
theorem TypedExpr.Uses.cast {value : TypedExpr} (uses : value.Uses environment source) {target : Ty}
    (written : target ≠ .error) {coercion : Coercion}
    (explicit : Coercion.explicit? value.type target = some coercion) (span : Span) (name : TypeName) :
    (mk (value.coerced coercion target).node target span).Uses environment (.cast span name source) := by
  have relabels (widens : value.type.Widens target ∨ value.type = .error) :
      (mk value.node target span).Uses environment (.cast span name source) := by
    intro object field isField
    obtain ⟨found, isFound, inner⟩ := uses object field isField
    exact ⟨found, isFound, .cast span name inner widens⟩
  have converts (conversion : Conversion) :
      (mk (value.coerced (.convert conversion) target).node target span).Uses environment (.cast span name source) :=
    NoField.uses (noField_convert value conversion target)
  rcases Coercion.explicit?_cases explicit with implicit | ⟨conversion, rfl, -⟩ | ⟨rfl, -⟩
  · rcases Coercion.implicit?_cases implicit with ⟨rfl, same⟩ | ⟨conversion, rfl, -⟩ | ⟨rfl, -, widens⟩
    · rcases same with same | isError | isError
      · exact relabels (.inl (.inl same))
      · exact relabels (.inr isError)
      · exact absurd isError written
    · exact converts _
    · exact relabels (.inl widens)
  · exact converts _
  · exact converts _

/-- The slot of the innermost variable that an expression names. -/
def BodyState.slotOf? (state : BodyState) : Expr → Option Nat
  | .name _ name => state.scopes.findSome? fun scope => scope.lookup name
  | _ => none

theorem BodyState.Scoped.slotOf?_lt {state : BodyState} (named : state.Scoped) {target : Expr} {index : Nat}
    (found : state.slotOf? target = some index) : index < state.slots.size := by
  cases target with
  | name span name => exact named.inside found
  | _ => cases found

namespace Check

variable {context : BodyContext}

/-! ### What is no field -/

theorem ofMeaning_uses (meaning : Meaning) : (ofMeaning context.environment meaning).Uses environment source := by
  cases meaning <;> trivial

theorem denoteName_uses (name : String) (span : Span) :
    Gives context (denoteName name span) (Referent.Uses environment source) := by
  unfold denoteName
  refine .read_bind (.bind_any fun slot? => ?_)
  split
  · exact .bind_any fun _ => .bind_any fun slot => .pure (TypedExpr.NoField.uses nofun)
  · split
    · exact .pure trivial
    · split
      · exact .pure (ofMeaning_uses _)
      · exact .fail
      · exact .fail

theorem denoteStatic_uses (symbol : TypeSymbol) (shown name : String) (span : Span) :
    Gives context (denoteStatic symbol shown name span) (Referent.Uses environment source) := by
  unfold denoteStatic
  refine .read_bind ?_
  cases symbol with
  | compiled owner =>
    dsimp only
    split
    · exact .pure trivial
    · split
      · exact .fail
      · exact .pure trivial
  | host definition arguments =>
    dsimp only
    split
    · split
      · exact .pure (TypedExpr.NoField.uses nofun)
      · exact .fail
    · split
      · exact .pure trivial
      · split
        · exact .fail
        · split
          · exact .pure trivial
          · exact .fail

theorem resolveCall_noField (callee : Callee) (arguments : List CheckedArgument) (span : Span) :
    Gives context (resolveCall callee arguments span) TypedExpr.NoField := by
  unfold resolveCall
  dsimp only
  split
  · exact .throw
  · exact .fail
  · refine .read_bind ?_
    split
    · exact .refuse fun _ => .bind_any fun converted => .pure nofun
    · exact .bind_any fun converted => .pure nofun
    · exact .bind_any fun converted => .pure nofun

theorem created_noField (target : Ty) (count : Nat) (span : Span) :
    Gives context (created target count span) TypedExpr.NoField := by
  unfold created
  refine .refuse fun _ => ?_
  split
  all_goals first | exact .pure nofun | exact .fail

theorem create_noField (type : TypeName) (count : Nat) (span : Span) :
    Gives context (create type count span) TypedExpr.NoField := by
  unfold create
  refine .read_bind (.bind_any fun symbol => ?_)
  cases symbol with
  | host definition arguments => exact .refuse fun _ => .bind_any fun target => created_noField target count span
  | compiled index => exact .refuse fun _ => .bind_any fun target => created_noField target count span

theorem assignPlain_noField (place : Place) (type : Ty) (value : TypedExpr) (span : Span) :
    Gives context (assignPlain place type value span) TypedExpr.NoField := by
  unfold assignPlain
  refine .bind_any fun converted => ?_
  cases place with
  | slot index => exact .bind_any fun _ => .pure nofun
  | field object name => exact .pure nofun

theorem assignUpdate_noField (operator : BinaryOperator) (place : Place) (type : Ty) (value : TypedExpr)
    (span : Span) : Gives context (assignUpdate operator place type value span) TypedExpr.NoField := by
  unfold assignUpdate
  split
  · exact .pure nofun
  · split
    · exact .fail
    · split
      · exact .bind_any fun converted => .pure nofun
      · exact .bind_any fun converted => .pure nofun
      · exact .fail

theorem binary_noField (operator : BinaryOperator) (left right : TypedExpr) (span : Span) :
    Gives context (binary operator left right span) TypedExpr.NoField := by
  unfold binary
  split
  · exact .pure nofun
  · dsimp only
    split
    · refine .refuse fun _ => .pure ?_
      unfold logical
      split <;> nofun
    · split
      · exact .fail
      · refine .bind_any fun left => .bind_any fun right => ?_
        unfold folded
        dsimp only
        split
        · split
          · exact .pure nofun
          · exact .pure nofun
          · exact .fail
        · exact .pure nofun

theorem negate_noField (value : TypedExpr) (span : Span) : Gives context (negate value span) TypedExpr.NoField := by
  unfold negate
  dsimp only
  split
  · exact .pure nofun
  · split
    · exact .pure nofun
    · exact .pure nofun
    · exact .fail

theorem conditional_noField (condition left right : TypedExpr) (span : Span) :
    Gives context (conditional condition left right span) TypedExpr.NoField := by
  unfold conditional
  dsimp only
  split
  · exact .pure nofun
  · split
    · exact .fail
    · exact .bind_any fun first => .bind_any fun second => .pure nofun

/-! ### What may be a field -/

theorem denoteInstance_uses (object : TypedExpr) (name : String) (span : Span) (base : Expr) :
    Gives context (denoteInstance object name span) (Referent.Uses context.environment (.member span base name)) := by
  unfold denoteInstance
  dsimp only
  split
  · exact .fail
  · exact .fail
  · exact .pure (TypedExpr.NoField.uses nofun)
  · refine .environment_bind ?_
    split
    · next field found =>
      refine .pure ?_
      rintro owner other ⟨⟩
      exact ⟨field, found, .named span base⟩
    · split
      · exact .pure (TypedExpr.NoField.uses nofun)
      · split
        · exact .fail
        · exact .pure trivial

theorem denoteMember_uses (referent : Referent) (name : String) (span : Span) (base : Expr) :
    Gives context (denoteMember referent name span)
      (Referent.Uses context.environment (.member span base name)) := by
  unfold denoteMember
  cases referent with
  | space space =>
    refine .environment_bind ?_
    split
    · exact .pure (ofMeaning_uses _)
    · exact .fail
  | methods label => exact .fail
  | type symbol shown => exact denoteStatic_uses symbol shown name span
  | value object => exact denoteInstance_uses object name span base

/-- An operator in front leaves what is already reported as wrong, and the sign plus leaves every number. -/
theorem unary_uses (span : Span) (operator : UnaryOperator) {value : TypedExpr}
    (uses : value.Uses environment source) :
    Gives context (unary operator value span) (TypedExpr.Uses environment (.unary span operator source)) := by
  have leaves : value.Uses environment (.unary span operator source) := by
    intro object name isField
    obtain ⟨field, found, inner⟩ := uses object name isField
    exact ⟨field, found, .signed span operator inner⟩
  unfold unary
  split
  · exact .pure leaves
  · cases operator with
    | not =>
      refine .refuse fun _ => ?_
      split
      · exact .pure (TypedExpr.NoField.uses nofun)
      · exact .pure (TypedExpr.NoField.uses nofun)
    | plus =>
      dsimp only
      split
      · exact .pure leaves
      · exact .fail
    | negate =>
      dsimp only
      split
      · exact (negate_noField value span).mono fun _ noField => noField.uses
      · exact .fail

theorem cast_uses {value : TypedExpr} (uses : value.Uses environment source) {target : Ty} (written : target ≠ .error)
    (span : Span) (name : TypeName) :
    Gives context (cast target value span) (TypedExpr.Uses environment (.cast span name source)) := by
  unfold cast
  split
  · next coercion explicit => exact .pure (uses.cast written explicit span name)
  · exact .fail

/-- What is denoted is used as a value. -/
theorem asValue_uses {referent : Referent} (uses : referent.Uses environment source) (span : Span) :
    Gives context (asValue referent span) (TypedExpr.Uses environment source) := by
  cases referent with
  | value value => exact .pure uses
  | _ => exact .fail

/-- What is no field is given back. -/
theorem return_uses {step : Check TypedExpr} (noField : Gives context step TypedExpr.NoField) :
    Gives context (step >>= fun value => pure (.value value)) (Referent.Uses environment source) :=
  noField.bind fun _ holds => .pure holds.uses

/-- What an expression means, if it is a field of an object, is used as the expression allows. -/
theorem denote_uses (source : Expr) : Gives context (denote source) (Referent.Uses context.environment source) := by
  cases source with
  | int | long | double | text | bool | null =>
    rw [denote]
    exact .pure (TypedExpr.noField_constant _ _).uses
  | name span name =>
    rw [denote]
    exact denoteName_uses name span
  | basicType span type =>
    rw [denote]
    exact .pure trivial
  | member span object name =>
    rw [denote]
    exact .bind_any fun base => denoteMember_uses base name span object
  | paren span inner =>
    rw [denote]
    refine (denote_uses inner).bind fun _ uses => (asValue_uses uses inner.span).bind fun value uses => .pure ?_
    intro object name isField
    obtain ⟨field, found, inside⟩ := uses object name isField
    exact ⟨field, found, .paren span inside⟩
  | call span callee arguments =>
    rw [denote]
    exact .bind_any fun callee => .bind_any fun arguments => return_uses (resolveCall_noField callee arguments span)
  | create span type arguments =>
    rw [denote]
    exact return_uses (create_noField type arguments.length span)
  | assign span operator target value =>
    rw [denote]
    refine .bind_any fun found => .bind_any fun _ => .bind_any fun value => ?_
    cases operator with
    | none => exact return_uses (assignPlain_noField found.1 found.2 value span)
    | some operator => exact return_uses (assignUpdate_noField operator found.1 found.2 value span)
  | binary span operator left right =>
    rw [denote]
    exact .bind_any fun _ => .bind_any fun left => .bind_any fun _ => .bind_any fun right =>
      return_uses (binary_noField operator left right span)
  | unary span operator operand =>
    rw [denote]
    split
    · exact .pure (TypedExpr.noField_constant _ _).uses
    · refine (denote_uses operand).bind fun _ uses => (asValue_uses uses operand.span).bind fun value uses => ?_
      exact (unary_uses span operator uses).bind fun _ uses => .pure uses
  | step span isIncrement isFront target =>
    rw [denote]
    refine .bind_any fun found => .refuse fun _ => .pure ?_
    exact (TypedExpr.noField_step found.1 isIncrement isFront found.2 span).uses
  | conditional span condition thenValue elseValue =>
    rw [denote]
    exact .bind_any fun _ => .bind_any fun _ => .bind_any fun condition => .bind_any fun _ => .bind_any fun first =>
      .bind_any fun _ => .bind_any fun second => return_uses (conditional_noField condition first second span)
  | cast span type operand =>
    rw [denote]
    refine .read_bind ?_
    let typing : Typing := ⟨context.environment.libraries, [], [], .void⟩
    have named : Resolves (Ty.Named typing) (context.environment.resolveType context.owner .cast type) :=
      Environment.resolveType_named rfl context.owner .cast type
    refine .bind (.ofResolves named) fun target named => ?_
    refine (denote_uses operand).bind fun _ uses => (asValue_uses uses operand.span).bind fun value uses => ?_
    exact (cast_uses uses named.written span type).bind fun _ uses => .pure uses

theorem expression_uses (source : Expr) :
    Gives context (expression source) (TypedExpr.Uses context.environment source) :=
  (denote_uses source).bind fun _ uses => asValue_uses uses source.span

/-- The place that a value denotes. -/
def placeOfValue (isStep : Bool) (span : Span) (value : TypedExpr) : Check (Place × Ty) :=
  match value.node with
  | .field object name => return (.field object name, value.type)
  | .builtin member receiver _ => fail (.readonlyProperty receiver.type.shown member.name) span
  | _ => fail (if isStep then .badIncrementTarget else .badAssignmentTarget) span

/-- The place that a value denotes is a field, used as the expression that the value comes from allows. -/
theorem placeOfValue_uses {value : TypedExpr} (uses : value.Uses environment source) (isStep : Bool) (span : Span) :
    Gives context (placeOfValue isStep span value) fun found => ∃ object name field, found.1 = .field object name ∧
      fieldOf? environment object.type name = some field ∧ source.UsesField name (Ty.ofDesc field.type) found.2 := by
  unfold placeOfValue
  split
  · next object name isField =>
    obtain ⟨field, found, uses⟩ := uses object name isField
    exact .pure ⟨object, name, field, rfl, found, uses⟩
  · exact .fail
  · exact .fail

/-- A target that names no variable is checked. -/
theorem run_placeOf_none {before : BodyState} {target : Expr} (missing : before.slotOf? target = none)
    (check : Check TypedExpr) (reads isStep : Bool) :
    (((placeOf target check reads isStep).run context).run.run before) =
      (((check >>= placeOfValue isStep target.span).run context).run.run before) := by
  cases target with
  | name span name =>
    have looked : (((lookup? name).run context).run.run before) = (.ok none, before) := by
      rw [← missing]
      rfl
    unfold placeOf
    rw [Yields.run_bind, looked]
    rfl
  | _ => rfl

/-- A target that names a variable is the variable, if it can be written to. -/
theorem run_placeOf_some {before : BodyState} {target : Expr} {index : Nat}
    (found : before.slotOf? target = some index) {slot : Slot} (isSlot : before.slots[index]? = some slot)
    (check : Check TypedExpr) (reads isStep : Bool) {place : Place} {type : Ty} {after : BodyState}
    (ran : ((placeOf target check reads isStep).run context).run.run before = (.ok (place, type), after)) :
    slot.mode ≠ some .input ∧ place = .slot index ∧ type = slot.type := by
  cases target with
  | name span name =>
    have looked : (((lookup? name).run context).run.run before) = (.ok (some index), before) := by
      rw [← found]
      rfl
    have read : (((Check.slot index).run context).run.run before) = (.ok slot, before) := by
      have isDefault : before.slots.getD index ⟨"", .error, ⟨0, 0⟩, none⟩ = slot := by
        rw [Array.getD_eq_getD_getElem?, isSlot]
        rfl
      rw [← isDefault]
      rfl
    unfold placeOf at ran
    rw [Yields.run_bind, looked] at ran
    dsimp only at ran
    rw [Yields.run_bind, read] at ran
    dsimp only at ran
    by_cases isInput : (slot.mode == some .input) = true
    · rw [if_pos isInput] at ran
      cases ran
    · rw [if_neg isInput] at ran
      cases reads <;>
      · cases ran
        exact ⟨by simpa using isInput, rfl, rfl⟩
  | _ => cases found

/-- What can be assigned to is a variable that can be written to, as one of its own type, or a field of an object. The
field is named by the target below its parentheses, casts and operators in front; without casts and operators it is
used as one of its own type, and else as one of a wider type, unless its own type is open. -/
theorem placeOf_denotes {before after : BodyState} (named : before.Scoped) {target : Expr} {reads isStep : Bool}
    {place : Place} {type : Ty}
    (ran : ((placeOf target.core (expression target) reads isStep).run context).run.run before =
      (.ok (place, type), after)) :
    (∃ index slot, before.slotOf? target.core = some index ∧ before.slots[index]? = some slot ∧
      slot.mode ≠ some .input ∧ place = .slot index ∧ type = slot.type) ∨
    ∃ span base name object field, target.bared = .member span base name ∧ place = .field object name ∧
      fieldOf? context.environment object.type name = some field ∧
      (target.core = target.bared → type = Ty.ofDesc field.type) ∧
      ((Ty.ofDesc field.type).Widens type ∨ Ty.ofDesc field.type = .error) := by
  cases found : before.slotOf? target.core with
  | some index =>
    have inside : index < before.slots.size := named.slotOf?_lt found
    exact .inl ⟨index, before.slots[index], rfl, Array.getElem?_eq_getElem inside,
      run_placeOf_some found (Array.getElem?_eq_getElem inside) _ reads isStep ran⟩
  | none =>
    rw [run_placeOf_none found] at ran
    have gives : Gives context _ _ := (expression_uses target).bind fun value uses =>
      placeOfValue_uses uses isStep target.core.span
    obtain ⟨object, name, field, isPlace, isField, uses⟩ := gives before (place, type) (congrArg Prod.fst ran)
    obtain ⟨span, base, isMember⟩ := uses.bared
    exact .inr ⟨span, base, name, object, field, isMember, isPlace, isField, uses.type_eq, uses.widens⟩

end Check

/-- A library whose only type is one of objects with a price. -/
def LibrarySet.pricing : LibrarySet := ⟨[⟨"Shop", [⟨"Shop", [], "Item", .data, [], [], [⟨"Price", .int⟩]⟩]⟩]⟩

/-- A body over the library. -/
def BodyContext.pricing : BodyContext := ⟨⟨.pricing, #[], [], []⟩, #[], 0, "C.M()", .void⟩

/-- The state behind the declaration of an item. -/
def BodyState.pricing : BodyState :=
  ⟨#[⟨"item", .data "Shop.Item", ⟨0, 0⟩, none⟩], #[⟨true, true, true⟩], [[("item", 0)]], 0, #[]⟩

/-- The price of the item, in parentheses. -/
def Expr.price : Expr := .paren ⟨0, 0⟩ (.member ⟨0, 0⟩ (.name ⟨0, 0⟩ "item") "Price")

/-- The price of the item is assigned to as a number. -/
theorem Check.placeOf_denotes_price :
    ∃ field, Check.fieldOf? BodyContext.pricing.environment (.data "Shop.Item") "Price" = some field ∧
      Ty.int = Ty.ofDesc field.type := by
  have named : BodyState.pricing.Scoped := by
    intro scope isScope entry member
    cases List.mem_singleton.1 isScope
    cases List.mem_singleton.1 member
    exact Nat.zero_lt_one
  have ran : (((Check.placeOf Expr.price.core (Check.expression .price) false false).run .pricing).run.run .pricing) =
      (.ok (.field (.mk (.slot 0) (.data "Shop.Item") ⟨0, 0⟩) "Price", .int), .pricing) := by
    with_unfolding_all rfl
  obtain ⟨index, slot, -, -, -, isSlot, -⟩ | ⟨span, base, name, object, field, -, isPlace, isField, same, -⟩ :=
    Check.placeOf_denotes named ran
  · cases isSlot
  · cases isPlace
    exact ⟨field, isField, same rfl⟩

/-- The image of the class that assigns a text to the price of an item. -/
def Image.pricing : Image :=
  ⟨Image.currentVersion, "snippet", [.text "x"], ["Price"], [.type "Shop.Item"], [⟨"C", false, false, [0]⟩],
    [⟨"M", 0, false, true, ⟨[], none⟩, 1,
      [.newObject 0, .store 0, .load 0, .const 0, .storeField 0, .drop, .giveBackNothing]⟩]⟩

/-- A cast to the type of every value can be assigned to, and leaves a text in a field of numbers. -/
theorem not_placeOf_declared :
    (emit "class C \x7b static void M() \x7b Shop.Item item = new Shop.Item(); (object)item.Price = \"x\"; \x7d \x7d"
        .pricing .default "snippet").image = some .pricing ∧
      ∃ module world, Module.load .pricing .pricing 256 = .ok module ∧
        (module.invoke 7 0 []).run .empty = (some ⟨.ok .null, []⟩, world) ∧
        (world.store.fields 0).get? "Price" = some (.text "x") := by
  refine ⟨?_, ⟨.pricing, [.type "Shop.Item" (.ofPairs [("Price", .int 0)])], 256⟩, _, ?_, rfl, ?_⟩
  · rw [emit_ofList]
    decide +kernel
  · with_unfolding_all rfl
  · with_unfolding_all rfl

end Snippet
