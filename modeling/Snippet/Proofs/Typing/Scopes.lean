import Snippet.Proofs.Typing.Resolution

/-!
The scopes of the checker: what a step leaves of them, whether it ends with a value or stops with a finding. Every
visible name is declared once and has a slot, what is known about the slots stands beside them, and a step only adds
names to the innermost scope. Main statements: the rules of a logic of such steps (`Check.Balances`), among them those
for what opens and closes scopes and loops behind a finding too.
-/

namespace Snippet

namespace BodyState

/-! ### Visible names -/

/-- The names that are visible, with their slots: those of the innermost scope first. -/
def visible (state : BodyState) : List (String × Nat) := state.scopes.flatten

/-- Whether every visible name is declared once and has a slot, and the use of each slot is noted. -/
structure WellScoped (state : BodyState) : Prop where
  usage : state.usage.size = state.slots.size
  names : (state.visible.map (·.1)).Nodup
  slots : ∀ entry ∈ state.visible, entry.2 < state.slots.size

/-- Whether a slot of the later state has a name that is visible in the earlier one, or is declared since. -/
def Owns (before after : BodyState) (index : Nat) : Prop :=
  index < after.slots.size ∧ (index ∈ before.visible.map (·.2) ∨ before.slots.size ≤ index)

/-- Whether a name with its slot is declared since the earlier state: the slot is a new one of that name. -/
def IsNew (before after : BodyState) (entry : String × Nat) : Prop :=
  before.slots.size ≤ entry.2 ∧ ∃ slot, after.slots[entry.2]? = some slot ∧ slot.name = entry.1

/-- Whether one state comes from another one by declaring some of the offered variables in the innermost scope. -/
structure Extends (offered : List (String × Span)) (before after : BodyState) : Prop where
  slots : ∃ declared : List Slot, after.slots.toList = before.slots.toList ++ declared ∧
    (declared.map fun slot => (slot.name, slot.span)).Sublist offered
  count : after.scopes.length = before.scopes.length
  outer : after.scopes.tail = before.scopes.tail
  innermost : ∃ added : List (String × Nat), after.scopes.headD [] = added ++ before.scopes.headD [] ∧
    ∀ entry ∈ added, before.IsNew after entry
  loopDepth : after.loopDepth = before.loopDepth

theorem visible_eq (state : BodyState) : state.visible = state.scopes.headD [] ++ state.scopes.tail.flatten := by
  cases isScopes : state.scopes <;> simp [visible, isScopes]

/-- The slot that a name denotes is one of a visible name. -/
theorem mem_visible_of_findSome? {state : BodyState} {name : String} {index : Nat}
    (found : (state.scopes.findSome? fun scope => scope.lookup name) = some index) : (name, index) ∈ state.visible := by
  obtain ⟨scope, member, held⟩ := List.exists_of_findSome?_eq_some found
  obtain ⟨front, rest, isScope, -⟩ := List.lookup_eq_some_iff.1 held
  exact List.mem_flatten.2 ⟨scope, member, by simp [isScope]⟩

/-- A name that denotes no slot is not visible. -/
theorem notMem_visible_of_findSome? {state : BodyState} {name : String}
    (missing : (state.scopes.findSome? fun scope => scope.lookup name) = none) :
    name ∉ state.visible.map (·.1) := by
  rw [List.findSome?_eq_none_iff] at missing
  rw [visible, List.map_flatten, List.mem_flatten]
  rintro ⟨names, isScope, member⟩
  obtain ⟨scope, inScopes, rfl⟩ := List.mem_map.1 isScope
  obtain ⟨entry, inScope, rfl⟩ := List.mem_map.1 member
  have absent := List.lookup_eq_none_iff.1 (missing scope inScopes) entry inScope
  simp at absent

namespace Extends

variable {before middle after : BodyState} {offered offered' further : List (String × Span)}

/-- Nothing has to be declared. -/
theorem of_eq (sameSlots : after.slots = before.slots) (sameScopes : after.scopes = before.scopes)
    (sameDepth : after.loopDepth = before.loopDepth) : before.Extends offered after :=
  ⟨⟨[], by rw [sameSlots, List.append_nil], List.nil_sublist _⟩, by rw [sameScopes], by rw [sameScopes],
    ⟨[], by rw [sameScopes, List.nil_append], nofun⟩, sameDepth⟩

theorem refl (state : BodyState) : state.Extends offered state := of_eq rfl rfl rfl

theorem mono (extension : before.Extends offered after) (less : offered.Sublist offered') :
    before.Extends offered' after := by
  obtain ⟨declared, isAfter, isOffered⟩ := extension.slots
  exact { extension with slots := ⟨declared, isAfter, isOffered.trans less⟩ }

theorem getElem?_slots (extension : before.Extends offered after) {index : Nat} {slot : Slot}
    (found : before.slots[index]? = some slot) : after.slots[index]? = some slot := by
  obtain ⟨declared, isAfter, -⟩ := extension.slots
  rw [← Array.getElem?_toList] at found ⊢
  rw [isAfter, List.getElem?_append_left (List.getElem?_eq_some_iff.1 found).1, found]

theorem size_le (extension : before.Extends offered after) : before.slots.size ≤ after.slots.size := by
  obtain ⟨declared, isAfter, -⟩ := extension.slots
  rw [← Array.length_toList, ← Array.length_toList, isAfter, List.length_append]
  exact Nat.le_add_right ..

theorem trans (head : before.Extends offered middle) (tail : middle.Extends further after) :
    before.Extends (offered ++ further) after := by
  obtain ⟨declared, isMiddle, isOffered⟩ := head.slots
  obtain ⟨declared', isAfter, isFurther⟩ := tail.slots
  obtain ⟨added, isInnermost, areNew⟩ := head.innermost
  obtain ⟨added', isInnermost', areNew'⟩ := tail.innermost
  refine ⟨⟨declared ++ declared', ?_, ?_⟩, tail.count.trans head.count, tail.outer.trans head.outer,
    ⟨added' ++ added, ?_, ?_⟩, tail.loopDepth.trans head.loopDepth⟩
  · rw [isAfter, isMiddle, List.append_assoc]
  · rw [List.map_append]
    exact isOffered.append isFurther
  · rw [isInnermost', isInnermost, List.append_assoc]
  · intro entry member
    rcases List.mem_append.1 member with inTail | inHead
    · exact ⟨Nat.le_trans head.size_le (areNew' entry inTail).1, (areNew' entry inTail).2⟩
    · obtain ⟨isNew, slot, isSlot, named⟩ := areNew entry inHead
      exact ⟨isNew, slot, tail.getElem?_slots isSlot, named⟩

/-- The visible names are those from before behind new ones. -/
theorem exists_visible_eq (extension : before.Extends offered after) :
    ∃ added, after.visible = added ++ before.visible ∧ ∀ entry ∈ added, before.IsNew after entry := by
  obtain ⟨added, isInnermost, areNew⟩ := extension.innermost
  refine ⟨added, ?_, areNew⟩
  rw [visible_eq, visible_eq, isInnermost, extension.outer, List.append_assoc]

theorem owns_of_head (tail : middle.Extends further after) {index : Nat}
    (owned : before.Owns middle index) : before.Owns after index :=
  ⟨Nat.lt_of_lt_of_le owned.1 tail.size_le, owned.2⟩

theorem owns_of_tail (head : before.Extends offered middle) {index : Nat} (owned : middle.Owns after index) :
    before.Owns after index := by
  obtain ⟨inside, isVisible | isNew⟩ := owned
  · obtain ⟨added, areVisible, areNew⟩ := head.exists_visible_eq
    obtain ⟨entry, member, rfl⟩ := List.mem_map.1 isVisible
    rw [areVisible] at member
    rcases List.mem_append.1 member with inAdded | old
    · exact ⟨inside, .inr (areNew entry inAdded).1⟩
    · exact ⟨inside, .inl (List.mem_map_of_mem old)⟩
  · exact ⟨inside, .inr (Nat.le_trans head.size_le isNew)⟩

/-- Visible names have slots of their own if they had before. -/
theorem nodup_slots (extension : before.Extends offered after) (wellScoped : before.WellScoped)
    (wellScopedAfter : after.WellScoped) (distinct : (before.visible.map (·.2)).Nodup) :
    (after.visible.map (·.2)).Nodup := by
  obtain ⟨added, areVisible, areNew⟩ := extension.exists_visible_eq
  have names := wellScopedAfter.names
  rw [areVisible, List.map_append] at names ⊢
  refine List.nodup_append.2 ⟨?_, distinct, fun index inAdded other inBefore => ?_⟩
  · refine List.pairwise_map.2 ((List.pairwise_map.1 (List.nodup_append.1 names).1).imp_of_mem ?_)
    intro first second isFirst isSecond different same
    obtain ⟨-, slot, isSlot, named⟩ := areNew first isFirst
    obtain ⟨-, slot', isSlot', named'⟩ := areNew second isSecond
    rw [same, isSlot'] at isSlot
    cases isSlot
    exact different (named.symm.trans named')
  · obtain ⟨entry, member, rfl⟩ := List.mem_map.1 inAdded
    obtain ⟨old, isOld, rfl⟩ := List.mem_map.1 inBefore
    exact Nat.ne_of_gt (Nat.lt_of_lt_of_le (wellScoped.slots old isOld) (areNew entry member).1)

end Extends

/-! ### A declared variable -/

section

variable {state : BodyState} {name : String} {type : Ty} {span : Span}

theorem extends_declare (name : String) (type : Ty) (span : Span) :
    state.Extends [(name, span)] (state.declare name type span) := by
  refine ⟨⟨[⟨name, type, span, none⟩], Array.toList_push, .refl _⟩, ?_, ?_, ?_, rfl⟩
  · cases isScopes : state.scopes <;> simp [declare, isScopes]
  · cases isScopes : state.scopes <;> simp [declare, isScopes]
  · cases isScopes : state.scopes with
    | nil => exact ⟨[], by simp [declare, isScopes], List.forall_mem_nil _⟩
    | cons scope outer =>
      refine ⟨[(name, state.slots.size)], by simp [declare, isScopes], fun entry member => ?_⟩
      cases List.mem_singleton.1 member
      exact ⟨Nat.le_refl _, ⟨name, type, span, none⟩, by simp [declare], rfl⟩

/-- The visible names are well scoped with a new one among them. -/
theorem WellScoped.declare (wellScoped : state.WellScoped) (isNew : name ∉ state.visible.map (·.1)) :
    (state.declare name type span).WellScoped := by
  have sizes : (state.declare name type span).slots.size = state.slots.size + 1 := by simp [BodyState.declare]
  refine ⟨by simp [BodyState.declare, wellScoped.usage], ?_, ?_⟩
  · cases isScopes : state.scopes with
    | nil => simp [BodyState.declare, visible, isScopes]
    | cons scope outer =>
      have isVisible : (state.declare name type span).visible = (name, state.slots.size) :: state.visible := by
        simp [BodyState.declare, visible, isScopes]
      rw [isVisible]
      exact List.nodup_cons.2 ⟨isNew, wellScoped.names⟩
  · have extension : state.Extends _ (state.declare name type span) := extends_declare name type span
    obtain ⟨added, areVisible, areNew⟩ := extension.exists_visible_eq
    intro entry member
    rw [areVisible] at member
    rcases List.mem_append.1 member with inAdded | old
    · obtain ⟨-, slot, isSlot, -⟩ := areNew entry inAdded
      exact (Array.getElem?_eq_some_iff.1 isSlot).1
    · rw [sizes]
      exact Nat.lt_succ_of_lt (wellScoped.slots entry old)

end

end BodyState

/-! ### The rules -/

namespace Check

variable {α β : Type}

/-- Whether a step, taken where the names are well scoped, leaves them so and only adds some of the offered variables,
also if it stops, and what it gives is good for all slots that may occur in it. -/
def Balances (context : BodyContext) (offered : List (String × Span)) (step : Check α)
    (good : (Nat → Prop) → α → Prop) : Prop :=
  ∀ before : BodyState, before.WellScoped →
    let result := (step.run context).run.run before
    result.2.WellScoped ∧ before.Extends offered result.2 ∧
      ∀ value, result.1 = .ok value → ∀ allowed : Nat → Prop,
        (∀ index, before.Owns result.2 index → allowed index) → good allowed value

namespace Balances

open Yields (run_bind run_attempt run_inScope run_inLoop)

variable {context : BodyContext} {offered further : List (String × Span)} {step : Check α}
  {good good' : (Nat → Prop) → α → Prop} {goal : (Nat → Prop) → β → Prop}

theorem mono (balances : Balances context offered step good) (less : offered.Sublist further)
    (weaker : ∀ allowed value, good allowed value → good' allowed value) : Balances context further step good' := by
  intro before wellScoped
  obtain ⟨wellScopedAfter, extension, outcome⟩ := balances before wellScoped
  exact ⟨wellScopedAfter, extension.mono less, fun value isOk allowed owned =>
    weaker allowed value (outcome value isOk allowed owned)⟩

theorem pure {value : α} (holds : ∀ allowed, good allowed value) : Balances context offered (Pure.pure value) good :=
  fun _ wellScoped => ⟨wellScoped, .refl _, fun _ isOk allowed _ => Except.ok.inj isOk ▸ holds allowed⟩

theorem throw {finding : Finding} : Balances context offered (MonadExcept.throw finding : Check α) good :=
  fun _ wellScoped => ⟨wellScoped, .refl _, nofun⟩

theorem fail {problem : Problem} {span : Span} : Balances context offered (Check.fail problem span : Check α) good :=
  throw

/-- What is good behind the first step is used behind the second one. -/
theorem bind {next : α → Check β} (head : Balances context offered step good)
    (tail : ∀ value, Balances context further (next value) fun allowed result =>
      good allowed value → goal allowed result) :
    Balances context (offered ++ further) (step >>= next) goal := by
  intro before wellScoped
  obtain ⟨wellScopedMiddle, extension, outcome⟩ := head before wellScoped
  simp only [run_bind]
  generalize (step.run context).run.run before = result at *
  obtain ⟨finding | value, middle⟩ := result
  · exact ⟨wellScopedMiddle, extension.mono (List.sublist_append_left ..), nofun⟩
  · obtain ⟨wellScopedAfter, extension', outcome'⟩ := tail value middle wellScopedMiddle
    refine ⟨wellScopedAfter, extension.trans extension', fun result isOk allowed owned => ?_⟩
    refine outcome' result isOk allowed (fun index ofTail => owned index (extension.owns_of_tail ofTail)) ?_
    exact outcome value rfl allowed fun index ofHead => owned index (extension'.owns_of_head ofHead)

/-- A step in front of others that declare nothing. -/
theorem bindLast {next : α → Check β} (head : Balances context offered step good)
    (tail : ∀ value, Balances context [] (next value) fun allowed result =>
      good allowed value → goal allowed result) :
    Balances context offered (step >>= next) goal := by
  rw [← offered.append_nil]
  exact head.bind tail

/-- A step in front that declares nothing. -/
theorem quietBind {next : α → Check β} (head : Balances context [] step good)
    (tail : ∀ value, Balances context offered (next value) fun allowed result =>
      good allowed value → goal allowed result) :
    Balances context offered (step >>= next) goal := head.bind tail

/-- A step in front that declares nothing, and of which nothing is used. -/
theorem quietThen {next : α → Check β} (head : Balances context [] step good)
    (tail : ∀ value, Balances context offered (next value) goal) : Balances context offered (step >>= next) goal :=
  head.quietBind fun value => (tail value).mono (.refl _) fun _ _ isGood _ => isGood

theorem readBind {next : BodyContext → Check β} (tail : Balances context offered (next context) goal) :
    Balances context offered (read >>= next) goal := tail

theorem environment {next : Environment → Check β} (tail : Balances context offered (next context.environment) goal) :
    Balances context offered (Check.environment >>= next) goal := tail

theorem getBind {next : BodyState → Check β} (tail : ∀ state, Balances context offered (next state) goal) :
    Balances context offered (get >>= next) goal := fun before => tail before before

theorem choose {condition : Prop} [Decidable condition] {first second : Check α}
    (yes : Balances context offered first good) (no : Balances context offered second good) :
    Balances context offered (if condition then first else second) good := by
  split
  · exact yes
  · exact no

theorem ofExcept {result : Except Finding α} :
    Balances context offered (Check.ofExcept result) fun _ value => result = .ok value := by
  cases result with
  | ok value => exact .pure fun _ => rfl
  | error finding => exact .throw

theorem ofResolves {result : Except Finding α} (resolves : ∀ allowed, Resolves (good allowed ·) result) :
    Balances context offered (Check.ofExcept result) good := by
  cases result with
  | ok value => exact .pure resolves
  | error finding => exact .throw

/-- What a step has done stays done if its finding is looked at. -/
theorem attempt (inner : Balances context offered step good) :
    Balances context offered (Check.attempt step) fun allowed result =>
      ∀ value, result = .ok value → good allowed value := by
  intro before wellScoped
  obtain ⟨wellScopedAfter, extension, outcome⟩ := inner before wellScoped
  simp only [run_attempt]
  exact ⟨wellScopedAfter, extension, fun _ isOk allowed owned value same =>
    outcome value ((Except.ok.inj isOk).trans same) allowed owned⟩

/-! #### What changes neither slots nor scopes -/

theorem report {finding : Finding} : Balances context offered (Check.report finding) fun _ _ => True :=
  fun _ wellScoped => ⟨⟨wellScoped.usage, wellScoped.names, wellScoped.slots⟩, .of_eq rfl rfl rfl,
    fun _ _ _ _ => trivial⟩

theorem modifyUsage (index : Nat) (change : Usage → Usage) :
    Balances context offered (Check.modifyUsage index change) fun _ _ => True :=
  fun _ wellScoped => ⟨⟨Array.size_modify.trans wellScoped.usage, wellScoped.names, wellScoped.slots⟩,
    .of_eq rfl rfl rfl, fun _ _ _ _ => trivial⟩

theorem slot (index : Nat) : Balances context offered (Check.slot index) fun _ _ => True :=
  fun _ wellScoped => ⟨wellScoped, .refl _, fun _ _ _ _ => trivial⟩

/-- A slot that a name denotes may occur. -/
theorem lookup? (name : String) :
    Balances context offered (Check.lookup? name) fun allowed found => ∀ index ∈ found, allowed index := by
  intro before wellScoped
  refine ⟨wellScoped, .refl _, fun found isOk allowed owned index isFound => owned index ?_⟩
  have isVisible : (name, index) ∈ before.visible :=
    BodyState.mem_visible_of_findSome? ((Except.ok.inj isOk).trans isFound)
  exact ⟨wellScoped.slots _ isVisible, .inl (List.mem_map_of_mem isVisible)⟩

/-! #### Scopes, loops and variables -/

/-- What is declared in a scope is not visible behind it. -/
theorem inScope (inner : Balances context offered step good) : Balances context offered (Check.inScope step) good := by
  intro before wellScoped
  obtain ⟨wellScopedAfter, extension, outcome⟩ :=
    inner { before with scopes := [] :: before.scopes } ⟨wellScoped.usage, wellScoped.names, wellScoped.slots⟩
  simp only [run_inScope]
  have closed : (((step.run context).run.run { before with scopes := [] :: before.scopes }).2.scopes.drop 1) =
      before.scopes := by
    rw [List.drop_one]
    exact extension.outer
  rw [closed]
  refine ⟨⟨wellScopedAfter.usage, wellScoped.names, fun entry member => ?_⟩,
    ⟨extension.slots, rfl, rfl, ⟨[], rfl, nofun⟩, extension.loopDepth⟩, outcome⟩
  exact Nat.lt_of_lt_of_le (wellScoped.slots entry member) extension.size_le

theorem inLoop (inner : Balances context offered step good) : Balances context offered (Check.inLoop step) good := by
  intro before wellScoped
  obtain ⟨wellScopedAfter, extension, outcome⟩ :=
    inner { before with loopDepth := before.loopDepth + 1 } ⟨wellScoped.usage, wellScoped.names, wellScoped.slots⟩
  simp only [run_inLoop]
  exact ⟨⟨wellScopedAfter.usage, wellScopedAfter.names, wellScopedAfter.slots⟩,
    ⟨extension.slots, extension.count, extension.outer, extension.innermost, congrArg (· - 1) extension.loopDepth⟩,
    outcome⟩

/-- A variable is declared at most once, and its slot may occur. -/
theorem declare (name : String) (type : Ty) (span : Span) :
    Balances context [(name, span)] (Check.declare name type span) fun allowed index => allowed index := by
  intro before wellScoped
  simp only [run_declare]
  split_ifs with isDuplicate isShadowed isFull
  · exact ⟨wellScoped, .refl _, nofun⟩
  · exact ⟨wellScoped, .refl _, nofun⟩
  · exact ⟨wellScoped, .refl _, nofun⟩
  · have notVisible := BodyState.notMem_visible_of_findSome? (Option.not_isSome_iff_eq_none.1 isShadowed)
    refine ⟨wellScoped.declare notVisible, BodyState.extends_declare name type span, ?_⟩
    refine fun index isOk allowed owned => owned index ?_
    cases isOk
    exact ⟨by simp [BodyState.declare], .inr (Nat.le_refl _)⟩

end Balances

end Check

end Snippet
