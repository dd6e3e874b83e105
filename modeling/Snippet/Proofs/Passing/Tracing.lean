import Snippet.Proofs.Passing.Apart
import Snippet.Proofs.Passing.Levels

/-!
Runs of code beside the evaluation by reference: the slots of the running call mirror the cells that they denote, and
what a run pushes are the values of the evaluation. A run that has taken an operand that was not there leaves the stack
too low, and then nothing is said about it.
-/

namespace Snippet

namespace Evaluation

variable {α β : Type} {step : Evaluation α} {next : α → Evaluation β} {situation middle : Situation} {value : α}

/-- An evaluation in two parts goes on with the result of the first one. -/
theorem bind_of (first : step situation = some (value, middle)) : (step >>= next) situation = next value middle := by
  show (step situation).bind _ = _
  rw [first]
  rfl

/-- An evaluation in two parts has a result only if the first part has one. -/
theorem exists_of_bind {result : β} {after : Situation} (done : (step >>= next) situation = some (result, after)) :
    ∃ value middle, step situation = some (value, middle) ∧ next value middle = some (result, after) := by
  obtain ⟨⟨value, middle⟩, first, rest⟩ := Option.bind_eq_some_iff.1 done
  exact ⟨value, middle, first, rest⟩

/-- An operand is the value of an expression that has one. -/
theorem of_operand {step : Evaluation (Option Value)} {value : Value} {after : Situation}
    (done : operand step situation = some (value, after)) : step situation = some (some value, after) := by
  obtain ⟨found, middle, first, isGiven⟩ := exists_of_bind done
  obtain ⟨other, rfl, isPair⟩ := Option.map_eq_some_iff.1 isGiven
  cases isPair
  exact first

/-- An action that succeeds is a step in its world. -/
theorem act_of {action : Action α} {world : World} (done : action.inWorld situation.world = (.ok value, world)) :
    act action situation = some (value, { situation with world }) := by
  rw [act, done]

end Evaluation

namespace Block

variable {site : Site} {most : Nat}

theorem run_append_assoc (first second third : Block) (activation : Activation) :
    (first ++ second ++ third).run site most activation = (first ++ (second ++ third)).run site most activation := by
  show Activation.follow (Activation.follow (first.run site most activation) _) _ = Activation.follow _ _
  cases first.run site most activation with
  | none => rfl
  | some result =>
    obtain ⟨completion, middle⟩ := result
    cases completion <;> rfl

theorem run_ofList_append (first second : List Command) (activation : Activation) :
    (ofList (first ++ second)).run site most activation = (ofList first ++ ofList second).run site most activation := by
  induction first generalizing activation with
  | nil => rfl
  | cons single rest ih =>
      show (command single ++ ofList (rest ++ second)).run site most activation =
        (command single ++ ofList rest ++ ofList second).run site most activation
      rw [run_append_assoc]
      exact congrArg (Activation.follow ((command single).run site most activation)) (funext ih)

end Block

/-! ### Mirrors -/

/-- Whether a slot is a parameter that is only read. -/
def Site.IsInput (site : Site) (slot : Nat) : Prop :=
  ∃ declared, site.slots[slot]? = some declared ∧ declared.mode = some .input

/-- Where runs of code and evaluations are compared: the site of the running call, the rounds that loops may take, and
the cells that the slots denote. -/
structure Setting where
  site : Site
  most : Nat
  frame : List Nat

namespace Setting

variable (setting : Setting)

/-- Whether different slots denote different cells, unless they are only read. -/
structure IsApart : Prop where
  length : setting.frame.length = setting.site.slots.length
  apart : ∀ ⦃slot other cell : Nat⦄, setting.frame[slot]? = some cell → setting.frame[other]? = some cell →
    slot ≠ other → setting.site.IsInput slot

/-- Whether the slots of a running call hold what the cells hold that they denote, in the same world and behind the same
calls of the host. A slot that lacks a value holds anything. -/
structure Mirrors (activation : Activation) (situation : Situation) : Prop where
  world : situation.world = activation.world
  calls : situation.calls = activation.calls
  inside : ∀ ⦃slot cell : Nat⦄, setting.frame[slot]? = some cell → cell < situation.cells.size
  agrees : ∀ ⦃slot cell : Nat⦄, setting.frame[slot]? = some cell → setting.site.lacks activation.stored slot = false →
    situation.cells[cell]? = activation.slots[slot]?

/-- Whether an evaluation changes no cell that only slots denote which are kept or only read. -/
structure Spares (kept : Nat → Prop) (before after : Situation) : Prop where
  grows : before.cells.size ≤ after.cells.size
  same : ∀ ⦃cell : Nat⦄, cell < before.cells.size →
    (∀ slot : Nat, setting.frame[slot]? = some cell → kept slot ∨ setting.site.IsInput slot) →
    after.cells[cell]? = before.cells[cell]?

variable {setting} {kept fewer : Nat → Prop} {first second third : Situation}

theorem IsApart.exists_cell (isApart : setting.IsApart) {slot : Nat} (exists_slot : slot < setting.site.slots.length) :
    ∃ cell, setting.frame[slot]? = some cell :=
  ⟨_, List.getElem?_eq_getElem (isApart.length.symm ▸ exists_slot)⟩

theorem Spares.refl (situation : Situation) : setting.Spares kept situation situation :=
  ⟨Nat.le_refl _, fun _ _ _ => rfl⟩

/-- An evaluation that only appends cells spares all others. -/
theorem Spares.ofCells (same : second.cells = first.cells) : setting.Spares kept first second :=
  ⟨Nat.le_of_eq (congrArg Array.size same.symm), fun _ _ _ => by rw [same]⟩

theorem Spares.trans (head : setting.Spares kept first second) (tail : setting.Spares kept second third) :
    setting.Spares kept first third where
  grows := Nat.le_trans head.grows tail.grows
  same _ inside isKept :=
    (tail.same (Nat.lt_of_lt_of_le inside head.grows) isKept).trans (head.same inside isKept)

theorem Spares.mono (spares : setting.Spares kept first second) (isFewer : ∀ slot, fewer slot → kept slot) :
    setting.Spares fewer first second where
  grows := spares.grows
  same _ inside isKept := spares.same inside fun slot isCell => (isKept slot isCell).imp_left (isFewer slot)

/-! ### Traces -/

variable (setting) in
/-- Whether a run leads to a value of an evaluation: with it on the stack, and what else is there. -/
structure Leads {α : Type} (kept : Nat → Prop) (step : Evaluation α) (values : α → List Value) (rest : Stack)
    (situation : Situation) (activation : Activation) (value : α) (after : Situation) : Prop where
  evaluates : step situation = some (value, after)
  mirrors : setting.Mirrors activation after
  stack : activation.stack = values value ++ rest
  spares : setting.Spares kept situation after

variable (setting) in
/-- Whether every run of a block on some operands is a step of the evaluation. -/
def Takes {α : Type} (kept : Nat → Prop) (popped : List Value) (block : Block) (step : Evaluation α)
    (values : α → List Value) : Prop :=
  ∀ ⦃activation rest situation result⦄, activation.stack = popped ++ rest → setting.Mirrors activation situation →
    block.run setting.site setting.most activation = some result →
    result.1 = .next ∧ ∃ value after, setting.Leads kept step values rest situation result.2 value after

variable (setting) in
/-- Whether every run of a block on some operands is a step of the evaluation, unless it leaves fewer values than it
should. -/
def Traces {α : Type} (kept : Nat → Prop) (popped : List Value) (block : Block) (step : Evaluation α)
    (values : α → List Value) (count : Nat) : Prop :=
  ∀ ⦃activation rest situation result⦄, activation.stack = popped ++ rest → setting.Mirrors activation situation →
    block.run setting.site setting.most activation = some result →
    result.1 = .next ∧ (result.2.stack.length < rest.length + count ∨
      ∃ value after, setting.Leads kept step values rest situation result.2 value after)

section

variable {α β : Type} {popped below : List Value} {block head tail last : Block} {step : Evaluation α}
  {next : α → Evaluation β} {values : α → List Value} {values' : β → List Value} {count more : Nat} {rise : Int}

theorem Takes.traces (takes : setting.Takes kept popped block step values) (count : Nat) :
    setting.Traces kept popped block step values count := by
  intro activation rest situation result isStack mirrors ran
  obtain ⟨isNext, leads⟩ := takes isStack mirrors ran
  exact ⟨isNext, .inr leads⟩

/-- What lies below the operands stays there. -/
theorem Takes.under (takes : setting.Takes kept popped block step values) (below : List Value) :
    setting.Takes kept (popped ++ below) block step fun value => values value ++ below := by
  intro activation rest situation result isStack mirrors ran
  rw [List.append_assoc] at isStack
  obtain ⟨isNext, value, after, leads⟩ := takes isStack mirrors ran
  exact ⟨isNext, value, after, leads.evaluates, leads.mirrors, leads.stack.trans (List.append_assoc ..).symm,
    leads.spares⟩

theorem Traces.under (traces : setting.Traces kept popped block step values count) (below : List Value) :
    setting.Traces kept (popped ++ below) block step (fun value => values value ++ below) (below.length + count) := by
  intro activation rest situation result isStack mirrors ran
  rw [List.append_assoc] at isStack
  obtain ⟨isNext, isLow | ⟨value, after, leads⟩⟩ := traces isStack mirrors ran
  · rw [List.length_append] at isLow
    exact ⟨isNext, .inl (by omega)⟩
  · exact ⟨isNext, .inr ⟨value, after, leads.evaluates, leads.mirrors,
      leads.stack.trans (List.append_assoc ..).symm, leads.spares⟩⟩

theorem Takes.scope (extent : Extent) (takes : setting.Takes kept popped block step values) :
    setting.Takes kept popped (.scope extent block) step values :=
  fun _ _ _ _ isStack mirrors ran => takes isStack mirrors ran

theorem Traces.scope (extent : Extent) (traces : setting.Traces kept popped block step values count) :
    setting.Traces kept popped (.scope extent block) step values count :=
  fun _ _ _ _ isStack mirrors ran => traces isStack mirrors ran

/-- Code that pushes nothing evaluates nothing. -/
theorem Takes.empty (popped : List Value) (value : α) (isValue : values value = popped) :
    setting.Takes kept popped .empty (pure value) values := by
  intro activation rest situation result isStack mirrors ran
  cases ran
  exact ⟨rfl, value, situation, rfl, mirrors, by rw [isValue, isStack], .refl situation⟩

/-- Behind a step of the evaluation its result may be given another form. -/
theorem Takes.mapped (takes : setting.Takes kept popped block step values) (change : α → β)
    (same : ∀ value, values' (change value) = values value) :
    setting.Takes kept popped block (step >>= fun value => pure (change value)) values' := by
  intro activation rest situation result isStack mirrors ran
  obtain ⟨isNext, value, after, leads⟩ := takes isStack mirrors ran
  exact ⟨isNext, change value, after, Evaluation.bind_of leads.evaluates, leads.mirrors,
    by rw [same, leads.stack], leads.spares⟩

theorem Traces.mapped (traces : setting.Traces kept popped block step values count) (change : α → β)
    (same : ∀ value, values' (change value) = values value) :
    setting.Traces kept popped block (step >>= fun value => pure (change value)) values' count := by
  intro activation rest situation result isStack mirrors ran
  obtain ⟨isNext, isLow | ⟨value, after, leads⟩⟩ := traces isStack mirrors ran
  · exact ⟨isNext, .inl isLow⟩
  · exact ⟨isNext, .inr ⟨change value, after, Evaluation.bind_of leads.evaluates, leads.mirrors,
      by rw [same, leads.stack], leads.spares⟩⟩

theorem Leads.trans {rest : Stack} {situation middle after : Situation} {activation activation' : Activation}
    {value : α} {value' : β} (leads : setting.Leads kept step values rest situation activation value middle)
    (leads' : setting.Leads kept (next value) values' rest middle activation' value' after) :
    setting.Leads kept (step >>= next) values' rest situation activation' value' after where
  evaluates := (Evaluation.bind_of leads.evaluates).trans leads'.evaluates
  mirrors := leads'.mirrors
  stack := leads'.stack
  spares := leads.spares.trans leads'.spares

theorem Takes.bind (one : setting.Takes kept popped head step values)
    (other : ∀ value, setting.Takes kept (values value) tail (next value) values') :
    setting.Takes kept popped (head ++ tail) (step >>= next) values' := by
  intro activation rest situation result isStack mirrors ran
  obtain ⟨middle, ranHead, ranTail⟩ := Activation.of_follow_next (fun _ ran => (one isStack mirrors ran).1) ran
  obtain ⟨-, value, between, leads⟩ := one isStack mirrors ranHead
  obtain ⟨isNext, value', after, leads'⟩ := other value leads.stack leads.mirrors ranTail
  exact ⟨isNext, value', after, leads.trans leads'⟩

/-- Behind what is a step for sure, the rest may leave too few values. -/
theorem Takes.bindTraces (one : setting.Takes kept popped head step values)
    (other : ∀ value, setting.Traces kept (values value) tail (next value) values' count) :
    setting.Traces kept popped (head ++ tail) (step >>= next) values' count := by
  intro activation rest situation result isStack mirrors ran
  obtain ⟨middle, ranHead, ranTail⟩ := Activation.of_follow_next (fun _ ran => (one isStack mirrors ran).1) ran
  obtain ⟨-, value, between, leads⟩ := one isStack mirrors ranHead
  obtain ⟨isNext, isLow | ⟨value', after, leads'⟩⟩ := other value leads.stack leads.mirrors ranTail
  · exact ⟨isNext, .inl isLow⟩
  · exact ⟨isNext, .inr ⟨value', after, leads.trans leads'⟩⟩

/-- Behind too few values the rest does not make up for them. What is known of the result of a step may be used. -/
theorem Traces.bindKnown {known : α → Prop} (one : setting.Traces kept popped head step values more)
    (knows : ∀ ⦃situation value after⦄, step situation = some (value, after) → known value)
    (rises : tail.Rises setting.site setting.most rise) (isLess : rise + more ≤ count)
    (other : ∀ value, known value → setting.Traces kept (values value) tail (next value) values' count) :
    setting.Traces kept popped (head ++ tail) (step >>= next) values' count := by
  intro activation rest situation result isStack mirrors ran
  obtain ⟨middle, ranHead, ranTail⟩ := Activation.of_follow_next (fun _ ran => (one isStack mirrors ran).1) ran
  obtain ⟨isNext, height⟩ := rises ranTail
  obtain ⟨-, isLow | ⟨value, between, leads⟩⟩ := one isStack mirrors ranHead
  · dsimp only at isLow
    exact ⟨isNext, .inl (by omega)⟩
  · obtain ⟨-, isLow | ⟨value', after, leads'⟩⟩ :=
      other value (knows leads.evaluates) leads.stack leads.mirrors ranTail
    · exact ⟨isNext, .inl isLow⟩
    · exact ⟨isNext, .inr ⟨value', after, leads.trans leads'⟩⟩

theorem Traces.bind (one : setting.Traces kept popped head step values more)
    (rises : tail.Rises setting.site setting.most rise) (isLess : rise + more ≤ count)
    (other : ∀ value, setting.Traces kept (values value) tail (next value) values' count) :
    setting.Traces kept popped (head ++ tail) (step >>= next) values' count :=
  one.bindKnown (fun _ _ _ _ => trivial) rises isLess fun value _ => other value

/-- What the evaluation says nothing about only rearranges the stack. -/
theorem Takes.silently {middle : List Value} (one : setting.Takes kept popped head (pure PUnit.unit) fun _ => middle)
    (other : setting.Takes kept middle tail step values) : setting.Takes kept popped (head ++ tail) step values :=
  one.bind fun _ => other

theorem Takes.followed {values' : α → List Value} (one : setting.Takes kept popped head step values)
    (other : ∀ value, setting.Takes kept (values value) tail (pure PUnit.unit) fun _ => values' value) :
    setting.Takes kept popped (head ++ tail) step values' := by
  have both := one.bind fun value => (other value).mapped (fun _ => value) fun _ => rfl
  have same : (step >>= fun value => (pure PUnit.unit : Evaluation PUnit) >>= fun _ => pure value) = step :=
    bind_pure step
  rw [same] at both
  exact both

theorem Takes.silentlyTraces {middle : List Value}
    (one : setting.Takes kept popped head (pure PUnit.unit) fun _ => middle)
    (other : setting.Traces kept middle tail step values count) :
    setting.Traces kept popped (head ++ tail) step values count :=
  one.bindTraces fun _ => other

/-- Blocks follow each other however they are grouped. -/
theorem Traces.regroup (traces : setting.Traces kept popped (head ++ (tail ++ last)) step values count) :
    setting.Traces kept popped (head ++ tail ++ last) step values count := by
  intro activation rest situation result isStack mirrors ran
  rw [Block.run_append_assoc] at ran
  exact traces isStack mirrors ran

/-- The value of an expression is an operand. An expression without one leaves too few values. -/
theorem Traces.operand {value : Evaluation (Option Value)}
    (traces : setting.Traces kept popped block value Option.toList count) (isLess : count ≤ 1) :
    setting.Traces kept popped block (Evaluation.operand value) (fun value => [value]) 1 := by
  intro activation rest situation result isStack mirrors ran
  obtain ⟨isNext, isLow | ⟨found, after, leads⟩⟩ := traces isStack mirrors ran
  · exact ⟨isNext, .inl (by omega)⟩
  · cases found with
    | none =>
      have isStack := leads.stack
      refine ⟨isNext, .inl ?_⟩
      rw [isStack]
      exact Nat.lt_succ_self _
    | some value =>
      exact ⟨isNext, .inr ⟨value, after, (Evaluation.bind_of leads.evaluates).trans rfl, leads.mirrors, leads.stack,
        leads.spares⟩⟩

/-- An operand is the value of an expression that has one. -/
theorem Traces.value {value : Evaluation Value}
    (traces : setting.Traces kept popped block value (fun value => [value]) 1) :
    setting.Traces kept popped block (value >>= fun found => pure (some found)) Option.toList 1 :=
  traces.mapped some fun _ => rfl

end

end Setting

end Snippet
