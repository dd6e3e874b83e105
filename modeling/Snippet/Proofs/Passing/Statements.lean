import Snippet.Proofs.Passing.Expressions

/-!
Statements beside the evaluation by reference: every run of the code of a statement is an execution of it, which leaves
nothing on the stack but the result of the call. Main statement: `TypedStmt.executes`.
-/

namespace Snippet

/-! ### Effects -/

namespace Setting

variable {setting : Setting} {kept : Nat → Prop} {α : Type}

/-- Runs that are steps of one evaluation are steps of another one that does the same. -/
theorem Traces.implied {popped : List Value} {block : Block} {step step' : Evaluation α} {values : α → List Value}
    {count : Nat} (implies : ∀ ⦃situation result⦄, step situation = some result → step' situation = some result)
    (traces : setting.Traces kept popped block step values count) :
    setting.Traces kept popped block step' values count := by
  intro activation rest situation result isStack mirrors ran
  obtain ⟨isNext, isLow | ⟨value, after, leads⟩⟩ := traces isStack mirrors ran
  · exact ⟨isNext, .inl isLow⟩
  · exact ⟨isNext, .inr ⟨value, after, implies leads.evaluates, leads.mirrors, leads.stack, leads.spares⟩⟩

/-- Code that leaves nothing has only an effect. -/
theorem Traces.noValue {block : Block} {step : Evaluation (Option Value)} {count : Nat}
    (traces : setting.Traces kept [] block step Option.toList 0) (rises : block.Rises setting.site setting.most 0) :
    setting.Traces kept [] block (step >>= fun _ => pure PUnit.unit) (fun _ => []) count := by
  intro activation rest situation result isStack mirrors ran
  have height := (rises ran).2
  obtain ⟨isNext, isLow | ⟨value, after, leads⟩⟩ := traces isStack mirrors ran
  · exact ⟨isNext, .inl (Nat.lt_of_lt_of_le isLow (Nat.add_le_add_left (Nat.zero_le count) _))⟩
  · cases value with
    | none => exact ⟨isNext, .inr ⟨PUnit.unit, after, Evaluation.bind_of leads.evaluates, leads.mirrors, leads.stack,
        leads.spares⟩⟩
    | some value =>
      rw [leads.stack, isStack] at height
      simp only [Option.toList_some, List.nil_append, List.cons_append, List.length_cons] at height
      omega

end Setting

section

variable {setting : Setting} {typing : Typing} {assigned : Nat → Nat → Prop}
  {call : Nat → List Passed → Evaluation (Option Value)} (suits : setting.Suits typing assigned call)

include suits

/-- Every run of the code of an expression for its effect is an evaluation of it. -/
theorem TypedExpr.effect_traces (value : TypedExpr) (free : Nat) (isBehind : setting.frame.length ≤ free)
    {kept : Nat → Prop} (fits : value.Fits typing) (apart : value.PassesApart assigned)
    (leaves : ∀ slot, kept slot → value.Leaves assigned slot) :
    setting.Traces kept [] (value.effectBody free)
      (value.evaluate ⟨setting.site.libraries, call⟩ setting.frame >>= fun _ => pure PUnit.unit) (fun _ => []) 0 := by
  have traces := value.traces suits free isBehind fits apart leaves
  have rises : (value.block free).Rises setting.site setting.most _ := value.rises suits.methods suits.levels free fits
  unfold effectBody
  split
  · next index assigned type span =>
    obtain ⟨hasValue, assignedFits, shown, shows, -⟩ := fits
    obtain ⟨inside, notInput⟩ := shows.exists_slot suits
    have notKept (isKept : kept index) : False := (leaves index isKept).1 rfl
    simp only [TypedExpr.evaluate, TypedNode.evaluate, bind_assoc, pure_bind]
    exact (assigned.traces suits free isBehind assignedFits apart.2.2 fun slot isKept =>
      (leaves slot isKept).2.2).valueOf.bind (.command rfl) (Int.le_refl 0) fun value =>
        ((Setting.Takes.store suits.isApart inside notKept notInput value).mapped (fun _ => PUnit.unit)
          fun _ => rfl).traces 0
  · next index operation changed type span =>
    obtain ⟨hasValue, changedFits, shown, shows, -⟩ := fits
    obtain ⟨inside, notInput⟩ := shows.exists_slot suits
    have notKept (isKept : kept index) : False := (leaves index isKept).1 rfl
    simp only [TypedExpr.evaluate, TypedNode.evaluate, bind_assoc, pure_bind]
    refine .regroup ((Setting.Takes.load suits.isApart inside).bindTraces fun old =>
      ((changed.traces suits free isBehind changedFits apart.2.2 fun slot isKept =>
        (leaves slot isKept).2.2).valueOf.under [old]).bind (.ofList ?_) (Int.le_refl 0) fun right =>
          ((Setting.Takes.operate operation old right).bind fun result =>
            (Setting.Takes.store suits.isApart inside notKept notInput result).bind fun _ =>
              .empty [] PUnit.unit rfl).traces 0)
    simp [Command.isLocal]
  · next index isIncrement isFront type span =>
    obtain ⟨hasValue, shown, shows, -⟩ := fits
    obtain ⟨inside, notInput⟩ := shows.exists_slot suits
    have notKept (isKept : kept index) : False := (leaves index isKept).1 rfl
    simp only [TypedExpr.evaluate, TypedNode.evaluate, bind_assoc, pure_bind]
    exact ((Setting.Takes.load suits.isApart inside).bind fun old =>
      ((Setting.Takes.const type.one).under [old]).bind fun one => (Setting.Takes.operate _ old one).bind fun changed =>
        (Setting.Takes.store suits.isApart inside notKept notInput changed).bind fun _ =>
          .empty [] PUnit.unit rfl).traces 0
  · split
    · next isVoid =>
      rw [isVoid] at traces rises
      exact traces.noValue rises
    · have drops : setting.Traces kept [] (value.block free ++ .command .drop)
          (Evaluation.operand (value.evaluate ⟨setting.site.libraries, call⟩ setting.frame) >>= fun _ =>
            pure PUnit.unit)
          (fun _ => []) 0 :=
        traces.valueOf.bind (.command rfl) (Int.le_refl 0) fun value => (Setting.Takes.drop value).traces 0
      refine drops.implied fun situation result done => ?_
      obtain ⟨found, middle, evaluates, isPure⟩ := Evaluation.exists_of_bind done
      exact (Evaluation.bind_of (Evaluation.of_operand evaluates)).trans isPure

/-- Every run of the code of expressions for their effects is an evaluation of them. -/
theorem TypedExpr.effect_traces_all (values : List TypedExpr) (free : Nat) (isBehind : setting.frame.length ≤ free)
    {kept : Nat → Prop} (fits : TypedExpr.AllFit typing values)
    (apart : ∀ value ∈ values, value.PassesApart assigned)
    (leaves : ∀ slot, kept slot → ∀ value ∈ values, value.Leaves assigned slot) :
    setting.Traces kept [] (TypedExpr.effectBlockOfAll free values)
      (TypedExpr.effects ⟨setting.site.libraries, call⟩ setting.frame values) (fun _ => []) 0 := by
  induction values generalizing free with
  | nil => exact (Setting.Takes.empty [] PUnit.unit rfl).traces 0
  | cons first rest ih =>
      rw [List.forall_mem_cons] at apart
      have traces := ((first.effect_traces suits free isBehind fits.1 apart.1 fun slot isKept =>
        (List.forall_mem_cons.1 (leaves slot isKept)).1).scope .statement).bind
          (TypedExpr.effectBlockOfAll_rises suits.methods suits.levels rest _ fits.2) (Int.le_refl 0) fun _ =>
            ih (free + first.temporaries) (Nat.le_add_right_of_le isBehind) fits.2 apart.2 fun slot isKept =>
              (List.forall_mem_cons.1 (leaves slot isKept)).2
      simp only [bind_assoc, pure_bind] at traces
      exact traces

end

/-! ### Executions -/

namespace Setting

/-- What has ended leaves at most a stack of a height, and gives a result of the call if there is one. -/
structure Within (result : Ty) (height : Nat) (ended : Completion × Activation) : Prop where
  height : ended.2.stack.length ≤ height
  result : ∀ value, ended.1 = .gaveBack value → value.toList.length = result.pushed.length

variable (setting : Setting) (kept : Nat → Prop)

/-- Whether a run has come as far as an evaluation, with the stack as it was. -/
structure Arrives (situation : Situation) (stack : Stack) (middle : Activation) (between : Situation) : Prop where
  mirrors : setting.Mirrors middle between
  stack : middle.stack = stack
  spares : setting.Spares kept situation between

/-- Whether a run that has ended is an execution, with the same end and with the stack as it was. A call that has ended
has stored to every `out` parameter. -/
structure Finishes (step : Evaluation Completion) (situation : Situation) (stack : Stack)
    (ended : Completion × Activation) (after : Situation) : Prop where
  evaluates : step situation = some (ended.1, after)
  arrives : setting.Arrives kept situation stack ended.2 after
  assignsOut : ∀ value, ended.1 = .gaveBack value → setting.site.assignsOut ended.2.stored = true

/-- Whether every run is an execution, unless it leaves too little on the stack. -/
def Executes (result : Ty) (run : Activation → Option (Completion × Activation)) (step : Evaluation Completion) :
    Prop :=
  ∀ ⦃activation ended⦄, run activation = some ended → Within result activation.stack.length ended ∧
    ∀ ⦃situation⦄, setting.Mirrors activation situation → ended.2.stack.length < activation.stack.length ∨
      ∃ after, setting.Finishes kept step situation activation.stack ended after

variable {setting kept} {result : Ty}

theorem Within.weaken {height more : Nat} {ended : Completion × Activation} (within : Within result height ended)
    (isLess : height ≤ more) : Within result more ended :=
  ⟨Nat.le_trans within.height isLess, within.result⟩

namespace Executes

variable {run next : Activation → Option (Completion × Activation)} {step other total : Evaluation Completion}

theorem ofTraces {block : Block} {step : Evaluation PUnit} (rises : block.Rises setting.site setting.most 0)
    (traces : setting.Traces kept [] block step (fun _ => []) 0) :
    setting.Executes kept result (block.run setting.site setting.most) (step >>= fun _ => pure .next) := by
  intro activation ended ran
  obtain ⟨isNext, height⟩ := rises ran
  obtain ⟨completion, behind⟩ := ended
  cases isNext
  refine ⟨⟨by omega, fun value isEnd => by cases isEnd⟩, fun situation mirrors => ?_⟩
  obtain ⟨-, isLow | ⟨value, after, leads⟩⟩ :=
    traces (show activation.stack = [] ++ activation.stack from rfl) mirrors ran
  · exact .inl isLow
  · exact .inr ⟨after, Evaluation.bind_of leads.evaluates, ⟨leads.mirrors, leads.stack, leads.spares⟩,
      fun value isEnd => by cases isEnd⟩

/-- What ends at once, but not the call, is executed. -/
theorem ends {completion : Completion} (isOther : ∀ value, completion ≠ .gaveBack value) :
    setting.Executes kept result (fun activation => some (completion, activation)) (pure completion) := by
  intro activation ended ran
  cases ran
  refine ⟨⟨Nat.le_refl _, fun value isEnd => absurd isEnd (isOther value)⟩, fun situation mirrors =>
    .inr ⟨situation, rfl, ⟨mirrors, rfl, .refl situation⟩, fun value isEnd => absurd isEnd (isOther value)⟩⟩

theorem done : setting.Executes kept result (fun activation => some (.next, activation)) (pure .next) :=
  ends fun _ isEnd => by cases isEnd

/-- A call without a result ends if something has been stored to every `out` parameter. -/
theorem giveBackNothing (isVoid : result = .void) :
    setting.Executes kept result ((Block.command .giveBackNothing).run setting.site setting.most)
      (pure (.gaveBack none)) := by
  intro activation ended ran
  rw [Block.run, Command.run] at ran
  split at ran
  · next assignsOut =>
    cases ran
    refine ⟨⟨Nat.le_refl _, fun value isEnd => ?_⟩, fun situation mirrors => .inr ⟨situation, rfl,
      ⟨mirrors, rfl, .refl situation⟩, fun _ _ => assignsOut⟩⟩
    cases isEnd
    rw [isVoid]
    rfl
  · cases ran

/-- A call with a result ends if something has been stored to every `out` parameter. -/
theorem giveBack {block : Block} {value : Evaluation Value} (hasResult : result ≠ .void)
    (rises : block.Rises setting.site setting.most 1)
    (traces : setting.Traces kept [] block value (fun value => [value]) 1) :
    setting.Executes kept result ((block ++ .command .giveBack).run setting.site setting.most)
      (value >>= fun found => pure (.gaveBack (some found))) := by
  intro activation ended ran
  obtain ⟨middle, ranBlock, ran⟩ := Activation.of_follow_next (fun _ ran => (rises ran).1) ran
  have height := (rises ranBlock).2
  rw [Block.run, Command.run] at ran
  split at ran
  · next found stack isStack =>
    split at ran
    · next assignsOut =>
      cases ran
      dsimp only at height
      rw [isStack, List.length_cons] at height
      refine ⟨⟨by dsimp only; omega, fun value isEnd => ?_⟩, fun situation mirrors => ?_⟩
      · cases isEnd
        rw [Ty.pushed_of_ne_void hasResult]
        rfl
      · obtain ⟨-, isLow | ⟨value, after, leads⟩⟩ :=
          traces (show activation.stack = [] ++ activation.stack from rfl) mirrors ranBlock
        · left
          dsimp only at isLow
          rw [isStack] at isLow
          exact Nat.lt_of_succ_lt_succ isLow
        · right
          cases isStack.symm.trans leads.stack
          exact ⟨after, Evaluation.bind_of leads.evaluates, ⟨⟨leads.mirrors.world, leads.mirrors.calls,
            leads.mirrors.inside, leads.mirrors.agrees⟩, rfl, leads.spares⟩, fun _ _ => assignsOut⟩
    · cases ran
  · cases ran

/-- The rest of an execution goes on where a run has arrived. -/
theorem behind (more : setting.Executes kept result next other) {stack : Stack} {middle : Activation}
    {ended : Completion × Activation} (ran : next middle = some ended) (height : middle.stack.length ≤ stack.length) :
    Within result stack.length ended ∧ ∀ ⦃situation⦄,
      (middle.stack.length < stack.length ∨
        ∃ between, setting.Arrives kept situation stack middle between ∧ total situation = other between) →
      ended.2.stack.length < stack.length ∨ ∃ after, setting.Finishes kept total situation stack ended after := by
  obtain ⟨within, finishes⟩ := more ran
  refine ⟨within.weaken height, fun situation reached => ?_⟩
  rcases reached with isLow | ⟨between, arrives, goesOn⟩
  · exact .inl (Nat.lt_of_le_of_lt within.height isLow)
  · rcases finishes arrives.mirrors with isLow | ⟨after, finished⟩
    · left
      rw [arrives.stack] at isLow
      exact isLow
    · exact .inr ⟨after, goesOn.trans finished.evaluates, ⟨finished.arrives.mirrors,
        finished.arrives.stack.trans arrives.stack, arrives.spares.trans finished.arrives.spares⟩, finished.assignsOut⟩

/-- Behind what ends normally the rest is executed. -/
theorem follow (one : setting.Executes kept result run step) (more : setting.Executes kept result next other) :
    setting.Executes kept result (fun activation => Activation.follow (run activation) next)
      (step >>= Evaluation.follow other) := by
  intro activation ended ran
  rcases Activation.of_follow ran with ⟨middle, ranOne, ranMore⟩ | ⟨ranOne, notNext⟩
  · obtain ⟨within, finishes⟩ := one ranOne
    obtain ⟨within', finishes'⟩ := more.behind ranMore within.height
    refine ⟨within', fun situation mirrors => finishes' ((finishes mirrors).imp_right fun ⟨between, finished⟩ => ?_)⟩
    exact ⟨between, finished.arrives, Evaluation.bind_of finished.evaluates⟩
  · obtain ⟨within, finishes⟩ := one ranOne
    refine ⟨within, fun situation mirrors => (finishes mirrors).imp_right fun ⟨after, finished⟩ => ?_⟩
    refine ⟨after, (Evaluation.bind_of finished.evaluates).trans ?_, finished.arrives, finished.assignsOut⟩
    obtain ⟨completion, behind⟩ := ended
    cases completion with
    | next => exact absurd rfl notNext
    | _ => rfl

/-- Behind the body of a loop the next round is executed. -/
theorem turn {round onward : Activation → Option (Completion × Activation)}
    (one : setting.Executes kept result run step) (direct : setting.Executes kept result round other)
    (more : setting.Executes kept result onward other) :
    setting.Executes kept result (fun activation => Activation.turn (run activation) round onward)
      (step >>= Evaluation.turn other) := by
  intro activation ended ran
  rcases Activation.of_turn ran with ⟨middle, ranBody, ran⟩ | ⟨middle, ranBody, ran⟩ | ⟨middle, ranBody, rfl⟩ |
    ⟨value, middle, ranBody, rfl⟩
  · obtain ⟨within, finishes⟩ := one ranBody
    obtain ⟨within', finishes'⟩ := more.behind ran within.height
    refine ⟨within', fun situation mirrors => finishes' ((finishes mirrors).imp_right fun ⟨between, finished⟩ => ?_)⟩
    exact ⟨between, finished.arrives, Evaluation.bind_of finished.evaluates⟩
  · obtain ⟨within, finishes⟩ := one ranBody
    obtain ⟨within', finishes'⟩ := direct.behind ran within.height
    refine ⟨within', fun situation mirrors => finishes' ((finishes mirrors).imp_right fun ⟨between, finished⟩ => ?_)⟩
    exact ⟨between, finished.arrives, Evaluation.bind_of finished.evaluates⟩
  · obtain ⟨within, finishes⟩ := one ranBody
    refine ⟨⟨within.height, fun value isEnd => by cases isEnd⟩, fun situation mirrors =>
      (finishes mirrors).imp_right fun ⟨after, finished⟩ => ?_⟩
    exact ⟨after, Evaluation.bind_of finished.evaluates, finished.arrives, fun value isEnd => by cases isEnd⟩
  · obtain ⟨within, finishes⟩ := one ranBody
    refine ⟨within, fun situation mirrors => (finishes mirrors).imp_right fun ⟨after, finished⟩ => ?_⟩
    exact ⟨after, Evaluation.bind_of finished.evaluates, finished.arrives, finished.assignsOut⟩

end Executes

/-! ### Tests -/

/-- Whether every run of a test gives the truth value of an evaluation, unless it leaves too little on the stack. -/
def Tests (setting : Setting) (kept : Nat → Prop) (isGuarded : Bool) (block : Block) (test : Evaluation Bool) : Prop :=
  ∀ ⦃activation ended⦄, block.run setting.site setting.most activation = some ended → ended.1 = .next ∧
    ∀ ⦃truth after⦄, (if isGuarded then ended.2.popTruth else some (true, ended.2)) = some (truth, after) →
      after.stack.length ≤ activation.stack.length ∧ ∀ ⦃situation⦄, setting.Mirrors activation situation →
        (after.stack.length < activation.stack.length ∨
          ∃ between, test situation = some (truth, between) ∧
            setting.Arrives kept situation activation.stack after between)

/-- A condition is a test. -/
theorem Tests.ofTraces {block : Block} {value : Evaluation Value} (rises : block.Rises setting.site setting.most 1)
    (traces : setting.Traces kept [] block value (fun value => [value]) 1) :
    setting.Tests kept true block (value >>= fun found => Evaluation.given found.truth?) := by
  intro activation ended ran
  obtain ⟨isNext, height⟩ := rises ran
  refine ⟨isNext, fun truth after popped => ?_⟩
  have height' := Block.Rises.popTruth_stack popped
  refine ⟨by omega, fun situation mirrors => ?_⟩
  obtain ⟨-, isLow | ⟨found, between, leads⟩⟩ :=
    traces (show activation.stack = [] ++ activation.stack from rfl) mirrors ran
  · exact .inl (by omega)
  · obtain ⟨rfl, rfl⟩ := Activation.of_popTruth leads.stack popped
    exact .inr ⟨between, (Evaluation.bind_of leads.evaluates).trans rfl,
      ⟨leads.mirrors.world, leads.mirrors.calls, leads.mirrors.inside, leads.mirrors.agrees⟩, rfl, leads.spares⟩

/-- A condition that is missing holds. -/
theorem Tests.always : setting.Tests kept false .empty (pure true) := by
  intro activation ended ran
  cases ran
  refine ⟨rfl, fun truth after isTrue => ?_⟩
  cases isTrue
  exact ⟨Nat.le_refl _, fun situation mirrors => .inr ⟨situation, rfl, mirrors, rfl, .refl situation⟩⟩

namespace Executes

variable {step other total : Evaluation Completion} {test : Evaluation Bool} {head body tail : Block}

/-- Behind a test the rest is executed that the truth value chooses. -/
theorem tested {run : Activation → Option (Completion × Activation)} {next : Bool → Evaluation Completion}
    {isGuarded truth : Bool} (inner : setting.Executes kept result run (next truth))
    (tests : setting.Tests kept isGuarded head test) {activation middle after : Activation}
    {completion : Completion} {ended : Completion × Activation}
    (ranTest : head.run setting.site setting.most activation = some (completion, middle))
    (popped : (if isGuarded then middle.popTruth else some (true, middle)) = some (truth, after))
    (ran : run after = some ended) :
    Within result activation.stack.length ended ∧ ∀ ⦃situation⦄, setting.Mirrors activation situation →
      ended.2.stack.length < activation.stack.length ∨
        ∃ last, setting.Finishes kept (test >>= next) situation activation.stack ended last := by
  obtain ⟨height, arrives⟩ := (tests ranTest).2 popped
  obtain ⟨within, finishes⟩ := inner.behind ran height
  refine ⟨within, fun situation mirrors => finishes ((arrives mirrors).imp_right fun ⟨between, holds, arrives⟩ => ?_)⟩
  exact ⟨between, arrives, Evaluation.bind_of holds⟩

theorem guard (tests : setting.Tests kept true head test)
    (inner : setting.Executes kept result (body.run setting.site setting.most) step) :
    setting.Executes kept result ((head ++ .guard true body).run setting.site setting.most)
      (test >>= fun truth => if truth = true then step else pure .next) := by
  intro activation ended ran
  obtain ⟨middle, ranHead, ran⟩ := Activation.of_follow_next (fun _ ran => (tests ran).1) ran
  rw [Block.run] at ran
  split at ran
  · cases ran
  · next found after popped =>
    cases found with
    | true => exact inner.tested tests ranHead popped ran
    | false => exact done.tested tests ranHead popped ran

theorem choose (tests : setting.Tests kept true head test)
    (onTrue : setting.Executes kept result (body.run setting.site setting.most) step)
    (onFalse : setting.Executes kept result (tail.run setting.site setting.most) other) :
    setting.Executes kept result ((head ++ .choose body tail).run setting.site setting.most)
      (test >>= fun truth => if truth = true then step else other) := by
  intro activation ended ran
  obtain ⟨middle, ranHead, ran⟩ := Activation.of_follow_next (fun _ ran => (tests ran).1) ran
  rw [Block.run] at ran
  split at ran
  · cases ran
  · next popped => exact onTrue.tested tests ranHead popped ran
  · next popped => exact onFalse.tested tests ranHead popped ran

/-- The rounds of a loop. The induction is on the rounds that are left. -/
theorem rounds {isGuarded isDirect : Bool} {advance : Block} {advanceStep : Evaluation PUnit}
    (tests : setting.Tests kept isGuarded head test)
    (inner : setting.Executes kept result (body.run setting.site setting.most) step)
    (advances : setting.Executes kept result (advance.run setting.site setting.most)
      (advanceStep >>= fun _ => pure .next))
    (isDirectly : isDirect = true → advanceStep = pure PUnit.unit) (left : Nat) :
    setting.Executes kept result (Block.runRounds isGuarded isDirect (head.run setting.site setting.most)
      (body.run setting.site setting.most) (advance.run setting.site setting.most) left)
      (Evaluation.rounds test step advanceStep left) := by
  induction left with
  | zero => exact fun _ _ ran => nomatch ran
  | succ left ih =>
      have onward := advances.follow ih
      rw [bind_assoc] at onward
      intro activation ended ran
      rw [Block.runRounds] at ran
      obtain ⟨middle, ranHead, ran⟩ := Activation.of_follow_next (fun _ ran => (tests ran).1) ran
      split at ran
      · cases ran
      · next popped => exact done.tested tests ranHead popped ran
      · next after popped =>
        cases isDirect with
        | true =>
          have direct : setting.Executes kept result
              (Block.runRounds isGuarded true (head.run setting.site setting.most)
                (body.run setting.site setting.most) (advance.run setting.site setting.most) left)
              (pure PUnit.unit >>= fun _ => pure .next >>=
                Evaluation.follow (Evaluation.rounds test step advanceStep left)) :=
            ih
          rw [← isDirectly rfl] at direct
          exact (inner.turn direct onward).tested tests ranHead popped ran
        | false => exact (inner.turn onward onward).tested tests ranHead popped ran

end Executes

end Setting

/-! ### Statements -/

section

variable {setting : Setting} {typing : Typing} {assigned : Nat → Nat → Prop}
  {call : Nat → List Passed → Evaluation (Option Value)} (suits : setting.Suits typing assigned call)

-- Some theorems of the mutual inductions use the assumptions only through the others.
set_option linter.unusedSectionVars false

include suits

/-- A condition is a test. -/
theorem TypedExpr.tests (condition : TypedExpr) (free : Nat) (isBehind : setting.frame.length ≤ free)
    {kept : Nat → Prop} (fits : condition.Fits typing) (apart : condition.PassesApart assigned)
    (leaves : ∀ slot, kept slot → condition.Leaves assigned slot) :
    setting.Tests kept true (condition.block free) (condition.holds ⟨setting.site.libraries, call⟩ setting.frame) :=
  .ofTraces (condition.operand_rises suits free fits) (condition.traces suits free isBehind fits apart leaves).valueOf

mutual

/-- Every run of the code of a statement is an execution of it. -/
theorem TypedStmt.executes {isNested : Bool} (statement : TypedStmt) (free : Nat)
    (isBehind : setting.frame.length ≤ free) {kept : Nat → Prop} (fits : statement.Fits typing isNested)
    (apart : statement.Every (·.PassesApart assigned) (·.PassesApart assigned))
    (leaves : ∀ slot, kept slot → statement.Every (·.Leaves assigned slot) (·.Leaves assigned slot)) :
    setting.Executes kept typing.result ((statement.body free).run setting.site setting.most)
      (statement.execute ⟨setting.site.libraries, call⟩ setting.frame setting.most) := by
  match statement with
  | .block body => exact TypedStmt.executes_all body free isBehind fits apart leaves
  | .evaluate value =>
    have executes : setting.Executes kept typing.result _ _ :=
      .ofTraces (value.effectBody_rises suits.methods suits.levels free fits)
        (value.effect_traces suits free isBehind fits apart leaves)
    rw [bind_assoc] at executes
    exact executes
  | .giveBack _ none => exact .giveBackNothing fits
  | .giveBack _ (some value) =>
    exact .giveBack fits.1 (value.operand_rises suits free fits.2.1)
      (value.traces suits free isBehind fits.2.1 apart leaves).valueOf
  | .branch condition thenBranch none =>
    obtain ⟨testFits, -, thenFits⟩ := fits
    exact .guard (condition.tests suits free isBehind testFits apart.1 fun slot isKept => (leaves slot isKept).1)
      (thenBranch.executes _ (Nat.le_add_right_of_le isBehind) thenFits apart.2 fun slot isKept =>
        (leaves slot isKept).2)
  | .branch condition thenBranch (some elseBranch) =>
    obtain ⟨testFits, -, thenFits, elseFits⟩ := fits
    exact .choose (condition.tests suits free isBehind testFits apart.1 fun slot isKept => (leaves slot isKept).1)
      (thenBranch.executes _ (Nat.le_add_right_of_le isBehind) thenFits apart.2.1 fun slot isKept =>
        (leaves slot isKept).2.1)
      (elseBranch.executes _ (Nat.le_add_right_of_le (Nat.le_add_right_of_le isBehind)) elseFits apart.2.2
        fun slot isKept => (leaves slot isKept).2.2)
  | .whileLoop condition body =>
    obtain ⟨testFits, -, bodyFits⟩ := fits
    exact .rounds (condition.tests suits free isBehind testFits apart.1 fun slot isKept => (leaves slot isKept).1)
      (body.executes _ (Nat.le_add_right_of_le isBehind) bodyFits apart.2 fun slot isKept => (leaves slot isKept).2)
      .done (fun _ => rfl) _
  | .forLoop start condition steps body =>
    obtain ⟨startFits, testFits, stepsFit, bodyFits⟩ := fits
    obtain ⟨startApart, testApart, stepsApart, bodyApart⟩ := apart
    have startIsBehind : setting.frame.length ≤ free + TypedStmt.temporariesOfAll start :=
      Nat.le_add_right_of_le isBehind
    have bodyIsBehind := Nat.le_add_right_of_le (k := TypedExpr.optionalTemporaries condition) startIsBehind
    refine (TypedStmt.executes_all start free isBehind startFits startApart fun slot isKept =>
      (leaves slot isKept).1).follow
        (.rounds ?_ (body.executes _ bodyIsBehind bodyFits bodyApart fun slot isKept => (leaves slot isKept).2.2.2)
        (.ofTraces (TypedExpr.effectBlockOfAll_rises suits.methods suits.levels steps _ stepsFit)
          (TypedExpr.effect_traces_all suits steps _ (Nat.le_add_right_of_le bodyIsBehind) stepsFit stepsApart
            fun slot isKept => (leaves slot isKept).2.2.1)) (fun isDirect => by cases isDirect) _)
    cases condition with
    | none => exact .always
    | some test =>
      exact test.tests suits _ startIsBehind (testFits test rfl).1 (testApart test rfl) fun slot isKept =>
        (leaves slot isKept).2.1 test rfl
  | .leaveLoop => exact .ends fun _ isEnd => by cases isEnd
  | .nextRound => exact .ends fun _ isEnd => by cases isEnd

theorem TypedStmt.executes_all {isNested : Bool} (statements : List TypedStmt) (free : Nat)
    (isBehind : setting.frame.length ≤ free) {kept : Nat → Prop} (fits : TypedStmt.AllFit typing isNested statements)
    (apart : TypedStmt.EveryOfAll (·.PassesApart assigned) (·.PassesApart assigned) statements)
    (leaves : ∀ slot, kept slot → TypedStmt.EveryOfAll (·.Leaves assigned slot) (·.Leaves assigned slot) statements) :
    setting.Executes kept typing.result ((TypedStmt.blockOfAll free statements).run setting.site setting.most)
      (TypedStmt.executeAll ⟨setting.site.libraries, call⟩ setting.frame setting.most statements) := by
  match statements with
  | [] => exact .done
  | first :: rest =>
    exact (first.executes free isBehind fits.1 apart.1 fun slot isKept => (leaves slot isKept).1).follow
      (TypedStmt.executes_all rest _ (Nat.le_add_right_of_le isBehind) fits.2 apart.2 fun slot isKept =>
        (leaves slot isKept).2)

end

end

end Snippet
