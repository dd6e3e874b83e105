import Snippet.Proofs.Flow.Expression

/-!
Definite assignment, derived for statements and methods. Main statement: a method in which nothing is
found has a plan of its positions.
-/

namespace Snippet

/-- Whether all exits of a statement are behind its start. -/
structure Exits.Grows (count : Nat) (before : Reached) (exits : Exits) : Prop where
  next : before.Grows count exits.next
  breaks : before.Grows count exits.breaks
  rounds : before.Grows count exits.rounds

namespace Exits.Grows

variable {count : Nat} {before middle next : Reached} {first second : Exits}

theorem ending (grows : before.Grows count next) : (Exits.ending next).Grows count before :=
  ⟨grows, .none count before, .none count before⟩

end Exits.Grows

/-- The exits of two statements of which one runs are behind what is in front of both. -/
theorem Reached.Grows.exits_join {count : Nat} {before middle other : Reached} {first second : Exits}
    (one : before.Grows count middle) (another : before.Grows count other) (firstGrows : first.Grows count middle)
    (secondGrows : second.Grows count other) :
    (first.joinLoop second (first.next.join second.next)).Grows count before :=
  ⟨(one.trans firstGrows.next).join (another.trans secondGrows.next),
    (one.trans firstGrows.breaks).join (another.trans secondGrows.breaks),
    (one.trans firstGrows.rounds).join (another.trans secondGrows.rounds)⟩

namespace Flow

variable {slots : List Slot} {reached : Reached}

/-- Whether a block leads from what is known in front of it to the exits of its statement, in every
loop whose ends know no more than the exits. -/
def Leads (slots : List Slot) (before : Reached) (block : Block) (exits : Exits) : Prop :=
  ∀ done round : FlowPoint, (FlowPoint.plain exits.breaks).Entails done →
    (FlowPoint.plain exits.rounds).Entails round →
      (Analysis.flow slots).Derives done round (.plain before) block (.plain exits.next)

namespace Leads

variable {before : Reached} {block other : Block} {first second last : Exits} {count : Nat}

/-- Exits that know less may be led to. -/
theorem weaken (leads : Leads slots before block first) (next : first.next.Entails last.next)
    (breaks : first.breaks.Entails last.breaks) (rounds : first.rounds.Entails last.rounds) :
    Leads slots before block last :=
  fun done round ends continues =>
    .weaken (.refl _) (leads done round (.trans (.plain breaks none) ends) (.trans (.plain rounds none) continues))
      (.plain next none)

theorem scope (extent : Extent) (leads : Leads slots before block first) :
    Leads slots before (.scope extent block) first :=
  fun done round ends continues => .scope trivial (leads done round ends continues)

/-- An expression leads to its end. -/
theorem ofRuns {next : Reached} (runs : Runs slots before block (.plain next)) :
    Leads slots before block (.ending next) := fun done round _ _ => runs done round

/-- A statement leads to the exits that it has together with the one that runs instead of it. -/
theorem joined_left {middle middle' : Reached} (leads : Leads slots before block first)
    (one : first.Grows count middle) (other : second.Grows count middle') :
    Leads slots before block (first.joinLoop second (first.next.join second.next)) :=
  leads.weaken (Reached.entails_join_left one.next.sized other.next.sized)
    (Reached.entails_join_left one.breaks.sized other.breaks.sized)
    (Reached.entails_join_left one.rounds.sized other.rounds.sized)

theorem joined_right {middle middle' : Reached} (leads : Leads slots before block second)
    (one : first.Grows count middle) (other : second.Grows count middle') :
    Leads slots before block (first.joinLoop second (first.next.join second.next)) :=
  leads.weaken (Reached.entails_join_right one.next.sized other.next.sized)
    (Reached.entails_join_right one.breaks.sized other.breaks.sized)
    (Reached.entails_join_right one.rounds.sized other.rounds.sized)

/-- Statements that follow each other lead to the exits of both. -/
theorem append {middle : Reached} (head : Leads slots before block first)
    (tail : Leads slots first.next other second) (one : first.Grows count before)
    (more : second.Grows count middle) :
    Leads slots before (block ++ other) (first.joinLoop second second.next) := by
  intro done round ends continues
  refine .append (head done round (.trans ?_ ends) (.trans ?_ continues))
    (tail done round (.trans ?_ ends) (.trans ?_ continues))
  · exact .plain (Reached.entails_join_left one.breaks.sized more.breaks.sized) none
  · exact .plain (Reached.entails_join_left one.rounds.sized more.rounds.sized) none
  · exact .plain (Reached.entails_join_right one.breaks.sized more.breaks.sized) none
  · exact .plain (Reached.entails_join_right one.rounds.sized more.rounds.sized) none

end Leads

/-- What a step of the analysis of a statement promises for the statement's block. -/
abbrev Exiting (slots : List Slot) (reached : Reached) (block : Block) (step : Flow Exits) : Prop :=
  Yields slots step (Exits.Grows slots.length reached) (Leads slots reached block)

/-- An expression that stands as a statement is derived. -/
theorem effect_derived (value : TypedExpr) (free : Nat) (sized : reached.Sized slots.length)
    (known : slots.length ≤ free) :
    Derived slots reached (value.effectBody free) none (expression reached value) := by
  unfold TypedExpr.effectBody
  split
  · next index assigned _ _ =>
    refine (assigned.flow_derived free sized known).bind fun after grows => ?_
    refine .pure (grows.trans (.assign grows.sized index)) fun runs => ?_
    exact runs.append (.command rfl)
  · next index operation changed _ span =>
    refine (yields_readSlot sized index span).bind fun _ _ => ?_
    refine (changed.flow_derived free sized known).weaken (fun _ => id) fun after _ runs assigned => ?_
    have load : Runs slots reached (.command (.load index)) (.plain reached) := .command ⟨assigned, rfl⟩
    refine (load.append runs).append (.ofList ?_)
    have operate : FlowPoint.Keeps slots after (.operate operation) := ⟨_, rfl, .refl _⟩
    simp [operate, keeps_store]
  · next index isIncrement _ type span =>
    refine (yields_readSlot sized index span).bind fun _ _ => .pure (.refl sized) fun assigned => .ofList ?_
    have operate : FlowPoint.Keeps slots reached (.operate (stepOperation isIncrement)) := ⟨_, rfl, .refl _⟩
    simp [Block.change, keeps_load assigned, keeps_one, keeps_store, operate]
  · have pushed := value.flow_derived free sized known
    split
    · exact pushed.weaken (fun _ => id) fun _ _ runs => runs.forget
    · exact pushed.followed fun _ => rfl

/-- Expressions that stand as statements are derived in order. -/
theorem effects_derived (values : List TypedExpr) (free : Nat) (sized : reached.Sized slots.length)
    (known : slots.length ≤ free) :
    Derived slots reached (TypedExpr.effectBlockOfAll free values) none (expressions reached values) := by
  induction values generalizing reached free with
  | nil => exact Yields.pure (.refl sized) (.empty slots reached)
  | cons first rest ih =>
      exact ((effect_derived first free sized known).scope .statement).append fun middle grows =>
        ih (free + first.temporaries) grows.sized (by omega)

/-- What is known in front of the two branches of a condition is derived by its test. -/
theorem branches_test (condition : TypedExpr) (reached : Reached) :
    FlowPoint.Test ⟨reached, condition.constantBool?⟩ true (.plain (branches condition reached).1) ∧
      FlowPoint.Test ⟨reached, condition.constantBool?⟩ false (.plain (branches condition reached).2) := by
  unfold branches FlowPoint.Test
  cases condition.constantBool? with
  | none => exact ⟨fun _ => .refl _, fun _ => .refl _⟩
  | some truth =>
      cases truth with
      | true => exact ⟨fun _ => .refl _, fun possible => absurd rfl possible⟩
      | false => exact ⟨fun possible => absurd rfl possible, fun _ => .refl _⟩

theorem branches_grow {count : Nat} (condition : TypedExpr) (sized : reached.Sized count) :
    reached.Grows count (branches condition reached).1 ∧ reached.Grows count (branches condition reached).2 := by
  unfold branches
  split
  · exact ⟨.refl sized, .none count reached⟩
  · exact ⟨.none count reached, .refl sized⟩
  · exact ⟨.refl sized, .refl sized⟩

theorem loopBranches_grow {count : Nat} (condition : Option TypedExpr) (sized : reached.Sized count) :
    reached.Grows count (loopBranches condition reached).1 ∧
      reached.Grows count (loopBranches condition reached).2 := by
  cases condition with
  | some test => exact branches_grow test sized
  | none => exact ⟨.refl sized, .none count reached⟩

/-- A condition that may be missing is derived. -/
theorem optional_derived (condition : Option TypedExpr) (free : Nat) (sized : reached.Sized slots.length)
    (known : slots.length ≤ free) :
    Derived slots reached (TypedExpr.optionalBlock free condition) (condition.bind (·.constantBool?))
      (optionalExpression reached condition) := by
  cases condition with
  | none => exact Yields.pure (.refl sized) (.empty slots reached)
  | some test => exact test.flow_derived free sized known

/-- A loop is derived from its parts. What is known at its start is known at every further round,
because nothing assigned in front of it is forgotten in it. -/
theorem loop_derives {condition : Option TypedExpr} {tested last : Reached} {exits : Exits}
    {test body advance : Block} (isDirect : Bool) (grows : reached.Grows slots.length tested)
    (testRuns : Runs slots reached test ⟨tested, condition.bind (·.constantBool?)⟩)
    (exitsGrow : exits.Grows slots.length (loopBranches condition tested).1)
    (leads : Leads slots (loopBranches condition tested).1 body exits)
    (again : Runs slots (exits.next.join exits.rounds) advance (.plain last)) (behind : last.Entails reached)
    (done round : FlowPoint) :
    (Analysis.flow slots).Derives done round (.plain reached)
      (.loop condition.isSome isDirect test body advance)
      (.plain ((loopBranches condition tested).2.join exits.breaks)) := by
  obtain ⟨enteredGrows, skippedGrows⟩ := loopBranches_grow condition grows.sized
  have toStart : exits.rounds.Entails reached :=
    (exitsGrow.rounds.entails.trans enteredGrows.entails).trans grows.entails
  have breaksEntail : (FlowPoint.plain exits.breaks).Entails
      (.plain ((loopBranches condition tested).2.join exits.breaks)) :=
    .plain (Reached.entails_join_right skippedGrows.sized exitsGrow.breaks.sized) none
  have roundsEntail : (FlowPoint.plain exits.rounds).Entails
      (if isDirect then .plain reached else .plain (exits.next.join exits.rounds)) := by
    cases isDirect with
    | true => exact .plain toStart none
    | false => exact .plain (Reached.entails_join_right exitsGrow.next.sized exitsGrow.rounds.sized) none
  have nextEntails : (FlowPoint.plain exits.next).Entails (.plain (exits.next.join exits.rounds)) :=
    .plain (Reached.entails_join_left exitsGrow.next.sized exitsGrow.rounds.sized) none
  refine .loop (testRuns done round) (fun isGuarded => ?_) (fun isUnguarded => ?_)
    (.weaken (.refl _) (leads _ _ breaksEntail roundsEntail) nextEntails)
    (.weaken (.refl _) (again done round) (.plain behind none))
  · obtain ⟨condition, rfl⟩ := Option.isSome_iff_exists.1 isGuarded
    obtain ⟨passes, ends⟩ := branches_test condition tested
    refine ⟨passes, fun possible => (ends possible).trans ?_⟩
    exact .plain (Reached.entails_join_left skippedGrows.sized exitsGrow.breaks.sized) none
  · cases condition with
    | some test => cases isUnguarded
    | none => exact .refl _

/-- A choice is derived from its condition and its two sides. -/
theorem choose_leads {condition : TypedExpr} {decided : Reached} {exits : Exits} {free : Nat}
    {thenBlock elseBlock : Block}
    (testRuns : Runs slots reached (condition.block free) ⟨decided, condition.constantBool?⟩)
    (thenLeads : Leads slots (branches condition decided).1 thenBlock exits)
    (elseLeads : Leads slots (branches condition decided).2 elseBlock exits) :
    Leads slots reached (condition.block free ++ .choose (.scope .statement thenBlock)
      (.scope .statement elseBlock)) exits := by
  intro done round ends continues
  obtain ⟨passes, skips⟩ := branches_test condition decided
  exact .append (testRuns done round) (.choose passes skips
    (.scope trivial (thenLeads done round ends continues))
    (.scope trivial (elseLeads done round ends continues)))

/-- A guard is derived from its condition and its body. -/
theorem guard_leads {condition : TypedExpr} {decided : Reached} {exits : Exits} {free : Nat}
    {thenBlock : Block}
    (testRuns : Runs slots reached (condition.block free) ⟨decided, condition.constantBool?⟩)
    (thenLeads : Leads slots (branches condition decided).1 thenBlock exits)
    (skips : (branches condition decided).2.Entails exits.next) :
    Leads slots reached (condition.block free ++ .guard true (.scope .statement thenBlock)) exits := by
  intro done round ends continues
  obtain ⟨passes, fails⟩ := branches_test condition decided
  exact .append (testRuns done round) (.guard passes
    (fun possible => (fails possible).trans (.plain skips none))
    (.scope trivial (thenLeads done round ends continues)))

end Flow

mutual

/-- What the analysis finds at the exits of a statement is derived for its block. -/
theorem TypedStmt.flow_derived {slots : List Slot} {reached : Reached} (statement : TypedStmt) (free : Nat)
    (sized : reached.Sized slots.length) (known : slots.length ≤ free) :
    Flow.Exiting slots reached (statement.body free) (Flow.statement reached statement) := by
  match statement with
  | .block body => exact TypedStmt.flow_derived_all body free sized known
  | .evaluate value =>
    refine (Flow.effect_derived value free sized known).bind fun after grows => ?_
    exact .pure (.ending grows) .ofRuns
  | .giveBack span none =>
    refine (Flow.yields_checkOut reached span).bind fun _ _ => .pure (.ending (.none _ _)) fun assigns => ?_
    exact .ofRuns (.command ⟨assigns, rfl⟩)
  | .giveBack span (some value) =>
    refine (value.flow_derived free sized known).bind fun after grows => ?_
    refine (Flow.yields_checkOut after span).bind fun _ _ => .pure (.ending (.none _ _)) ?_
    intro assigns runs
    exact .ofRuns (runs.append (.command ⟨assigns, rfl⟩))
  | .branch condition thenBranch none =>
    refine (condition.flow_derived free sized known).bind fun decided grows => ?_
    obtain ⟨thenGrows, elseGrows⟩ := Flow.branches_grow condition grows.sized
    refine (thenBranch.flow_derived (free + condition.temporaries) thenGrows.sized (by omega)).bind
      fun first firstGrows => ?_
    have secondGrows := Exits.Grows.ending elseGrows
    refine .pure ?_ fun leads runs => Flow.guard_leads runs (leads.joined_left firstGrows secondGrows) ?_
    · exact (grows.trans thenGrows).exits_join (grows.trans (.refl grows.sized)) firstGrows secondGrows
    · exact Reached.entails_join_right firstGrows.next.sized secondGrows.next.sized
  | .branch condition thenBranch (some elseBranch) =>
    refine (condition.flow_derived free sized known).bind fun decided grows => ?_
    obtain ⟨thenGrows, elseGrows⟩ := Flow.branches_grow condition grows.sized
    refine (thenBranch.flow_derived (free + condition.temporaries) thenGrows.sized (by omega)).bind
      fun first firstGrows => ?_
    refine (elseBranch.flow_derived (free + condition.temporaries + thenBranch.temporaries)
      elseGrows.sized (by omega)).bind fun second secondGrows => ?_
    refine .pure ?_ fun elseLeads thenLeads runs => Flow.choose_leads runs
      (thenLeads.joined_left firstGrows secondGrows) (elseLeads.joined_right firstGrows secondGrows)
    exact (grows.trans thenGrows).exits_join (grows.trans elseGrows) firstGrows secondGrows
  | .whileLoop condition body =>
    refine (condition.flow_derived free sized known).bind fun tested grows => ?_
    obtain ⟨enteredGrows, skippedGrows⟩ := Flow.branches_grow condition grows.sized
    refine (body.flow_derived (free + condition.temporaries) enteredGrows.sized (by omega)).bind
      fun exits exitsGrow => ?_
    have inLoop := grows.trans enteredGrows
    refine .pure (.ending ?_) fun leads runs => .ofRuns fun done round => ?_
    · exact (grows.trans skippedGrows).join (inLoop.trans exitsGrow.breaks)
    · have behind := (inLoop.trans exitsGrow.next).join (inLoop.trans exitsGrow.rounds)
      have isLoop : (some condition).bind (·.constantBool?) = condition.constantBool? := rfl
      rw [← isLoop] at runs
      exact Flow.loop_derives true grows runs exitsGrow (leads.scope .statement) (.empty _ _) behind.entails
        done round
  | .forLoop start condition steps body =>
    let tested := free + TypedStmt.temporariesOfAll start
    let entered := tested + TypedExpr.optionalTemporaries condition
    refine (TypedStmt.flow_derived_all start free sized known).bind fun started startGrows => ?_
    refine (Flow.optional_derived condition tested startGrows.next.sized (by omega)).bind
      fun decided grows => ?_
    obtain ⟨enteredGrows, skippedGrows⟩ := Flow.loopBranches_grow condition grows.sized
    refine (body.flow_derived entered enteredGrows.sized (by omega)).bind fun exits exitsGrow => ?_
    have inLoop := grows.trans enteredGrows
    have nextGrows := (inLoop.trans exitsGrow.next).join (inLoop.trans exitsGrow.rounds)
    refine (Flow.effects_derived steps (entered + body.temporaries) nextGrows.sized (by omega)).bind
      fun last lastGrows => ?_
    refine .pure ⟨?_, startGrows.breaks, startGrows.rounds⟩ fun again leads runs startLeads => ?_
    · exact startGrows.next.trans ((grows.trans skippedGrows).join (inLoop.trans exitsGrow.breaks))
    · intro done round ends continues
      refine .append (startLeads done round ends continues) ?_
      exact Flow.loop_derives false grows runs exitsGrow (leads.scope .statement) again
        (lastGrows.entails.trans nextGrows.entails) done round
  | .leaveLoop =>
    refine .pure ⟨.none _ _, .refl sized, .none _ _⟩ fun done round ends _ => ?_
    exact .weaken ends .leaveLoop (.refl _)
  | .nextRound =>
    refine .pure ⟨.none _ _, .none _ _, .refl sized⟩ fun done round _ continues => ?_
    exact .weaken continues .nextRound (.refl _)

/-- What the analysis finds at the exits of statements is derived for their block. -/
theorem TypedStmt.flow_derived_all {slots : List Slot} {reached : Reached} (statements : List TypedStmt)
    (free : Nat) (sized : reached.Sized slots.length) (known : slots.length ≤ free) :
    Flow.Exiting slots reached (TypedStmt.blockOfAll free statements)
      (Flow.statements reached statements) := by
  match statements with
  | [] => exact .pure (.ending (.refl sized)) fun done round _ _ => .empty
  | first :: rest =>
    refine (first.flow_derived free sized known).bind fun exits grows => ?_
    refine (TypedStmt.flow_derived_all rest (free + first.temporaries) grows.next.sized (by omega)).bind
      fun others othersGrow => ?_
    refine .pure ?_ fun othersLead leads => (leads.scope .statement).append othersLead grows othersGrow
    exact ⟨grows.next.trans othersGrow.next, grows.breaks.join (grows.next.trans othersGrow.breaks),
      grows.rounds.join (grows.next.trans othersGrow.rounds)⟩

end

/-- If nothing is found in a method, then its block is derived, and its end is not reached. Jumps out
of a round that stand in no loop lead to the start, where nothing more is known. -/
theorem TypedMethod.flow_derived (method : TypedMethod) :
    Flow.Yields method.slots (Flow.method method) (fun _ => True) fun _ =>
      (Analysis.flow method.slots).Derives (.plain (.entry method.slots)) (.plain (.entry method.slots))
        (.plain (.entry method.slots)) method.block (.plain none) := by
  have sized := Reached.sized_entry method.slots
  unfold Flow.method
  refine (TypedStmt.flow_derived_all method.body method.slots.length sized (Nat.le_refl _)).bind
    fun exits grows => ?_
  have body (leads : Flow.Leads method.slots (.entry method.slots)
      (TypedStmt.blockOfAll method.slots.length method.body) exits) :=
    leads _ _ (.plain grows.breaks.entails none) (.plain grows.rounds.entails none)
  cases isReached : exits.next with
  | none =>
      refine .pure trivial fun leads => ?_
      have body := body leads
      rw [isReached] at body
      unfold TypedMethod.block
      dsimp only
      split
      · exact .append body (.command ⟨Reached.assignsOut_none _, rfl⟩)
      · exact body
  | some assigned =>
      simp only [Option.isSome_some, if_true]
      split
      · next isVoid =>
        refine (Flow.yields_checkOut _ method.span).weaken (fun _ => id) fun _ _ assigns leads => ?_
        have body := body leads
        rw [isReached] at body
        simp only [TypedMethod.block, isVoid, if_true]
        exact .append body (.command ⟨assigns, rfl⟩)
      · refine Flow.yields_report (fun finding member => ?_) nofun
        rw [List.mem_singleton.1 member]
        rfl

/-- A method in which the analysis finds nothing has a plan of its positions. Control does not reach
its end. -/
theorem TypedMethod.flow_plan (method : TypedMethod)
    (noError : ∀ finding ∈ method.flowFindings, finding.isError = false) :
    ∃ plan : Nat → FlowPoint, (FlowPoint.plain (.entry method.slots)).Entails (plan 0) ∧
      (∀ position : Nat, method.block.length ≤ position → plan position = .plain none) ∧
      (Analysis.flow method.slots).Obeys plan 0 0 0 method.block := by
  have fair : FlowReport.Fair ⟨[], []⟩ := ⟨nofun, fun _ => rfl⟩
  have yields := method.flow_derived
  have noFinding : method.flowFindings = [] := by
    refine List.eq_nil_iff_forall_not_mem.2 fun finding member => ?_
    have isError := (yields.fair _ fair).errors finding member
    rw [noError finding member] at isError
    cases isError
  exact (yields.clean _ fair noFinding).plan (.refl _) (.refl _)

end Snippet
