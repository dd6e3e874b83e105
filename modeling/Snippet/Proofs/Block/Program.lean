import Snippet.Proofs.Block.Bounds
import Snippet.Proofs.Block.Expression

/-!
The code of a statement lays out its block, and so does the image of a program: every method's code lays out the
method's block. An image is refused only because an index would not fit.
-/

namespace Snippet

namespace Emitted

section

variable {image : Image} {before tested entered after : EmitState}
  {start bodyStart next first second third : Nat} {test body advance : Block}
  {testCode round further : List StatementCode}

/-- A jump out of a round that has its target keeps it in every loop around. -/
theorem settling_inLoop (done round outerDone outerRound : Nat) (code : StatementCode) :
    Settling.inLoop outerDone outerRound (code.inLoop round done) = Settling.inLoop done round code := by
  cases code <;> rfl

/-- Test, body and advance with the jumps between them lay out a loop. -/
theorem loop (isGuarded isDirect : Bool)
    (testEmitted : Emitted .inLoop image before start first test (testCode, tested))
    (bodyPlace : bodyStart = start + testCode.length + (if isGuarded then 1 else 0))
    (bodyEmitted : Emitted .inLoop image tested bodyStart second body (round, entered))
    (nextPlace : next = bodyStart + round.length)
    (advanceEmitted : Emitted .inLoop image entered next third advance (further, after)) :
    Emitted .inLoop image before start (first + second + third)
      (.loop isGuarded isDirect test body advance)
      (testCode ++
        (if isGuarded then [.ready (.jumpIfFalse (Emit.position (next + further.length + 1)))] else []) ++
        round.map (·.inLoop (if isDirect then start else next) (next + further.length + 1)) ++ further ++
        [.ready (.jump (Emit.position start))], after) where
  slots := by
    rw [advanceEmitted.slots, bodyEmitted.slots, testEmitted.slots, Nat.add_assoc, Nat.add_assoc,
      Nat.add_assoc]
  length := by
    have testLength := testEmitted.length
    have bodyLength := bodyEmitted.length
    have advanceLength := advanceEmitted.length
    simp only [List.length_append, List.length_map, List.length_singleton, Block.length] at *
    cases isGuarded <;> simp <;> omega
  grows within := testEmitted.grows (bodyEmitted.grows (advanceEmitted.grows within))
  encodes within done outerRound := by
    have advanceCode := advanceEmitted.encodes within done outerRound
    have bodyCode := bodyEmitted.encodes (advanceEmitted.grows within) (next + further.length + 1)
      (if isDirect then start else next)
    have testCodes := testEmitted.encodes
      (bodyEmitted.grows (advanceEmitted.grows within)) done outerRound
    have inner : (round.map (·.inLoop (if isDirect then start else next) (next + further.length + 1))).map
        (Settling.inLoop done outerRound) =
        round.map (Settling.inLoop (next + further.length + 1) (if isDirect then start else next)) := by
      rw [List.map_map]
      exact List.map_congr_left fun code _ => settling_inLoop _ _ _ _ code
    have finish := advanceEmitted.length
    simp only [List.map_append, inner, Block.layout, ← testEmitted.length, ← bodyEmitted.length,
      ← finish, ← bodyPlace, ← nextPlace]
    refine List.rel_append (List.rel_append (List.rel_append (List.rel_append testCodes ?_) bodyCode)
      advanceCode) (.cons (.jump start) .nil)
    cases isGuarded with
    | true => exact .cons (.jumpIfFalse _) .nil
    | false => exact .nil

end

section

variable {image : Image} {before tested middle after : EmitState}
  {start first second third : Nat} {test one two : Block} {testCode : List Instruction}
  {code other : List StatementCode}

/-- A jump over a branch lays out a guard behind its condition. -/
theorem branch (condition : Emitted .plain image before start first test (testCode, tested))
    (body : Emitted .inLoop image tested (start + testCode.length + 1) second one (code, after)) :
    Emitted .inLoop image before start (first + second) (test ++ .guard true one)
      (Emit.ready (testCode ++
        [.jumpIfFalse (Emit.position (start + testCode.length + 1 + code.length))]) ++ code, after) := by
  have guarded : Emitted .inLoop image tested (start + testCode.length) second (.guard true one)
      (.ready (.jumpIfFalse (Emit.position (start + testCode.length + 1 + code.length))) :: code, after) :=
    .guard body fun _ _ => .jumpIfFalse _
  refine .recoded (.append condition.ready ?_ guarded) ?_
  · rw [Emit.ready, List.length_map]
  · simp only [Emit.ready, List.map_append, List.append_assoc]
    rfl

/-- A loop that tests its condition in front of every round is laid out. -/
theorem whileLoop (condition : Emitted .plain image before start first test (testCode, tested))
    (round : Emitted .inLoop image tested (start + testCode.length + 1) second one (code, after)) :
    Emitted .inLoop image before start (first + second) (.loop true true test one .empty)
      (Emit.ready (testCode ++
        [.jumpIfFalse (Emit.position (start + testCode.length + 1 + code.length + 1))]) ++
        code.map (·.inLoop start (start + testCode.length + 1 + code.length + 1)) ++
        Emit.ready [.jump (Emit.position start)], after) := by
  have looped := Emitted.loop true true condition.ready
    (by rw [Emit.ready, List.length_map, if_pos rfl]) round rfl .empty
  refine .recoded looped ?_
  simp [Emit.ready]

/-- A loop with a condition that may be missing is laid out in front of its steps. -/
theorem forLoop (isTested : Option (List Instruction))
    (condition : Emitted .plain image before start first test (isTested.getD [], tested))
    (round : Emitted .inLoop image tested (start + Emit.exitTestLength isTested) second one
      (code, middle))
    (advance : Emitted .plain image middle (start + Emit.exitTestLength isTested + code.length) third
      two (testCode, after)) :
    Emitted .inLoop image before start (first + second + third)
      (.loop isTested.isSome false test one two)
      (Emit.exitTest isTested
          (start + Emit.exitTestLength isTested + code.length + testCode.length + 1) ++
        code.map (·.inLoop (start + Emit.exitTestLength isTested + code.length)
          (start + Emit.exitTestLength isTested + code.length + testCode.length + 1)) ++
        Emit.ready (testCode ++ [.jump (Emit.position start)]), after) := by
  have bodyPlace : start + Emit.exitTestLength isTested =
      start + (Emit.ready (isTested.getD [])).length + (if isTested.isSome then 1 else 0) := by
    cases isTested with
    | none => rfl
    | some code => simp [Emit.ready, Emit.exitTestLength, Nat.add_assoc]
  have looped := Emitted.loop isTested.isSome false condition.ready bodyPlace round rfl advance.ready
  refine .recoded looped ?_
  cases isTested <;> simp [Emit.ready, Emit.exitTest]

/-- Two jumps around the branches lay out a choice behind its condition. -/
theorem alternative (condition : Emitted .plain image before start first test (testCode, tested))
    (thenCode : Emitted .inLoop image tested (start + testCode.length + 1) second one (code, middle))
    (elseCode : Emitted .inLoop image middle (start + testCode.length + 1 + code.length + 1) third two
      (other, after)) :
    Emitted .inLoop image before start (first + second + third) (test ++ .choose one two)
      (Emit.ready (testCode ++
        [.jumpIfFalse (Emit.position (start + testCode.length + 1 + code.length + 1))]) ++ code ++
        Emit.ready [.jump (Emit.position (start + testCode.length + 1 + code.length + 1 + other.length))] ++
        other, after) := by
  have chosen : Emitted .inLoop image tested (start + testCode.length) (second + third) (.choose one two)
      (.ready (.jumpIfFalse (Emit.position (start + testCode.length + 1 + code.length + 1))) :: code ++
        .ready (.jump (Emit.position (start + testCode.length + 1 + code.length + 1 + other.length))) ::
          other, after) :=
    .choose thenCode elseCode (fun _ _ => .jumpIfFalse _) (fun _ _ => .jump _)
  rw [Nat.add_assoc]
  refine .recoded (.append condition.ready ?_ chosen) ?_
  · rw [Emit.ready, List.length_map]
  · simp only [Emit.ready, List.map_append, List.append_assoc]
    rfl

end

end Emitted

namespace Emit

variable {image : Image}

/-- The code of an expression that stands as a statement lays out its block. -/
theorem emitted_effect (addressable : image.IsAddressable) (value : TypedExpr) (start : Nat)
    (before : EmitState) :
    Emitted .plain image before start value.temporaries (value.effectBody before.slots)
      ((effect start value).run before) := by
  have plain := emitted_expression addressable value start before
  unfold effect TypedExpr.effectBody
  split
  · next index assigned _ _ =>
    simp only [TypedExpr.temporaries, TypedNode.temporaries, Place.temporaries, Nat.zero_add]
    exact .followed (emitted_expression addressable assigned start before) (.command fun _ => .store index)
  · next index operation changed _ _ =>
    simp only [TypedExpr.temporaries, TypedNode.temporaries, Place.temporaries, Nat.zero_add]
    have loaded : Emitted .plain image before start 0 (.command (.load index))
      ([.load (slot index)], before) := .command fun _ => .load index
    exact .followed (.preceded loaded rfl (emitted_expression addressable changed (start + 1) before))
      (.commands (fun _ => .cons (.operate operation) (.cons (.store index) .nil)) rfl)
  · next index isIncrement isFront type _ =>
    have operate : Instruction.Encodes image _ _ := .operate (stepOperation isIncrement)
    refine .behind (constant_grows type.one before) rfl (.commands (fun within => ?_) rfl)
    have one := Instruction.Encodes.const (constant_found addressable type.one before within)
    exact .cons (.load index) (.cons one (.cons operate (.cons (.store index) .nil)))
  · split
    · next isVoid =>
      simp only [isVoid, beq_self_eq_true, if_true]
      exact plain
    · next hasValue =>
      simp only [beq_eq_false_iff_ne.2 hasValue, Bool.false_eq_true, if_false]
      exact .followed plain (.command fun _ => .drop)

/-- The code of expressions that stand as statements lays out their block. -/
theorem emitted_effects (addressable : image.IsAddressable) (values : List TypedExpr) (start : Nat)
    (before : EmitState) :
    Emitted .plain image before start (TypedExpr.temporariesOfAll values)
      (TypedExpr.effectBlockOfAll before.slots values) ((effects start values).run before) := by
  induction values generalizing start before with
  | nil => exact .empty
  | cons first rest ih =>
      have head := (emitted_effect addressable first start before).scope .statement
      have tail := ih (start + ((effect start first).run before).1.length)
        ((effect start first).run before).2
      rw [head.slots] at tail
      exact .append head rfl tail

/-- The code of a condition that may be missing lays out its block. -/
theorem emitted_optionalTest (addressable : image.IsAddressable) (condition : Option TypedExpr)
    (start : Nat) (before : EmitState) :
    Emitted .plain image before start (TypedExpr.optionalTemporaries condition)
      (TypedExpr.optionalBlock before.slots condition)
      ((((optionalTest start condition).run before).1).getD [],
        ((optionalTest start condition).run before).2) := by
  cases condition with
  | none => exact .empty
  | some condition => exact emitted_expression addressable condition start before

mutual

/-- The code of a statement lays out its block. -/
theorem emitted_statement (addressable : image.IsAddressable) (source : TypedStmt) (start : Nat)
    (before : EmitState) :
    Emitted .inLoop image before start source.temporaries (source.body before.slots)
      ((statement start source).run before) := by
  match source with
  | .block body => exact emitted_statements addressable body start before
  | .evaluate value => exact .ready (emitted_effect addressable value start before)
  | .giveBack _ none =>
    exact .ready (.command fun _ => .giveBackNothing)
  | .giveBack _ (some value) =>
    exact .ready (.followed (emitted_expression addressable value start before)
      (.command fun _ => .giveBack))
  | .branch condition thenBranch none =>
    let tested := (expression start condition).run before
    have test := emitted_expression addressable condition start before
    have body := emitted_statement addressable thenBranch (start + tested.1.length + 1) tested.2
    rw [test.slots] at body
    exact .branch test (body.scope .statement)
  | .branch condition thenBranch (some elseBranch) =>
    let tested := (expression start condition).run before
    let chosen := (statement (start + tested.1.length + 1) thenBranch).run tested.2
    have test := emitted_expression addressable condition start before
    have first := emitted_statement addressable thenBranch (start + tested.1.length + 1) tested.2
    have second := emitted_statement addressable elseBranch
      (start + tested.1.length + 1 + chosen.1.length + 1) chosen.2
    rw [first.slots, test.slots] at second
    rw [test.slots] at first
    exact .alternative test (first.scope .statement) (second.scope .statement)
  | .whileLoop condition body =>
    let tested := (expression start condition).run before
    have test := emitted_expression addressable condition start before
    have round := (emitted_statement addressable body (start + tested.1.length + 1) tested.2).scope .statement
    rw [test.slots] at round
    exact .whileLoop test round
  | .forLoop first condition steps body =>
    let entered := (statements start first).run before
    let again := start + entered.1.length
    let test := (optionalTest again condition).run entered.2
    let round := (statement (again + exitTestLength test.1) body).run test.2
    let next := again + exitTestLength test.1 + round.1.length
    have enter := emitted_statements addressable first start before
    have tested := emitted_optionalTest addressable condition again entered.2
    have rounds := (emitted_statement addressable body (again + exitTestLength test.1) test.2).scope .statement
    have advance := emitted_effects addressable steps next round.2
    have testedSlots : test.2.slots = entered.2.slots + TypedExpr.optionalTemporaries condition :=
      tested.slots
    rw [rounds.slots, testedSlots, enter.slots] at advance
    rw [testedSlots, enter.slots] at rounds
    rw [enter.slots] at tested
    have looped := Emitted.forLoop test.1 tested rounds advance
    have isTested : test.1.isSome = condition.isSome := by cases condition <;> rfl
    rw [isTested] at looped
    have whole := enter.append rfl looped
    simp only [statement, TypedStmt.temporaries]
    rw [Nat.add_assoc, Nat.add_assoc, ← Nat.add_assoc (TypedExpr.optionalTemporaries condition)]
    refine .recoded whole ?_
    rw [← List.append_assoc, ← List.append_assoc]
    rfl
  | .leaveLoop =>
    exact ⟨rfl, rfl, id, fun _ done _ => .cons (.jump done) .nil⟩
  | .nextRound =>
    exact ⟨rfl, rfl, id, fun _ _ round => .cons (.jump round) .nil⟩

/-- The code of statements lays out their block. -/
theorem emitted_statements (addressable : image.IsAddressable) (sources : List TypedStmt)
    (start : Nat) (before : EmitState) :
    Emitted .inLoop image before start (TypedStmt.temporariesOfAll sources)
      (TypedStmt.blockOfAll before.slots sources) ((statements start sources).run before) := by
  match sources with
  | [] => exact .empty
  | first :: rest =>
    have head := (emitted_statement addressable first start before).scope .statement
    have tail := emitted_statements addressable rest
      (start + ((statement start first).run before).1.length) ((statement start first).run before).2
    rw [head.slots] at tail
    exact .append head rfl tail

end

end Emit

/-- What a compiled method keeps of the typed method. -/
structure MethodImage.Compiles (compiled : MethodImage) (image : Image) (method : TypedMethod) : Prop where
  signature : compiled.signature = method.signature
  slotCount : compiled.slotCount.toNat = method.slots.length + method.temporaries
  short : compiled.code.length < UInt32.size
  encodes : List.Forall₂ (Instruction.Encodes image) compiled.code (method.block.layout 0 0 0)

namespace MethodImage.Compiles

variable {compiled : MethodImage} {image : Image} {method : TypedMethod}
  (compiles : compiled.Compiles image method)

include compiles

/-- The code is as long as the block. -/
theorem length_code : compiled.code.length = method.block.length := by
  rw [compiles.encodes.length_eq, Block.length_layout]

/-- Every instruction stands for the one at its place in the layout. -/
theorem exists_line {position : Nat} {instruction : Instruction}
    (found : compiled.code[position]? = some instruction) :
    ∃ line, (method.block.layout 0 0 0)[position]? = some line ∧ instruction.Encodes image line := by
  obtain ⟨inside, rfl⟩ := List.getElem?_eq_some_iff.1 found
  have inside' : position < (method.block.layout 0 0 0).length := compiles.encodes.length_eq ▸ inside
  exact ⟨_, List.getElem?_eq_getElem inside', (List.forall₂_iff_get.1 compiles.encodes).2 position inside inside'⟩

/-- Jumps stay in the code or go to its end. -/
theorem target_le {position target : Nat} {line : Assembly}
    (found : (method.block.layout 0 0 0)[position]? = some line) (jumps : line.target? = some target) :
    target ≤ compiled.code.length := by
  rw [compiles.length_code]
  have inside := Block.target_of_mem_layout (List.mem_of_getElem? found) jumps
  omega

theorem target_lt {position target : Nat} {line : Assembly}
    (found : (method.block.layout 0 0 0)[position]? = some line) (jumps : line.target? = some target) :
    target < UInt32.size :=
  Nat.lt_of_le_of_lt (compiles.target_le found jumps) compiles.short

/-- The code of a method that keeps its promises uses slots of its frame and methods of the program, and stores to no
`in` parameter. -/
theorem allowed {program : TypedProgram} {libraries : LibrarySet} (fits : program.MethodFits libraries method)
    {position : Nat} {single : Command}
    (found : (method.block.layout 0 0 0)[position]? = some (.command single)) :
    (program.typing libraries method).Allows compiled.slotCount.toNat single := by
  rw [compiles.slotCount]
  exact fits.block_allowed.of_mem_layout (List.mem_of_getElem? found)

/-- The code of a method that keeps its promises uses slots of its frame and methods of the program. -/
theorem indexes {program : TypedProgram} {libraries : LibrarySet} (fits : program.MethodFits libraries method)
    {position : Nat} {single : Command}
    (found : (method.block.layout 0 0 0)[position]? = some (.command single)) :
    single.Indexes compiled.slotCount.toNat program.methods.length := by
  have known := (compiles.allowed fits found).indexes
  rwa [TypedProgram.typing, List.length_map] at known

end MethodImage.Compiles

namespace Emit

/-- Outside all loops a jump out of a round goes to the start of the method. -/
theorem settled_eq (code : StatementCode) : code.settled = Settling.inLoop 0 0 code := by
  cases code <;> rfl

/-- The code of a method lays out its block. -/
theorem emitted_method {image : Image} (addressable : image.IsAddressable) (method : TypedMethod)
    (before : EmitState) (slots : before.slots = method.slots.length) :
    let result := (methodCode method).run before
    result.2.slots = method.slots.length + method.temporaries ∧
      (result.2.Within image → before.Within image ∧
        List.Forall₂ (Instruction.Encodes image) result.1 (method.block.layout 0 0 0)) := by
  have body := emitted_statements addressable method.body 0 before
  have codes (within) := body.encodes within 0 0
  rw [slots] at codes
  simp only [methodCode, TypedMethod.block]
  refine ⟨body.slots.trans (by rw [slots, TypedMethod.temporaries]), fun within => ⟨body.grows within, ?_⟩⟩
  have settled : ((statements 0 method.body).run before).1.map (·.settled) =
      ((statements 0 method.body).run before).1.map (Settling.inLoop 0 0) :=
    List.map_congr_left fun code _ => settled_eq code
  have placed := codes within
  rw [← settled] at placed
  by_cases isVoid : method.result = .void
  · simp only [isVoid, beq_self_eq_true, if_true]
    exact List.rel_append placed (.cons .giveBackNothing .nil)
  · simp only [isVoid, beq_eq_false_iff_ne.2 isVoid, Bool.false_eq_true, if_false]
    exact placed

end Emit

/-- A compiled method, if nothing is exceeded. -/
theorem TypedMethod.toImage_run (method : TypedMethod) (state : EmitState) :
    method.toImage.run state =
      let result := (Emit.methodCode method).run { state with slots := method.slots.length }
      match result.2.excess? result.1 with
      | some excess => .error (Finding.unsupported excess method.span)
      | none => .ok (⟨method.name, .ofNat method.owner, method.isPublic, true, method.signature,
          .ofNat result.2.slots, result.1⟩, result.2) := by
  simp only [toImage, StateT.run_bind, StateT.run_get, pure_bind]
  generalize (Emit.methodCode method).run _ = result
  obtain ⟨code, after⟩ := result
  cases found : after.excess? code with
  | none => simp only [found]; rfl
  | some excess => simp only [found]; rfl

/-- Whether every pool can be indexed by 32 bits. -/
structure EmitState.IsAddressable (state : EmitState) : Prop where
  constants : state.constants.entries.size ≤ UInt32.size
  strings : state.strings.entries.size ≤ UInt32.size
  imports : state.imports.entries.size ≤ UInt32.size

/-- What has been needed is not too much if nothing is exceeded. -/
theorem EmitState.excess?_eq_none {state : EmitState} {code : List Instruction}
    (fits : state.excess? code = none) :
    state.slots ≤ 65535 ∧ state.IsAddressable ∧ code.length < UInt32.size := by
  unfold excess? at fits
  simp only at fits
  split_ifs at fits
  exact ⟨by omega, ⟨by omega, by omega, by omega⟩, by omega⟩

namespace TypedMethod

/-- A compiled method lays out its block in every image that holds what it needs. -/
theorem compiles_of_toImage {method : TypedMethod} {state after : EmitState}
    {compiled : MethodImage} (done : method.toImage.run state = .ok (compiled, after)) :
    after.IsAddressable ∧ ∀ image : Image, image.IsAddressable → after.Within image →
      state.Within image ∧ compiled.Compiles image method := by
  simp only [toImage_run] at done
  split at done
  · cases done
  · next fits =>
    obtain ⟨slots, addressable, short⟩ := EmitState.excess?_eq_none fits
    cases done
    refine ⟨addressable, fun image imageAddressable within => ?_⟩
    obtain ⟨count, codes⟩ := Emit.emitted_method imageAddressable method
      { state with slots := method.slots.length } rfl
    obtain ⟨grown, encodes⟩ := codes within
    refine ⟨⟨grown.constants, grown.strings, grown.imports⟩, rfl, ?_, short, encodes⟩
    rw [← count]
    exact UInt16.toNat_ofNat_of_lt' (by simpa [UInt16.size] using Nat.lt_succ_of_le slots)

/-- Methods are compiled one after another. -/
theorem mapM_toImage_cons {first : TypedMethod} {rest : List TypedMethod} {state after : EmitState}
    {compiled : List MethodImage} (done : ((first :: rest).mapM toImage).run state = .ok (compiled, after)) :
    ∃ (one : MethodImage) (middle : EmitState) (others : List MethodImage),
      first.toImage.run state = .ok (one, middle) ∧ (rest.mapM toImage).run middle = .ok (others, after) ∧
        compiled = one :: others := by
  rw [List.mapM_cons, StateT.run_bind] at done
  cases firstDone : first.toImage.run state with
  | error finding =>
    rw [firstDone] at done
    cases done
  | ok result =>
    obtain ⟨one, middle⟩ := result
    rw [firstDone] at done
    replace done : ((rest.mapM toImage) >>= fun others => pure (one :: others)).run middle =
      .ok (compiled, after) := done
    rw [StateT.run_bind] at done
    cases restDone : (rest.mapM toImage).run middle with
    | error finding =>
      rw [restDone] at done
      cases done
    | ok result =>
      obtain ⟨others, last⟩ := result
      rw [restDone] at done
      cases done
      exact ⟨one, middle, others, rfl, restDone, rfl⟩

/-- Compiled methods lay out their blocks in every image that holds what they need. -/
theorem compiles_of_mapM {methods : List TypedMethod} {state after : EmitState}
    {compiled : List MethodImage} (addressable : state.IsAddressable)
    (done : (methods.mapM toImage).run state = .ok (compiled, after)) :
    after.IsAddressable ∧ ∀ image : Image, image.IsAddressable → after.Within image →
      state.Within image ∧
        List.Forall₂ (fun method compiled => compiled.Compiles image method) methods compiled := by
  induction methods generalizing state compiled with
  | nil =>
      cases done
      exact ⟨addressable, fun image _ within => ⟨within, .nil⟩⟩
  | cons first rest ih =>
      obtain ⟨one, middle, others, firstDone, restDone, rfl⟩ := mapM_toImage_cons done
      obtain ⟨firstAddressable, firstCompiles⟩ := compiles_of_toImage firstDone
      obtain ⟨lastAddressable, restCompile⟩ := ih firstAddressable restDone
      refine ⟨lastAddressable, fun image imageAddressable within => ?_⟩
      obtain ⟨middleWithin, othersCompile⟩ := restCompile image imageAddressable within
      obtain ⟨stateWithin, oneCompiles⟩ := firstCompiles image imageAddressable middleWithin
      exact ⟨stateWithin, .cons oneCompiles othersCompile⟩

end TypedMethod

/-- The tables of an image are the pools of its compilation. -/
theorem TypedProgram.compiles_of_toImage {program : TypedProgram} {moduleName : String} {image : Image}
    (done : program.toImage moduleName = .ok image) :
    image.IsAddressable ∧
      List.Forall₂ (fun method compiled => compiled.Compiles image method) program.methods
        image.methods := by
  unfold toImage at done
  cases compiled : (program.methods.mapM TypedMethod.toImage).run .empty with
  | error finding =>
      rw [compiled] at done
      cases done
  | ok result =>
      obtain ⟨methods, state⟩ := result
      rw [compiled] at done
      cases done
      have empty : EmitState.empty.IsAddressable := ⟨Nat.zero_le _, Nat.zero_le _, Nat.zero_le _⟩
      obtain ⟨addressable, compiles⟩ := TypedMethod.compiles_of_mapM empty compiled
      refine ⟨⟨addressable.constants, addressable.strings, addressable.imports⟩, ?_⟩
      refine (compiles _ ⟨addressable.constants, addressable.strings, addressable.imports⟩ ?_).2
      refine ⟨?_, ?_, ?_⟩ <;> intro index entry held <;> simpa using held

/-- Whether an image is the compiled form of a program whose methods keep their promises. -/
structure TypedProgram.CompilesTo (program : TypedProgram) (libraries : LibrarySet) (image : Image) : Prop where
  fits : ∀ method ∈ program.methods, program.MethodFits libraries method
  count : program.methods.length ≤ UInt32.size
  addressable : image.IsAddressable
  methods : List.Forall₂ (fun method compiled => compiled.Compiles image method) program.methods image.methods

namespace TypedProgram.CompilesTo

variable {program : TypedProgram} {libraries : LibrarySet} {image : Image}
  (compiles : program.CompilesTo libraries image)

include compiles

theorem length_methods : image.methods.length = program.methods.length := compiles.methods.length_eq.symm

/-- The compiled form of a method stands at the method's place. -/
theorem compiled_at {index : Nat} {compiled : MethodImage} (found : image.methods[index]? = some compiled) :
    ∃ method, program.methods[index]? = some method ∧ program.MethodFits libraries method ∧
      compiled.Compiles image method := by
  obtain ⟨inside, rfl⟩ := List.getElem?_eq_some_iff.1 found
  have inside' : index < program.methods.length := compiles.length_methods ▸ inside
  exact ⟨_, List.getElem?_eq_getElem inside', compiles.fits _ (List.getElem_mem inside'),
    (List.forall₂_iff_get.1 compiles.methods).2 index inside' inside⟩

/-- A method has a compiled form at its place. -/
theorem exists_compiled {index : Nat} {method : TypedMethod} (found : program.methods[index]? = some method) :
    ∃ compiled, image.methods[index]? = some compiled ∧ program.MethodFits libraries method ∧
      compiled.Compiles image method := by
  have inside : index < image.methods.length :=
    compiles.length_methods ▸ (List.getElem?_eq_some_iff.1 found).1
  obtain ⟨same, isSame, fits, code⟩ := compiles.compiled_at (List.getElem?_eq_getElem inside)
  cases found.symm.trans isSame
  exact ⟨_, List.getElem?_eq_getElem inside, fits, code⟩

/-- Indices of methods fit into 32 bits. -/
theorem toNat_ofNat {index : Nat} {method : TypedMethod} (found : program.methods[index]? = some method) :
    (UInt32.ofNat index).toNat = index :=
  UInt32.toNat_ofNat_of_lt' (Nat.lt_of_lt_of_le (List.getElem?_eq_some_iff.1 found).1 compiles.count)

end TypedProgram.CompilesTo

end Snippet
