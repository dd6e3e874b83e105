import Snippet.Proofs.Block.Program

/-!
Pools: whatever is asked for while a program is compiled, and in whatever order, each index finds exactly that in the
finished image. Main statement: `TypedProgram.pooling_keeps`.
-/

namespace Snippet

/-! ### Pools and tables -/

namespace Pool

variable {α : Type} [DecidableEq α]

/-- New entries come behind the others. -/
theorem isPrefix_intern (pool : Pool α) (entry : α) :
    pool.entries.toList <+: (pool.intern entry).2.entries.toList := by
  unfold intern
  split
  · exact List.prefix_rfl
  · rw [Array.toList_push]
    exact List.prefix_append _ _

/-- An entry is added only where it is missing. -/
theorem nodup_intern {pool : Pool α} (distinct : pool.entries.toList.Nodup) (entry : α) :
    (pool.intern entry).2.entries.toList.Nodup := by
  unfold intern
  split
  · exact distinct
  · next missing =>
    have isNew : entry ∉ pool.entries.toList := by
      intro member
      have absent := Array.findIdx?_eq_none_iff.1 missing entry (Array.mem_toList_iff.1 member)
      simp at absent
    rw [Array.toList_push, List.nodup_append]
    refine ⟨distinct, List.pairwise_singleton _ entry, fun other member added isAdded => ?_⟩
    rintro rfl
    exact isNew (List.mem_singleton.1 isAdded ▸ member)

end Pool

/-- The index of an entry finds it in the table that the pool becomes. -/
theorem Pool.getElem?_toList_intern {α : Type} [DecidableEq α] {pool : Pool α} {entry : α}
    (addressable : (pool.intern entry).2.entries.toList.length ≤ UInt32.size) :
    (pool.intern entry).2.entries.toList[(UInt32.ofNat (pool.intern entry).1).toNat]? = some entry :=
  getElem?_of_intern (fun _ _ held => Array.getElem?_toList.trans held) addressable

theorem getElem?_of_isPrefix {α : Type} {entries later : List α} (begins : entries <+: later) {index : Nat} {entry : α}
    (found : entries[index]? = some entry) : later[index]? = some entry := by
  obtain ⟨inside, rfl⟩ := List.getElem?_eq_some_iff.1 found
  exact List.prefix_iff_getElem?.1 begins index inside

/-- In a table without repetitions two indices are the same exactly if they find the same entry. -/
theorem index_eq_iff {α : Type} {entries : List α} (distinct : entries.Nodup) {first second : UInt32} {one other : α}
    (isFirst : entries[first.toNat]? = some one) (isSecond : entries[second.toNat]? = some other) :
    first = second ↔ one = other := by
  refine ⟨fun same => Option.some.inj (isFirst.symm.trans (same ▸ isSecond)), fun same => UInt32.toNat_inj.1 ?_⟩
  have inside : first.toNat < entries.length := (List.getElem?_eq_some_iff.1 isFirst).1
  exact (List.getElem?_inj inside distinct).1 (isFirst.trans (same ▸ isSecond.symm))

/-- The constants, strings and imports that instructions name by their indices. -/
structure Tables where
  constants : List Constant
  strings : List String
  imports : List Import

/-- What the compiler asks the pools for. -/
inductive Request where
  | constant (value : Constant)
  | string (value : String)
  | imported (value : Import)

/-- Whether two requests are for entries of one table. -/
def Request.IsAlike : Request → Request → Prop
  | constant _, constant _ | string _, string _ | imported _, imported _ => True
  | _, _ => False

/-- The tables of an image. -/
def Image.tables (image : Image) : Tables := ⟨image.constants, image.strings, image.imports⟩

/-- The tables that the pools have become so far. -/
def EmitState.tables (state : EmitState) : Tables :=
  ⟨state.constants.entries.toList, state.strings.entries.toList, state.imports.entries.toList⟩

namespace Tables

/-- Whether an index finds in the tables exactly what was asked for. -/
def Finds (tables : Tables) (index : UInt32) : Request → Prop
  | .constant value => tables.constants[index.toNat]? = some value
  | .string value => tables.strings[index.toNat]? = some value
  | .imported value => tables.imports[index.toNat]? = some value

/-- Whether later tables only have more entries behind these. -/
structure Begins (tables later : Tables) : Prop where
  constants : tables.constants <+: later.constants
  strings : tables.strings <+: later.strings
  imports : tables.imports <+: later.imports

/-- Whether no table holds an entry twice. -/
structure Distinct (tables : Tables) : Prop where
  constants : tables.constants.Nodup
  strings : tables.strings.Nodup
  imports : tables.imports.Nodup

/-- Whether every table can be indexed by 32 bits. -/
structure IsAddressable (tables : Tables) : Prop where
  constants : tables.constants.length ≤ UInt32.size
  strings : tables.strings.length ≤ UInt32.size
  imports : tables.imports.length ≤ UInt32.size

namespace Begins

variable {tables middle later : Tables}

theorem refl (tables : Tables) : tables.Begins tables := ⟨List.prefix_rfl, List.prefix_rfl, List.prefix_rfl⟩

theorem trans (first : tables.Begins middle) (second : middle.Begins later) : tables.Begins later where
  constants := first.constants.trans second.constants
  strings := first.strings.trans second.strings
  imports := first.imports.trans second.imports

/-- An index stays valid while entries are added. -/
theorem finds (begins : tables.Begins later) {index : UInt32} {request : Request}
    (found : tables.Finds index request) : later.Finds index request := by
  cases request with
  | constant value => exact getElem?_of_isPrefix begins.constants found
  | string value => exact getElem?_of_isPrefix begins.strings found
  | imported value => exact getElem?_of_isPrefix begins.imports found

theorem isAddressable (begins : tables.Begins later) (addressable : later.IsAddressable) : tables.IsAddressable where
  constants := Nat.le_trans begins.constants.length_le addressable.constants
  strings := Nat.le_trans begins.strings.length_le addressable.strings
  imports := Nat.le_trans begins.imports.length_le addressable.imports

end Begins

/-- Requests for entries of one table have the same index exactly if they are the same. -/
theorem Distinct.index_eq_iff {tables : Tables} (distinct : tables.Distinct) {first second : Request}
    (alike : first.IsAlike second) {index index' : UInt32} (found : tables.Finds index first)
    (found' : tables.Finds index' second) : index = index' ↔ first = second := by
  cases first with
  | constant value =>
    cases second with
    | constant other => rw [Snippet.index_eq_iff distinct.constants found found', Request.constant.injEq]
    | string _ | imported _ => cases alike
  | string value =>
    cases second with
    | string other => rw [Snippet.index_eq_iff distinct.strings found found', Request.string.injEq]
    | constant _ | imported _ => cases alike
  | imported value =>
    cases second with
    | imported other => rw [Snippet.index_eq_iff distinct.imports found found', Request.imported.injEq]
    | constant _ | string _ => cases alike

end Tables

/-! ### Requests -/

/-- The step of the compiler that asks. -/
def Request.ask : Request → Emit UInt32
  | constant value => Emit.constant value
  | string value => Emit.string value
  | imported value => Emit.imported value

/-- A request with the index that was given for it and the tables right behind it. -/
structure Answer where
  request : Request
  index : UInt32
  tables : Tables

/-- What a step of the compiler asks for, one request after another; each may depend on the indices given before. -/
inductive Asking (α : Type) where
  | done (value : α)
  | ask (request : Request) (next : UInt32 → Asking α)
  | temporary (next : UInt16 → Asking α)

namespace Asking

variable {α β : Type}

/-- The step itself. -/
def run : Asking α → Emit α
  | done value => pure value
  | ask request next => do (next (← request.ask)).run
  | temporary next => do (next (← Emit.temporary)).run

/-- Goes on with what the result asks for. -/
def bind : Asking α → (α → Asking β) → Asking β
  | done value, rest => rest value
  | ask request next, rest => ask request fun index => (next index).bind rest
  | temporary next, rest => temporary fun slot => (next slot).bind rest

theorem run_bind (asking : Asking α) (rest : α → Asking β) :
    (asking.bind rest).run = asking.run >>= fun value => (rest value).run := by
  induction asking with
  | done value => rfl
  | ask request next ih => simp only [bind, run, bind_assoc, ih]
  | temporary next ih => simp only [bind, run, bind_assoc, ih]

/-- The answers to all requests, in order. -/
def answers : Asking α → EmitState → List Answer
  | done _, _ => []
  | ask request next, before =>
    let (index, after) := request.ask.run before
    ⟨request, index, after.tables⟩ :: (next index).answers after
  | temporary next, before =>
    let (slot, after) := Emit.temporary.run before
    (next slot).answers after

end Asking

/-- Whether answers were given one after another while tables grew. -/
structure Answered (before : Tables) (answers : List Answer) (after : Tables) : Prop where
  begins : before.Begins after
  between : ∀ answer ∈ answers, before.Begins answer.tables ∧ answer.tables.Begins after
  ordered : answers.Pairwise fun earlier later => earlier.tables.Begins later.tables
  found : ∀ answer ∈ answers, answer.tables.IsAddressable → answer.tables.Finds answer.index answer.request
  distinct : before.Distinct → after.Distinct

namespace Answered

variable {before middle after : Tables} {first second : List Answer}

theorem none (tables : Tables) : Answered tables [] tables where
  begins := .refl tables
  between := nofun
  ordered := .nil
  found := nofun
  distinct := id

theorem append (head : Answered before first middle) (tail : Answered middle second after) :
    Answered before (first ++ second) after where
  begins := head.begins.trans tail.begins
  between answer member := by
    rcases List.mem_append.1 member with early | late
    · exact ⟨(head.between answer early).1, (head.between answer early).2.trans tail.begins⟩
    · exact ⟨head.begins.trans (tail.between answer late).1, (tail.between answer late).2⟩
  ordered := List.pairwise_append.2 ⟨head.ordered, tail.ordered, fun earlier early later late =>
    (head.between earlier early).2.trans (tail.between later late).1⟩
  found answer member := by
    rcases List.mem_append.1 member with early | late
    · exact head.found answer early
    · exact tail.found answer late
  distinct isDistinct := tail.distinct (head.distinct isDistinct)

end Answered

/-- One request is answered by an index that finds what was asked for, and the pools hold it once. -/
theorem Request.ask_answered (request : Request) (before : EmitState) :
    Answered before.tables [⟨request, (request.ask.run before).1, (request.ask.run before).2.tables⟩]
      (request.ask.run before).2.tables := by
  have begins : before.tables.Begins (request.ask.run before).2.tables := by
    cases request with
    | constant value => exact ⟨Pool.isPrefix_intern _ value, List.prefix_rfl, List.prefix_rfl⟩
    | string value => exact ⟨List.prefix_rfl, Pool.isPrefix_intern _ value, List.prefix_rfl⟩
    | imported value => exact ⟨List.prefix_rfl, List.prefix_rfl, Pool.isPrefix_intern _ value⟩
  refine ⟨begins, ?_, List.pairwise_singleton _ _, ?_, fun isDistinct => ?_⟩
  · simpa using ⟨begins, .refl _⟩
  · rw [List.forall_mem_singleton]
    intro addressable
    cases request with
    | constant value => exact Pool.getElem?_toList_intern addressable.constants
    | string value => exact Pool.getElem?_toList_intern addressable.strings
    | imported value => exact Pool.getElem?_toList_intern addressable.imports
  · cases request with
    | constant value =>
      exact ⟨Pool.nodup_intern isDistinct.constants value, isDistinct.strings, isDistinct.imports⟩
    | string value => exact ⟨isDistinct.constants, Pool.nodup_intern isDistinct.strings value, isDistinct.imports⟩
    | imported value => exact ⟨isDistinct.constants, isDistinct.strings, Pool.nodup_intern isDistinct.imports value⟩

/-- However requests follow one another, each is answered as if it were the only one. -/
theorem Asking.answered {α : Type} (asking : Asking α) (before : EmitState) :
    Answered before.tables (asking.answers before) (asking.run.run before).2.tables := by
  induction asking generalizing before with
  | done value => exact .none _
  | ask request next ih => exact (request.ask_answered before).append (ih _ _)
  | temporary next ih => exact ih (Emit.temporary.run before).1 (Emit.temporary.run before).2

/-! ### What the compiler asks for -/

namespace Emit

/-- Whether a step of the compiler does nothing but ask the pools and take temporaries. -/
def Asks {α : Type} (action : Emit α) : Prop := ∃ asking : Asking α, action = asking.run

namespace Asks

variable {α β : Type}

theorem pure (value : α) : Asks (pure value) := ⟨.done value, rfl⟩

theorem bind {first : Emit α} {next : α → Emit β} (head : Asks first) (tail : ∀ value : α, Asks (next value)) :
    Asks (first >>= next) := by
  obtain ⟨asking, rfl⟩ := head
  refine ⟨asking.bind fun value => (tail value).choose, ?_⟩
  rw [Asking.run_bind]
  exact congrArg _ (funext fun value => (tail value).choose_spec)

theorem constant (value : Constant) : Asks (Emit.constant value) := ⟨.ask (.constant value) .done, rfl⟩

theorem string (value : String) : Asks (Emit.string value) := ⟨.ask (.string value) .done, rfl⟩

theorem imported (value : Import) : Asks (Emit.imported value) := ⟨.ask (.imported value) .done, rfl⟩

theorem temporary : Asks Emit.temporary := ⟨.temporary .done, rfl⟩

end Asks

mutual

theorem expression_asks (value : TypedExpr) (start : Nat) : Asks (expression start value) := by
  match value with
  | .mk content type _ =>
    rw [expression]
    exact node_asks content start type

theorem node_asks (content : TypedNode) (start : Nat) (type : Ty) : Asks (node start type content) := by
  match content with
  | .const value =>
    rw [node]
    exact .bind (.constant value) fun _ => .pure _
  | .slot index =>
    rw [node]
    exact .pure _
  | .field object name =>
    rw [node]
    exact .bind (expression_asks object start) fun _ => .bind (.string name) fun _ => .pure _
  | .assign (.slot index) value =>
    rw [node]
    exact .bind (expression_asks value start) fun _ => .pure _
  | .assign (.field object name) value =>
    rw [node]
    exact .bind (expression_asks object start) fun _ => .bind (expression_asks value _) fun _ =>
      .bind (.string name) fun _ => .pure _
  | .update (.slot index) operation value =>
    rw [node]
    exact .bind (expression_asks value _) fun _ => .pure _
  | .update (.field object name) operation value =>
    rw [node]
    exact .bind (.string name) fun _ => .bind (expression_asks object start) fun _ =>
      .bind (expression_asks value _) fun _ => .pure _
  | .step (.slot index) isIncrement isFront =>
    rw [node]
    exact .bind (.constant type.one) fun _ => .pure _
  | .step (.field object name) isIncrement isFront =>
    rw [node]
    refine .bind (.string name) fun _ => .bind (expression_asks object start) fun _ => ?_
    dsimp only
    split
    · exact .bind (.constant type.one) fun _ => .pure _
    · exact .bind .temporary fun _ => .bind (.constant type.one) fun _ => .pure _
  | .binary operation left right | .logical isAnd left right =>
    rw [node]
    exact .bind (expression_asks left start) fun _ => .bind (expression_asks right _) fun _ => .pure _
  | .not operand | .negate operand | .convert (.numeric conversion) operand =>
    rw [node]
    exact .bind (expression_asks operand start) fun _ => .pure _
  | .conditional condition thenValue elseValue =>
    rw [node]
    exact .bind (expression_asks condition start) fun _ => .bind (expression_asks thenValue _) fun _ =>
      .bind (expression_asks elseValue _) fun _ => .pure _
  | .convert (.cast target) operand =>
    rw [node]
    exact .bind (expression_asks operand start) fun _ => .bind (.string target) fun _ => .pure _
  | .call method passed =>
    rw [node]
    exact .bind (arguments_asks passed start) fun _ => .pure _
  | .hostCall function passed =>
    rw [node]
    exact .bind (expressions_asks passed start) fun _ => .bind (.imported _) fun _ => .pure _
  | .builtin member receiver passed =>
    rw [node]
    exact .bind (expression_asks receiver start) fun _ => .bind (expressions_asks passed _) fun _ => .pure _
  | .newList element =>
    rw [node]
    exact .bind (.string element) fun _ => .pure _
  | .newObject name =>
    rw [node]
    exact .bind (.imported _) fun _ => .pure _

theorem expressions_asks (values : List TypedExpr) (start : Nat) : Asks (expressions start values) := by
  match values with
  | [] =>
    rw [expressions]
    exact .pure _
  | first :: rest =>
    rw [expressions]
    exact .bind (expression_asks first start) fun _ => .bind (expressions_asks rest _) fun _ => .pure _

theorem arguments_asks (passed : List TypedArgument) (start : Nat) : Asks (arguments start passed) := by
  match passed with
  | [] =>
    rw [arguments]
    exact .pure _
  | .mk mode value :: rest =>
    unfold arguments
    split
    · next isEmpty => cases isEmpty
    · next isArgument =>
      cases isArgument
      exact .bind (.constant _) fun _ => .bind (arguments_asks rest _) fun _ => .pure _
    · next isArgument =>
      cases isArgument
      exact .bind (expression_asks value start) fun _ => .bind (arguments_asks rest _) fun _ => .pure _

end

theorem effect_asks (value : TypedExpr) (start : Nat) : Asks (effect start value) := by
  unfold effect
  split
  · next assigned _ _ => exact .bind (expression_asks assigned start) fun _ => .pure _
  · next changed _ _ => exact .bind (expression_asks changed _) fun _ => .pure _
  · exact .bind (.constant _) fun _ => .pure _
  · exact .bind (expression_asks value start) fun _ => .pure _

theorem effects_asks (values : List TypedExpr) (start : Nat) : Asks (effects start values) := by
  induction values generalizing start with
  | nil => exact .pure _
  | cons first rest ih => exact .bind (effect_asks first start) fun _ => .bind (ih _) fun _ => .pure _

theorem optionalTest_asks (condition : Option TypedExpr) (start : Nat) : Asks (optionalTest start condition) := by
  cases condition with
  | none => exact .pure _
  | some test => exact .bind (expression_asks test start) fun _ => .pure _

mutual

theorem statement_asks (source : TypedStmt) (start : Nat) : Asks (statement start source) := by
  match source with
  | .block body =>
    rw [statement]
    exact statements_asks body start
  | .evaluate value =>
    rw [statement]
    exact .bind (effect_asks value start) fun _ => .pure _
  | .giveBack _ none | .leaveLoop | .nextRound =>
    rw [statement]
    exact .pure _
  | .giveBack _ (some value) =>
    rw [statement]
    exact .bind (expression_asks value start) fun _ => .pure _
  | .branch condition thenBranch none =>
    rw [statement]
    exact .bind (expression_asks condition start) fun _ => .bind (statement_asks thenBranch _) fun _ => .pure _
  | .branch condition thenBranch (some elseBranch) =>
    rw [statement]
    exact .bind (expression_asks condition start) fun _ => .bind (statement_asks thenBranch _) fun _ =>
      .bind (statement_asks elseBranch _) fun _ => .pure _
  | .whileLoop condition body =>
    rw [statement]
    exact .bind (expression_asks condition start) fun _ => .bind (statement_asks body _) fun _ => .pure _
  | .forLoop first condition steps body =>
    rw [statement]
    exact .bind (statements_asks first start) fun _ => .bind (optionalTest_asks condition _) fun _ =>
      .bind (statement_asks body _) fun _ => .bind (effects_asks steps _) fun _ => .pure _

theorem statements_asks (sources : List TypedStmt) (start : Nat) : Asks (statements start sources) := by
  match sources with
  | [] =>
    rw [statements]
    exact .pure _
  | first :: rest =>
    rw [statements]
    exact .bind (statement_asks first start) fun _ => .bind (statements_asks rest _) fun _ => .pure _

end

/-- The code of a method comes from requests, whatever the pools hold. -/
theorem methodCode_asks (method : TypedMethod) : Asks (methodCode method) :=
  .bind (statements_asks method.body 0) fun _ => .pure _

end Emit

/-! ### Programs -/

/-- The answers to all requests while methods are compiled, if it is known what the compiler asks for. -/
def EmitState.answers (asking : TypedMethod → Asking (List Instruction)) :
    List TypedMethod → EmitState → List Answer
  | [], _ => []
  | method :: rest, state =>
    let before := { state with slots := method.slots.length }
    (asking method).answers before ++ answers asking rest ((asking method).run.run before).2

/-- How the pools serve a program while it is compiled to an image. -/
structure TypedProgram.Pooling (program : TypedProgram) (image : Image)
    (asking : TypedMethod → Asking (List Instruction)) : Prop where
  /-- These are the requests of the compiler, in every state of the pools. -/
  asks : ∀ method : TypedMethod, Emit.methodCode method = (asking method).run
  /-- Every index finds in the image exactly what was asked for. -/
  found : ∀ answer ∈ EmitState.answers asking program.methods .empty,
    image.tables.Finds answer.index answer.request
  /-- It does so from the request on: entries are only added behind the others. -/
  kept : ∀ answer ∈ EmitState.answers asking program.methods .empty,
    answer.tables.Finds answer.index answer.request ∧ answer.tables.Begins image.tables
  /-- No later request takes anything back. -/
  ordered : (EmitState.answers asking program.methods .empty).Pairwise fun earlier later =>
    earlier.tables.Begins later.tables
  /-- Different entries of a table have different indices, and the same entry always has the same index. -/
  apart : ∀ first ∈ EmitState.answers asking program.methods .empty,
    ∀ second ∈ EmitState.answers asking program.methods .empty, first.request.IsAlike second.request →
      (first.index = second.index ↔ first.request = second.request)
  /-- No table holds an entry twice. -/
  distinct : image.tables.Distinct
  /-- With its indices looked up, the code of each method is the code without pools. -/
  compiles : List.Forall₂ (fun method compiled => compiled.Compiles image method) program.methods image.methods

/-- Methods are compiled by the requests that are made for them, in order. -/
theorem TypedMethod.answered_of_mapM {asking : TypedMethod → Asking (List Instruction)}
    (asks : ∀ method : TypedMethod, Emit.methodCode method = (asking method).run) {methods : List TypedMethod}
    {state after : EmitState} {compiled : List MethodImage}
    (done : (methods.mapM toImage).run state = .ok (compiled, after)) :
    Answered state.tables (EmitState.answers asking methods state) after.tables := by
  induction methods generalizing state compiled with
  | nil =>
    cases done
    exact .none _
  | cons first rest ih =>
    obtain ⟨one, middle, others, firstDone, restDone, rfl⟩ := mapM_toImage_cons done
    have isMiddle : middle = ((asking first).run.run { state with slots := first.slots.length }).2 := by
      rw [toImage_run, asks] at firstDone
      dsimp only at firstDone
      split at firstDone
      · cases firstDone
      · cases firstDone
        rfl
    have others := ih restDone
    subst isMiddle
    exact ((asking first).answered { state with slots := first.slots.length }).append others

/-- Whatever is asked for while a program is compiled, and in whatever order: each index finds in the finished image
exactly what was asked for, bit by bit, no later request changes that, and no table holds an entry twice. -/
theorem TypedProgram.pooling_keeps {program : TypedProgram} {moduleName : String} {image : Image}
    (done : program.toImage moduleName = .ok image) :
    ∃ asking : TypedMethod → Asking (List Instruction), program.Pooling image asking := by
  obtain ⟨addressable, compiles⟩ := compiles_of_toImage done
  unfold toImage at done
  cases compiled : (program.methods.mapM TypedMethod.toImage).run .empty with
  | error finding =>
    rw [compiled] at done
    cases done
  | ok result =>
    obtain ⟨methods, state⟩ := result
    rw [compiled] at done
    cases done
    have asks (method : TypedMethod) : Emit.methodCode method = (Emit.methodCode_asks method).choose.run :=
      (Emit.methodCode_asks method).choose_spec
    have answered := TypedMethod.answered_of_mapM asks compiled
    have fits : state.tables.IsAddressable := ⟨addressable.constants, addressable.strings, addressable.imports⟩
    have kept (answer : Answer) (member : answer ∈ EmitState.answers _ program.methods .empty) :
        answer.tables.Finds answer.index answer.request ∧ answer.tables.Begins state.tables :=
      have begins := (answered.between answer member).2
      ⟨answered.found answer member (begins.isAddressable fits), begins⟩
    have found (answer : Answer) (member : answer ∈ EmitState.answers _ program.methods .empty) :
        state.tables.Finds answer.index answer.request :=
      (kept answer member).2.finds (kept answer member).1
    have distinct : state.tables.Distinct := answered.distinct ⟨.nil, .nil, .nil⟩
    refine ⟨_, asks, found, kept, answered.ordered, fun first isFirst second isSecond alike => ?_, distinct, compiles⟩
    exact distinct.index_eq_iff alike (found first isFirst) (found second isSecond)

/-- Two methods that need zeros and ones: `0.0; 1;` and `-0.0; 1L; 0.0;`. -/
def TypedProgram.zerosAndOnes : TypedProgram where
  classes := []
  methods := [
    ⟨"M", "C.M()", 0, false, [], .void, [], [
      .evaluate (.constant (.double 0) ⟨0, 0⟩), .evaluate (.constant (.int 1) ⟨0, 0⟩)], ⟨0, 0⟩⟩,
    ⟨"N", "C.N()", 0, false, [], .void, [], [
      .evaluate (.constant (.double 0x8000000000000000) ⟨0, 0⟩), .evaluate (.constant (.long 1) ⟨0, 0⟩),
      .evaluate (.constant (.double 0) ⟨0, 0⟩)], ⟨0, 0⟩⟩]

/-- The image of the two methods: neither the zeros nor the ones share an entry, and `0.0` is there once. -/
def Image.zerosAndOnes : Image where
  formatVersion := Image.currentVersion
  moduleName := "snippet"
  constants := [.double 0, .int 1, .double 0x8000000000000000, .long 1]
  strings := []
  imports := []
  classes := []
  methods := [
    ⟨"M", 0, false, true, ⟨[], none⟩, 0, [.const 0, .drop, .const 1, .drop, .giveBackNothing]⟩,
    ⟨"N", 0, false, true, ⟨[], none⟩, 0, [.const 2, .drop, .const 3, .drop, .const 0, .drop, .giveBackNothing]⟩]

theorem TypedProgram.pooling_keeps_zerosAndOnes : zerosAndOnes.toImage "snippet" = .ok .zerosAndOnes ∧
    ∃ asking : TypedMethod → Asking (List Instruction), zerosAndOnes.Pooling .zerosAndOnes asking := by
  have done : zerosAndOnes.toImage "snippet" = .ok .zerosAndOnes := by with_unfolding_all rfl
  exact ⟨done, pooling_keeps done⟩

end Snippet
