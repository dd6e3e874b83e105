import Mathlib.Data.List.Forall2
import Snippet.Emit.Basic
import Snippet.Proofs.Block.Tree

/-!
The compiler lays out blocks: the code of a typed tree encodes the layout of the tree's block, with
indices in the place of constants, names and imports, and with positions in the place of targets.
-/

namespace Snippet

/-- Whether every table of an image can be indexed by 32 bits. -/
structure Image.IsAddressable (image : Image) : Prop where
  constants : image.constants.length ≤ UInt32.size
  strings : image.strings.length ≤ UInt32.size
  imports : image.imports.length ≤ UInt32.size

/-- Whether an instruction of an image stands for an instruction with names and targets. -/
inductive Instruction.Encodes (image : Image) : Instruction → Assembly → Prop where
  | const {index : UInt32} {value : Constant} (found : image.constants[index.toNat]? = some value) :
    Encodes image (.const index) (.command (.const value))
  | load (index : Nat) : Encodes image (.load (Emit.slot index)) (.command (.load index))
  | store (index : Nat) : Encodes image (.store (Emit.slot index)) (.command (.store index))
  | duplicate : Encodes image .duplicate (.command .duplicate)
  | drop : Encodes image .drop (.command .drop)
  | operate (operation : Operation) :
    Encodes image (.operate operation) (.command (.operate operation))
  | negate : Encodes image .negate (.command .negate)
  | not : Encodes image .not (.command .not)
  | convert (conversion : NumericConversion) :
    Encodes image (.convert conversion) (.command (.convert conversion))
  | cast {index : UInt32} {target : String} (found : image.strings[index.toNat]? = some target) :
    Encodes image (.cast index) (.command (.cast target))
  | call (method : Nat) : Encodes image (.call (.ofNat method)) (.command (.call method))
  | hostCall {index : UInt32} {function : FunctionImport}
      (found : image.imports[index.toNat]? = some (.function function)) :
    Encodes image (.hostCall index) (.command (.hostCall function))
  | builtin (member : BuiltinMember) :
    Encodes image (.builtin member) (.command (.builtin member))
  | newList {index : UInt32} {element : String} (found : image.strings[index.toNat]? = some element) :
    Encodes image (.newList index) (.command (.newList element))
  | newObject {index : UInt32} {type : String}
      (found : image.imports[index.toNat]? = some (.type type)) :
    Encodes image (.newObject index) (.command (.newObject type))
  | loadField {index : UInt32} {name : String} (found : image.strings[index.toNat]? = some name) :
    Encodes image (.loadField index) (.command (.loadField name))
  | storeField {index : UInt32} {name : String} (found : image.strings[index.toNat]? = some name) :
    Encodes image (.storeField index) (.command (.storeField name))
  | giveBack : Encodes image .giveBack (.command .giveBack)
  | giveBackNothing : Encodes image .giveBackNothing (.command .giveBackNothing)
  | jump (target : Nat) : Encodes image (.jump (Emit.position target)) (.jump target)
  | jumpIfFalse (target : Nat) :
    Encodes image (.jumpIfFalse (Emit.position target)) (.jumpIf false target)
  | jumpIfTrue (target : Nat) :
    Encodes image (.jumpIfTrue (Emit.position target)) (.jumpIf true target)

/-! ### Pools and tables -/

/-- Whether every entry of a pool has its index in a table. -/
def Pool.Within {α : Type} (pool : Pool α) (table : List α) : Prop :=
  ∀ (index : Nat) (entry : α), pool.entries[index]? = some entry → table[index]? = some entry

namespace Pool

variable {α : Type} [DecidableEq α]

/-- A pool that has grown by one entry lies in a table only if it did before. -/
theorem within_of_intern {pool : Pool α} {entry : α} {table : List α}
    (within : (pool.intern entry).2.Within table) : pool.Within table := by
  intro index found held
  have inside : index < pool.entries.size := (Array.getElem?_eq_some_iff.1 held).1
  exact within index found ((getElem?_intern_of_lt pool entry index inside).trans held)

/-- The index of an entry finds it in every table in which the pool lies. -/
theorem getElem?_of_intern {pool : Pool α} {entry : α} {table : List α}
    (within : (pool.intern entry).2.Within table) (addressable : table.length ≤ UInt32.size) :
    table[(UInt32.ofNat (pool.intern entry).1).toNat]? = some entry := by
  have found := within _ entry (getElem?_intern pool entry)
  have inside : (pool.intern entry).1 < table.length := (List.getElem?_eq_some_iff.1 found).1
  rwa [UInt32.toNat_ofNat_of_lt' (by omega)]

end Pool

/-- Whether everything that has been needed so far stands in the tables of an image. -/
structure EmitState.Within (state : EmitState) (image : Image) : Prop where
  constants : state.constants.Within image.constants
  strings : state.strings.Within image.strings
  imports : state.imports.Within image.imports

/-! ### Code that lays out a block -/

/-- How code becomes an instruction in a loop whose end and whose next round are known. -/
abbrev Settling (α : Type) := Nat → Nat → α → Instruction

/-- Instructions stay as they are. -/
def Settling.plain : Settling Instruction := fun _ _ instruction => instruction

/-- The jumps out of a loop's round get their targets. -/
def Settling.inLoop : Settling StatementCode := fun done round code => (code.inLoop round done).settled

/-- What a step of the compiler gives: code that lays out a block at a start, and a state in which
the temporaries of the block are taken. -/
structure Emitted {α : Type} (settling : Settling α) (image : Image) (before : EmitState)
    (start temporaries : Nat) (block : Block) (result : List α × EmitState) : Prop where
  slots : result.2.slots = before.slots + temporaries
  length : result.1.length = block.length
  grows : result.2.Within image → before.Within image
  encodes : result.2.Within image → ∀ done round : Nat,
    List.Forall₂ (Instruction.Encodes image) (result.1.map (settling done round))
      (block.layout start done round)

namespace Emitted

section

variable {α : Type} {settling : Settling α} {image : Image} {before middle after : EmitState}
  {start next first second : Nat} {one other : Block} {code rest : List α}

/-- No code lays out the empty block. -/
theorem empty : Emitted settling image before start 0 .empty ([], before) where
  slots := rfl
  length := rfl
  grows := id
  encodes _ _ _ := .nil

/-- Code behind code lays out a block behind a block. -/
theorem append (head : Emitted settling image before start first one (code, middle))
    (place : next = start + code.length)
    (tail : Emitted settling image middle next second other (rest, after)) :
    Emitted settling image before start (first + second) (one ++ other) (code ++ rest, after) where
  slots := by rw [tail.slots, head.slots, Nat.add_assoc]
  length := by rw [List.length_append, head.length, tail.length, Block.length_append]
  grows within := head.grows (tail.grows within)
  encodes within done round := by
    have tailCode := tail.encodes within done round
    rw [place, head.length] at tailCode
    rw [List.map_append, Block.layout_append]
    exact List.rel_append (head.encodes (tail.grows within) done round) tailCode

/-- Code without temporaries may follow. -/
theorem followed (head : Emitted settling image before start first one (code, middle))
    (tail : Emitted settling image middle (start + code.length) 0 other (rest, after)) :
    Emitted settling image before start first (one ++ other) (code ++ rest, after) :=
  head.append rfl tail

/-- Code without temporaries may stand in front. -/
theorem preceded (head : Emitted settling image before start 0 one (code, middle))
    (place : next = start + code.length)
    (tail : Emitted settling image middle next second other (rest, after)) :
    Emitted settling image before start second (one ++ other) (code ++ rest, after) :=
  Nat.zero_add second ▸ head.append place tail

/-- The same code may be put together in another way. -/
theorem recoded (parts : Emitted settling image before start first one (code, after))
    (same : rest = code) : Emitted settling image before start first one (rest, after) :=
  same.symm ▸ parts

/-- The code of a part of the source is the code of its block. -/
theorem scope (extent : Extent) {result : List α × EmitState}
    (body : Emitted settling image before start first one result) :
    Emitted settling image before start first (.scope extent one) result where
  slots := body.slots
  length := body.length
  grows := body.grows
  encodes := body.encodes

/-- A jump over code lays out a guard. -/
theorem guard {truth : Bool} {test : α}
    (body : Emitted settling image before (start + 1) first one (code, after))
    (jumps : ∀ done round : Nat, (settling done round test).Encodes image
      (.jumpIf (!truth) (start + 1 + code.length))) :
    Emitted settling image before start first (.guard truth one) (test :: code, after) where
  slots := body.slots
  length := by
    rw [List.length_cons, body.length, Block.length, Nat.add_comm]
  grows := body.grows
  encodes within done round := by
    refine .cons ?_ (body.encodes within done round)
    rw [← body.length]
    exact jumps done round

/-- Two pieces of code with jumps around them lay out a choice. -/
theorem choose {test exit : α}
    (thenCode : Emitted settling image before (start + 1) first one (code, middle))
    (elseCode : Emitted settling image middle (start + 1 + code.length + 1) second other (rest, after))
    (skips : ∀ done round : Nat, (settling done round test).Encodes image
      (.jumpIf false (start + 1 + code.length + 1)))
    (exits : ∀ done round : Nat, (settling done round exit).Encodes image
      (.jump (start + 1 + code.length + 1 + rest.length))) :
    Emitted settling image before start (first + second) (.choose one other)
      (test :: code ++ exit :: rest, after) where
  slots := by rw [elseCode.slots, thenCode.slots, Nat.add_assoc]
  length := by
    rw [List.length_append, List.length_cons, List.length_cons, thenCode.length, elseCode.length,
      Block.length]
    omega
  grows within := thenCode.grows (elseCode.grows within)
  encodes within done round := by
    have elseLayout := elseCode.encodes within done round
    have skip := skips done round
    have exit := exits done round
    rw [elseCode.length, thenCode.length] at exit
    rw [thenCode.length] at elseLayout skip
    rw [List.map_append, List.map_cons, List.map_cons]
    exact List.rel_append (.cons skip (thenCode.encodes (elseCode.grows within) done round))
      (.cons exit elseLayout)

end

section

variable {image : Image} {before middle after : EmitState} {start count : Nat} {block : Block}
  {code : List Instruction}

/-- An entry may be added to the tables before a block is laid out. -/
theorem behind (grows : middle.Within image → before.Within image)
    (slots : middle.slots = before.slots)
    (tail : Emitted .plain image middle start count block (code, after)) :
    Emitted .plain image before start count block (code, after) where
  slots := by rw [tail.slots, slots]
  length := tail.length
  grows within := grows (tail.grows within)
  encodes := tail.encodes

/-- Instructions that need nothing new lay out their commands. -/
theorem commands {commands : List Command} (encodes : before.Within image →
      List.Forall₂ (Instruction.Encodes image) code (commands.map .command))
    (length : code.length = commands.length) :
    Emitted .plain image before start 0 (.ofList commands) (code, before) where
  slots := rfl
  length := by rw [Block.length_ofList, length]
  grows := id
  encodes within done round := by
    rw [Block.layout_ofList]
    exact (List.map_id code).symm ▸ encodes within

/-- An instruction that needs nothing new lays out its command. -/
theorem command {instruction : Instruction} {single : Command}
    (encodes : before.Within image → instruction.Encodes image (.command single)) :
    Emitted .plain image before start 0 (.command single) ([instruction], before) where
  slots := rfl
  length := rfl
  grows := id
  encodes within _ _ := .cons (encodes within) .nil

/-- The code of an expression is code of a statement. -/
theorem ready (plain : Emitted .plain image before start count block (code, after)) :
    Emitted .inLoop image before start count block (Emit.ready code, after) where
  slots := plain.slots
  length := by rw [Emit.ready, List.length_map, plain.length]
  grows := plain.grows
  encodes within done round := by
    rw [Emit.ready, List.map_map]
    exact plain.encodes within done round

end

section

variable {image : Image} {before middle later after : EmitState} {start first second third : Nat}
  {one two three : Block} {code rest more : List Instruction}

/-- A jump over the right side lays out a logical operator. -/
theorem shortcut (isAnd : Bool) (left : Emitted .plain image before start first one (code, middle))
    (right : Emitted .plain image middle (start + code.length + 3) second two (rest, after)) :
    Emitted .plain image before start (first + second)
      (one ++ .command .duplicate ++ .guard isAnd (.command .drop ++ two))
      (code ++ [.duplicate,
        if isAnd then .jumpIfFalse (Emit.position (start + code.length + 3 + rest.length))
        else .jumpIfTrue (Emit.position (start + code.length + 3 + rest.length)), .drop] ++ rest,
        after) := by
  have duplicated := left.followed (.command fun _ => .duplicate)
  have dropped : Emitted .plain image middle (start + code.length + 2) 0 (.command .drop)
      ([.drop], middle) := .command fun _ => .drop
  have guarded : Emitted .plain image middle (start + code.length + 1) second
      (.guard isAnd (.command .drop ++ two))
      ((if isAnd then .jumpIfFalse (Emit.position (start + code.length + 3 + rest.length))
        else .jumpIfTrue (Emit.position (start + code.length + 3 + rest.length))) ::
          ([.drop] ++ rest), after) := by
    refine .guard (dropped.preceded rfl right) fun _ _ => ?_
    have target : start + code.length + 3 + rest.length =
        start + code.length + 1 + 1 + ([Instruction.drop] ++ rest).length := by
      rw [List.length_append, List.length_singleton]
      omega
    rw [target]
    cases isAnd with
    | true => exact .jumpIfFalse _
    | false => exact .jumpIfTrue _
  refine .recoded (.append duplicated ?_ guarded) ?_
  · rw [List.length_append, List.length_singleton, Nat.add_assoc]
  · rw [List.append_assoc, List.append_assoc]
    rfl

/-- Two jumps around the values lay out a choice behind its condition. -/
theorem choice (test : Emitted .plain image before start first one (code, middle))
    (thenCode : Emitted .plain image middle (start + code.length + 1) second two (rest, later))
    (elseCode : Emitted .plain image later (start + code.length + 1 + rest.length + 1) third three
      (more, after)) :
    Emitted .plain image before start (first + second + third) (one ++ .choose two three)
      (code ++ [.jumpIfFalse (Emit.position (start + code.length + 1 + rest.length + 1))] ++ rest ++
        [.jump (Emit.position (start + code.length + 1 + rest.length + 1 + more.length))] ++ more,
        after) := by
  have chosen := Emitted.choose thenCode elseCode (fun _ _ => .jumpIfFalse _) (fun _ _ => .jump _)
  rw [Nat.add_assoc]
  refine .recoded (.append test rfl chosen) ?_
  simp only [List.append_assoc]
  rfl

end

end Emitted

end Snippet
