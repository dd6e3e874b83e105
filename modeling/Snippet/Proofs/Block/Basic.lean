import Snippet.Image.Basic

/-!
Blocks: code with its control flow in the shape of the source, and with the constants, names and
functions it needs in the place of indices. A block is laid out to a list of instructions whose
jumps know their targets. Main statement: the layout has the length of its block.
-/

namespace Snippet

/-- An instruction other than a jump. -/
inductive Command where
  | const (value : Constant)
  | load (slot : Nat)
  | store (slot : Nat)
  | duplicate
  | drop
  | operate (operation : Operation)
  | negate
  | not
  | convert (conversion : NumericConversion)
  | cast (target : String)
  | call (method : Nat)
  | hostCall (function : FunctionImport)
  | builtin (member : BuiltinMember)
  | newList (element : String)
  | newObject (type : String)
  | loadField (name : String)
  | storeField (name : String)
  | giveBack
  | giveBackNothing

/-- A part of the source that a block comes from. -/
inductive Extent where
  | statement
  /-- An expression of a static type. -/
  | value (type : Ty)

/-- Code whose control flow is nested. -/
inductive Block where
  | empty
  | command (single : Command)
  | append (first second : Block)
  /-- Pops a truth value and runs the body if it is the given one. -/
  | guard (truth : Bool) (body : Block)
  /-- Pops a truth value and runs the first block if it is true, else the second one. -/
  | choose (thenBlock elseBlock : Block)
  /-- Runs test, body and advance round by round. A guarded loop pops a truth value behind its test
  and ends if it is false. The next round of a direct loop starts without the advance. -/
  | loop (isGuarded isDirect : Bool) (test body advance : Block)
  | leaveLoop
  | nextRound
  /-- The code of a part of the source. -/
  | scope (extent : Extent) (body : Block)

/-- An instruction at a place in a list of them. -/
inductive Assembly where
  | command (single : Command)
  | jump (target : Nat)
  /-- Pops a truth value and jumps if it is the given one. -/
  | jumpIf (truth : Bool) (target : Nat)

namespace Block

instance : Append Block := ⟨append⟩

/-- Commands in order. -/
def ofList : List Command → Block
  | [] => empty
  | first :: rest => append (command first) (ofList rest)

/-- The number of instructions in the layout of a block. -/
def length : Block → Nat
  | empty => 0
  | command _ | leaveLoop | nextRound => 1
  | append first second => first.length + second.length
  | guard _ body => 1 + body.length
  | choose thenBlock elseBlock => 1 + thenBlock.length + 1 + elseBlock.length
  | loop isGuarded _ test body advance =>
    test.length + (if isGuarded then 1 else 0) + body.length + advance.length + 1
  | scope _ body => body.length

/-- The instructions of a block that is placed at a start, in a loop whose end and whose next round
lie at the given positions. -/
def layout (start done round : Nat) : Block → List Assembly
  | empty => []
  | command single => [.command single]
  | append first second =>
    first.layout start done round ++ second.layout (start + first.length) done round
  | guard truth body =>
    .jumpIf (!truth) (start + 1 + body.length) :: body.layout (start + 1) done round
  | choose thenBlock elseBlock =>
    let elseStart := start + 1 + thenBlock.length + 1
    .jumpIf false elseStart :: thenBlock.layout (start + 1) done round ++
      .jump (elseStart + elseBlock.length) :: elseBlock.layout elseStart done round
  | loop isGuarded isDirect test body advance =>
    let bodyStart := start + test.length + (if isGuarded then 1 else 0)
    let next := bodyStart + body.length
    let finish := next + advance.length + 1
    test.layout start done round ++ (if isGuarded then [.jumpIf false finish] else []) ++
      body.layout bodyStart finish (if isDirect then start else next) ++
      advance.layout next done round ++ [.jump start]
  | leaveLoop => [.jump done]
  | nextRound => [.jump round]
  | scope _ body => body.layout start done round

/-- The parts of the source in a block that is placed at a start, each with the positions where its
code begins and ends. -/
def extents (start : Nat) : Block → List (Extent × Nat × Nat)
  | empty | command _ | leaveLoop | nextRound => []
  | append first second => first.extents start ++ second.extents (start + first.length)
  | guard _ body => body.extents (start + 1)
  | choose thenBlock elseBlock =>
    thenBlock.extents (start + 1) ++ elseBlock.extents (start + 1 + thenBlock.length + 1)
  | loop isGuarded _ test body advance =>
    let bodyStart := start + test.length + (if isGuarded then 1 else 0)
    test.extents start ++ body.extents bodyStart ++ advance.extents (bodyStart + body.length)
  | scope extent body => (extent, start, start + body.length) :: body.extents start

@[simp] theorem length_append (first second : Block) :
    (first ++ second).length = first.length + second.length := rfl

@[simp] theorem layout_append (start done round : Nat) (first second : Block) :
    (first ++ second).layout start done round =
      first.layout start done round ++ second.layout (start + first.length) done round := rfl

@[simp] theorem length_ofList (commands : List Command) :
    (ofList commands).length = commands.length := by
  induction commands with
  | nil => rfl
  | cons first rest ih =>
      simp only [ofList, length, List.length_cons, ih]
      omega

@[simp] theorem length_layout (block : Block) (start done round : Nat) :
    (block.layout start done round).length = block.length := by
  induction block generalizing start done round with
  | empty | command | leaveLoop | nextRound => rfl
  | append first second first_ih second_ih =>
      simp [layout, length, first_ih, second_ih]
  | guard truth body ih =>
      simp only [layout, length, List.length_cons, ih]
      omega
  | choose thenBlock elseBlock then_ih else_ih =>
      simp only [layout, length, List.length_append, List.length_cons, then_ih, else_ih]
      omega
  | loop isGuarded isDirect test body advance test_ih body_ih advance_ih =>
      simp only [layout, length, List.length_append, List.length_cons, List.length_nil, test_ih,
        body_ih, advance_ih]
      cases isGuarded <;> simp
  | scope extent body ih => exact ih start done round

theorem layout_ofList (start done round : Nat) (commands : List Command) :
    (ofList commands).layout start done round = commands.map Assembly.command := by
  induction commands generalizing start with
  | nil => rfl
  | cons first rest ih => simp [ofList, layout, ih]

end Block

end Snippet
