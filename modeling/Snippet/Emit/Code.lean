import Snippet.Emit.Pool

/-!
The code of typed expressions and statements. Code is placed at a start position, so that jumps
know their targets; only the jumps that leave a loop's round wait until the loop is complete.
-/

namespace Snippet

/-- The constant by which a step changes a number of the type. -/
def Ty.one : Ty → Constant
  | long => .long 1
  | double => .double (Float.toBits 1.0)
  | _ => .int 1

/-- The operation of a step. -/
def stepOperation (isIncrement : Bool) : Operation := if isIncrement then .add else .subtract

namespace Emit

/-- A slot as instructions hold it. -/
def slot (index : Nat) : UInt16 := .ofNat index

/-- A position in the code as instructions hold it. -/
def position (index : Nat) : UInt32 := .ofNat index

/-- The slots of the arguments that a call writes back, in order. -/
def writtenSlots (passed : List TypedArgument) : List Nat :=
  passed.filterMap fun
    | .mk .out (.mk (.slot index) _ _) | .mk .ref (.mk (.slot index) _ _) => some index
    | _ => none

/-- The code behind a call: the final values lie on the stack, the last parameter's on top. -/
def writeBack (passed : List TypedArgument) : List Instruction :=
  (writtenSlots passed).reverse.map fun index => .store (slot index)

mutual

/-- The code that pushes the value of an expression; a void expression pushes nothing. -/
def expression (start : Nat) : TypedExpr → Emit (List Instruction)
  | .mk value type _ => node start type value

/-- The code of an expression of a static type. -/
def node (start : Nat) (type : Ty) : TypedNode → Emit (List Instruction)
  | .const value => return [.const (← constant value)]
  | .slot index => return [.load (slot index)]
  | .field object name => do
    let owner ← expression start object
    return owner ++ [.loadField (← string name)]
  | .assign (.slot index) value => do
    let assigned ← expression start value
    return assigned ++ [.duplicate, .store (slot index)]
  | .assign (.field object name) value => do
    let owner ← expression start object
    let assigned ← expression (start + owner.length) value
    return owner ++ assigned ++ [.storeField (← string name)]
  | .update (.slot index) operation value => do
    let right ← expression (start + 1) value
    return .load (slot index) :: right ++ [.operate operation, .duplicate, .store (slot index)]
  | .update (.field object name) operation value => do
    let field ← string name
    let owner ← expression start object
    let right ← expression (start + owner.length + 2) value
    return owner ++ [.duplicate, .loadField field] ++ right ++
      [.operate operation, .storeField field]
  | .step (.slot index) isIncrement isFront => do
    let one ← constant type.one
    let change := [.const one, .operate (stepOperation isIncrement)]
    return .load (slot index) ::
      (if isFront then change ++ [.duplicate] else .duplicate :: change) ++ [.store (slot index)]
  | .step (.field object name) isIncrement isFront => do
    let field ← string name
    let owner ← expression start object
    let opened := owner ++ [.duplicate, .loadField field]
    if isFront then
      let one ← constant type.one
      return opened ++ [.const one, .operate (stepOperation isIncrement), .storeField field]
    else
      let old ← temporary
      let one ← constant type.one
      return opened ++ [.store old, .load old, .const one, .operate (stepOperation isIncrement),
        .storeField field, .drop, .load old]
  | .binary operation left right => do
    let first ← expression start left
    let second ← expression (start + first.length) right
    return first ++ second ++ [.operate operation]
  | .logical isAnd left right => do
    let first ← expression start left
    let second ← expression (start + first.length + 3) right
    let done := position (start + first.length + 3 + second.length)
    return first ++
      [.duplicate, if isAnd then .jumpIfFalse done else .jumpIfTrue done, .drop] ++ second
  | .not operand => return (← expression start operand) ++ [.not]
  | .negate operand => return (← expression start operand) ++ [.negate]
  | .conditional condition thenValue elseValue => do
    let test ← expression start condition
    let thenCode ← expression (start + test.length + 1) thenValue
    let elseStart := start + test.length + 1 + thenCode.length + 1
    let elseCode ← expression elseStart elseValue
    return test ++ [.jumpIfFalse (position elseStart)] ++ thenCode ++
      [.jump (position (elseStart + elseCode.length))] ++ elseCode
  | .convert (.numeric conversion) operand =>
    return (← expression start operand) ++ [.convert conversion]
  | .convert (.cast target) operand => do
    let operand ← expression start operand
    return operand ++ [.cast (← string target)]
  | .call method passed => do
    let pushed ← arguments start passed
    return pushed ++ [.call (.ofNat method)] ++ writeBack passed
  | .hostCall function passed => do
    let pushed ← expressions start passed
    return pushed ++ [.hostCall (← imported (.function function))]
  | .builtin member receiver passed => do
    let owner ← expression start receiver
    let pushed ← expressions (start + owner.length) passed
    return owner ++ pushed ++ [.builtin member]
  | .newList element => return [.newList (← string element)]
  | .newObject type => return [.newObject (← imported (.type type))]

/-- The code of expressions in order. -/
def expressions (start : Nat) : List TypedExpr → Emit (List Instruction)
  | [] => return []
  | first :: rest => do
    let code ← expression start first
    return code ++ (← expressions (start + code.length) rest)

/-- The code that pushes the arguments of a call. A slot passed as `out` is not read; its place is
taken by the constant of an unassigned variable. -/
def arguments (start : Nat) : List TypedArgument → Emit (List Instruction)
  | [] => return []
  | .mk .out (.mk (.slot _) type _) :: rest => do
    let unassigned ← constant type.defaultConstant
    return .const unassigned :: (← arguments (start + 1) rest)
  | .mk _ value :: rest => do
    let code ← expression start value
    return code ++ (← arguments (start + code.length) rest)

end

/-- The code of an expression that is evaluated for its effect only. -/
def effect (start : Nat) (value : TypedExpr) : Emit (List Instruction) :=
  match value with
  | .mk (.assign (.slot index) assigned) _ _ =>
    return (← expression start assigned) ++ [.store (slot index)]
  | .mk (.update (.slot index) operation changed) _ _ => do
    let right ← expression (start + 1) changed
    return .load (slot index) :: right ++ [.operate operation, .store (slot index)]
  | .mk (.step (.slot index) isIncrement _) type _ => do
    let one ← constant type.one
    return [.load (slot index), .const one, .operate (stepOperation isIncrement),
      .store (slot index)]
  | value => do
    let code ← expression start value
    return if value.type == .void then code else code ++ [.drop]

/-- The code of expressions that are evaluated in order for their effects. -/
def effects (start : Nat) : List TypedExpr → Emit (List Instruction)
  | [] => return []
  | first :: rest => do
    let code ← effect start first
    return code ++ (← effects (start + code.length) rest)

end Emit

/-- An instruction of a statement. The jumps out of a loop's round have no target until the loop
around them is complete. -/
inductive StatementCode where
  | ready (instruction : Instruction)
  | leaveLoop
  | nextRound
deriving DecidableEq, Repr

namespace StatementCode

/-- The instruction in a loop whose next round and whose end lie at the given positions. -/
def inLoop (round done : Nat) : StatementCode → StatementCode
  | ready instruction => ready instruction
  | leaveLoop => ready (.jump (Emit.position done))
  | nextRound => ready (.jump (Emit.position round))

/-- The instruction outside all loops. -/
def settled : StatementCode → Instruction
  | ready instruction => instruction
  | leaveLoop | nextRound => .jump 0

end StatementCode

namespace Emit

/-- Instructions of a statement that leave no loop. -/
def ready (code : List Instruction) : List StatementCode := code.map .ready

/-- The code of a loop's condition with the jump to the end; without a condition there is none. -/
def exitTest (test : Option (List Instruction)) (done : Nat) : List StatementCode :=
  match test with
  | some code => ready (code ++ [.jumpIfFalse (position done)])
  | none => []

/-- The length of the code of a loop's condition with the jump to the end. -/
def exitTestLength (test : Option (List Instruction)) : Nat := test.elim 0 (·.length + 1)

/-- The code of the condition of a loop, if it has one. -/
def optionalTest (start : Nat) : Option TypedExpr → Emit (Option (List Instruction))
  | none => return none
  | some condition => return some (← expression start condition)

mutual

/-- The code of a statement. -/
def statement (start : Nat) : TypedStmt → Emit (List StatementCode)
  | .block body => statements start body
  | .evaluate value => return ready (← effect start value)
  | .giveBack _ none => return ready [.giveBackNothing]
  | .giveBack _ (some value) => return ready ((← expression start value) ++ [.giveBack])
  | .branch condition thenBranch none => do
    let test ← expression start condition
    let body ← statement (start + test.length + 1) thenBranch
    let done := position (start + test.length + 1 + body.length)
    return ready (test ++ [.jumpIfFalse done]) ++ body
  | .branch condition thenBranch (some elseBranch) => do
    let test ← expression start condition
    let body ← statement (start + test.length + 1) thenBranch
    let elseStart := start + test.length + 1 + body.length + 1
    let other ← statement elseStart elseBranch
    return ready (test ++ [.jumpIfFalse (position elseStart)]) ++ body ++
      ready [.jump (position (elseStart + other.length))] ++ other
  | .whileLoop condition body => do
    let test ← expression start condition
    let round ← statement (start + test.length + 1) body
    let done := start + test.length + 1 + round.length + 1
    return ready (test ++ [.jumpIfFalse (position done)]) ++ round.map (·.inLoop start done) ++
      ready [.jump (position start)]
  | .forLoop first condition steps body => do
    let entered ← statements start first
    let again := start + entered.length
    let test ← optionalTest again condition
    let bodyStart := again + exitTestLength test
    let round ← statement bodyStart body
    let next := bodyStart + round.length
    let advance ← effects next steps
    let done := next + advance.length + 1
    return entered ++ exitTest test done ++ round.map (·.inLoop next done) ++
      ready (advance ++ [.jump (position again)])
  | .leaveLoop => return [.leaveLoop]
  | .nextRound => return [.nextRound]

/-- The code of statements in order. -/
def statements (start : Nat) : List TypedStmt → Emit (List StatementCode)
  | [] => return []
  | first :: rest => do
    let code ← statement start first
    return code ++ (← statements (start + code.length) rest)

end

/-- The code of a method. A void method ends behind its last statement. -/
def methodCode (method : TypedMethod) : Emit (List Instruction) := do
  let code := (← statements 0 method.body).map (·.settled)
  return if method.result == .void then code ++ [.giveBackNothing] else code

end Emit

end Snippet
