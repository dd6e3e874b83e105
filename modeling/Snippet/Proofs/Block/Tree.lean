import Snippet.Emit.Code
import Snippet.Proofs.Block.Basic

/-!
The blocks of typed expressions, statements and methods. Slots behind those of a method's variables
are temporaries: each of them holds the old value of a field for one step of the program.
-/

namespace Snippet

mutual

/-- The number of temporaries of an expression. -/
def TypedExpr.temporaries : TypedExpr → Nat
  | .mk node _ _ => node.temporaries

/-- The number of temporaries of a node. -/
def TypedNode.temporaries : TypedNode → Nat
  | .const _ | .slot _ | .newList _ | .newObject _ => 0
  | .field object _ => object.temporaries
  | .assign place value | .update place _ value => place.temporaries + value.temporaries
  | .step (.slot _) _ _ => 0
  | .step (.field object _) _ isFront => object.temporaries + (if isFront then 0 else 1)
  | .binary _ left right | .logical _ left right => left.temporaries + right.temporaries
  | .not operand | .negate operand | .convert _ operand => operand.temporaries
  | .conditional condition thenValue elseValue =>
    condition.temporaries + thenValue.temporaries + elseValue.temporaries
  | .call _ passed => TypedArgument.temporariesOfAll passed
  | .hostCall _ passed => TypedExpr.temporariesOfAll passed
  | .builtin _ receiver passed => receiver.temporaries + TypedExpr.temporariesOfAll passed

/-- The number of temporaries of the object of a place. -/
def Place.temporaries : Place → Nat
  | .slot _ => 0
  | .field object _ => object.temporaries

/-- The number of temporaries of expressions. -/
def TypedExpr.temporariesOfAll : List TypedExpr → Nat
  | [] => 0
  | first :: rest => first.temporaries + TypedExpr.temporariesOfAll rest

/-- The number of temporaries of the arguments of a call. -/
def TypedArgument.temporariesOfAll : List TypedArgument → Nat
  | [] => 0
  | .mk _ value :: rest => value.temporaries + TypedArgument.temporariesOfAll rest

end

namespace Block

/-- The commands behind a call that store the final values, the last parameter's first. -/
def writeBack (passed : List TypedArgument) : Block :=
  ofList ((Emit.writtenSlots passed).reverse.map .store)

/-- The commands that change a number by one. -/
def change (type : Ty) (isIncrement : Bool) : List Command :=
  [.const type.one, .operate (stepOperation isIncrement)]

/-- The commands that change a variable by one and push its new or its old value. -/
def stepSlot (type : Ty) (index : Nat) (isIncrement isFront : Bool) : Block :=
  ofList (.load index ::
    (if isFront then change type isIncrement ++ [.duplicate] else .duplicate :: change type isIncrement) ++
      [.store index])

/-- The commands that change a field of the object on top by one and push its new or its old value. -/
def stepField (type : Ty) (name : String) (isIncrement isFront : Bool) (temporary : Nat) : Block :=
  if isFront then
    ofList ([.duplicate, .loadField name] ++ change type isIncrement ++ [.storeField name])
  else
    ofList ([.duplicate, .loadField name, .store temporary, .load temporary] ++
      change type isIncrement ++ [.storeField name, .drop, .load temporary])

end Block

mutual

/-- The block that pushes the value of an expression. Its temporaries start at a free slot. -/
def TypedExpr.block (free : Nat) : TypedExpr → Block
  | .mk node type _ => .scope (.value type) (node.block free type)

/-- The block of a node with a static type. -/
def TypedNode.block (free : Nat) (type : Ty) : TypedNode → Block
  | .const value => .command (.const value)
  | .slot index => .command (.load index)
  | .field object name => object.block free ++ .command (.loadField name)
  | .assign (.slot index) value => value.block free ++ .ofList [.duplicate, .store index]
  | .assign (.field object name) value =>
    object.block free ++ value.block (free + object.temporaries) ++ .command (.storeField name)
  | .update (.slot index) operation value =>
    .command (.load index) ++ value.block free ++
      .ofList [.operate operation, .duplicate, .store index]
  | .update (.field object name) operation value =>
    object.block free ++ .ofList [.duplicate, .loadField name] ++
      value.block (free + object.temporaries) ++ .ofList [.operate operation, .storeField name]
  | .step (.slot index) isIncrement isFront => .stepSlot type index isIncrement isFront
  | .step (.field object name) isIncrement isFront =>
    object.block free ++ .stepField type name isIncrement isFront (free + object.temporaries)
  | .binary operation left right =>
    left.block free ++ right.block (free + left.temporaries) ++ .command (.operate operation)
  | .logical isAnd left right =>
    left.block free ++ .command .duplicate ++
      .guard isAnd (.command .drop ++ right.block (free + left.temporaries))
  | .not operand => operand.block free ++ .command .not
  | .negate operand => operand.block free ++ .command .negate
  | .conditional condition thenValue elseValue =>
    condition.block free ++
      .choose (thenValue.block (free + condition.temporaries))
        (elseValue.block (free + condition.temporaries + thenValue.temporaries))
  | .convert (.numeric conversion) operand => operand.block free ++ .command (.convert conversion)
  | .convert (.cast target) operand => operand.block free ++ .command (.cast target)
  | .call method passed =>
    TypedArgument.blockOfAll free passed ++ .command (.call method) ++ .writeBack passed
  | .hostCall function passed =>
    TypedExpr.blockOfAll free passed ++ .command (.hostCall function)
  | .builtin member receiver passed =>
    receiver.block free ++ TypedExpr.blockOfAll (free + receiver.temporaries) passed ++
      .command (.builtin member)
  | .newList element => .command (.newList element)
  | .newObject type => .command (.newObject type)

/-- The block that pushes the values of expressions in order. -/
def TypedExpr.blockOfAll (free : Nat) : List TypedExpr → Block
  | [] => .empty
  | first :: rest => first.block free ++ TypedExpr.blockOfAll (free + first.temporaries) rest

/-- The block that pushes the arguments of a call. In the place of a variable that is passed as
`out` stands the constant of an unassigned one. -/
def TypedArgument.blockOfAll (free : Nat) : List TypedArgument → Block
  | [] => .empty
  | .mk .out (.mk (.slot _) type _) :: rest =>
    .command (.const type.defaultConstant) ++ TypedArgument.blockOfAll free rest
  | .mk _ value :: rest =>
    value.block free ++ TypedArgument.blockOfAll (free + value.temporaries) rest

end

namespace TypedExpr

/-- The block of an expression that is evaluated for its effect. -/
def effectBody (free : Nat) : TypedExpr → Block
  | .mk (.assign (.slot index) assigned) _ _ => assigned.block free ++ .command (.store index)
  | .mk (.update (.slot index) operation changed) _ _ =>
    .command (.load index) ++ changed.block free ++ .ofList [.operate operation, .store index]
  | .mk (.step (.slot index) isIncrement _) type _ =>
    .ofList (.load index :: Block.change type isIncrement ++ [.store index])
  | value =>
    if value.type = .void then value.block free else value.block free ++ .command .drop

/-- The block of an expression that stands as a statement. -/
def effectBlock (free : Nat) (value : TypedExpr) : Block := .scope .statement (value.effectBody free)

/-- The block of expressions that stand as statements, in order. -/
def effectBlockOfAll (free : Nat) : List TypedExpr → Block
  | [] => .empty
  | first :: rest => first.effectBlock free ++ effectBlockOfAll (free + first.temporaries) rest

/-- The block of a condition that may be missing. -/
def optionalBlock (free : Nat) : Option TypedExpr → Block
  | none => .empty
  | some condition => condition.block free

/-- The number of temporaries of a condition that may be missing. -/
def optionalTemporaries : Option TypedExpr → Nat
  | none => 0
  | some condition => condition.temporaries

end TypedExpr

mutual

/-- The number of temporaries of a statement. -/
def TypedStmt.temporaries : TypedStmt → Nat
  | .block body => TypedStmt.temporariesOfAll body
  | .evaluate value => value.temporaries
  | .giveBack _ value => TypedExpr.optionalTemporaries value
  | .branch condition thenBranch none => condition.temporaries + thenBranch.temporaries
  | .branch condition thenBranch (some elseBranch) =>
    condition.temporaries + thenBranch.temporaries + elseBranch.temporaries
  | .whileLoop condition body => condition.temporaries + body.temporaries
  | .forLoop start condition steps body =>
    TypedStmt.temporariesOfAll start + TypedExpr.optionalTemporaries condition +
      body.temporaries + TypedExpr.temporariesOfAll steps
  | .leaveLoop | .nextRound => 0

/-- The number of temporaries of statements. -/
def TypedStmt.temporariesOfAll : List TypedStmt → Nat
  | [] => 0
  | first :: rest => first.temporaries + TypedStmt.temporariesOfAll rest

end

mutual

/-- The block of a statement. -/
def TypedStmt.body (free : Nat) : TypedStmt → Block
  | .block body => TypedStmt.blockOfAll free body
  | .evaluate value => value.effectBody free
  | .giveBack _ none => .command .giveBackNothing
  | .giveBack _ (some value) => value.block free ++ .command .giveBack
  | .branch condition thenBranch none =>
    condition.block free ++
      .guard true (.scope .statement (thenBranch.body (free + condition.temporaries)))
  | .branch condition thenBranch (some elseBranch) =>
    condition.block free ++
      .choose (.scope .statement (thenBranch.body (free + condition.temporaries)))
        (.scope .statement
          (elseBranch.body (free + condition.temporaries + thenBranch.temporaries)))
  | .whileLoop condition body =>
    .loop true true (condition.block free)
      (.scope .statement (body.body (free + condition.temporaries))) .empty
  | .forLoop start condition steps body =>
    let tested := free + TypedStmt.temporariesOfAll start
    let entered := tested + TypedExpr.optionalTemporaries condition
    TypedStmt.blockOfAll free start ++
      .loop condition.isSome false (TypedExpr.optionalBlock tested condition)
        (.scope .statement (body.body entered))
        (TypedExpr.effectBlockOfAll (entered + body.temporaries) steps)
  | .leaveLoop => .leaveLoop
  | .nextRound => .nextRound

/-- The block of statements in order. -/
def TypedStmt.blockOfAll (free : Nat) : List TypedStmt → Block
  | [] => .empty
  | first :: rest =>
    .scope .statement (first.body free) ++ TypedStmt.blockOfAll (free + first.temporaries) rest

end

namespace TypedMethod

/-- The number of temporaries of a method. -/
def temporaries (method : TypedMethod) : Nat := TypedStmt.temporariesOfAll method.body

/-- The block of a method. A void method ends behind its last statement. -/
def block (method : TypedMethod) : Block :=
  let body := TypedStmt.blockOfAll method.slots.length method.body
  if method.result = .void then body ++ .command .giveBackNothing else body

end TypedMethod

end Snippet
