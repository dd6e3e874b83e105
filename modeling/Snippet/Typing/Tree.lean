import Snippet.Typing.Ty

/-!
The typed tree of a program: names are resolved to slots, methods, host functions and members, and
every conversion is a node.
-/

namespace Snippet

/-- The operations on two operands that are left after typing. -/
inductive Operation where
  | add
  | subtract
  | multiply
  | divide
  | remainder
  | concat
  | equal
  | notEqual
  | less
  | lessEqual
  | greater
  | greaterEqual
deriving DecidableEq, Repr

/-- A host function that a program calls, identified by its exact parameter types. -/
structure FunctionImport where
  typeName : String
  method : String
  parameters : List String
  result : Option String
deriving DecidableEq, Repr

/-- The import as messages show it. -/
def FunctionImport.shown (function : FunctionImport) : String :=
  function.typeName ++ "." ++ function.method ++ "(" ++
    String.intercalate ", " function.parameters ++ ")"

mutual

/-- An expression with its static type. -/
inductive TypedExpr where
  | mk (node : TypedNode) (type : Ty) (span : Span)

/-- The kinds of typed expressions. -/
inductive TypedNode where
  | const (value : Constant)
  | slot (index : Nat)
  | field (object : TypedExpr) (name : String)
  | assign (place : Place) (value : TypedExpr)
  /-- An assignment of an operation's result on the old value and a new one. -/
  | update (place : Place) (operation : Operation) (value : TypedExpr)
  | step (place : Place) (isIncrement isFront : Bool)
  | binary (operation : Operation) (left right : TypedExpr)
  /-- A conjunction, or else a disjunction, that looks at its right side only if it must. -/
  | logical (isAnd : Bool) (left right : TypedExpr)
  | not (operand : TypedExpr)
  | negate (operand : TypedExpr)
  | conditional (condition thenValue elseValue : TypedExpr)
  | convert (conversion : Conversion) (operand : TypedExpr)
  /-- A call of a method of this program, by its index. -/
  | call (method : Nat) (arguments : List TypedArgument)
  | hostCall (function : FunctionImport) (arguments : List TypedExpr)
  | builtin (member : BuiltinMember) (receiver : TypedExpr) (arguments : List TypedExpr)
  | newList (element : String)
  | newObject (type : String)

/-- What can be assigned to. -/
inductive Place where
  | slot (index : Nat)
  | field (object : TypedExpr) (name : String)

/-- An argument of a call; one that is passed by reference is always a slot. -/
inductive TypedArgument where
  | mk (mode : PassMode) (value : TypedExpr)

end

namespace TypedExpr

/-- The kind of an expression. -/
def node : TypedExpr → TypedNode
  | mk node _ _ => node

/-- The static type of an expression. -/
def type : TypedExpr → Ty
  | mk _ type _ => type

/-- The place of an expression in the source text. -/
def span : TypedExpr → Span
  | mk _ _ span => span

/-- The same expression with another static type. -/
def withType (value : TypedExpr) (type : Ty) : TypedExpr := mk value.node type value.span

/-- A constant of its own type. -/
def constant (value : Constant) (span : Span) : TypedExpr := mk (.const value) (.ofConstant value) span

/-- The constant that an expression is. -/
def constant? : TypedExpr → Option Constant
  | mk (.const value) _ _ => some value
  | _ => none

/-- The expression in the place of one that is already reported as wrong. -/
def wrong (span : Span) : TypedExpr := mk (.const .null) .error span

/-- The truth value of a constant condition. -/
def constantBool? (value : TypedExpr) : Option Bool :=
  match value.constant? with
  | some (.bool truth) => some truth
  | _ => none

end TypedExpr

/-- A typed statement. -/
inductive TypedStmt where
  | block (body : List TypedStmt)
  | evaluate (value : TypedExpr)
  | giveBack (span : Span) (value : Option TypedExpr)
  | branch (condition : TypedExpr) (thenBranch : TypedStmt) (elseBranch : Option TypedStmt)
  | whileLoop (condition : TypedExpr) (body : TypedStmt)
  | forLoop (start : List TypedStmt) (condition : Option TypedExpr) (steps : List TypedExpr)
      (body : TypedStmt)
  | leaveLoop
  | nextRound

/-- A parameter of a typed method. -/
structure TypedParameter where
  name : String
  mode : PassMode
  type : Ty

/-- A slot of a method's frame. Parameters come first, and know how they are passed. -/
structure Slot where
  name : String
  type : Ty
  span : Span
  mode : Option PassMode

/-- A typed method. -/
structure TypedMethod where
  name : String
  /-- The class, the name and the parameter types, as diagnostics show them. -/
  label : String
  /-- The index of the class. -/
  owner : Nat
  isPublic : Bool
  parameters : List TypedParameter
  result : Ty
  slots : List Slot
  body : List TypedStmt
  span : Span

/-- A class of a typed program. -/
structure TypedClass where
  /-- Namespace and name with dots, nested classes behind plus signs. -/
  fullName : String
  isPublic : Bool
  isStatic : Bool
  /-- The indices of the methods. -/
  methods : List Nat

/-- A typed program. -/
structure TypedProgram where
  classes : List TypedClass
  methods : List TypedMethod

end Snippet
