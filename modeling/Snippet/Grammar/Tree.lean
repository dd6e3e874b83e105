import Snippet.Source.Token
import Snippet.Types.PassMode

/-!
The syntax trees of a source text. Every node knows the range of text that it was read from, and
parentheses are nodes.
-/

namespace Snippet

/-- The types with a reserved word of their own. -/
inductive BasicType where
  | bool
  | int
  | long
  | double
  | string
  | object
deriving DecidableEq, Repr

namespace BasicType

/-- The reserved word of a basic type. -/
def word : BasicType → Keyword
  | bool => .boolWord
  | int => .intWord
  | long => .longWord
  | double => .doubleWord
  | string => .stringWord
  | object => .objectWord

/-- The basic type of a reserved word. -/
def ofWord? : Keyword → Option BasicType
  | .boolWord => some bool
  | .intWord => some int
  | .longWord => some long
  | .doubleWord => some double
  | .stringWord => some string
  | .objectWord => some object
  | _ => none

theorem ofWord?_word (type : BasicType) : ofWord? type.word = some type := by cases type <;> rfl

end BasicType

mutual

/-- The name of a type as it is written. -/
inductive TypeName where
  | basic (span : Span) (type : BasicType)
  | named (span : Span) (segments : List TypeSegment)

/-- One part of a dotted type name, with its type arguments. -/
inductive TypeSegment where
  | mk (name : String) (arguments : List TypeName)

end

namespace TypeName

/-- The place of a type name. -/
def span : TypeName → Span
  | basic span _ | named span _ => span

/-- Whether the name is the word that asks for an inferred type. -/
def isInferred : TypeName → Bool
  | named _ [.mk name []] => name == "var"
  | _ => false

end TypeName

/-- The operators between two operands. -/
inductive BinaryOperator where
  | add
  | subtract
  | multiply
  | divide
  | remainder
  | less
  | greater
  | lessEqual
  | greaterEqual
  | equal
  | notEqual
  | and
  | or
deriving DecidableEq, Repr

namespace BinaryOperator

/-- The symbol of an operator. -/
def sign : BinaryOperator → Symbol
  | add => .plus
  | subtract => .minus
  | multiply => .star
  | divide => .slash
  | remainder => .percent
  | less => .less
  | greater => .greater
  | lessEqual => .lessEqual
  | greaterEqual => .greaterEqual
  | equal => .equal
  | notEqual => .notEqual
  | and => .andAnd
  | or => .orOr

/-- Whether the operator compares its operands. -/
def compares : BinaryOperator → Bool
  | less | greater | lessEqual | greaterEqual | equal | notEqual => true
  | _ => false

end BinaryOperator

/-- The operators in front of one operand. -/
inductive UnaryOperator where
  | negate
  | plus
  | not
deriving DecidableEq, Repr

/-- The symbol of an operator. -/
def UnaryOperator.sign : UnaryOperator → Symbol
  | negate => .minus
  | plus => .plus
  | not => .bang

mutual

/-- An expression. -/
inductive Expr where
  | int (span : Span) (value : Int32)
  | long (span : Span) (value : Int64)
  | double (span : Span) (value : Float)
  | text (span : Span) (value : String)
  | bool (span : Span) (value : Bool)
  | null (span : Span)
  | name (span : Span) (name : String)
  /-- A basic type in front of a dot. -/
  | basicType (span : Span) (type : BasicType)
  | member (span : Span) (object : Expr) (name : String)
  | call (span : Span) (callee : Expr) (arguments : List Argument)
  | create (span : Span) (type : TypeName) (arguments : List Argument)
  /-- An assignment; with an operator, of the operator's result on the old and the new value. -/
  | assign (span : Span) (operator : Option BinaryOperator) (target value : Expr)
  | binary (span : Span) (operator : BinaryOperator) (left right : Expr)
  | unary (span : Span) (operator : UnaryOperator) (operand : Expr)
  /-- An increment or a decrement, written in front of its target or behind it. -/
  | step (span : Span) (isIncrement isFront : Bool) (target : Expr)
  | conditional (span : Span) (condition thenValue elseValue : Expr)
  | cast (span : Span) (type : TypeName) (operand : Expr)
  | paren (span : Span) (inner : Expr)

/-- An argument of a call. -/
inductive Argument where
  | mk (span : Span) (mode : PassMode) (value : Expr)

end

namespace Expr

/-- The place of an expression. -/
def span : Expr → Span
  | int span _ | long span _ | double span _ | text span _ | bool span _ | null span
  | name span _ | basicType span _ | member span _ _ | call span _ _ | create span _ _
  | assign span _ _ _ | binary span _ _ _ | unary span _ _ | step span _ _ _
  | conditional span _ _ _ | cast span _ _ | paren span _ => span

/-- The expression inside all surrounding parentheses. -/
def core : Expr → Expr
  | paren _ inner => inner.core
  | other => other

end Expr

/-- One variable of a declaration. -/
structure Declarator where
  name : String
  value : Option Expr
  span : Span

/-- A statement. -/
inductive Stmt where
  | block (span : Span) (body : List Stmt)
  | empty (span : Span)
  | declare (span : Span) (type : TypeName) (declarators : List Declarator)
  | evaluate (span : Span) (value : Expr)
  | giveBack (span : Span) (value : Option Expr)
  | branch (span : Span) (condition : Expr) (thenBranch : Stmt) (elseBranch : Option Stmt)
  | whileLoop (span : Span) (condition : Expr) (body : Stmt)
  | forLoop (span : Span) (start : List Stmt) (condition : Option Expr) (steps : List Expr)
      (body : Stmt)
  | leaveLoop (span : Span)
  | nextRound (span : Span)

namespace Stmt

/-- The place of a statement. -/
def span : Stmt → Span
  | block span _ | empty span | declare span _ _ | evaluate span _ | giveBack span _
  | branch span _ _ _ | whileLoop span _ _ | forLoop span _ _ _ _ | leaveLoop span
  | nextRound span => span

/-- Whether a statement declares variables. -/
def isDeclaration : Stmt → Bool
  | declare _ _ _ => true
  | _ => false

end Stmt

/-- The modifiers in front of a class or a method. -/
structure Modifiers where
  isPublic : Bool
  isPrivate : Bool
  isInternal : Bool
  isProtected : Bool
  isStatic : Bool
deriving DecidableEq, Repr

/-- No modifier. -/
def Modifiers.none : Modifiers := ⟨false, false, false, false, false⟩

/-- A parameter of a method. -/
structure Parameter where
  mode : PassMode
  type : TypeName
  name : String
  span : Span

/-- A method; one without a result type gives no value. -/
structure MethodDecl where
  name : String
  modifiers : Modifiers
  result : Option TypeName
  parameters : List Parameter
  body : List Stmt
  span : Span

/-- A class with its methods and the classes nested in it. -/
inductive ClassDecl where
  | mk (span : Span) (name : String) (modifiers : Modifiers) (methods : List MethodDecl)
      (nested : List ClassDecl)

namespace ClassDecl

/-- The name of a class. -/
def name : ClassDecl → String
  | mk _ name _ _ _ => name

/-- The place of a class. -/
def span : ClassDecl → Span
  | mk span _ _ _ _ => span

/-- The methods of a class in order. -/
def methods : ClassDecl → List MethodDecl
  | mk _ _ _ methods _ => methods

end ClassDecl

/-- A directive that brings the types of a namespace into scope. -/
structure UsingDirective where
  name : String
  span : Span

/-- A member of a namespace. -/
inductive Member where
  | space (span : Span) (name : String) (usings : List UsingDirective) (members : List Member)
  | type (decl : ClassDecl)

/-- A whole source text. -/
structure CompilationUnit where
  usings : List UsingDirective
  members : List Member

end Snippet
