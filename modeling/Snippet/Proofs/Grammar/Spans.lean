import Snippet.Grammar.Tree

/-!
Syntax trees with other places: a change of the places of all nodes, and trees without places.
-/

namespace Snippet

/-! ### Types -/

mutual

/-- A type name with changed places. -/
def TypeName.mapSpans (change : Span → Span) : TypeName → TypeName
  | .basic span type => .basic (change span) type
  | .named span segments => .named (change span) (TypeSegment.mapSpansOfAll change segments)

/-- A part of a type name with changed places. -/
def TypeSegment.mapSpans (change : Span → Span) : TypeSegment → TypeSegment
  | .mk name arguments => .mk name (TypeName.mapSpansOfAll change arguments)

/-- Type names with changed places. -/
def TypeName.mapSpansOfAll (change : Span → Span) : List TypeName → List TypeName
  | [] => []
  | first :: rest => first.mapSpans change :: TypeName.mapSpansOfAll change rest

/-- Parts of a type name with changed places. -/
def TypeSegment.mapSpansOfAll (change : Span → Span) : List TypeSegment → List TypeSegment
  | [] => []
  | first :: rest => first.mapSpans change :: TypeSegment.mapSpansOfAll change rest

end

/-! ### Expressions -/

mutual

/-- An expression with changed places. -/
def Expr.mapSpans (change : Span → Span) : Expr → Expr
  | .int span value => .int (change span) value
  | .long span value => .long (change span) value
  | .double span value => .double (change span) value
  | .text span value => .text (change span) value
  | .bool span value => .bool (change span) value
  | .null span => .null (change span)
  | .name span name => .name (change span) name
  | .basicType span type => .basicType (change span) type
  | .member span object name => .member (change span) (object.mapSpans change) name
  | .call span callee arguments =>
    .call (change span) (callee.mapSpans change) (Argument.mapSpansOfAll change arguments)
  | .create span type arguments =>
    .create (change span) (type.mapSpans change) (Argument.mapSpansOfAll change arguments)
  | .assign span operator target value =>
    .assign (change span) operator (target.mapSpans change) (value.mapSpans change)
  | .binary span operator left right =>
    .binary (change span) operator (left.mapSpans change) (right.mapSpans change)
  | .unary span operator operand => .unary (change span) operator (operand.mapSpans change)
  | .step span isIncrement isFront target => .step (change span) isIncrement isFront (target.mapSpans change)
  | .conditional span condition thenValue elseValue =>
    .conditional (change span) (condition.mapSpans change) (thenValue.mapSpans change) (elseValue.mapSpans change)
  | .cast span type operand => .cast (change span) (type.mapSpans change) (operand.mapSpans change)
  | .paren span inner => .paren (change span) (inner.mapSpans change)

/-- An argument with changed places. -/
def Argument.mapSpans (change : Span → Span) : Argument → Argument
  | .mk span mode value => .mk (change span) mode (value.mapSpans change)

/-- Arguments with changed places. -/
def Argument.mapSpansOfAll (change : Span → Span) : List Argument → List Argument
  | [] => []
  | first :: rest => first.mapSpans change :: Argument.mapSpansOfAll change rest

end

/-! ### Statements -/

/-- One variable of a declaration with changed places. -/
def Declarator.mapSpans (change : Span → Span) (declarator : Declarator) : Declarator :=
  ⟨declarator.name, declarator.value.map (Expr.mapSpans change), change declarator.span⟩

mutual

/-- A statement with changed places. -/
def Stmt.mapSpans (change : Span → Span) : Stmt → Stmt
  | .block span body => .block (change span) (Stmt.mapSpansOfAll change body)
  | .empty span => .empty (change span)
  | .declare span type declarators =>
    .declare (change span) (type.mapSpans change) (declarators.map (Declarator.mapSpans change))
  | .evaluate span value => .evaluate (change span) (value.mapSpans change)
  | .giveBack span value => .giveBack (change span) (value.map (Expr.mapSpans change))
  | .branch span condition thenBranch elseBranch =>
    .branch (change span) (condition.mapSpans change) (thenBranch.mapSpans change)
      (Stmt.mapSpansOfOptional change elseBranch)
  | .whileLoop span condition body => .whileLoop (change span) (condition.mapSpans change) (body.mapSpans change)
  | .forLoop span start condition steps body =>
    .forLoop (change span) (Stmt.mapSpansOfAll change start) (condition.map (Expr.mapSpans change))
      (steps.map (Expr.mapSpans change)) (body.mapSpans change)
  | .leaveLoop span => .leaveLoop (change span)
  | .nextRound span => .nextRound (change span)

/-- Statements with changed places. -/
def Stmt.mapSpansOfAll (change : Span → Span) : List Stmt → List Stmt
  | [] => []
  | first :: rest => first.mapSpans change :: Stmt.mapSpansOfAll change rest

/-- A branch that may be missing, with changed places. -/
def Stmt.mapSpansOfOptional (change : Span → Span) : Option Stmt → Option Stmt
  | none => none
  | some body => some (body.mapSpans change)

end

/-! ### Declarations -/

/-- A parameter with changed places. -/
def Parameter.mapSpans (change : Span → Span) (parameter : Parameter) : Parameter :=
  ⟨parameter.mode, parameter.type.mapSpans change, parameter.name, change parameter.span⟩

/-- A method with changed places. -/
def MethodDecl.mapSpans (change : Span → Span) (decl : MethodDecl) : MethodDecl where
  name := decl.name
  modifiers := decl.modifiers
  result := decl.result.map (TypeName.mapSpans change)
  parameters := decl.parameters.map (Parameter.mapSpans change)
  body := decl.body.map (Stmt.mapSpans change)
  span := change decl.span

mutual

/-- A class with changed places. -/
def ClassDecl.mapSpans (change : Span → Span) : ClassDecl → ClassDecl
  | .mk span name modifiers methods nested =>
    .mk (change span) name modifiers (methods.map (MethodDecl.mapSpans change))
      (ClassDecl.mapSpansOfAll change nested)

/-- Classes with changed places. -/
def ClassDecl.mapSpansOfAll (change : Span → Span) : List ClassDecl → List ClassDecl
  | [] => []
  | first :: rest => first.mapSpans change :: ClassDecl.mapSpansOfAll change rest

end

/-- A using directive with changed places. -/
def UsingDirective.mapSpans (change : Span → Span) (directive : UsingDirective) : UsingDirective :=
  ⟨directive.name, change directive.span⟩

mutual

/-- A member of a namespace with changed places. -/
def Member.mapSpans (change : Span → Span) : Member → Member
  | .space span name usings members =>
    .space (change span) name (usings.map (UsingDirective.mapSpans change)) (Member.mapSpansOfAll change members)
  | .type decl => .type (decl.mapSpans change)

/-- Members of a namespace with changed places. -/
def Member.mapSpansOfAll (change : Span → Span) : List Member → List Member
  | [] => []
  | first :: rest => first.mapSpans change :: Member.mapSpansOfAll change rest

end

/-- A source text with changed places. -/
def CompilationUnit.mapSpans (change : Span → Span) (unit : CompilationUnit) : CompilationUnit :=
  ⟨unit.usings.map (UsingDirective.mapSpans change), unit.members.map (Member.mapSpans change)⟩

/-! ### Lists of trees -/

@[simp]
theorem TypeName.mapSpansOfAll_eq_map (change : Span → Span) (types : List TypeName) :
    TypeName.mapSpansOfAll change types = types.map (TypeName.mapSpans change) := by
  induction types with
  | nil => rfl
  | cons first rest ih => rw [TypeName.mapSpansOfAll, ih, List.map_cons]

@[simp]
theorem TypeSegment.mapSpansOfAll_eq_map (change : Span → Span) (segments : List TypeSegment) :
    TypeSegment.mapSpansOfAll change segments = segments.map (TypeSegment.mapSpans change) := by
  induction segments with
  | nil => rfl
  | cons first rest ih => rw [TypeSegment.mapSpansOfAll, ih, List.map_cons]

@[simp]
theorem Argument.mapSpansOfAll_eq_map (change : Span → Span) (arguments : List Argument) :
    Argument.mapSpansOfAll change arguments = arguments.map (Argument.mapSpans change) := by
  induction arguments with
  | nil => rfl
  | cons first rest ih => rw [Argument.mapSpansOfAll, ih, List.map_cons]

@[simp]
theorem Stmt.mapSpansOfAll_eq_map (change : Span → Span) (body : List Stmt) :
    Stmt.mapSpansOfAll change body = body.map (Stmt.mapSpans change) := by
  induction body with
  | nil => rfl
  | cons first rest ih => rw [Stmt.mapSpansOfAll, ih, List.map_cons]

@[simp]
theorem ClassDecl.mapSpansOfAll_eq_map (change : Span → Span) (classes : List ClassDecl) :
    ClassDecl.mapSpansOfAll change classes = classes.map (ClassDecl.mapSpans change) := by
  induction classes with
  | nil => rfl
  | cons first rest ih => rw [ClassDecl.mapSpansOfAll, ih, List.map_cons]

@[simp]
theorem Member.mapSpansOfAll_eq_map (change : Span → Span) (members : List Member) :
    Member.mapSpansOfAll change members = members.map (Member.mapSpans change) := by
  induction members with
  | nil => rfl
  | cons first rest ih => rw [Member.mapSpansOfAll, ih, List.map_cons]

/-! ### No change of places -/

mutual

theorem TypeName.mapSpans_id (type : TypeName) : type.mapSpans id = type := by
  match type with
  | .basic _ _ => rfl
  | .named _ segments => rw [TypeName.mapSpans, TypeSegment.mapSpansOfAll_id segments, id]

theorem TypeName.mapSpansOfAll_id (types : List TypeName) : TypeName.mapSpansOfAll id types = types := by
  match types with
  | [] => rfl
  | first :: rest => rw [TypeName.mapSpansOfAll, first.mapSpans_id, TypeName.mapSpansOfAll_id rest]

theorem TypeSegment.mapSpansOfAll_id (segments : List TypeSegment) :
    TypeSegment.mapSpansOfAll id segments = segments := by
  match segments with
  | [] => rfl
  | .mk _ arguments :: rest =>
    rw [TypeSegment.mapSpansOfAll, TypeSegment.mapSpans, TypeName.mapSpansOfAll_id arguments,
      TypeSegment.mapSpansOfAll_id rest]

end

mutual

theorem Expr.mapSpans_id (value : Expr) : value.mapSpans id = value := by
  match value with
  | .int _ _ | .long _ _ | .double _ _ | .text _ _ | .bool _ _ | .null _ | .name _ _ | .basicType _ _ => rfl
  | .member _ inner _ | .unary _ _ inner | .step _ _ _ inner | .paren _ inner =>
    rw [Expr.mapSpans, inner.mapSpans_id, id]
  | .assign _ _ left right | .binary _ _ left right => rw [Expr.mapSpans, left.mapSpans_id, right.mapSpans_id, id]
  | .conditional _ condition thenValue elseValue =>
    rw [Expr.mapSpans, condition.mapSpans_id, thenValue.mapSpans_id, elseValue.mapSpans_id, id]
  | .cast _ type operand => rw [Expr.mapSpans, type.mapSpans_id, operand.mapSpans_id, id]
  | .call _ callee passed => rw [Expr.mapSpans, callee.mapSpans_id, Argument.mapSpansOfAll_id passed, id]
  | .create _ type passed => rw [Expr.mapSpans, type.mapSpans_id, Argument.mapSpansOfAll_id passed, id]

theorem Argument.mapSpansOfAll_id (passed : List Argument) : Argument.mapSpansOfAll id passed = passed := by
  match passed with
  | [] => rfl
  | .mk _ _ value :: rest =>
    rw [Argument.mapSpansOfAll, Argument.mapSpans, value.mapSpans_id, Argument.mapSpansOfAll_id rest, id]

end

theorem Declarator.mapSpans_id (declarator : Declarator) : declarator.mapSpans id = declarator := by
  rw [Declarator.mapSpans, funext Expr.mapSpans_id, Option.map_id', id]

mutual

theorem Stmt.mapSpans_id (statement : Stmt) : statement.mapSpans id = statement := by
  match statement with
  | .empty _ | .leaveLoop _ | .nextRound _ => rfl
  | .block _ body => rw [Stmt.mapSpans, Stmt.mapSpansOfAll_id body, id]
  | .declare _ type declarators =>
    rw [Stmt.mapSpans, type.mapSpans_id, funext Declarator.mapSpans_id, List.map_id', id]
  | .evaluate _ value => rw [Stmt.mapSpans, value.mapSpans_id, id]
  | .giveBack _ value => rw [Stmt.mapSpans, funext Expr.mapSpans_id, Option.map_id', id]
  | .branch _ condition thenBranch elseBranch =>
    rw [Stmt.mapSpans, condition.mapSpans_id, thenBranch.mapSpans_id, Stmt.mapSpansOfOptional_id elseBranch, id]
  | .whileLoop _ condition body => rw [Stmt.mapSpans, condition.mapSpans_id, body.mapSpans_id, id]
  | .forLoop _ start condition steps body =>
    rw [Stmt.mapSpans, Stmt.mapSpansOfAll_id start, body.mapSpans_id, funext Expr.mapSpans_id, Option.map_id',
      List.map_id', id]

theorem Stmt.mapSpansOfAll_id (body : List Stmt) : Stmt.mapSpansOfAll id body = body := by
  match body with
  | [] => rfl
  | first :: rest => rw [Stmt.mapSpansOfAll, first.mapSpans_id, Stmt.mapSpansOfAll_id rest]

theorem Stmt.mapSpansOfOptional_id (branch : Option Stmt) : Stmt.mapSpansOfOptional id branch = branch := by
  match branch with
  | none => rfl
  | some body => rw [Stmt.mapSpansOfOptional, body.mapSpans_id]

end

/-! ### Trees without places -/

/-- A type name without places. -/
def TypeName.unplaced (type : TypeName) : TypeName := type.mapSpans fun _ => ⟨0, 0⟩

/-- An expression without places: two expressions without places are equal if they are the same up to places. -/
def Expr.unplaced (value : Expr) : Expr := value.mapSpans fun _ => ⟨0, 0⟩

/-- An argument without places. -/
def Argument.unplaced (argument : Argument) : Argument := argument.mapSpans fun _ => ⟨0, 0⟩

/-! ### What a change of places keeps -/

section

variable (change : Span → Span)

@[simp]
theorem TypeName.span_mapSpans (type : TypeName) : (type.mapSpans change).span = change type.span := by
  cases type <;> rfl

@[simp]
theorem Expr.span_mapSpans (value : Expr) : (value.mapSpans change).span = change value.span := by
  cases value <;> rfl

@[simp]
theorem Stmt.span_mapSpans (statement : Stmt) : (statement.mapSpans change).span = change statement.span := by
  cases statement <;> rfl

@[simp]
theorem Stmt.isDeclaration_mapSpans (statement : Stmt) :
    (statement.mapSpans change).isDeclaration = statement.isDeclaration := by
  cases statement <;> rfl

theorem Expr.core_mapSpans (value : Expr) : (value.mapSpans change).core = value.core.mapSpans change := by
  match value with
  | .paren _ inner => exact core_mapSpans inner
  | .int _ _ | .long _ _ | .double _ _ | .text _ _ | .bool _ _ | .null _ | .name _ _ | .basicType _ _
  | .member _ _ _ | .call _ _ _ | .create _ _ _ | .assign _ _ _ _ | .binary _ _ _ _ | .unary _ _ _
  | .step _ _ _ _ | .conditional _ _ _ _ | .cast _ _ _ => rfl

theorem TypeName.isInferred_mapSpans (type : TypeName) : (type.mapSpans change).isInferred = type.isInferred := by
  match type with
  | .basic _ _ | .named _ [] | .named _ [.mk _ []] | .named _ [.mk _ (_ :: _)] => rfl
  | .named _ (.mk _ [] :: .mk _ _ :: _) | .named _ (.mk _ (_ :: _) :: .mk _ _ :: _) => rfl

end

end Snippet
