import Snippet.Proofs.Grammar.Known
import Snippet.Proofs.Grammar.Spans

/-!
The levels of the grammar of expressions, the loosest first: assignments, choices, the six levels of operators
between two operands, what stands in front of an operand, and what stands behind one. An expression is grouped
if every operand is as tight as its place asks for; parentheses are nodes, and the tightest ones.
-/

namespace Snippet

/-! ### Grouped expressions -/

mutual

/-- Whether a type name can be written down: every dotted name in it has a part. -/
def TypeName.IsWritten : TypeName → Prop
  | .basic _ _ => True
  | .named _ segments => segments ≠ [] ∧ TypeSegment.AllWritten segments

/-- Whether the type arguments of all parts of a type name can be written down. -/
def TypeSegment.AllWritten : List TypeSegment → Prop
  | [] => True
  | .mk _ arguments :: rest => TypeName.AllWritten arguments ∧ TypeSegment.AllWritten rest

/-- Whether all of some type names can be written down. -/
def TypeName.AllWritten : List TypeName → Prop
  | [] => True
  | first :: rest => first.IsWritten ∧ TypeName.AllWritten rest

end

/-- The level of an operator between two operands. -/
def BinaryOperator.level : BinaryOperator → Nat
  | or => 2
  | and => 3
  | equal | notEqual => 4
  | less | greater | lessEqual | greaterEqual => 5
  | add | subtract => 6
  | multiply | divide | remainder => 7

/-- The level of an expression. -/
def Expr.level : Expr → Nat
  | .assign _ _ _ _ => 0
  | .conditional _ _ _ _ => 1
  | .binary _ operator _ _ => operator.level
  | .unary _ _ _ | .cast _ _ _ | .step _ _ true _ => 8
  | _ => 9

mutual

/-- Whether every operand in an expression is as tight as its place asks for. Operators between two operands group to
the left and assignments to the right. Casts are to basic types, and a basic type stands in front of a dot only. -/
def Expr.IsGrouped : Expr → Prop
  | .int _ _ | .long _ _ | .double _ _ | .text _ _ | .bool _ _ | .null _ | .name _ _ => True
  | .basicType _ _ => False
  | .member _ object _ => (∃ span type, object = .basicType span type) ∨ 9 ≤ object.level ∧ object.IsGrouped
  | .call _ callee arguments => 9 ≤ callee.level ∧ callee.IsGrouped ∧ Argument.AllGrouped arguments
  | .create _ type arguments => type.IsWritten ∧ Argument.AllGrouped arguments
  | .assign _ operator target value =>
    (assignmentSign? operator).isSome ∧ (2 ≤ target.level ∧ target.IsGrouped) ∧ value.IsGrouped
  | .binary _ operator left right =>
    (operator.level ≤ left.level ∧ left.IsGrouped) ∧ operator.level < right.level ∧ right.IsGrouped
  | .unary _ _ operand => 8 ≤ operand.level ∧ operand.IsGrouped
  | .step _ _ true target => 8 ≤ target.level ∧ target.IsGrouped
  | .step _ _ false target => 9 ≤ target.level ∧ target.IsGrouped
  | .conditional _ condition thenValue elseValue =>
    (2 ≤ condition.level ∧ condition.IsGrouped) ∧ thenValue.IsGrouped ∧ elseValue.IsGrouped
  | .cast _ (.basic _ _) operand => 8 ≤ operand.level ∧ operand.IsGrouped
  | .cast _ (.named _ _) _ => False
  | .paren _ inner => inner.IsGrouped

/-- Whether all arguments of a call are grouped. -/
def Argument.AllGrouped : List Argument → Prop
  | [] => True
  | .mk _ _ value :: rest => value.IsGrouped ∧ Argument.AllGrouped rest

end

/-! ### Ends of expressions -/

/-- The least level of which an expression may end in front of a token: a token behind which an expression of some
level goes on ends tighter ones only. -/
def Token.endLevel : Token → Nat
  | .symbol sign =>
    match sign with
    | .assign | .plusAssign | .minusAssign | .starAssign | .slashAssign | .percentAssign => 1
    | .question => 2
    | .orOr => 3
    | .andAnd => 4
    | .equal | .notEqual => 5
    | .less | .greater | .lessEqual | .greaterEqual => 6
    | .plus | .minus => 7
    | .star | .slash | .percent => 8
    | .dot | .leftParen | .plusPlus | .minusMinus => 10
    | _ => 0
  | .name _ | .text _ | .int _ | .long _ | .double _ => 10
  | _ => 0

theorem BinaryOperator.endLevel_sign (operator : BinaryOperator) :
    (Token.symbol operator.sign).endLevel = operator.level + 1 := by cases operator <;> rfl

/-- The place of an operator in the list of levels. -/
theorem BinaryOperator.exists_position (operator : BinaryOperator) :
    ∃ position < 6, operator.level = position + 2 := by
  cases operator <;> exact ⟨_, by decide, rfl⟩

namespace Token

variable {token : Token}

theorem assignment?_eq_none (ends : token.endLevel = 0) : Reader.assignment? token = none := by
  cases token with
  | symbol sign => cases sign <;> first | rfl | cases ends
  | _ => rfl

theorem question_of_endLevel (ends : token.endLevel ≤ 1) : token.isSymbol .question = false := by
  cases token with
  | symbol sign =>
    rw [isSymbol, beq_eq_false_iff_ne]
    rintro rfl
    exact absurd ends (by decide)
  | _ => rfl

theorem isName_of_endLevel (ends : token.endLevel ≤ 9) : token.isName = false := by
  cases token with
  | name => exact absurd (show 10 ≤ 9 from ends) (by decide)
  | _ => rfl

/-- Nothing of an operand stands where an expression of the operators may end. -/
theorem trailing_of_endLevel (ends : token.endLevel ≤ 9) : token.isSymbol .dot = false ∧
    token.isSymbol .leftParen = false ∧ Reader.step? token = none ∧ Reader.startsOperand token = false := by
  cases token with
  | symbol sign => cases sign <;> first | exact ⟨rfl, rfl, rfl, rfl⟩ | exact absurd ends (by decide)
  | keyword | endOfFile => exact ⟨rfl, rfl, rfl, rfl⟩
  | _ => exact absurd (show 10 ≤ 9 from ends) (by decide)

end Token

namespace Reader

theorem assignment?_sign {operator : Option BinaryOperator} {sign : Symbol}
    (isSign : assignmentSign? operator = some sign) : (Token.symbol sign).endLevel = 1 ∧
      (Token.symbol sign).isSymbol .less = false ∧ assignment? (.symbol sign) = some operator := by
  cases operator with
  | none =>
    cases isSign
    exact ⟨rfl, rfl, rfl⟩
  | some operator => cases operator <;> cases isSign <;> exact ⟨rfl, rfl, rfl⟩

/-- The operators of a level stand at their place in the list of levels. -/
theorem level_of_mem {position : Nat} {level : List BinaryOperator} {tighter : List (List BinaryOperator)}
    (isLevel : levels.drop position = level :: tighter) {operator : BinaryOperator} (member : operator ∈ level) :
    operator.level = position + 2 := by
  match position with
  | 0 | 1 | 2 | 3 | 4 | 5 =>
    cases isLevel
    revert operator
    decide
  | further + 6 => exact absurd isLevel (by simp [levels])

theorem operator?_eq_none {position : Nat} {level : List BinaryOperator} {tighter : List (List BinaryOperator)}
    (isLevel : levels.drop position = level :: tighter) {token : Token} (ends : token.endLevel ≤ position + 2) :
    operator? level token = none := by
  rw [operator?, List.find?_eq_none]
  intro operator member isSign
  have atPosition := level_of_mem isLevel member
  have endLevel := operator.endLevel_sign
  rw [← Input.token_of_isSymbol isSign] at endLevel
  omega

theorem operator?_sign {position : Nat} {level : List BinaryOperator} {tighter : List (List BinaryOperator)}
    (isLevel : levels.drop position = level :: tighter) {operator : BinaryOperator}
    (atPosition : operator.level = position + 2) : operator? level (.symbol operator.sign) = some operator := by
  match position with
  | 0 | 1 | 2 | 3 | 4 | 5 =>
    cases isLevel
    cases operator <;> first | rfl | cases atPosition
  | further + 6 => exact absurd isLevel (by simp [levels])

theorem exists_level {position : Nat} (inside : position < 6) :
    ∃ level tighter, levels.drop position = level :: tighter ∧ levels.drop (position + 1) = tighter := by
  match position with
  | 0 | 1 | 2 | 3 | 4 | 5 => exact ⟨_, _, rfl, rfl⟩

end Reader

/-! ### Beginnings of expressions -/

/-- Whether tokens may begin an expression. A dot follows the word of a basic type, and no name follows a name. -/
structure Token.Opens (first : Token) (rest : List Token) : Prop where
  notClosing : first.isSymbol .rightParen = false ∧ first.isSymbol .semicolon = false
  notMode : first.isKeyword .refWord = false ∧ first.isKeyword .outWord = false ∧ first.isKeyword .inWord = false
  basic : (Reader.basicType? first).isSome → ∃ more, rest = .symbol .dot :: more
  name : first.isName → ∀ second ∈ rest.head?, second.isName = false

namespace Token.Opens

variable {first : Token} {rest : List Token}

/-- A symbol may stand behind an expression. -/
theorem append (opens : first.Opens rest) (sign : Symbol) (more : List Token) :
    first.Opens (rest ++ .symbol sign :: more) := by
  refine ⟨opens.notClosing, opens.notMode, fun isBasic => ?_, fun isName second member => ?_⟩
  · obtain ⟨others, rfl⟩ := opens.basic isBasic
    exact ⟨_, rfl⟩
  · cases rest with
    | nil =>
      cases member
      rfl
    | cons token others => exact opens.name isName second member

/-- Anything may follow a token that is neither a name nor the word of a basic type. -/
theorem of_plain (notClosing : first.isSymbol .rightParen = false ∧ first.isSymbol .semicolon = false)
    (notMode : first.isKeyword .refWord = false ∧ first.isKeyword .outWord = false ∧ first.isKeyword .inWord = false)
    (notBasic : Reader.basicType? first = none) (notName : first.isName = false) : first.Opens rest := by
  refine ⟨notClosing, notMode, fun isBasic => ?_, fun isName => ?_⟩
  · rw [notBasic] at isBasic
    exact absurd isBasic Bool.false_ne_true
  · exact absurd (notName.symm.trans isName) Bool.false_ne_true

/-- A symbol other than a closing one may begin an expression. -/
theorem symbol {sign : Symbol} (opening : sign ≠ .rightParen ∧ sign ≠ .semicolon) (rest : List Token) :
    (Token.symbol sign).Opens rest :=
  .of_plain ⟨beq_eq_false_iff_ne.2 opening.1, beq_eq_false_iff_ne.2 opening.2⟩ ⟨rfl, rfl, rfl⟩ rfl rfl

end Token.Opens

/-- Whether a list of tokens may begin an expression. -/
def Token.AllOpen (tokens : List Token) : Prop := ∃ first rest, tokens = first :: rest ∧ first.Opens rest

theorem Token.AllOpen.append {tokens : List Token} (opens : AllOpen tokens) (sign : Symbol) (more : List Token) :
    AllOpen (tokens ++ .symbol sign :: more) := by
  obtain ⟨first, rest, rfl, opens⟩ := opens
  exact ⟨first, _, rfl, opens.append sign more⟩

/-- The tokens of a grouped expression may begin one. -/
theorem Expr.allOpen_tokens (value : Expr) (grouped : value.IsGrouped) : Token.AllOpen value.tokens := by
  match value with
  | .int _ _ | .long _ _ | .double _ _ | .text _ _ | .null _ =>
    exact ⟨_, _, rfl, .of_plain ⟨rfl, rfl⟩ ⟨rfl, rfl, rfl⟩ rfl rfl⟩
  | .name _ word =>
    have noBasic : ¬(Reader.basicType? (Token.name word)).isSome = true := Bool.false_ne_true
    exact ⟨_, _, rfl, ⟨rfl, rfl⟩, ⟨rfl, rfl, rfl⟩, fun isBasic => absurd isBasic noBasic,
      fun _ second member => absurd member (Option.not_mem_none second)⟩
  | .bool _ truth =>
    refine ⟨_, _, rfl, ?_⟩
    cases truth <;> exact .of_plain ⟨rfl, rfl⟩ ⟨rfl, rfl, rfl⟩ rfl rfl
  | .member _ object _ =>
    rcases grouped with ⟨_, type, rfl⟩ | ⟨-, inner⟩
    · have noName : ¬(Token.keyword type.word).isName = true := Bool.false_ne_true
      refine ⟨_, _, rfl, ⟨rfl, rfl⟩, ?_, fun _ => ⟨_, rfl⟩, fun isName => absurd isName noName⟩
      cases type <;> exact ⟨rfl, rfl, rfl⟩
    · exact (allOpen_tokens object inner).append .dot _
  | .call _ callee _ => exact (allOpen_tokens callee grouped.2.1).append .leftParen _
  | .create _ _ _ => exact ⟨_, _, rfl, .of_plain ⟨rfl, rfl⟩ ⟨rfl, rfl, rfl⟩ rfl rfl⟩
  | .assign span operator target value =>
    obtain ⟨hasSign, ⟨-, inner⟩, -⟩ := grouped
    obtain ⟨sign, isSign⟩ := Option.isSome_iff_exists.1 hasSign
    have areTokens :
        (Expr.assign span operator target value).tokens = target.tokens ++ .symbol sign :: value.tokens := by
      simp [Expr.tokens, isSign]
    rw [areTokens]
    exact (allOpen_tokens target inner).append sign _
  | .binary _ operator left _ => exact (allOpen_tokens left grouped.1.2).append operator.sign _
  | .unary _ operator _ => exact ⟨_, _, rfl, .symbol (by cases operator <;> decide) _⟩
  | .step _ isIncrement true _ => exact ⟨_, _, rfl, .symbol (by cases isIncrement <;> decide) _⟩
  | .step _ isIncrement false target => exact (allOpen_tokens target grouped.2).append (stepSign isIncrement) []
  | .conditional _ condition _ _ =>
    have opens := (allOpen_tokens condition grouped.1.2).append .question
    simpa [Expr.tokens] using opens _
  | .cast _ _ _ | .paren _ _ => exact ⟨_, _, rfl, .symbol (by decide) _⟩

end Snippet
