import Snippet.Proofs.Grammar.WrittenType

/-!
What it means that a level of the grammar reads an expression back, and that what a level reads back is read back by
all looser ones: every level in between finds nothing to go on with.
-/

namespace Snippet

/-- Whether an expression of a level may end in front of the input: no type arguments stand there, and nothing that an
expression of the level goes on with. -/
structure Input.EndsLevel (level : Nat) (input : Input) : Prop where
  level : input.token.endLevel ≤ level
  noTypes : Reader.seesTypeArguments input = false

namespace Input

variable {input : Input} {level : Nat}

theorem seesTypeArguments_of_ne_less {token : Token} (isToken : input.token = token)
    (differs : token.isSymbol .less = false) : Reader.seesTypeArguments input = false := by
  rw [Reader.seesTypeArguments, isToken, differs, Bool.false_and, Bool.false_and]

theorem EndsLevel.of_symbol {sign : Symbol} (isSign : input.token = .symbol sign)
    (isLevel : (Token.symbol sign).endLevel ≤ level) (differs : (Token.symbol sign).isSymbol .less = false) :
    input.EndsLevel level :=
  ⟨isSign ▸ isLevel, seesTypeArguments_of_ne_less isSign differs⟩

theorem EndsLevel.mono {level' : Nat} (ends : input.EndsLevel level) (looser : level ≤ level') :
    input.EndsLevel level' := ⟨Nat.le_trans ends.level looser, ends.noTypes⟩

end Input

namespace Reader

/-- Whether a reader reads an expression back in front of an input in which one of a level may end. -/
def ReadsBack (value : Expr) (reader : Nat → Reader Expr) (extra level : Nat) : Prop :=
  ∀ (fuel : Nat) (input : Input) (middle : List PlacedToken), 20 * value.tokens.length + extra ≤ fuel →
    input.Shows value.tokens middle → (∀ next : Input, next.rest = middle → next.EndsLevel level) →
    Finds input (reader fuel) fun found next => found.unplaced = value.unplaced ∧ next.rest = middle

/-- Whether an expression is read back as a first operand of the operators at a position, which stand behind it. -/
def ReadsFirst (value : Expr) (position : Nat) : Prop :=
  ∀ (fuel : Nat) (input : Input) (middle : List PlacedToken) (level : List BinaryOperator)
    (tighter : List (List BinaryOperator)) (good : Expr → Input → Prop), levels.drop position = level :: tighter →
    20 * value.tokens.length + 14 ≤ fuel + 2 * position → input.Shows value.tokens middle →
    (∀ next : Input, next.rest = middle → next.EndsLevel (position + 3)) →
    (∀ (less : Nat) (found : Expr) (next : Input), fuel ≤ less + value.tokens.length →
      found.unplaced = value.unplaced → next.rest = middle → Finds next (binaryTail less level tighter found) good) →
    Finds input (binary fuel (level :: tighter)) good

/-- Whether an expression is read back as an operand with accesses, calls and steps behind it. -/
def ReadsOperand (value : Expr) (ends : Input → Prop) : Prop :=
  ∀ (fuel : Nat) (input : Input) (middle : List PlacedToken) (good : Expr → Input → Prop),
    20 * value.tokens.length + 1 ≤ fuel → input.Shows value.tokens middle →
    (∀ next : Input, next.rest = middle → ends next) →
    (∀ (less : Nat) (found : Expr) (next : Input), fuel ≤ less + value.tokens.length →
      found.unplaced = value.unplaced → next.rest = middle → Finds next (trailing less found) good) →
    Finds input (unary fuel) good

/-- Whether an expression is read back at its level and at every looser one. -/
structure ReadsAll (value : Expr) : Prop where
  expression : ReadsBack value expression 18 0
  conditional : 2 ≤ value.level → ReadsBack value conditional 16 1
  binary : ∀ position ≤ 6, position + 2 ≤ value.level →
    ReadsBack value (binary · (levels.drop position)) (14 - 2 * position) (position + 2)
  first : ∀ position < 6, position + 2 ≤ value.level → ReadsFirst value position
  unary : 8 ≤ value.level → ReadsBack value unary 1 8
  operand : 9 ≤ value.level → ReadsOperand value fun next => seesTypeArguments next = false

variable {value : Expr}

/-! ### From a level to the looser ones -/

theorem readsUnary_of_operand (read : ReadsOperand value fun next => seesTypeArguments next = false) :
    ReadsBack value unary 1 8 := by
  intro fuel input middle enough shows ends
  refine read fuel input middle _ enough shows (fun next isBehind => (ends next isBehind).noTypes) ?_
  intro less found next used same behind
  match less with
  | 0 => omega
  | less + 1 =>
    rw [trailing]
    obtain ⟨notDot, notParen, noStep, noOperand⟩ :=
      Token.trailing_of_endLevel ((ends next behind).mono (by decide)).level
    refine .peek rfl ?_
    rw [noStep]
    split
    · next isDot =>
      rw [isDot] at notDot
      cases notDot
    · next isParen =>
      rw [isParen] at notParen
      cases notParen
    · next isStep _ _ => cases isStep
    · rw [noOperand]
      exact .pure ⟨same, behind⟩

theorem readsBinary_of_unary (read : ReadsBack value unary 1 8) : ReadsBack value (binary · []) 2 8 := by
  intro fuel input middle enough shows ends
  match fuel with
  | 0 => omega
  | fuel + 1 =>
    dsimp only
    rw [binary]
    exact read fuel input middle (by omega) shows ends

theorem readsFirst_of_binary {position : Nat} (inside : position < 6) (some : 0 < value.tokens.length)
    (read : ReadsBack value (binary · (levels.drop (position + 1))) (14 - 2 * (position + 1)) (position + 3)) :
    ReadsFirst value position := by
  intro fuel input middle level tighter good isLevel enough shows ends go
  have isTighter : levels.drop (position + 1) = tighter := by
    rw [← List.tail_drop, isLevel, List.tail_cons]
  match fuel with
  | 0 => omega
  | fuel + 1 =>
    rw [binary, ← isTighter]
    refine (read fuel input middle (by omega) shows ends).bind fun found next both => ?_
    rw [isTighter]
    exact go fuel found next (by omega) both.1 both.2

theorem readsBinary_of_first {position : Nat} (inside : position < 6) (read : ReadsFirst value position) :
    ReadsBack value (binary · (levels.drop position)) (14 - 2 * position) (position + 2) := by
  intro fuel input middle enough shows ends
  obtain ⟨level, tighter, isLevel, -⟩ := exists_level inside
  dsimp only
  rw [isLevel]
  refine read fuel input middle level tighter _ isLevel (by omega) shows
    (fun next isBehind => (ends next isBehind).mono (by omega)) ?_
  intro less found next used same behind
  match less with
  | 0 => omega
  | less + 1 =>
    rw [binaryTail]
    refine .peek rfl ?_
    rw [operator?_eq_none isLevel (ends next behind).level]
    exact .pure ⟨same, behind⟩

theorem readsConditional_of_binary (read : ReadsBack value (binary · levels) 14 2) :
    ReadsBack value conditional 16 1 := by
  intro fuel input middle enough shows ends
  match fuel with
  | 0 => omega
  | fuel + 1 =>
    rw [conditional]
    refine (read fuel input middle (by omega) shows fun next isBehind => (ends next isBehind).mono (by decide)).bind ?_
    intro found next both
    have notQuestion := Token.question_of_endLevel (ends next both.2).level
    exact .eatNothing notQuestion (.pure both)

theorem readsExpression_of_conditional {level : Nat} (read : ReadsBack value conditional 16 level) :
    ReadsBack value expression 18 0 := by
  intro fuel input middle enough shows ends
  match fuel with
  | 0 => omega
  | fuel + 1 =>
    rw [expression]
    refine (read fuel input middle (by omega) shows fun next isBehind =>
      (ends next isBehind).mono (Nat.zero_le level)).bind ?_
    intro found next both
    refine .peek rfl ?_
    rw [Token.assignment?_eq_none (Nat.le_zero.1 (ends next both.2).level)]
    exact .pure both

/-- What is read back by the operators at a position is read back by those at every earlier one. -/
theorem readsBinary_of_le {position earlier : Nat} (inside : position ≤ 6) (before : earlier ≤ position)
    (some : 0 < value.tokens.length)
    (read : ReadsBack value (binary · (levels.drop position)) (14 - 2 * position) (position + 2)) :
    ReadsBack value (binary · (levels.drop earlier)) (14 - 2 * earlier) (earlier + 2) := by
  induction position with
  | zero => exact Nat.le_zero.1 before ▸ read
  | succ position ih =>
      rcases Nat.lt_or_eq_of_le before with earlier | rfl
      · refine ih (by omega) (by omega) ?_
        exact readsBinary_of_first (by omega) (readsFirst_of_binary (by omega) some read)
      · exact read

theorem readsConditional_of_le {position : Nat} (inside : position ≤ 6) (some : 0 < value.tokens.length)
    (read : ReadsBack value (binary · (levels.drop position)) (14 - 2 * position) (position + 2)) :
    ReadsBack value conditional 16 1 :=
  readsConditional_of_binary (readsBinary_of_le inside (Nat.zero_le _) some read)

namespace ReadsAll

/-- Assignments and choices are tight enough for the loosest places only. -/
theorem of_expression (isLoose : value.level ≤ 1) (read : ReadsBack value Reader.expression 18 0) :
    ReadsAll value where
  expression := read
  conditional := by omega
  binary := by omega
  first := by omega
  unary := by omega
  operand := by omega

theorem of_first {position : Nat} (inside : position < 6) (isLevel : value.level = position + 2)
    (some : 0 < value.tokens.length) (read : ReadsFirst value position) : ReadsAll value := by
  have readBinary := readsBinary_of_first inside read
  have readConditional := readsConditional_of_le (Nat.le_of_lt inside) some readBinary
  have readEarlier (earlier : Nat) (before : earlier ≤ position) :=
    readsBinary_of_le (Nat.le_of_lt inside) before some readBinary
  refine ⟨readsExpression_of_conditional readConditional, fun _ => readConditional, fun earlier _ before =>
    readEarlier earlier (by omega), fun earlier _ before => ?_, by omega, by omega⟩
  rcases Nat.lt_or_eq_of_le (show earlier ≤ position by omega) with isEarlier | rfl
  · exact readsFirst_of_binary (by omega) some (readEarlier _ isEarlier)
  · exact read

/-- What stands in front of an operand, or the operand itself. -/
theorem of_reads_unary (some : 0 < value.tokens.length) (read : ReadsBack value Reader.unary 1 8)
    (operand : 9 ≤ value.level → ReadsOperand value fun next => seesTypeArguments next = false) :
    ReadsAll value := by
  have readBinary := readsBinary_of_unary read
  have readConditional := readsConditional_of_le (Nat.le_refl 6) some readBinary
  have readEarlier (earlier : Nat) (before : earlier ≤ 6) := readsBinary_of_le (Nat.le_refl 6) before some readBinary
  exact ⟨readsExpression_of_conditional readConditional, fun _ => readConditional,
    fun earlier inside _ => readEarlier earlier inside,
    fun earlier inside _ => readsFirst_of_binary inside some (readEarlier _ inside), fun _ => read, operand⟩

theorem of_unary (isLevel : value.level = 8) (some : 0 < value.tokens.length)
    (read : ReadsBack value Reader.unary 1 8) : ReadsAll value :=
  of_reads_unary some read fun isTighter => absurd isTighter (by omega)

theorem of_operand (some : 0 < value.tokens.length)
    (read : ReadsOperand value fun next => seesTypeArguments next = false) : ReadsAll value :=
  of_reads_unary some (readsUnary_of_operand read) fun _ => read

end ReadsAll

end Reader

end Snippet
