import Snippet.Grammar.Declaration
import Snippet.Proofs.Source.Found

/-!
Why a text has no syntax tree: every problem of its tokens, and every problem that stops a reader, is an error.
Main statement: `CompilationUnit.isError_of_ofSource`.
-/

namespace Snippet

/-! ### Tokens -/

/-- Whether every finding among lexemes is an error. -/
def Lexeme.AllErrors (lexemes : List Lexeme) : Prop := ∀ found, .finding found ∈ lexemes → found.isError = true

theorem Lexer.allErrors_lexemes (cursor : Cursor) : Lexeme.AllErrors (lexemes cursor) := by
  intro found member
  obtain stands | ⟨span, isEnd⟩ := lexemes_standsBehind cursor _ member
  · cases stands with
    | finding isError => exact isError
  · cases isEnd

/-- A text whose tokens cannot be read has an error. -/
theorem isError_of_tokenize {source : String} {findings : List Finding} (fails : tokenize source = .error findings) :
    findings.any (·.isError) = true := by
  obtain ⟨rfl, isSome⟩ := tokenize_eq_error_iff.1 fails
  obtain ⟨first, member⟩ := List.exists_mem_of_ne_nil _ isSome
  exact List.any_eq_true.2 ⟨first, member, Lexer.allErrors_lexemes _ first (Lexeme.mem_findings.1 member)⟩

/-! ### Readers -/

/-- Whether every finding that stops a reader is an error. -/
def Reader.StopsWithError {α : Type} (reader : Reader α) : Prop :=
  ∀ (input : Input) (found : Finding), reader input = .error (.finding found) → found.isError = true

namespace Reader

namespace StopsWithError

variable {α β : Type}

theorem pure (value : α) : StopsWithError (Pure.pure value) := nofun

theorem exhausted : StopsWithError (throw .exhausted : Reader α) := nofun

theorem fail {problem : Problem} (isError : problem.isWarning = false) (span : Span) :
    StopsWithError (Reader.fail problem span : Reader α) := by
  rintro input found ⟨⟩
  simp [Finding.isError, isError]

theorem failHere {problem : Problem} (isError : problem.isWarning = false) :
    StopsWithError (Reader.failHere problem : Reader α) := fun input => fail isError input.span input

theorem unsupportedHere (construct : String) : StopsWithError (Reader.unsupportedHere construct : Reader α) :=
  failHere rfl

theorem bind {first : Reader β} {rest : β → Reader α} (head : StopsWithError first)
    (tail : ∀ value : β, StopsWithError (rest value)) : StopsWithError (first >>= rest) := by
  intro input found stops
  have unfolded : (first >>= rest) input = (first input).bind fun read => rest read.1 read.2 := rfl
  rw [unfolded] at stops
  cases isFirst : first input with
  | error stop =>
      rw [isFirst] at stops
      cases stops
      exact head input found isFirst
  | ok read =>
      rw [isFirst] at stops
      exact tail read.1 read.2 found stops

theorem map {first : Reader β} (change : β → α) (head : StopsWithError first) : StopsWithError (change <$> first) := by
  rw [map_eq_pure_bind]
  exact head.bind fun _ => .pure _

theorem discard {first : Reader β} {rest : PUnit → Reader α} (head : StopsWithError first)
    (tail : StopsWithError (rest ⟨⟩)) : StopsWithError (Functor.discard first >>= rest) :=
  (head.map _).bind fun _ => tail

theorem choose {condition : Prop} [Decidable condition] {first second : Reader α} (yes : StopsWithError first)
    (no : StopsWithError second) : StopsWithError (if condition then first else second) := by
  split
  · exact yes
  · exact no

/-! Readers that never stop. -/

theorem peek {rest : Token → Reader α} (go : ∀ token : Token, StopsWithError (rest token)) :
    StopsWithError (Reader.peek >>= rest) := fun input => go input.token input

theorem peekAt {distance : Nat} {rest : Token → Reader α} (go : ∀ token : Token, StopsWithError (rest token)) :
    StopsWithError (Reader.peekAt distance >>= rest) := fun input => go (input.tokenAt distance) input

theorem sees {sign : Symbol} {rest : Bool → Reader α} (go : ∀ isSeen : Bool, StopsWithError (rest isSeen)) :
    StopsWithError (Reader.sees sign >>= rest) := fun input => go (input.token.isSymbol sign) input

theorem here {rest : Span → Reader α} (go : ∀ span : Span, StopsWithError (rest span)) :
    StopsWithError (Reader.here >>= rest) := fun input => go input.span input

theorem previous {rest : Span → Reader α} (go : ∀ span : Span, StopsWithError (rest span)) :
    StopsWithError (Reader.previous >>= rest) := fun input => go input.previous input

theorem get {rest : Input → Reader α} (go : ∀ input : Input, StopsWithError (rest input)) :
    StopsWithError (get >>= rest) := fun input => go input input

theorem advance {rest : Span → Reader α} (go : ∀ span : Span, StopsWithError (rest span)) :
    StopsWithError (Reader.advance >>= rest) := fun input => go input.span input.advance

theorem discardAdvance {rest : PUnit → Reader α} (go : StopsWithError (rest ⟨⟩)) :
    StopsWithError (Functor.discard Reader.advance >>= rest) := fun input => go input.advance

theorem eat {sign : Symbol} {rest : Bool → Reader α} (go : ∀ isTaken : Bool, StopsWithError (rest isTaken)) :
    StopsWithError (Reader.eat sign >>= rest) := by
  have eaten : StopsWithError (Reader.eat sign) := .peek fun _ => .choose (.discardAdvance (.pure _)) (.pure _)
  exact eaten.bind go

end StopsWithError

theorem expect_stops (sign : Symbol) : StopsWithError (expect sign) := by
  have isError : (missing sign).1.isWarning = false := by cases sign <;> rfl
  rw [expect]
  exact .get fun _ => .choose nofun (.fail isError _)

theorem expectWord_stops (word : Keyword) : StopsWithError (expectWord word) := by
  rw [expectWord]
  exact .get fun _ => .choose nofun (.fail rfl _)

theorem expectName_stops : StopsWithError expectName := by
  rw [expectName]
  refine .peek fun token => ?_
  split
  · exact .advance fun _ => .pure _
  · exact .failHere rfl
  · exact .failHere rfl

theorem passMode_stops : StopsWithError passMode := by
  rw [passMode]
  refine .peek fun token => ?_
  split
  · exact .discardAdvance (.pure _)
  · exact .discardAdvance (.pure _)
  · exact .discardAdvance (.pure _)
  · exact .pure _

theorem nameTail_stops (fuel : Nat) (name : String) : StopsWithError (nameTail fuel name) := by
  induction fuel generalizing name with
  | zero => exact .exhausted
  | succ fuel ih =>
      rw [nameTail]
      exact .eat fun _ => .choose (expectName_stops.bind fun _ => ih _) (.pure _)

theorem qualifiedName_stops (fuel : Nat) : StopsWithError (qualifiedName fuel) :=
  expectName_stops.bind fun found => nameTail_stops fuel found.1

/-! ### Type names -/

theorem refuseNullable_stops : StopsWithError refuseNullable := by
  rw [refuseNullable]
  exact .sees fun _ => .choose (.peekAt fun _ => .choose (.unsupportedHere _) (.pure _)) (.pure _)

mutual

theorem typeName_stops (fuel : Nat) : StopsWithError (typeName fuel) := by
  match fuel with
  | 0 => exact .exhausted
  | fuel + 1 =>
    rw [typeName]
    refine .here fun start => .peek fun token => ?_
    split
    · exact .discardAdvance (refuseNullable_stops.bind fun _ => .pure _)
    · exact (typeSegments_stops fuel).bind fun _ => .previous fun _ => refuseNullable_stops.bind fun _ => .pure _

theorem typeSegments_stops (fuel : Nat) : StopsWithError (typeSegments fuel) := by
  match fuel with
  | 0 => exact .exhausted
  | fuel + 1 =>
    rw [typeSegments]
    have finish (segment : TypeSegment) : StopsWithError (do
        if (← sees .dot) && (← peekAt 1).isName then
          discard advance
          return segment :: (← typeSegments fuel)
        else return [segment]) :=
      .sees fun _ => .peekAt fun _ =>
        .choose (.discardAdvance ((typeSegments_stops fuel).bind fun _ => .pure _)) (.pure _)
    refine expectName_stops.bind fun found => .sees fun _ => .choose ?_ (finish _)
    exact (typeArguments_stops fuel).bind fun arguments => finish _

theorem typeArguments_stops (fuel : Nat) : StopsWithError (typeArguments fuel) := by
  match fuel with
  | 0 => exact .exhausted
  | fuel + 1 =>
    rw [typeArguments]
    refine .discard (expect_stops .less) ((typeName_stops fuel).bind fun first => ?_)
    exact (typeArgumentsTail_stops fuel).bind fun others => .discard (expect_stops .greater) (.pure _)

theorem typeArgumentsTail_stops (fuel : Nat) : StopsWithError (typeArgumentsTail fuel) := by
  match fuel with
  | 0 => exact .exhausted
  | fuel + 1 =>
    rw [typeArgumentsTail]
    refine .eat fun _ => .choose ?_ (.pure _)
    exact (typeName_stops fuel).bind fun _ => (typeArgumentsTail_stops fuel).bind fun _ => .pure _

end

/-- Where no declaration stands, the type that cannot be read is no error. -/
theorem localType?_stops (fuel : Nat) : StopsWithError (localType? fuel) := by
  intro input found stops
  unfold localType? at stops
  dsimp only at stops
  split at stops
  · cases stops
  split at stops
  · cases stops
  split at stops <;> cases stops

/-! ### Expressions -/

mutual

theorem expression_stops (fuel : Nat) : StopsWithError (expression fuel) := by
  match fuel with
  | 0 => exact .exhausted
  | fuel + 1 =>
    rw [expression]
    refine (conditional_stops fuel).bind fun target => .peek fun token => ?_
    split
    · exact .pure _
    · exact .discardAdvance ((expression_stops fuel).bind fun _ => .pure _)

theorem conditional_stops (fuel : Nat) : StopsWithError (conditional fuel) := by
  match fuel with
  | 0 => exact .exhausted
  | fuel + 1 =>
    rw [conditional]
    refine (binary_stops fuel levels).bind fun condition => .eat fun _ => .choose ?_ (.pure _)
    refine (expression_stops fuel).bind fun _ => .discard (expect_stops .colon) ?_
    exact (expression_stops fuel).bind fun _ => .pure _

theorem binary_stops (fuel : Nat) (levels : List (List BinaryOperator)) : StopsWithError (binary fuel levels) := by
  match fuel, levels with
  | 0, _ => exact .exhausted
  | fuel + 1, [] =>
    rw [binary]
    exact unary_stops fuel
  | fuel + 1, level :: tighter =>
    rw [binary]
    exact (binary_stops fuel tighter).bind fun left => binaryTail_stops fuel level tighter left

theorem binaryTail_stops (fuel : Nat) (level : List BinaryOperator) (tighter : List (List BinaryOperator))
    (left : Expr) : StopsWithError (binaryTail fuel level tighter left) := by
  match fuel with
  | 0 => exact .exhausted
  | fuel + 1 =>
    rw [binaryTail]
    refine .peek fun token => ?_
    split
    · exact .pure _
    · refine .discardAdvance ((binary_stops fuel tighter).bind fun right => ?_)
      exact binaryTail_stops fuel level tighter _

theorem unary_stops (fuel : Nat) : StopsWithError (unary fuel) := by
  match fuel with
  | 0 => exact .exhausted
  | fuel + 1 =>
    rw [unary]
    refine .here fun start => .peek fun token => ?_
    split
    · exact .discardAdvance ((unary_stops fuel).bind fun _ => .pure _)
    · exact .discardAdvance ((unary_stops fuel).bind fun _ => .pure _)
    · refine .get fun input => .choose ?_ ?_
      · refine .discardAdvance ((typeName_stops fuel).bind fun type => .discard (expect_stops .rightParen) ?_)
        exact (unary_stops fuel).bind fun _ => .pure _
      · exact (primary_stops fuel).bind fun value => trailing_stops fuel value

theorem trailing_stops (fuel : Nat) (value : Expr) : StopsWithError (trailing fuel value) := by
  match fuel with
  | 0 => exact .exhausted
  | fuel + 1 =>
    rw [trailing]
    refine .peek fun token => ?_
    split
    · refine .discardAdvance (expectName_stops.bind fun found => .get fun input => ?_)
      exact .choose (.unsupportedHere _) (trailing_stops fuel _)
    · exact (callArguments_stops fuel).bind fun arguments => .previous fun stop => trailing_stops fuel _
    · exact .advance fun stop => trailing_stops fuel _
    · exact .choose (.get fun input => .fail rfl _) (.pure _)

theorem callArguments_stops (fuel : Nat) : StopsWithError (callArguments fuel) := by
  match fuel with
  | 0 => exact .exhausted
  | fuel + 1 =>
    rw [callArguments]
    refine .discard (expect_stops .leftParen) (.eat fun _ => .choose (.pure _) ?_)
    exact (argumentList_stops fuel).bind fun _ => .discard (expect_stops .rightParen) (.pure _)

theorem argumentList_stops (fuel : Nat) : StopsWithError (argumentList fuel) := by
  match fuel with
  | 0 => exact .exhausted
  | fuel + 1 =>
    rw [argumentList]
    refine .here fun start => passMode_stops.bind fun mode => .peek fun token => .peekAt fun next => ?_
    refine .choose (.fail rfl _) ((expression_stops fuel).bind fun value => ?_)
    exact .eat fun _ => .choose ((argumentList_stops fuel).bind fun _ => .pure _) (.pure _)

theorem primary_stops (fuel : Nat) : StopsWithError (primary fuel) := by
  match fuel with
  | 0 => exact .exhausted
  | fuel + 1 =>
    rw [primary]
    refine .here fun span => .peek fun token => ?_
    split
    · exact .discardAdvance (.pure _)
    · exact .discardAdvance (refuseNullable_stops.bind fun _ => .pure _)
    · split
      · refine .discardAdvance ((expression_stops fuel).bind fun inner => ?_)
        exact .discard (expect_stops .rightParen) (.previous fun _ => .pure _)
      · refine .discardAdvance (.peek fun next => .choose (.unsupportedHere _) ?_)
        refine (typeName_stops fuel).bind fun type => .sees fun _ => .choose (.unsupportedHere _) ?_
        refine .sees fun _ => .choose (.failHere rfl) ?_
        exact (callArguments_stops fuel).bind fun arguments => .previous fun _ => .pure _
      · exact .failHere rfl

end

/-! ### Statements -/

theorem condition_stops (fuel : Nat) : StopsWithError (condition fuel) := by
  rw [condition]
  refine .discard (expect_stops .leftParen) ((expression_stops fuel).bind fun value => ?_)
  exact .discard (expect_stops .rightParen) (.pure _)

theorem declarators_stops (fuel : Nat) : StopsWithError (declarators fuel) := by
  induction fuel with
  | zero => exact .exhausted
  | succ fuel ih =>
      rw [declarators]
      refine expectName_stops.bind fun found => .eat fun _ => ?_
      have finish (value : Option Expr) : StopsWithError (do
          let declarator : Declarator := ⟨found.1, value, found.2.join (← previous)⟩
          if ← eat .comma then return declarator :: (← declarators fuel)
          else return [declarator]) :=
        .previous fun _ => .eat fun _ => .choose (ih.bind fun _ => .pure _) (.pure _)
      exact .choose (((expression_stops fuel).map some).bind finish) (finish none)

theorem simpleStatement_stops (fuel : Nat) (start : Span) : StopsWithError (simpleStatement fuel start) := by
  rw [simpleStatement]
  refine (localType?_stops fuel).bind fun type? => ?_
  split
  · exact (declarators_stops fuel).bind fun _ => .previous fun _ => .pure _
  · exact (expression_stops fuel).bind fun _ => .previous fun _ => .pure _

theorem loopStart_stops (fuel : Nat) : StopsWithError (loopStart fuel) := by
  induction fuel with
  | zero => exact .exhausted
  | succ fuel ih =>
      rw [loopStart]
      refine .here fun start => (simpleStatement_stops fuel start).bind fun statement => ?_
      exact .choose (.pure _) (.eat fun _ => .choose (ih.bind fun _ => .pure _) (.pure _))

theorem expressions_stops (fuel : Nat) : StopsWithError (expressions fuel) := by
  induction fuel with
  | zero => exact .exhausted
  | succ fuel ih =>
      rw [expressions]
      refine (expression_stops fuel).bind fun value => ?_
      exact .eat fun _ => .choose (ih.bind fun _ => .pure _) (.pure _)

theorem upTo_stops (start : Span) (statement : Span → Stmt) : StopsWithError (upTo start statement) :=
  .previous fun _ => .pure _

theorem refuseDeclaration_stops (statement : Stmt) : StopsWithError (refuseDeclaration statement) :=
  .choose (.fail rfl _) (.pure _)

/-- The four parts of the head of a `for` loop and its body. -/
theorem forLoop_stops {fuel : Nat} (start : Span) (body : StopsWithError (embedded fuel)) : StopsWithError (do
    let first ← if ← sees .semicolon then pure [] else loopStart fuel
    discard (expect .semicolon)
    let test ← if ← sees .semicolon then pure none else some <$> expression fuel
    discard (expect .semicolon)
    let steps ← if ← sees .rightParen then pure [] else expressions fuel
    discard (expect .rightParen)
    let body ← embedded fuel
    upTo start (.forLoop · first test steps body)) := by
  have finish (first : List Stmt) (test : Option Expr) (steps : List Expr) : StopsWithError (do
      discard (expect .rightParen)
      let body ← embedded fuel
      upTo start (.forLoop · first test steps body)) :=
    .discard (expect_stops .rightParen) (body.bind fun _ => upTo_stops start _)
  have advance (first : List Stmt) (test : Option Expr) : StopsWithError (do
      discard (expect .semicolon)
      let steps ← if ← sees .rightParen then pure [] else expressions fuel
      discard (expect .rightParen)
      let body ← embedded fuel
      upTo start (.forLoop · first test steps body)) := by
    refine .discard (expect_stops .semicolon) (.sees fun _ => ?_)
    exact .choose (finish first test []) ((expressions_stops fuel).bind (finish first test))
  have test (first : List Stmt) : StopsWithError (do
      discard (expect .semicolon)
      let test ← if ← sees .semicolon then pure none else some <$> expression fuel
      discard (expect .semicolon)
      let steps ← if ← sees .rightParen then pure [] else expressions fuel
      discard (expect .rightParen)
      let body ← embedded fuel
      upTo start (.forLoop · first test steps body)) := by
    refine .discard (expect_stops .semicolon) (.sees fun _ => ?_)
    exact .choose (advance first none) (((expression_stops fuel).map some).bind (advance first))
  exact .sees fun _ => .choose (test []) ((loopStart_stops fuel).bind test)

mutual

theorem statement_stops (fuel : Nat) : StopsWithError (statement fuel) := by
  match fuel with
  | 0 => exact .exhausted
  | fuel + 1 =>
    rw [statement]
    refine .here fun start => .peek fun token => ?_
    split
    · refine .discardAdvance ((statements_stops fuel).bind fun body => ?_)
      exact .discard (expect_stops .rightBrace) (upTo_stops start _)
    · exact .discardAdvance (upTo_stops start _)
    · have finish (value : Option Expr) : StopsWithError (do
          discard (expect .semicolon)
          upTo start (.giveBack · value)) := .discard (expect_stops .semicolon) (upTo_stops start _)
      refine .discardAdvance (.sees fun _ => .choose (finish none) ?_)
      exact ((expression_stops fuel).map some).bind finish
    · refine .discardAdvance ((condition_stops fuel).bind fun test => (embedded_stops fuel).bind fun thenBranch => ?_)
      refine .peek fun next => .choose ?_ (upTo_stops start _)
      exact .discardAdvance ((embedded_stops fuel).bind fun elseBranch => upTo_stops start _)
    · refine .discardAdvance ((condition_stops fuel).bind fun test => ?_)
      exact (embedded_stops fuel).bind fun body => upTo_stops start _
    · exact .discardAdvance (.discard (expect_stops .leftParen) (forLoop_stops start (embedded_stops fuel)))
    · exact .discardAdvance (.discard (expect_stops .semicolon) (upTo_stops start _))
    · exact .discardAdvance (.discard (expect_stops .semicolon) (upTo_stops start _))
    · have simple : StopsWithError (do
          let read ← simpleStatement fuel start
          discard (expect .semicolon)
          match read with
          | .declare _ type declared => upTo start (.declare · type declared)
          | .evaluate _ value => upTo start (.evaluate · value)
          | other => return other) := by
        refine (simpleStatement_stops fuel start).bind fun read => .discard (expect_stops .semicolon) ?_
        split
        · exact upTo_stops start _
        · exact upTo_stops start _
        · exact .pure _
      split
      · exact .choose (.fail rfl _) simple
      · exact simple

theorem embedded_stops (fuel : Nat) : StopsWithError (embedded fuel) := by
  match fuel with
  | 0 => exact .exhausted
  | fuel + 1 =>
    rw [embedded]
    exact (statement_stops fuel).bind refuseDeclaration_stops

theorem statements_stops (fuel : Nat) : StopsWithError (statements fuel) := by
  match fuel with
  | 0 => exact .exhausted
  | fuel + 1 =>
    rw [statements]
    refine .peek fun token => ?_
    split
    · exact .pure _
    · exact .pure _
    · exact (statement_stops fuel).bind fun first => (statements_stops fuel).bind fun _ => .pure _

end

/-! ### Declarations -/

theorem modifierList_stops (fuel : Nat) (modifiers : Modifiers) : StopsWithError (modifierList fuel modifiers) := by
  induction fuel generalizing modifiers with
  | zero => exact .exhausted
  | succ fuel ih =>
      rw [modifierList]
      refine .peek fun token => ?_
      split
      · exact .pure _
      · exact .failHere rfl
      · exact .discardAdvance (ih _)

theorem parameterList_stops (fuel : Nat) : StopsWithError (parameterList fuel) := by
  induction fuel with
  | zero => exact .exhausted
  | succ fuel ih =>
      rw [parameterList]
      refine .here fun start => passMode_stops.bind fun mode => .peek fun token => ?_
      split
      case' h_1 => refine .choose (.unsupportedHere _) ?_
      all_goals
        refine (typeName_stops fuel).bind fun type => expectName_stops.bind fun found => .sees fun _ => ?_
        exact .choose (.unsupportedHere _) (.eat fun _ => .choose (ih.bind fun _ => .pure _) (.pure _))

theorem parameters_stops (fuel : Nat) : StopsWithError (parameters fuel) := by
  rw [parameters]
  refine .discard (expect_stops .leftParen) (.eat fun _ => .choose (.pure _) ?_)
  exact (parameterList_stops fuel).bind fun _ => .discard (expect_stops .rightParen) (.pure _)

theorem method_stops (fuel : Nat) (modifiers : Modifiers) (start : Span) (className : String) :
    StopsWithError (method fuel modifiers start className) := by
  rw [method]
  have body {name : String} {result : Option TypeName} : StopsWithError (do
      let list ← parameters fuel
      discard (expect .leftBrace)
      let body ← statements fuel
      let stop ← expect .rightBrace
      return (⟨name, modifiers, result, list, body, start.join stop⟩ : MethodDecl)) := by
    refine (parameters_stops fuel).bind fun list => .discard (expect_stops .leftBrace) ?_
    exact (statements_stops fuel).bind fun body => (expect_stops .rightBrace).bind fun _ => .pure _
  refine .peek fun token => ?_
  split
  case' h_1 => refine .peekAt fun next => .choose (.unsupportedHere _) ?_
  all_goals
    refine .peek fun token => .choose (.discardAdvance ((StopsWithError.pure none).bind ?_))
      (.choose ?_ (.failHere rfl))
  case' h_1.refine_2 | h_2.refine_2 => refine ((typeName_stops fuel).map some).bind ?_
  -- The name stands behind a result type or behind the word for none.
  all_goals
    refine fun result => expectName_stops.bind fun found => .peek fun token => ?_
    split
    · exact .unsupportedHere _
    · exact .unsupportedHere _
    · exact .unsupportedHere _
    · exact .unsupportedHere _
    · exact body

mutual

theorem classDecl_stops (fuel : Nat) (modifiers : Modifiers) (start : Span) :
    StopsWithError (classDecl fuel modifiers start) := by
  match fuel with
  | 0 => exact .exhausted
  | fuel + 1 =>
    rw [classDecl]
    refine .discard (expectWord_stops .classWord) (expectName_stops.bind fun found => ?_)
    refine .sees fun _ => .sees fun _ => .choose (.unsupportedHere _) (.discard (expect_stops .leftBrace) ?_)
    exact (classMembers_stops fuel found.1).bind fun _ => (expect_stops .rightBrace).bind fun _ => .pure _

theorem classMembers_stops (fuel : Nat) (className : String) : StopsWithError (classMembers fuel className) := by
  match fuel with
  | 0 => exact .exhausted
  | fuel + 1 =>
    rw [classMembers]
    refine .peek fun token => ?_
    split
    · exact .pure _
    · exact .pure _
    · refine .here fun start => (modifierList_stops fuel .none).bind fun modifiers => .peek fun next => .choose ?_ ?_
      · exact (classDecl_stops fuel modifiers start).bind fun first =>
          (classMembers_stops fuel className).bind fun _ => .pure _
      · exact (method_stops fuel modifiers start className).bind fun first =>
          (classMembers_stops fuel className).bind fun _ => .pure _

end

theorem usings_stops (fuel : Nat) : StopsWithError (usings fuel) := by
  induction fuel with
  | zero => exact .exhausted
  | succ fuel ih =>
      rw [usings]
      refine .peek fun token => .choose (.pure _) (.advance fun start => .peek fun next => .peekAt fun second => ?_)
      refine .choose (.fail rfl _) ((qualifiedName_stops fuel).bind fun name => ?_)
      exact (expect_stops .semicolon).bind fun stop => ih.bind fun _ => .pure _

mutual

theorem members_stops (fuel : Nat) : StopsWithError (members fuel) := by
  match fuel with
  | 0 => exact .exhausted
  | fuel + 1 =>
    rw [members]
    refine .peek fun token => .choose ?_ (.choose (.failHere rfl) (.choose ?_ (.pure _)))
    · exact (space_stops fuel).bind fun first => (members_stops fuel).bind fun _ => .pure _
    · refine .here fun start => (modifierList_stops fuel .none).bind fun modifiers => .peek fun next => ?_
      refine .choose (.failHere rfl) ((classDecl_stops fuel modifiers start).bind fun first => ?_)
      exact (members_stops fuel).bind fun _ => .pure _

theorem space_stops (fuel : Nat) : StopsWithError (space fuel) := by
  match fuel with
  | 0 => exact .exhausted
  | fuel + 1 =>
    rw [space]
    refine .advance fun start => (qualifiedName_stops fuel).bind fun name => .sees fun _ => ?_
    refine .choose (.unsupportedHere _) (.discard (expect_stops .leftBrace) ?_)
    refine (usings_stops fuel).bind fun directives => (members_stops fuel).bind fun list => .peek fun token => ?_
    have closed : StopsWithError (do
        let stop ← expect .rightBrace
        return Member.space (start.join stop) name directives list) :=
      (expect_stops .rightBrace).bind fun _ => .pure _
    split
    · exact closed
    · exact closed
    · exact .failHere rfl

end

theorem compilationUnit_stops (fuel : Nat) : StopsWithError (compilationUnit fuel) := by
  rw [compilationUnit]
  refine (usings_stops fuel).bind fun directives => (members_stops fuel).bind fun list => .peek fun token => ?_
  split
  · exact .pure _
  · exact .failHere rfl

end Reader

/-- A text without a syntax tree has an error. -/
theorem CompilationUnit.isError_of_ofSource {source : String} {findings : List Finding}
    (fails : ofSource source = .error findings) : findings.any (·.isError) = true := by
  unfold ofSource at fails
  cases isTokens : tokenize source with
  | error others =>
    rw [isTokens] at fails
    cases fails
    exact isError_of_tokenize isTokens
  | ok tokens =>
    rw [isTokens] at fails
    replace fails : (ofTokens tokens).mapError (fun found => [found]) = .error findings := fails
    unfold ofTokens at fails
    split at fails
    · cases fails
    · next found stops =>
      cases fails
      simp [Reader.compilationUnit_stops _ _ found stops]
    · cases fails
      rfl

end Snippet
