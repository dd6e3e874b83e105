import Snippet.Grammar.Declaration

/-!
The tokens of syntax trees in the order in which a text has them: parentheses are nodes of the trees, so a tree alone
determines its tokens. Then what readers take: a logic of the results of readers, and the tokens that the elementary
readers take.
-/

namespace Snippet

namespace Token

/-- Parts with a symbol between each two of them. -/
def separated (sign : Symbol) : List (List Token) → List Token
  | [] => []
  | first :: rest => first ++ rest.flatMap (symbol sign :: ·)

/-- Parts divided by commas in parentheses. -/
def inParentheses (parts : List (List Token)) : List Token :=
  symbol .leftParen :: separated .comma parts ++ [symbol .rightParen]

@[simp]
theorem separated_nil (sign : Symbol) : separated sign [] = [] := rfl

@[simp]
theorem separated_singleton (sign : Symbol) (part : List Token) : separated sign [part] = part := by
  simp [separated]

theorem separated_cons (sign : Symbol) (part : List Token) {rest : List (List Token)} (more : rest ≠ []) :
    separated sign (part :: rest) = part ++ symbol sign :: separated sign rest := by
  cases rest with
  | nil => contradiction
  | cons next others => simp [separated]

end Token

/-! ### Types -/

mutual

/-- The tokens of a type name. -/
def TypeName.tokens : TypeName → List Token
  | .basic _ type => [.keyword type.word]
  | .named _ segments => Token.separated .dot (TypeSegment.tokensOfAll segments)

/-- The tokens of one part of a type name. -/
def TypeSegment.tokens : TypeSegment → List Token
  | .mk name arguments => .name name :: TypeName.argumentTokens arguments

/-- The tokens of type arguments with the angle brackets around them. -/
def TypeName.argumentTokens : List TypeName → List Token
  | [] => []
  | first :: others =>
    .symbol .less :: Token.separated .comma (first.tokens :: TypeName.tokensOfAll others) ++ [.symbol .greater]

/-- The tokens of each of some type names. -/
def TypeName.tokensOfAll : List TypeName → List (List Token)
  | [] => []
  | type :: rest => type.tokens :: TypeName.tokensOfAll rest

/-- The tokens of each of some parts of a type name. -/
def TypeSegment.tokensOfAll : List TypeSegment → List (List Token)
  | [] => []
  | segment :: rest => segment.tokens :: TypeSegment.tokensOfAll rest

end

@[simp]
theorem TypeName.tokensOfAll_eq_map (types : List TypeName) :
    TypeName.tokensOfAll types = types.map TypeName.tokens := by
  induction types with
  | nil => rfl
  | cons first rest ih => rw [TypeName.tokensOfAll, ih, List.map_cons]

@[simp]
theorem TypeSegment.tokensOfAll_eq_map (segments : List TypeSegment) :
    TypeSegment.tokensOfAll segments = segments.map TypeSegment.tokens := by
  induction segments with
  | nil => rfl
  | cons first rest ih => rw [TypeSegment.tokensOfAll, ih, List.map_cons]

/-- The keyword in front of what is passed. -/
def PassMode.tokens : PassMode → List Token
  | value => []
  | input => [.keyword .inWord]
  | ref => [.keyword .refWord]
  | out => [.keyword .outWord]

/-- The tokens of a parameter. -/
def Parameter.tokens (parameter : Parameter) : List Token :=
  parameter.mode.tokens ++ parameter.type.tokens ++ [.name parameter.name]

/-! ### Expressions -/

/-- The symbol of an assignment; most operators have none of their own. -/
def assignmentSign? : Option BinaryOperator → Option Symbol
  | none => some .assign
  | some .add => some .plusAssign
  | some .subtract => some .minusAssign
  | some .multiply => some .starAssign
  | some .divide => some .slashAssign
  | some .remainder => some .percentAssign
  | some _ => none

/-- The symbol of an increment or a decrement. -/
def stepSign (isIncrement : Bool) : Symbol := if isIncrement then .plusPlus else .minusMinus

mutual

/-- The tokens of an expression. -/
def Expr.tokens : Expr → List Token
  | .int _ value => [.int value]
  | .long _ value => [.long value]
  | .double _ value => [.double value]
  | .text _ value => [.text value]
  | .bool _ value => [.keyword (if value then .trueWord else .falseWord)]
  | .null _ => [.keyword .nullWord]
  | .name _ name => [.name name]
  | .basicType _ type => [.keyword type.word]
  | .member _ object name => object.tokens ++ [.symbol .dot, .name name]
  | .call _ callee arguments => callee.tokens ++ Token.inParentheses (Argument.tokensOfAll arguments)
  | .create _ type arguments =>
    .keyword .newWord :: type.tokens ++ Token.inParentheses (Argument.tokensOfAll arguments)
  | .assign _ operator target value =>
    target.tokens ++ ((assignmentSign? operator).map Token.symbol).toList ++ value.tokens
  | .binary _ operator left right => left.tokens ++ .symbol operator.sign :: right.tokens
  | .unary _ operator operand => .symbol operator.sign :: operand.tokens
  | .step _ isIncrement true target => .symbol (stepSign isIncrement) :: target.tokens
  | .step _ isIncrement false target => target.tokens ++ [.symbol (stepSign isIncrement)]
  | .conditional _ condition thenValue elseValue =>
    condition.tokens ++ .symbol .question :: thenValue.tokens ++ .symbol .colon :: elseValue.tokens
  | .cast _ type operand =>
    .symbol .leftParen :: type.tokens ++ .symbol .rightParen :: operand.tokens
  | .paren _ inner => .symbol .leftParen :: inner.tokens ++ [.symbol .rightParen]

/-- The tokens of an argument. -/
def Argument.tokens : Argument → List Token
  | .mk _ mode value => mode.tokens ++ value.tokens

/-- The tokens of each of some arguments. -/
def Argument.tokensOfAll : List Argument → List (List Token)
  | [] => []
  | first :: rest => first.tokens :: Argument.tokensOfAll rest

end

@[simp]
theorem Argument.tokensOfAll_eq_map (list : List Argument) :
    Argument.tokensOfAll list = list.map Argument.tokens := by
  induction list with
  | nil => rfl
  | cons first rest ih => rw [Argument.tokensOfAll, ih, List.map_cons]

/-! ### Statements -/

/-- The tokens of one variable of a declaration. -/
def Declarator.tokens (declarator : Declarator) : List Token :=
  .name declarator.name :: declarator.value.elim [] fun value => .symbol .assign :: value.tokens

namespace Stmt

/-- The tokens of a declaration or an expression without the semicolon; other statements have none. -/
def clauseTokens : Stmt → List Token
  | declare _ type declarators => type.tokens ++ Token.separated .comma (declarators.map (·.tokens))
  | evaluate _ value => value.tokens
  | _ => []

mutual

/-- The tokens of a statement. -/
def tokens : Stmt → List Token
  | block _ body => .symbol .leftBrace :: tokensOfAll body ++ [.symbol .rightBrace]
  | empty _ => [.symbol .semicolon]
  | declare span type declarators =>
    (declare span type declarators).clauseTokens ++ [.symbol .semicolon]
  | evaluate span value => (evaluate span value).clauseTokens ++ [.symbol .semicolon]
  | giveBack _ value => .keyword .returnWord :: value.elim [] Expr.tokens ++ [.symbol .semicolon]
  | branch _ condition thenBranch none =>
    .keyword .ifWord :: Token.inParentheses [condition.tokens] ++ thenBranch.tokens
  | branch _ condition thenBranch (some elseBranch) =>
    .keyword .ifWord :: Token.inParentheses [condition.tokens] ++ thenBranch.tokens ++
      .keyword .elseWord :: elseBranch.tokens
  | whileLoop _ condition body =>
    .keyword .whileWord :: Token.inParentheses [condition.tokens] ++ body.tokens
  | forLoop _ start condition steps body =>
    [.keyword .forWord, .symbol .leftParen] ++ Token.separated .comma (start.map (·.clauseTokens)) ++
      .symbol .semicolon :: condition.elim [] Expr.tokens ++
      .symbol .semicolon :: Token.separated .comma (steps.map (·.tokens)) ++
      .symbol .rightParen :: body.tokens
  | leaveLoop _ => [.keyword .breakWord, .symbol .semicolon]
  | nextRound _ => [.keyword .continueWord, .symbol .semicolon]

/-- The tokens of statements. -/
def tokensOfAll : List Stmt → List Token
  | [] => []
  | first :: rest => first.tokens ++ tokensOfAll rest

end

end Stmt

/-! ### Taken tokens -/

namespace Input

/-- Whether the last token that is left is the end of the text. -/
def Ends (input : Input) : Prop := (input.rest.getLast?).map (·.token) = some .endOfFile

/-- Whether exactly the given tokens lie between two inputs, and the end of the text behind them. -/
def Takes (input : Input) (tokens : List Token) (next : Input) : Prop :=
  next.Ends ∧ ∃ taken : List PlacedToken, input.rest = taken ++ next.rest ∧ taken.map (·.token) = tokens

namespace Takes

variable {input middle next : Input} {first second : List Token}

theorem refl (ends : input.Ends) : input.Takes [] input := ⟨ends, [], rfl, rfl⟩

theorem trans (head : input.Takes first middle) (tail : middle.Takes second next) :
    input.Takes (first ++ second) next := by
  obtain ⟨-, taken, rest, rfl⟩ := head
  obtain ⟨ends, others, rest', rfl⟩ := tail
  refine ⟨ends, taken ++ others, ?_, List.map_append⟩
  rw [rest, rest', List.append_assoc]

theorem ends (takes : input.Takes first next) : next.Ends := takes.1

end Takes

/-- Only the end of the text is never taken. -/
theorem takes_advance {input : Input} {token : Token} (ends : input.Ends) (found : input.token = token)
    (more : token ≠ .endOfFile) : input.Takes [token] input.advance := by
  obtain ⟨rest, previous⟩ := input
  match rest with
  | [] => cases ends
  | [last] =>
    obtain rfl : last.token = token := found
    have isEnd : some last.token = some .endOfFile := ends
    exact absurd (Option.some.inj isEnd) more
  | placed :: next :: rest =>
    obtain rfl : placed.token = token := found
    refine ⟨?_, [placed], rfl, rfl⟩
    rwa [Ends, List.getLast?_cons_cons] at ends

theorem token_of_isSymbol {token : Token} {sign : Symbol} (is : token.isSymbol sign = true) :
    token = .symbol sign := by
  cases token with
  | symbol found => exact congrArg Token.symbol (eq_of_beq is)
  | _ => cases is

theorem token_of_isKeyword {token : Token} {word : Keyword} (is : token.isKeyword word = true) :
    token = .keyword word := by
  cases token with
  | keyword found => exact congrArg Token.keyword (eq_of_beq is)
  | _ => cases is

end Input

/-! ### Readers -/

/-- Whether every result of a reader of an input, with the input behind it, has a property. -/
def Reader.Ensures {α : Type} (input : Input) (reader : Reader α) (post : α → Input → Prop) : Prop :=
  ∀ (value : α) (next : Input), reader input = .ok (value, next) → post value next

namespace Reader

namespace Ensures

variable {α β : Type} {input : Input} {post : α → Input → Prop}

theorem pure {value : α} (holds : post value input) : Ensures input (pure value) post := by
  intro result next read
  cases read
  exact holds

theorem bind {first : Reader β} {rest : β → Reader α} {middle : β → Input → Prop}
    (head : Ensures input first middle)
    (tail : ∀ (value : β) (next : Input), middle value next → Ensures next (rest value) post) :
    Ensures input (first >>= rest) post := by
  intro result last read
  have unfolded : (first >>= rest) input = (first input).bind fun found => rest found.1 found.2 := rfl
  rw [unfolded] at read
  cases isFirst : first input with
  | error stop =>
      rw [isFirst] at read
      cases read
  | ok found =>
      rw [isFirst] at read
      exact tail found.1 found.2 (head _ _ isFirst) _ _ read

theorem weaken {reader : Reader α} {post' : α → Input → Prop} (ensures : Ensures input reader post)
    (weaker : ∀ (value : α) (next : Input), post value next → post' value next) : Ensures input reader post' :=
  fun value next read => weaker value next (ensures value next read)

theorem pureBind {value : β} {rest : β → Reader α} (go : Ensures input (rest value) post) :
    Ensures input (Pure.pure value >>= rest) post := go

theorem map {first : Reader β} {change : β → α}
    (head : Ensures input first fun value next => post (change value) next) :
    Ensures input (change <$> first) post := by
  rw [map_eq_pure_bind]
  exact head.bind fun _ _ holds => .pure holds

theorem fail {problem : Problem} {span : Span} : Ensures input (Reader.fail problem span) post := nofun

theorem failHere {problem : Problem} : Ensures input (Reader.failHere problem) post := nofun

theorem unsupportedHere {construct : String} : Ensures input (Reader.unsupportedHere construct) post := nofun

theorem exhausted : Ensures input (throw .exhausted) post := nofun

theorem mapBind {γ : Type} {first : Reader β} {change : β → γ} {rest : γ → Reader α}
    {middle : β → Input → Prop} (head : Ensures input first middle)
    (tail : ∀ (value : β) (next : Input), middle value next → Ensures next (rest (change value)) post) :
    Ensures input (change <$> first >>= rest) post := by
  rw [map_eq_pure_bind, bind_assoc]
  exact head.bind tail

/-- A reader that stops under a condition goes on only without it. -/
theorem guard {stops : Prop} [Decidable stops] {stop rest : Reader α} (never : Ensures input stop post)
    (go : ¬stops → Ensures input rest post) : Ensures input (if stops then stop else rest) post := by
  split
  · exact never
  · exact go ‹_›

theorem peek {rest : Token → Reader α} (go : Ensures input (rest input.token) post) :
    Ensures input (Reader.peek >>= rest) post := go

theorem peekAt {distance : Nat} {rest : Token → Reader α}
    (go : Ensures input (rest (input.tokenAt distance)) post) :
    Ensures input (Reader.peekAt distance >>= rest) post := go

theorem here {rest : Span → Reader α} (go : Ensures input (rest input.span) post) :
    Ensures input (Reader.here >>= rest) post := go

theorem previous {rest : Span → Reader α} (go : Ensures input (rest input.previous) post) :
    Ensures input (Reader.previous >>= rest) post := go

theorem get {rest : Input → Reader α} (go : Ensures input (rest input) post) :
    Ensures input (get >>= rest) post := go

theorem advance {rest : Span → Reader α} {token : Token} (ends : input.Ends) (found : input.token = token)
    (more : token ≠ .endOfFile)
    (go : input.Takes [token] input.advance → Ensures input.advance (rest input.span) post) :
    Ensures input (Reader.advance >>= rest) post := go (Input.takes_advance ends found more)

theorem discardAdvance {rest : PUnit → Reader α} {token : Token} (ends : input.Ends)
    (found : input.token = token) (more : token ≠ .endOfFile)
    (go : input.Takes [token] input.advance → Ensures input.advance (rest ⟨⟩) post) :
    Ensures input (discard Reader.advance >>= rest) post := go (Input.takes_advance ends found more)

theorem sees {sign : Symbol} {rest : Bool → Reader α}
    (go : Ensures input (rest (input.token.isSymbol sign)) post) :
    Ensures input (Reader.sees sign >>= rest) post := go

/-- A reader with two ways to go on. -/
theorem choose {condition : Prop} [Decidable condition] {first second : Reader α}
    (yes : condition → Ensures input first post) (no : ¬condition → Ensures input second post) :
    Ensures input (if condition then first else second) post := by
  split
  · exact yes ‹_›
  · exact no ‹_›

/-- A reader that goes on in one way behind a symbol and in another one without it. -/
theorem eat {sign : Symbol} {first second : Reader α} (ends : input.Ends)
    (taken : ∀ next, input.Takes [.symbol sign] next → Ensures next first post)
    (left : Ensures input second post) :
    Ensures input (Reader.eat sign >>= fun found => if found then first else second) post := by
  rw [Reader.eat, bind_assoc]
  refine .peek ?_
  by_cases isSign : input.token.isSymbol sign = true
  · rw [if_pos isSign]
    exact taken _ (Input.takes_advance ends (Input.token_of_isSymbol isSign) nofun)
  · rw [if_neg isSign]
    exact left

end Ensures

/-- An entry of a list stands alone, or a comma and more entries follow. -/
theorem commaOrEnd_takes {α : Type} {print : α → List Token} {entry : α} {others : Reader (List α)}
    {input middle : Input} (first : input.Takes (print entry) middle)
    (more : ∀ {behind : Input}, behind.Ends → Ensures behind others fun entries next =>
      entries ≠ [] ∧ behind.Takes (Token.separated .comma (entries.map print)) next) :
    Ensures middle (do
      if ← eat .comma then return entry :: (← others)
      else return [entry]) fun entries next =>
        entries ≠ [] ∧ input.Takes (Token.separated .comma (entries.map print)) next := by
  refine .eat first.ends (fun divided comma => ?_) (.pure ⟨nofun, by simpa using first⟩)
  refine (more comma.ends).bind fun entries last both => .pure ⟨nofun, ?_⟩
  obtain ⟨isSome, tail⟩ := both
  rw [List.map_cons, Token.separated_cons _ _ (by simpa using isSome)]
  simpa using (first.trans comma).trans tail

variable {input : Input}

/-- A symbol that has to stand at the front is taken. -/
theorem expect_takes (ends : input.Ends) (sign : Symbol) :
    Ensures input (expect sign) fun _ next => input.Takes [.symbol sign] next := by
  rw [expect]
  refine .get ?_
  split
  · next isSign =>
    intro span next read
    cases read
    exact Input.takes_advance ends (Input.token_of_isSymbol isSign) (by nofun)
  · exact .fail

theorem discard_expect_takes (ends : input.Ends) (sign : Symbol) :
    Ensures input (discard (expect sign)) fun _ next => input.Takes [.symbol sign] next :=
  .map (expect_takes ends sign)

theorem expectName_takes (ends : input.Ends) :
    Ensures input expectName fun found next => input.Takes [.name found.1] next := by
  rw [expectName]
  refine .peek ?_
  split
  · next name isName => exact .advance ends isName (by nofun) fun takes => .pure takes
  · exact .failHere
  · exact .failHere

theorem passMode_takes (ends : input.Ends) :
    Ensures input passMode fun mode next => input.Takes mode.tokens next := by
  rw [passMode]
  refine .peek ?_
  split
  · next isWord => exact .discardAdvance ends isWord (by nofun) fun takes => .pure takes
  · next isWord => exact .discardAdvance ends isWord (by nofun) fun takes => .pure takes
  · next isWord => exact .discardAdvance ends isWord (by nofun) fun takes => .pure takes
  · exact .pure (.refl ends)

theorem token_of_basicType? {token : Token} {basic : BasicType} (is : basicType? token = some basic) :
    token = .keyword basic.word := by
  cases token with
  | keyword word => cases word <;> cases is <;> rfl
  | _ => cases is

end Reader

/-- A unit that is read from a source text has what the reader of its tokens ensures. -/
theorem CompilationUnit.of_ofSource {source : String} {unit : CompilationUnit} (isUnit : ofSource source = .ok unit)
    (post : CompilationUnit → Prop)
    (ensures : ∀ tokens, tokenize source = .ok tokens →
      Reader.Ensures ⟨tokens, ⟨0, 0⟩⟩ (Reader.compilationUnit (readingFuel tokens)) fun found _ => post found) :
    post unit := by
  unfold ofSource at isUnit
  cases isTokens : tokenize source with
  | error findings =>
    rw [isTokens] at isUnit
    cases isUnit
  | ok tokens =>
    rw [isTokens] at isUnit
    replace isUnit : (ofTokens tokens).mapError (fun finding => [finding]) = .ok unit := isUnit
    unfold ofTokens at isUnit
    cases isRead : Reader.compilationUnit (readingFuel tokens) ⟨tokens, ⟨0, 0⟩⟩ with
    | error stop =>
      rw [isRead] at isUnit
      cases stop <;> cases isUnit
    | ok found =>
      rw [isRead] at isUnit
      cases isUnit
      exact ensures tokens isTokens _ _ isRead

end Snippet
