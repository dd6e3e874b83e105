import Snippet.Proofs.Grammar.ReadBack

/-!
Reading back a grouped expression. Main statement: `Reader.giveBack_roundTrip`.
-/

namespace Snippet.Reader

variable {value : Expr}

/-! ### Operands -/

/-- Whether a reader of operands reads an expression back, and its tokens do not look like anything else. -/
structure ReadsPrimary (value : Expr) (ends : Input → Prop) : Prop where
  primary : ∀ (fuel : Nat) (input : Input) (middle : List PlacedToken), 20 * value.tokens.length ≤ fuel →
    input.Shows value.tokens middle → (∀ next : Input, next.rest = middle → ends next) →
    Finds input (primary fuel) fun found next => found.unplaced = value.unplaced ∧ next.rest = middle
  front : ∀ (input : Input) (middle : List PlacedToken), input.Shows value.tokens middle →
    unary? input.token = none ∧ step? input.token = none ∧ seesCast input = false

theorem ReadsPrimary.operand {ends : Input → Prop} (some : 0 < value.tokens.length)
    (read : ReadsPrimary value ends) : ReadsOperand value ends := by
  intro fuel input middle good enough shows ends go
  match fuel with
  | 0 => omega
  | fuel + 1 =>
    obtain ⟨noUnary, noStep, noCast⟩ := read.front input middle shows
    rw [unary]
    refine .here (.peek rfl ?_)
    rw [noUnary, noStep]
    refine .get ?_
    rw [noCast]
    refine (read.primary fuel input middle (by omega) shows ends).bind fun found next both => ?_
    exact go fuel found next (by omega) both.1 both.2

/-- A token that is an expression by itself. -/
theorem readsPrimary_atom {token : Token} (isTokens : value.tokens = [token])
    (isAtom : ∀ span, ∃ found, atom? span token = some found ∧ found.unplaced = value.unplaced)
    (front : unary? token = none ∧ step? token = none ∧ token.isSymbol .leftParen = false) (ends : Input → Prop) :
    ReadsPrimary value ends where
  primary := by
    intro fuel input middle enough shows _
    rw [isTokens] at enough shows
    match fuel with
    | 0 => cases enough
    | fuel + 1 =>
      obtain ⟨found, isFound, same⟩ := isAtom input.span
      rw [primary]
      refine .here (.peek shows.head ?_)
      rw [isFound]
      exact .discardAdvance (.pure ⟨same, shows.advance.isRest⟩)
  front := by
    intro input middle shows
    rw [isTokens] at shows
    rw [seesCast, shows.head, front.2.2, Bool.false_and, Bool.false_and]
    exact ⟨front.1, front.2.1, rfl⟩

/-- The word of a basic type in front of anything but a question mark. -/
theorem readsPrimary_basicType (span : Span) (type : BasicType) :
    ReadsPrimary (.basicType span type) fun next => next.token.isSymbol .question = false where
  primary := by
    intro fuel input middle enough shows ends
    match fuel with
    | 0 => cases enough
    | fuel + 1 =>
      have noAtom : atom? input.span (.keyword type.word) = none := by cases type <;> rfl
      have isBasic : basicType? (.keyword type.word) = some type := type.ofWord?_word
      have behind := shows.advance.isRest
      rw [primary]
      refine .here (.peek shows.head ?_)
      rw [noAtom, isBasic]
      exact .discardAdvance (refuseNullable_found (ends _ behind) (.pure ⟨rfl, behind⟩))
  front := by
    intro input middle shows
    rw [seesCast, shows.head]
    exact ⟨rfl, rfl, rfl⟩

/-- Parentheses around an expression, which is no basic type. -/
theorem readsPrimary_paren {span : Span} {inner : Expr} (isOpen : Token.AllOpen inner.tokens)
    (read : ReadsBack inner expression 18 0) (ends : Input → Prop) : ReadsPrimary (.paren span inner) ends where
  primary := by
    intro fuel input middle enough shows _
    rw [Expr.tokens] at enough shows
    simp only [List.length_cons, List.length_append, List.length_nil, List.cons_append] at enough shows
    match fuel with
    | 0 => omega
    | fuel + 1 =>
      rw [primary]
      refine .here (.peek shows.head (.discardAdvance ?_))
      obtain ⟨between, showsInner, shows⟩ := shows.advance.split
      have endsInner (next : Input) (isBehind : next.rest = between) : next.EndsLevel 0 :=
        .of_symbol (shows next isBehind).head (by decide) rfl
      refine (read fuel _ between (by omega) showsInner endsInner).bind fun found next both => ?_
      refine .discardExpect (shows next both.2) fun last shows => .previous (.pure ⟨?_, shows.isRest⟩)
      exact congrArg (Expr.paren ⟨0, 0⟩) both.1
  front := by
    intro input middle shows
    obtain ⟨first, rest, areTokens, opens⟩ := isOpen
    rw [Expr.tokens, areTokens, List.cons_append] at shows
    refine ⟨by rw [shows.head]; rfl, by rw [shows.head]; rfl, ?_⟩
    rw [seesCast, shows.second]
    cases isBasic : basicType? first with
    | none => rw [Option.isSome_none, Bool.and_false, Bool.false_and]
    | some type =>
      obtain ⟨more, rfl⟩ := opens.basic (by rw [isBasic]; rfl)
      rw [shows.third]
      exact Bool.and_false _

/-! ### Arguments -/

/-- Whether the value of an argument is read back, and its tokens may begin an expression. -/
def ReadsArgument : Argument → Prop
  | .mk _ _ value => Token.AllOpen value.tokens ∧ ReadsBack value expression 18 0

theorem passMode_found {α : Type} {mode : PassMode} {first : Token} {more : List Token} {middle : List PlacedToken}
    {input : Input} {rest : PassMode → Reader α} {good : α → Input → Prop}
    (notMode : first.isKeyword .refWord = false ∧ first.isKeyword .outWord = false ∧ first.isKeyword .inWord = false)
    (shows : input.Shows (mode.tokens ++ first :: more) middle)
    (go : ∀ next : Input, next.Shows (first :: more) middle → Finds next (rest mode) good) :
    Finds input (passMode >>= rest) good := by
  rw [passMode, bind_assoc]
  cases mode with
  | value =>
    refine .peek shows.head ?_
    obtain ⟨notRef, notOut, notIn⟩ := notMode
    split
    · cases notRef
    · cases notOut
    · cases notIn
    · exact .pureBind (go input shows)
  | input | ref | out =>
    refine .peek shows.head ?_
    rw [bind_assoc]
    exact .discardAdvance (.pureBind (go _ shows.advance))

/-- Behind a token that an expression and a type may begin with stands no name. -/
theorem second_of_opens {first : Token} {rest : List Token} {input : Input} {middle : List PlacedToken}
    (opens : first.Opens rest) (shows : input.Shows (first :: rest) middle)
    (ends : ∀ next : Input, next.rest = middle → next.token.isName = false) (isType : startsType first = true) :
    (input.tokenAt 1).isName = false := by
  rw [startsType, Bool.or_eq_true] at isType
  rcases isType with isName | isBasic
  · cases rest with
    | nil =>
      rw [shows.tokenAt_one]
      exact ends _ shows.advance.isRest
    | cons second others =>
      rw [shows.second]
      exact opens.name isName second rfl
  · obtain ⟨more, rfl⟩ := opens.basic isBasic
    rw [shows.second]
    rfl

theorem argumentList_found (fuel : Nat) (arguments : List Argument) (isSome : arguments ≠ [])
    (read : ∀ argument ∈ arguments, ReadsArgument argument) {input : Input} {middle : List PlacedToken}
    (enough : 20 * (Token.separated .comma (arguments.map Argument.tokens)).length + 19 ≤ fuel)
    (shows : input.Shows (Token.separated .comma (arguments.map Argument.tokens)) middle)
    (ends : ∀ next : Input, next.rest = middle → next.token = .symbol .rightParen) :
    Finds input (argumentList fuel) fun found next =>
      found.map Argument.unplaced = arguments.map Argument.unplaced ∧ next.rest = middle := by
  induction arguments generalizing fuel input with
  | nil => exact absurd rfl isSome
  | cons argument rest ih =>
      obtain ⟨span, mode, value⟩ := argument
      obtain ⟨⟨opening, following, areTokens, opens⟩, readValue⟩ := read _ (List.mem_cons_self ..)
      rw [List.map_cons, Token.separated, Argument.tokens, List.append_assoc] at enough shows
      simp only [List.length_append] at enough
      cases fuel with
      | zero => omega
      | succ fuel =>
        rw [argumentList]
        have showsFirst := shows
        rw [areTokens, List.cons_append] at showsFirst
        refine .here (passMode_found opens.notMode showsFirst fun opened shows => ?_)
        rw [← List.cons_append, ← areTokens] at shows
        obtain ⟨between, showsValue, shows⟩ := shows.split
        have endsValue (next : Input) (isBehind : next.rest = between) : next.EndsLevel 0 := by
          cases rest with
          | nil => exact .of_symbol (ends next (shows next isBehind).isRest) (by decide) rfl
          | cons second others => exact .of_symbol (shows next isBehind).head (by decide) rfl
        refine .peek rfl (.peekAt (.guard ?_ ?_))
        · intro isDeclaration
          simp only [Bool.and_eq_true] at isDeclaration
          have notName (next : Input) (isBehind : next.rest = between) : next.token.isName = false :=
            Token.isName_of_endLevel ((endsValue next isBehind).mono (Nat.zero_le 9)).level
          rw [areTokens] at showsValue
          have noName := second_of_opens opens showsValue notName
            (by rw [← showsValue.head]; exact isDeclaration.1.2)
          rw [noName] at isDeclaration
          cases isDeclaration.2
        · refine (readValue fuel opened between (by omega) showsValue endsValue).bind fun found next both => ?_
          have sameFirst (span' : Span) :
              (Argument.mk span' mode found).unplaced = (Argument.mk span mode value).unplaced :=
            congrArg (Argument.mk ⟨0, 0⟩ mode) both.1
          have shows := shows next both.2
          cases rest with
          | nil =>
            have notComma : next.token.isSymbol .comma = false := by
              rw [ends next shows.isRest]
              rfl
            refine .eatNothing notComma (.pure ⟨?_, shows.isRest⟩)
            rw [List.map_singleton, List.map_singleton, sameFirst]
          | cons second others =>
            have areMore : ((second :: others).map Argument.tokens).flatMap (Token.symbol .comma :: ·) =
                .symbol .comma :: Token.separated .comma ((second :: others).map Argument.tokens) := by
              simp [Token.separated]
            rw [areMore] at shows enough
            rw [List.length_cons] at enough
            refine .eat shows fun divided shows => ?_
            have readRest (argument : Argument) (member : argument ∈ second :: others) : ReadsArgument argument :=
              read argument (List.mem_cons_of_mem _ member)
            refine (ih fuel (List.cons_ne_nil _ _) readRest (by omega) shows).bind fun more last both' => .pure ⟨?_, both'.2⟩
            rw [List.map_cons, List.map_cons, sameFirst, both'.1]

/-- The arguments of a call with their parentheses. -/
theorem callArguments_found {fuel : Nat} {arguments : List Argument}
    (read : ∀ argument ∈ arguments, ReadsArgument argument) {input : Input} {middle : List PlacedToken}
    (enough : 20 * (Token.inParentheses (arguments.map Argument.tokens)).length ≤ fuel)
    (shows : input.Shows (Token.inParentheses (arguments.map Argument.tokens)) middle) :
    Finds input (callArguments fuel) fun found next =>
      found.map Argument.unplaced = arguments.map Argument.unplaced ∧ next.rest = middle := by
  rw [Token.inParentheses] at enough shows
  simp only [List.length_cons, List.length_append, List.length_nil, List.cons_append] at enough shows
  cases fuel with
  | zero => omega
  | succ fuel =>
    rw [callArguments]
    refine .discardExpect shows fun opened shows => ?_
    cases arguments with
    | nil => exact .eat shows fun closed shows => .pure ⟨rfl, shows.isRest⟩
    | cons argument rest =>
      obtain ⟨span, mode, value⟩ := argument
      obtain ⟨between, showsArguments, shows⟩ := shows.split
      have notClosing : opened.token.isSymbol .rightParen = false := by
        obtain ⟨⟨first, following, areTokens, opens⟩, -⟩ := read _ (List.mem_cons_self ..)
        rw [List.map_cons, Token.separated, Argument.tokens, areTokens] at showsArguments
        cases mode with
        | value =>
          rw [showsArguments.head]
          exact opens.notClosing.1
        | input | ref | out =>
          rw [showsArguments.head]
          rfl
      refine .eatNothing notClosing ?_
      have endsArguments (next : Input) (isBehind : next.rest = between) : next.token = .symbol .rightParen :=
        (shows next isBehind).head
      refine (argumentList_found fuel (.mk span mode value :: rest) (List.cons_ne_nil _ _) read (by omega) showsArguments
        endsArguments).bind ?_
      intro found next both
      exact .discardExpect (shows next both.2) fun closed shows => .pure ⟨both.1, shows.isRest⟩

/-- The creation of a value. -/
theorem readsPrimary_create {span : Span} {type : TypeName} {arguments : List Argument} (written : type.IsWritten)
    (read : ∀ argument ∈ arguments, ReadsArgument argument) (ends : Input → Prop) :
    ReadsPrimary (.create span type arguments) ends where
  primary := by
    intro fuel input middle enough shows _
    rw [Expr.tokens, Argument.tokensOfAll_eq_map] at enough shows
    simp only [List.length_cons, List.length_append, List.cons_append] at enough shows
    match fuel with
    | 0 => omega
    | fuel + 1 =>
      rw [primary]
      refine .here (.peek shows.head (.discardAdvance (.peek rfl ?_)))
      have shows := shows.advance
      have isType : startsType input.advance.token = true := by
        obtain ⟨first, more, areTokens, starts⟩ := type.exists_startsType written
        rw [areTokens, List.cons_append] at shows
        rw [shows.head, starts]
      rw [isType]
      obtain ⟨between, showsType, shows⟩ := shows.split
      have isParen (next : Input) (isBehind : next.rest = between) : next.token = .symbol .leftParen :=
        (shows next isBehind).head
      refine (typeName_found fuel type written (by omega) showsType fun next isBehind =>
        Input.endsType_of_symbol (isParen next isBehind) rfl).bind fun found next both => ?_
      have notBrace : next.token.isSymbol .leftBrace = false := by
        rw [isParen next both.2]
        rfl
      have sawParen : next.token.isSymbol .leftParen = true := by
        rw [isParen next both.2]
        rfl
      refine .sees notBrace (.sees sawParen ?_)
      refine (callArguments_found read (by omega) (shows next both.2)).bind fun passed last both' => ?_
      refine .previous (.pure ⟨?_, both'.2⟩)
      have sameType : found.mapSpans (fun _ => ⟨0, 0⟩) = type.mapSpans fun _ => ⟨0, 0⟩ := both.1
      have samePassed : passed.map (Argument.mapSpans fun _ => ⟨0, 0⟩) =
        arguments.map (Argument.mapSpans fun _ => ⟨0, 0⟩) := both'.1
      simp [Expr.unplaced, Expr.mapSpans, sameType, samePassed]
  front := by
    intro input middle shows
    rw [Expr.tokens, List.cons_append] at shows
    rw [seesCast, shows.head]
    exact ⟨rfl, rfl, rfl⟩

/-! ### Behind an operand -/

theorem readsOperand_member {span : Span} {object : Expr} {name : String} {ends : Input → Prop}
    (read : ReadsOperand object ends) (endsDot : ∀ next : Input, next.token = .symbol .dot → ends next) :
    ReadsOperand (.member span object name) fun next => seesTypeArguments next = false := by
  intro fuel input middle good enough shows noTypes go
  rw [Expr.tokens] at enough shows go
  simp only [List.length_cons, List.length_append, List.length_nil] at enough go
  obtain ⟨between, showsObject, shows⟩ := shows.split
  refine read fuel input between good (by omega) showsObject
    (fun next isBehind => endsDot next (shows next isBehind).head) fun less found next used same behind => ?_
  have shows := shows next behind
  match less with
  | 0 => omega
  | less + 1 =>
    rw [trailing]
    refine .peek shows.head (.discardAdvance (.expectName shows.advance fun nameSpan last shows => .get ?_))
    rw [noTypes last shows.isRest]
    refine go less _ last (by omega) ?_ shows.isRest
    exact congrArg (Expr.member ⟨0, 0⟩ · name) same

theorem readsOperand_call {span : Span} {callee : Expr} {arguments : List Argument}
    (read : ReadsOperand callee fun next => seesTypeArguments next = false)
    (readArguments : ∀ argument ∈ arguments, ReadsArgument argument) :
    ReadsOperand (.call span callee arguments) fun next => seesTypeArguments next = false := by
  intro fuel input middle good enough shows _ go
  rw [Expr.tokens, Argument.tokensOfAll_eq_map] at enough shows go
  rw [List.length_append] at enough go
  obtain ⟨between, showsCallee, shows⟩ := shows.split
  have isParen (next : Input) (isBehind : next.rest = between) : next.token = .symbol .leftParen :=
    (shows next isBehind).head
  refine read fuel input between good (by omega) showsCallee
    (fun next isBehind => Input.seesTypeArguments_of_ne_less (isParen next isBehind) rfl)
    fun less found next used same behind => ?_
  match less with
  | 0 => omega
  | less + 1 =>
    rw [trailing]
    refine .peek (isParen next behind) ?_
    have some : 0 < (Token.inParentheses (arguments.map Argument.tokens)).length := by simp [Token.inParentheses]
    refine (callArguments_found readArguments (by omega) (shows next behind)).bind fun passed last both => .previous ?_
    refine go less _ last (by omega) ?_ both.2
    have sameCallee : found.mapSpans (fun _ => ⟨0, 0⟩) = callee.mapSpans fun _ => ⟨0, 0⟩ := same
    have samePassed : passed.map (Argument.mapSpans fun _ => ⟨0, 0⟩) =
      arguments.map (Argument.mapSpans fun _ => ⟨0, 0⟩) := both.1
    simp [Expr.unplaced, Expr.mapSpans, sameCallee, samePassed]

theorem readsOperand_step {span : Span} {isIncrement : Bool} {target : Expr}
    (read : ReadsOperand target fun next => seesTypeArguments next = false) :
    ReadsOperand (.step span isIncrement false target) fun next => seesTypeArguments next = false := by
  intro fuel input middle good enough shows _ go
  rw [Expr.tokens] at enough shows go
  simp only [List.length_cons, List.length_append, List.length_nil] at enough go
  obtain ⟨between, showsTarget, shows⟩ := shows.split
  have noTypes (next : Input) (isBehind : next.rest = between) : seesTypeArguments next = false :=
    Input.seesTypeArguments_of_ne_less (shows next isBehind).head (by cases isIncrement <;> rfl)
  refine read fuel input between good (by omega) showsTarget noTypes fun less found next used same behind => ?_
  have shows := shows next behind
  match less with
  | 0 => omega
  | less + 1 =>
    rw [trailing]
    refine .peek shows.head ?_
    have stepped (stop : Span) : Finds next.advance
        (trailing less (.step (found.span.join stop) isIncrement false found)) good :=
      go less _ _ (by omega) (congrArg (Expr.step ⟨0, 0⟩ isIncrement false) same) shows.advance.isRest
    cases isIncrement <;> exact .advance (stepped _)

/-! ### In front of an operand -/

theorem readsUnary_unary {span : Span} {operator : UnaryOperator} {operand : Expr}
    (read : ReadsBack operand unary 1 8) : ReadsBack (.unary span operator operand) unary 1 8 := by
  intro fuel input middle enough shows ends
  rw [Expr.tokens] at enough shows
  rw [List.length_cons] at enough
  match fuel with
  | 0 => omega
  | fuel + 1 =>
    rw [unary]
    refine .here (.peek shows.head ?_)
    have isUnary : unary? (.symbol operator.sign) = some operator := by cases operator <;> rfl
    rw [isUnary]
    refine .discardAdvance ((read fuel _ middle (by omega) shows.advance ends).bind fun found next both => ?_)
    exact .pure ⟨congrArg (Expr.unary ⟨0, 0⟩ operator) both.1, both.2⟩

theorem readsUnary_step {span : Span} {isIncrement : Bool} {target : Expr} (read : ReadsBack target unary 1 8) :
    ReadsBack (.step span isIncrement true target) unary 1 8 := by
  intro fuel input middle enough shows ends
  rw [Expr.tokens] at enough shows
  rw [List.length_cons] at enough
  match fuel with
  | 0 => omega
  | fuel + 1 =>
    rw [unary]
    refine .here (.peek shows.head ?_)
    have noUnary : unary? (.symbol (stepSign isIncrement)) = none := by cases isIncrement <;> rfl
    have isStep : step? (.symbol (stepSign isIncrement)) = some isIncrement := by cases isIncrement <;> rfl
    rw [noUnary, isStep]
    refine .discardAdvance ((read fuel _ middle (by omega) shows.advance ends).bind fun found next both => ?_)
    exact .pure ⟨congrArg (Expr.step ⟨0, 0⟩ isIncrement true) both.1, both.2⟩

theorem readsUnary_cast {span place : Span} {type : BasicType} {operand : Expr}
    (read : ReadsBack operand unary 1 8) : ReadsBack (.cast span (.basic place type) operand) unary 1 8 := by
  intro fuel input middle enough shows ends
  rw [Expr.tokens, TypeName.tokens] at enough shows
  simp only [List.length_cons, List.cons_append, List.nil_append] at enough shows
  match fuel with
  | 0 => omega
  | fuel + 1 =>
    rw [unary]
    refine .here (.peek shows.head (.get ?_))
    have isBasic : basicType? (.keyword type.word) = some type := type.ofWord?_word
    have isCast : seesCast input = true := by
      rw [seesCast, shows.head, shows.second, shows.third, isBasic]
      rfl
    rw [isCast]
    refine .discardAdvance ?_
    obtain ⟨between, showsType, shows⟩ := (show input.advance.Shows ((TypeName.basic place type).tokens ++
      .symbol .rightParen :: operand.tokens) middle from shows.advance).split
    have isShort : 20 * (TypeName.basic place type).tokens.length ≤ fuel := by
      rw [TypeName.tokens, List.length_singleton]
      omega
    refine (typeName_found fuel (.basic place type) trivial isShort showsType fun next isBehind =>
      Input.endsType_of_symbol (shows next isBehind).head rfl).bind fun found next both => ?_
    refine .discardExpect (shows next both.2) fun closed shows => ?_
    refine (read fuel closed middle (by omega) shows ends).bind fun used last both' => .pure ⟨?_, both'.2⟩
    show Expr.cast ⟨0, 0⟩ found.unplaced used.unplaced =
      .cast ⟨0, 0⟩ (TypeName.basic place type).unplaced operand.unplaced
    rw [both.1, both'.1]

/-! ### Between operands -/

theorem readsFirst_binary {span : Span} {operator : BinaryOperator} {left right : Expr} {position : Nat}
    (inside : position < 6) (isLevel : operator.level = position + 2) (opens : Token.AllOpen right.tokens)
    (readLeft : ReadsFirst left position)
    (readRight : ReadsBack right (binary · (levels.drop (position + 1))) (14 - 2 * (position + 1)) (position + 3)) :
    ReadsFirst (.binary span operator left right) position := by
  intro fuel input middle level tighter good atLevel enough shows ends go
  have isTighter : levels.drop (position + 1) = tighter := by
    rw [← List.tail_drop, atLevel, List.tail_cons]
  rw [Expr.tokens] at enough shows go
  simp only [List.length_cons, List.length_append] at enough go
  obtain ⟨between, showsLeft, shows⟩ := shows.split
  have endsLeft (next : Input) (isBehind : next.rest = between) : next.EndsLevel (position + 3) := by
    have shows := shows next isBehind
    have endLevel : next.token.endLevel = position + 3 := by rw [shows.head, operator.endLevel_sign, isLevel]
    refine ⟨Nat.le_of_eq endLevel, ?_⟩
    obtain ⟨first, rest, areTokens, opens⟩ := opens
    rw [areTokens] at shows
    rw [seesTypeArguments, shows.second]
    cases isBasic : basicType? first with
    | none => rw [Option.isSome_none, Bool.and_false, Bool.false_and]
    | some type =>
      obtain ⟨more, rfl⟩ := opens.basic (by rw [isBasic]; rfl)
      rw [shows.third]
      exact Bool.and_false _
  refine readLeft fuel input between level tighter good atLevel (by omega) showsLeft endsLeft ?_
  intro less found next used same behind
  have shows := shows next behind
  cases less with
  | zero => omega
  | succ less =>
    rw [binaryTail]
    refine .peek shows.head ?_
    rw [operator?_sign atLevel isLevel]
    refine .discardAdvance ?_
    rw [← isTighter]
    refine (readRight less _ middle (by omega) shows.advance ends).bind fun other last both => ?_
    rw [isTighter]
    refine go less _ last (by omega) ?_ both.2
    show Expr.binary ⟨0, 0⟩ operator found.unplaced other.unplaced =
      .binary ⟨0, 0⟩ operator left.unplaced right.unplaced
    rw [same, both.1]

/-! ### Choices and assignments -/

theorem readsConditional_conditional {span : Span} {condition thenValue elseValue : Expr}
    (readCondition : ReadsBack condition (binary · levels) 14 2) (readThen : ReadsBack thenValue expression 18 0)
    (readElse : ReadsBack elseValue expression 18 0) :
    ReadsBack (.conditional span condition thenValue elseValue) conditional 16 0 := by
  intro fuel input middle enough shows ends
  rw [Expr.tokens] at enough shows
  simp only [List.length_cons, List.length_append, List.cons_append, List.append_assoc] at enough shows
  obtain ⟨between, showsCondition, shows⟩ := shows.split
  match fuel with
  | 0 => omega
  | fuel + 1 =>
    rw [conditional]
    refine (readCondition fuel input between (by omega) showsCondition fun next isBehind =>
      .of_symbol (shows next isBehind).head (by decide) rfl).bind fun test next both => ?_
    refine .eat (shows next both.2) fun asked shows => ?_
    obtain ⟨behindThen, showsThen, shows⟩ := shows.split
    refine (readThen fuel asked behindThen (by omega) showsThen fun next isBehind =>
      .of_symbol (shows next isBehind).head (by decide) rfl).bind fun first next both' => ?_
    refine .discardExpect (shows next both'.2) fun divided shows => ?_
    refine (readElse fuel divided middle (by omega) shows ends).bind fun second last both'' => .pure ⟨?_, both''.2⟩
    show Expr.conditional ⟨0, 0⟩ test.unplaced first.unplaced second.unplaced =
      .conditional ⟨0, 0⟩ condition.unplaced thenValue.unplaced elseValue.unplaced
    rw [both.1, both'.1, both''.1]

theorem readsExpression_assign {span : Span} {operator : Option BinaryOperator} {target value : Expr}
    (hasSign : (assignmentSign? operator).isSome) (readTarget : ReadsBack target conditional 16 1)
    (readValue : ReadsBack value expression 18 0) :
    ReadsBack (.assign span operator target value) expression 18 0 := by
  intro fuel input middle enough shows ends
  obtain ⟨sign, isSign⟩ := Option.isSome_iff_exists.1 hasSign
  rw [Expr.tokens, isSign, Option.map_some, Option.toList_some, List.append_assoc,
    List.singleton_append] at enough shows
  simp only [List.length_cons, List.length_append] at enough
  obtain ⟨between, showsTarget, shows⟩ := shows.split
  obtain ⟨isLevel, notLess, isAssignment⟩ := assignment?_sign isSign
  match fuel with
  | 0 => omega
  | fuel + 1 =>
    rw [expression]
    refine (readTarget fuel input between (by omega) showsTarget fun next isBehind =>
      .of_symbol (shows next isBehind).head (Nat.le_of_eq isLevel) notLess).bind fun found next both => ?_
    refine .peek (shows next both.2).head ?_
    rw [isAssignment]
    refine .discardAdvance ?_
    refine (readValue fuel _ middle (by omega) (shows next both.2).advance ends).bind fun used last both' => ?_
    refine .pure ⟨?_, both'.2⟩
    show Expr.assign ⟨0, 0⟩ operator found.unplaced used.unplaced =
      .assign ⟨0, 0⟩ operator target.unplaced value.unplaced
    rw [both.1, both'.1]

/-! ### Grouped expressions -/

theorem length_tokens_pos {value : Expr} (grouped : value.IsGrouped) : 0 < value.tokens.length := by
  obtain ⟨first, rest, areTokens, -⟩ := value.allOpen_tokens grouped
  rw [areTokens]
  exact Nat.zero_lt_succ _

mutual

/-- A grouped expression is read back at its level and at every looser one. -/
theorem readsAll (value : Expr) (grouped : value.IsGrouped) : ReadsAll value := by
  have some := length_tokens_pos grouped
  match value with
  | .int _ number =>
    exact .of_operand some
      ((readsPrimary_atom rfl (fun span => ⟨.int span number, rfl, rfl⟩) ⟨rfl, rfl, rfl⟩ _).operand some)
  | .long _ number =>
    exact .of_operand some
      ((readsPrimary_atom rfl (fun span => ⟨.long span number, rfl, rfl⟩) ⟨rfl, rfl, rfl⟩ _).operand some)
  | .double _ number =>
    exact .of_operand some
      ((readsPrimary_atom rfl (fun span => ⟨.double span number, rfl, rfl⟩) ⟨rfl, rfl, rfl⟩ _).operand some)
  | .text _ text =>
    exact .of_operand some
      ((readsPrimary_atom rfl (fun span => ⟨.text span text, rfl, rfl⟩) ⟨rfl, rfl, rfl⟩ _).operand some)
  | .name _ name =>
    exact .of_operand some
      ((readsPrimary_atom rfl (fun span => ⟨.name span name, rfl, rfl⟩) ⟨rfl, rfl, rfl⟩ _).operand some)
  | .null _ =>
    exact .of_operand some ((readsPrimary_atom rfl (fun span => ⟨.null span, rfl, rfl⟩) ⟨rfl, rfl, rfl⟩ _).operand some)
  | .bool _ truth =>
    refine .of_operand some ((readsPrimary_atom rfl (fun span => ⟨.bool span truth, ?_, rfl⟩) ?_ _).operand some)
    · cases truth <;> rfl
    · cases truth <;> exact ⟨rfl, rfl, rfl⟩
  | .basicType _ _ => exact grouped.elim
  | .member _ object _ =>
    rcases grouped with ⟨place, type, rfl⟩ | ⟨isTight, inner⟩
    · have readType := (readsPrimary_basicType place type).operand
        (show 0 < (Expr.basicType place type).tokens.length from Nat.zero_lt_one)
      exact .of_operand some (readsOperand_member readType fun next isDot => by rw [isDot]; rfl)
    · exact .of_operand some (readsOperand_member ((readsAll object inner).operand isTight)
        fun next isDot => Input.seesTypeArguments_of_ne_less isDot rfl)
  | .call _ callee arguments =>
    obtain ⟨isTight, inner, areGrouped⟩ := grouped
    exact .of_operand some
      (readsOperand_call ((readsAll callee inner).operand isTight) (readArguments arguments areGrouped))
  | .create _ type arguments =>
    obtain ⟨written, areGrouped⟩ := grouped
    exact .of_operand some ((readsPrimary_create written (readArguments arguments areGrouped) _).operand some)
  | .assign _ _ target value =>
    obtain ⟨hasSign, ⟨isTight, isTarget⟩, isValue⟩ := grouped
    exact .of_expression (Nat.zero_le 1) (readsExpression_assign hasSign
      ((readsAll target isTarget).conditional isTight) (readsAll value isValue).expression)
  | .binary _ operator left right =>
    obtain ⟨⟨isLoose, isLeft⟩, isTight, isRight⟩ := grouped
    obtain ⟨position, inside, isLevel⟩ := operator.exists_position
    refine .of_first inside isLevel some (readsFirst_binary inside isLevel (right.allOpen_tokens isRight) ?_ ?_)
    · exact (readsAll left isLeft).first position inside (by omega)
    · exact (readsAll right isRight).binary (position + 1) (by omega) (by omega)
  | .unary _ _ operand =>
    obtain ⟨isTight, inner⟩ := grouped
    exact .of_unary rfl some (readsUnary_unary ((readsAll operand inner).unary isTight))
  | .step _ _ true target =>
    obtain ⟨isTight, inner⟩ := grouped
    exact .of_unary rfl some (readsUnary_step ((readsAll target inner).unary isTight))
  | .step _ _ false target =>
    obtain ⟨isTight, inner⟩ := grouped
    exact .of_operand some (readsOperand_step ((readsAll target inner).operand isTight))
  | .conditional _ condition thenValue elseValue =>
    obtain ⟨⟨isTight, isTest⟩, isThen, isElse⟩ := grouped
    exact .of_expression (Nat.le_refl 1) (readsExpression_of_conditional (readsConditional_conditional
      ((readsAll condition isTest).binary 0 (by omega) isTight) (readsAll thenValue isThen).expression
      (readsAll elseValue isElse).expression))
  | .cast _ (.basic _ _) operand =>
    obtain ⟨isTight, inner⟩ := grouped
    exact .of_unary rfl some (readsUnary_cast ((readsAll operand inner).unary isTight))
  | .cast _ (.named _ _) _ => exact grouped.elim
  | .paren _ inner =>
    exact .of_operand some
      ((readsPrimary_paren (inner.allOpen_tokens grouped) (readsAll inner grouped).expression _).operand some)

theorem readArguments (arguments : List Argument) (grouped : Argument.AllGrouped arguments) :
    ∀ argument ∈ arguments, ReadsArgument argument := by
  match arguments with
  | [] => nofun
  | .mk _ _ value :: rest =>
    obtain ⟨isValue, areRest⟩ := grouped
    exact List.forall_mem_cons.2
      ⟨⟨value.allOpen_tokens isValue, (readsAll value isValue).expression⟩, readArguments rest areRest⟩

end

/-! ### Statements that give a value back -/

/-- A grouped expression between `return` and a semicolon is accepted and read back. -/
theorem giveBack_roundTrip (value : Expr) (grouped : value.IsGrouped) (tokens rest : List PlacedToken)
    (areTokens : tokens.map (·.token) = .keyword .returnWord :: value.tokens ++ [.symbol .semicolon])
    (more : rest ≠ []) (previous : Span) (fuel : Nat) (enough : readingFuel tokens ≤ fuel) :
    ∃ (span : Span) (found : Expr) (next : Input),
      statement fuel ⟨tokens ++ rest, previous⟩ = .ok (.giveBack span (some found), next) ∧
        found.unplaced = value.unplaced ∧ next.rest = rest := by
  have shows : Input.Shows ⟨tokens ++ rest, previous⟩
      (.keyword .returnWord :: value.tokens ++ [.symbol .semicolon]) rest := ⟨more, tokens, rfl, areTokens⟩
  have enough : 20 * value.tokens.length + 20 ≤ fuel := by
    have sameLength := congrArg List.length areTokens
    simp only [List.length_map, List.length_cons, List.length_append, List.length_nil] at sameLength
    rw [readingFuel, sameLength] at enough
    omega
  have read : Finds ⟨tokens ++ rest, previous⟩ (statement fuel) fun read next =>
      ∃ (span : Span) (found : Expr), read = .giveBack span (some found) ∧ found.unplaced = value.unplaced ∧
        next.rest = rest := by
    match fuel with
    | 0 => omega
    | fuel + 1 =>
      rw [List.cons_append] at shows
      rw [statement]
      refine .here (.peek shows.head (.discardAdvance ?_))
      obtain ⟨between, showsValue, shows⟩ := shows.advance.split
      have notSemicolon : (Input.advance ⟨tokens ++ rest, previous⟩).token.isSymbol .semicolon = false := by
        obtain ⟨first, others, areTokens, opens⟩ := value.allOpen_tokens grouped
        rw [areTokens] at showsValue
        rw [showsValue.head]
        exact opens.notClosing.2
      refine .sees notSemicolon ?_
      have readValue := (readsAll value grouped).expression fuel _ between (by omega) showsValue fun next isBehind =>
        .of_symbol (shows next isBehind).head (by decide) rfl
      have readSome : Finds (Input.advance ⟨tokens ++ rest, previous⟩) (some <$> expression fuel) fun given next =>
          ∃ found, given = some found ∧ found.unplaced = value.unplaced ∧ next.rest = between :=
        .map (readValue.weaken fun found next both => ⟨found, rfl, both⟩)
      refine readSome.bind ?_
      rintro _ next ⟨found, rfl, same, behind⟩
      refine .discardExpect (shows next behind) fun last shows => ?_
      rw [upTo]
      exact .previous (.pure ⟨_, found, rfl, same, shows.isRest⟩)
  obtain ⟨read, next, isRead, span, found, rfl, same, behind⟩ := read
  exact ⟨span, found, next, isRead, same, behind⟩

/-- `total = ready || !late ? cells.Take(ref x, 1) * (x + 1) : (long)x++`. -/
def nestedChoice : Expr :=
  .assign ⟨0, 0⟩ none (.name ⟨0, 0⟩ "total") (.conditional ⟨0, 0⟩
    (.binary ⟨0, 0⟩ .or (.name ⟨0, 0⟩ "ready") (.unary ⟨0, 0⟩ .not (.name ⟨0, 0⟩ "late")))
    (.binary ⟨0, 0⟩ .multiply
      (.call ⟨0, 0⟩ (.member ⟨0, 0⟩ (.name ⟨0, 0⟩ "cells") "Take")
        [.mk ⟨0, 0⟩ .ref (.name ⟨0, 0⟩ "x"), .mk ⟨0, 0⟩ .value (.int ⟨0, 0⟩ 1)])
      (.paren ⟨0, 0⟩ (.binary ⟨0, 0⟩ .add (.name ⟨0, 0⟩ "x") (.int ⟨0, 0⟩ 1))))
    (.cast ⟨0, 0⟩ (.basic ⟨0, 0⟩ .long) (.step ⟨0, 0⟩ true false (.name ⟨0, 0⟩ "x"))))

/-- The tokens of `return total = ready || !late ? cells.Take(ref x, 1) * (x + 1) : (long)x++;`. -/
def returnedChoice : List PlacedToken :=
  (Token.keyword .returnWord :: nestedChoice.tokens ++ [Token.symbol .semicolon]).map (⟨·, ⟨0, 0⟩⟩)

theorem giveBack_roundTrip_nestedChoice :
    nestedChoice.IsGrouped ∧ ∃ (span : Span) (found : Expr) (next : Input),
      statement (readingFuel returnedChoice) ⟨returnedChoice ++ [⟨.endOfFile, ⟨0, 0⟩⟩], ⟨0, 0⟩⟩ =
          .ok (.giveBack span (some found), next) ∧
        found.unplaced = nestedChoice.unplaced ∧ next.rest = [⟨.endOfFile, ⟨0, 0⟩⟩] := by
  have grouped : nestedChoice.IsGrouped := by
    simp [nestedChoice, Expr.IsGrouped, Argument.AllGrouped, Expr.level, BinaryOperator.level, assignmentSign?]
  have areTokens : returnedChoice.map (·.token) =
      .keyword .returnWord :: nestedChoice.tokens ++ [.symbol .semicolon] := by
    rw [returnedChoice, List.map_map]
    exact List.map_id _
  exact ⟨grouped, giveBack_roundTrip nestedChoice grouped returnedChoice _ areTokens (List.cons_ne_nil _ _) _ _
    (Nat.le_refl _)⟩

end Snippet.Reader
