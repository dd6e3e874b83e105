import Snippet.Proofs.Shape.SourceText
import Snippet.Proofs.Shape.TypeReading

/-!
What is read from the source text for a body of a shape. Main statement: the method of the shape is the
first one of the first class, whatever the body is.
-/

namespace Snippet

/-! ### Parameters -/

/-- Whether a parameter is that of a shape. -/
def ShapeParameter.Reads (parameter : ShapeParameter) (read : Parameter) : Prop :=
  read.mode = parameter.mode ∧ parameter.type.Reads read.type

/-- The tokens of a parameter with a name. -/
def ShapeParameter.tokens (parameter : ShapeParameter) (name : String) : List Token :=
  parameter.mode.tokens ++ Piece.tokens parameter.type.pieces ++ [.name name]

theorem ShapeParameter.tokens_pieces (parameter : ShapeParameter) {name : String}
    (identifier : isIdentifier name = true) : Piece.tokens (parameter.pieces name) = parameter.tokens name := by
  have mode : Piece.tokens parameter.mode.pieces = parameter.mode.tokens := by
    cases parameter.mode <;> rfl
  rw [pieces, Piece.tokens_append, Piece.tokens_append, mode]
  exact congrArg (_ ++ ·) (Piece.tokens_word identifier)

/-- The tokens of further parameters with a comma in front of each one. -/
def Token.furtherParameters (parameters : List (ShapeParameter × String)) : List Token :=
  parameters.flatMap fun entry => .symbol .comma :: entry.1.tokens entry.2

namespace Reader

/-- The name of a type begins with a name. -/
theorem typeName_head {type : TypeDesc} (named : type.IsNamed) {input : Input} {tokens : List Token}
    {rest : List PlacedToken} (shows : input.Shows (Piece.tokens type.pieces ++ tokens) rest) :
    ∃ name, input.token = .name name := by
  obtain ⟨-, identifiers, -⟩ := named
  obtain ⟨first, others, isNames⟩ := List.exists_cons_of_ne_nil (show type.names ≠ [] from List.concat_ne_nil _ _)
  rw [isNames] at identifiers
  rw [TypeDesc.tokens_pieces, isNames, Piece.tokens_dotted identifiers] at shows
  exact ⟨first, shows.head⟩

/-- A type in front of a name. -/
theorem typeName_then_name (fuel : Nat) {type : TypeDesc} (named : type.IsNamed) {input : Input} {name : String}
    {tokens : List Token} {rest : List PlacedToken}
    (shows : input.Shows (Piece.tokens type.pieces ++ .name name :: tokens) rest) :
    Ensures input (typeName fuel) fun written next =>
      type.Reads written ∧ next.Shows (.name name :: tokens) rest := by
  obtain ⟨middle, isType, behind⟩ := shows.split
  have ends : EndsTypeName middle := by
    intro last isLast
    rw [(behind last isLast).head]
    rfl
  exact (typeName_shown fuel named isType ends).weaken fun _ next both => ⟨both.1, behind next both.2⟩

theorem passMode_shown {mode : PassMode} {input : Input} {tokens : List Token} {rest : List PlacedToken}
    (shows : input.Shows (mode.tokens ++ tokens) rest)
    (isName : mode = .value → ∃ name, input.token = .name name) :
    Ensures input passMode fun found next => found = mode ∧ next.Shows tokens rest := by
  rw [passMode]
  refine .peek ?_
  cases mode with
  | value =>
      obtain ⟨name, isName⟩ := isName rfl
      rw [isName]
      exact .pure ⟨rfl, shows⟩
  | input | ref | out =>
      rw [Input.Shows.head shows]
      have behind : Ensures input (discard advance) fun _ next => next.Shows tokens rest :=
        .map (advance_shown shows)
      exact behind.bind fun _ _ behind => .pure ⟨rfl, behind⟩

/-- A parameter begins with a keyword or a name. -/
theorem parameter_head {parameter : ShapeParameter} (named : parameter.type.IsNamed) {name : String} {input : Input}
    {tokens : List Token} {rest : List PlacedToken} (shows : input.Shows (parameter.tokens name ++ tokens) rest)
    (sign : Symbol) : input.token.isSymbol sign = false := by
  rw [ShapeParameter.tokens, List.append_assoc, List.append_assoc] at shows
  cases isMode : parameter.mode with
  | value =>
      rw [isMode] at shows
      obtain ⟨first, isName⟩ := typeName_head named shows
      rw [isName]
      rfl
  | input | ref | out =>
      rw [isMode] at shows
      rw [Input.Shows.head shows]
      rfl

theorem parameterList_shown (fuel : Nat) {parameter : ShapeParameter} {name : String}
    {others : List (ShapeParameter × String)} (named : parameter.type.IsNamed)
    (areNamed : ∀ entry ∈ others, entry.1.type.IsNamed) {input : Input} {tokens : List Token}
    {rest : List PlacedToken} (shows : input.Shows (parameter.tokens name ++
      (Token.furtherParameters others ++ .symbol .rightParen :: tokens)) rest) :
    Ensures input (parameterList fuel) fun read next =>
      List.Forall₂ ShapeParameter.Reads (parameter :: others.map (·.1)) read ∧
        next.Shows (.symbol .rightParen :: tokens) rest := by
  induction fuel generalizing parameter name others input with
  | zero => exact .exhausted
  | succ fuel ih =>
      rw [parameterList]
      rw [ShapeParameter.tokens, List.append_assoc, List.append_assoc] at shows
      have isName : parameter.mode = .value → ∃ name, input.token = .name name := by
        intro isValue
        rw [isValue] at shows
        exact typeName_head named shows
      refine .here ((passMode_shown shows isName).bind fun mode middle both => .peek ?_)
      obtain ⟨rfl, isType⟩ := both
      have entry : Ensures middle (do
          let type ← typeName fuel
          let found ← expectName
          if ← sees .assign then unsupportedHere "optional parameter"
          let one : Parameter := ⟨parameter.mode, type, found.1, input.span.join found.2⟩
          if ← eat .comma then return one :: (← parameterList fuel)
          else return [one]) fun read next =>
            List.Forall₂ ShapeParameter.Reads (parameter :: others.map (·.1)) read ∧
              next.Shows (.symbol .rightParen :: tokens) rest := by
        refine (typeName_then_name fuel named isType).bind fun type next both => ?_
        obtain ⟨reads, isName⟩ := both
        refine (expectName_shown isName).bind fun found next both => .sees (.guard .unsupportedHere fun _ => ?_)
        obtain ⟨-, behind⟩ := both
        cases others with
        | nil =>
          have noComma : next.token.isSymbol .comma = false := by
            rw [behind.head]
            rfl
          refine (eat_left noComma).bind fun found next both => ?_
          obtain ⟨rfl, rfl⟩ := both
          exact .pure ⟨.cons ⟨rfl, reads⟩ .nil, behind⟩
        | cons second more =>
          rw [List.forall_mem_cons] at areNamed
          refine (eat_shown behind).bind fun found next both => ?_
          obtain ⟨rfl, behind⟩ := both
          have behind : next.Shows (second.1.tokens second.2 ++ (Token.furtherParameters more ++
              .symbol .rightParen :: tokens)) rest := by
            rw [← List.append_assoc]
            exact behind
          exact (ih areNamed.1 areNamed.2 behind).bind fun read last both =>
            .pure ⟨.cons ⟨rfl, reads⟩ both.1, both.2⟩
      split
      · exact .guard .unsupportedHere fun _ => entry
      · exact entry

/-- The parameters of a shape in parentheses. -/
theorem parameters_shown (fuel : Nat) {entries : List (ShapeParameter × String)}
    (areNamed : ∀ entry ∈ entries, entry.1.type.IsNamed) {input : Input} {tokens : List Token}
    {rest : List PlacedToken} (shows : input.Shows (.symbol .leftParen ::
      (Token.separated .comma (entries.map fun entry => entry.1.tokens entry.2) ++ .symbol .rightParen :: tokens)) rest) :
    Ensures input (parameters fuel) fun read next =>
      List.Forall₂ ShapeParameter.Reads (entries.map (·.1)) read ∧ next.Shows tokens rest := by
  rw [parameters]
  refine (expect_shown shows).bind fun _ next behind => ?_
  cases entries with
  | nil =>
    refine (eat_shown behind).bind fun found next both => ?_
    obtain ⟨rfl, behind⟩ := both
    exact .pure ⟨.nil, behind⟩
  | cons first others =>
    rw [List.forall_mem_cons] at areNamed
    replace behind : next.Shows (first.1.tokens first.2 ++ (Token.furtherParameters others ++
        .symbol .rightParen :: tokens)) rest := by
      rw [List.map_cons, Token.separated, List.flatMap_map, List.append_assoc] at behind
      exact behind
    refine (eat_left (parameter_head areNamed.1 behind .rightParen)).bind fun found next both => ?_
    obtain ⟨rfl, rfl⟩ := both
    refine (parameterList_shown fuel areNamed.1 areNamed.2 behind).bind fun read next both => ?_
    obtain ⟨reads, behind⟩ := both
    exact (expect_shown behind).bind fun _ last behind => .pure ⟨reads, behind⟩

end Reader

/-! ### Methods -/

/-- The tokens of a result type or of the word for none. -/
def Token.ofResult (result : Option TypeDesc) : List Token :=
  result.elim [.keyword .voidWord] fun type => Piece.tokens type.pieces

/-- Whether a method is declared as a shape asks for. -/
structure CallableShape.Reads (shape : CallableShape) (decl : MethodDecl) : Prop where
  parameters : List.Forall₂ ShapeParameter.Reads shape.parameters decl.parameters
  result : Option.Rel TypeDesc.Reads shape.result decl.result

namespace Reader

/-- A result type, or the word for none, with what is read behind it. -/
theorem result_shown (fuel : Nat) {α : Type} {result : Option TypeDesc} (named : ∀ type ∈ result, type.IsNamed)
    {input : Input} {name : String} {tokens : List Token} {rest : List PlacedToken}
    (shows : input.Shows (Token.ofResult result ++ .name name :: tokens) rest)
    {behind : Option TypeName → Reader α} {post : α → Input → Prop}
    (go : ∀ (read : Option TypeName) (next : Input), Option.Rel TypeDesc.Reads result read →
      next.Shows (.name name :: tokens) rest → Ensures next (behind read) post) :
    Ensures input (if input.token.isKeyword .voidWord then discard advance >>= fun _ => pure none >>= behind
      else if startsType input.token then some <$> typeName fuel >>= behind
      else failHere (.badMemberStart input.token.shown) >>= behind) post := by
  cases result with
  | none =>
      have isVoid : input.token.isKeyword .voidWord = true := by
        rw [Input.Shows.head shows]
        rfl
      have word : Ensures input (discard advance) fun _ next => next.Shows (.name name :: tokens) rest :=
        .map (advance_shown shows)
      rw [if_pos isVoid]
      exact word.bind fun _ next isName => .pureBind (go none next .none isName)
  | some type =>
      have named := named type rfl
      obtain ⟨first, isFirst⟩ := typeName_head named shows
      rw [isFirst]
      exact (typeName_then_name fuel named shows).mapBind fun read next both => go read next (.some both.1) both.2

/-- A method of a shape. -/
theorem method_shown (fuel : Nat) (modifiers : Modifiers) (start : Span) (className : String) {shape : CallableShape}
    (named : shape.IsNamed) {name : String} {names : List String} {input : Input} {tokens : List Token}
    {rest : List PlacedToken} (sameLength : names.length = shape.parameters.length)
    (shows : input.Shows (Token.ofResult shape.result ++ .name name :: .symbol .leftParen ::
      (Token.separated .comma ((shape.parameters.zip names).map fun entry => entry.1.tokens entry.2) ++
        .symbol .rightParen :: tokens)) rest) :
    Ensures input (method fuel modifiers start className) fun decl _ =>
      shape.Reads decl ∧ decl.name = name ∧ decl.modifiers = modifiers := by
  have areNamed : ∀ entry ∈ shape.parameters.zip names, entry.1.type.IsNamed :=
    fun entry member => named.parameters entry.1 (List.of_mem_zip member).1
  have entries : (shape.parameters.zip names).map (·.1) = shape.parameters :=
    List.map_fst_zip (Nat.le_of_eq sameLength.symm)
  rw [method]
  refine .peek ?_
  split
  case' h_1 => refine .peekAt (.guard .unsupportedHere fun _ => ?_)
  all_goals
    refine .peek (result_shown fuel (fun type isResult => named.result isResult) shows fun read next reads isName => ?_)
    refine (expectName_shown isName).bind fun found next both => .peek ?_
    obtain ⟨rfl, behind⟩ := both
    rw [behind.head]
    refine (parameters_shown fuel areNamed behind).bind fun list next both => ?_
    rw [entries] at both
    exact (anything _).bind fun _ _ _ => (anything _).bind fun _ _ _ => (anything _).bind fun _ _ _ =>
      .pure ⟨⟨both.1, reads⟩, rfl, rfl⟩

end Reader

/-! ### Classes and namespaces -/

/-- Names that are put behind each other with dots are the joined ones. -/
theorem foldl_dotted (first : String) (names : List String) :
    names.foldl (fun text name => text ++ "." ++ name) first = String.intercalate "." (first :: names) := by
  rw [String.intercalate]
  induction names generalizing first with
  | nil => rfl
  | cons name others ih => exact ih (first ++ "." ++ name)

/-- A directive is read as the word, a dotted name that spells the namespace, and a semicolon. -/
theorem Piece.tokens_directive {space : String} (isDotted : IsDotted space) : ∃ first more,
    tokens (directive space) = .keyword .usingWord :: (.name first :: Token.dotted more) ++ [.symbol .semicolon] ∧
      more.foldl (fun text name => text ++ "." ++ name) first = space := by
  obtain ⟨first, more, isSplit⟩ := List.exists_cons_of_ne_nil (show Text.splitAt '.' space ≠ [] by
    simpa [Text.splitAt] using Text.splitCharacters_ne_nil '.' space.toList)
  have identifiers : ∀ name ∈ first :: more, isIdentifier name = true := isSplit ▸ isDotted
  refine ⟨first, more, ?_, ?_⟩
  · rw [directive, tokens_append, tokens_append, isSplit, tokens_dotted identifiers]
    rfl
  · have spelled := texts_dotted_splitAt space
    rw [isSplit, texts_dotted] at spelled
    rw [foldl_dotted, ← String.toList_inj, String.toList_intercalate]
    exact spelled

/-- The modifiers of the class and the method of a shape. -/
def Modifiers.publicStatic : Modifiers := ⟨true, false, false, false, true⟩

/-- Whether a class has a method of a shape as its first one. -/
def CallableShape.ReadsClass (shape : CallableShape) (decl : ClassDecl) : Prop :=
  ∃ (span : Span) (modifiers : Modifiers) (first : MethodDecl) (methods : List MethodDecl) (nested : List ClassDecl),
    decl = .mk span "Executer" modifiers (first :: methods) nested ∧ shape.Reads first ∧ first.name = "Execute" ∧
      first.modifiers = .publicStatic

/-- Whether a namespace has a class with a method of a shape as its first member. -/
def CallableShape.ReadsSpace (shape : CallableShape) (member : Member) : Prop :=
  ∃ (span : Span) (directives : List UsingDirective) (decl : ClassDecl) (others : List Member),
    member = .space span "DynamicCompilation" directives (.type decl :: others) ∧ shape.ReadsClass decl

/-- The tokens of a shape's method up to its body. -/
def CallableShape.methodTokens (shape : CallableShape) (names : List String) : List Token :=
  Token.ofResult shape.result ++ .name "Execute" :: .symbol .leftParen ::
    (Token.separated .comma ((shape.parameters.zip names).map fun entry => entry.1.tokens entry.2) ++
      [.symbol .rightParen, .symbol .leftBrace])

/-- The tokens of a shape's class up to the body of its method. -/
def CallableShape.classTokens (shape : CallableShape) (names : List String) : List Token :=
  [.keyword .publicWord, .keyword .staticWord, .keyword .classWord, .name "Executer", .symbol .leftBrace,
    .keyword .publicWord, .keyword .staticWord] ++ shape.methodTokens names

/-- The tokens of a shape's namespace up to the body of its method. -/
def CallableShape.spaceTokens (shape : CallableShape) (names : List String) : List Token :=
  [.keyword .namespaceWord, .name "DynamicCompilation", .symbol .leftBrace] ++ shape.classTokens names

namespace Reader

/-- A modifier that is not set yet, with what is read behind it. -/
theorem modifierList_step (fuel : Nat) {modifiers extended : Modifiers} {token : Token} {input : Input}
    {tokens : List Token} {rest : List PlacedToken} (sets : setModifier? modifiers token = some (false, extended))
    (shows : input.Shows (token :: tokens) rest) {post : Modifiers → Input → Prop}
    (go : ∀ (fuel : Nat) (next : Input), next.Shows tokens rest → Ensures next (modifierList fuel extended) post) :
    Ensures input (modifierList fuel modifiers) post := by
  cases fuel with
  | zero => exact .exhausted
  | succ fuel =>
      rw [modifierList]
      refine .peek ?_
      rw [shows.head, sets]
      have word : Ensures input (discard advance) fun _ next => next.Shows tokens rest := .map (advance_shown shows)
      exact word.bind fun _ next behind => go fuel next behind

theorem modifierList_stop (fuel : Nat) {modifiers : Modifiers} {input : Input}
    (stops : setModifier? modifiers input.token = none) {post : Modifiers → Input → Prop}
    (holds : post modifiers input) : Ensures input (modifierList fuel modifiers) post := by
  cases fuel with
  | zero => exact .exhausted
  | succ fuel =>
      rw [modifierList]
      refine .peek ?_
      rw [stops]
      exact .pure holds

/-- The modifiers of a shape's class or method, in front of a token that is none. -/
theorem modifierList_shown (fuel : Nat) {input : Input} {tokens : List Token} {rest : List PlacedToken}
    (shows : input.Shows (.keyword .publicWord :: .keyword .staticWord :: tokens) rest)
    (ends : ∀ next : Input, next.Shows tokens rest → setModifier? .publicStatic next.token = none) :
    Ensures input (modifierList fuel .none) fun found next =>
      found = .publicStatic ∧ next.Shows tokens rest :=
  modifierList_step fuel rfl shows fun fuel _ behind =>
    modifierList_step fuel rfl behind fun fuel next behind =>
      modifierList_stop fuel (ends next behind) ⟨rfl, behind⟩

/-- A shape's method begins with the word for no result or with a name. -/
theorem method_head {shape : CallableShape} (named : shape.IsNamed) {names : List String} {input : Input}
    {rest : List PlacedToken} (shows : input.Shows (shape.methodTokens names) rest) :
    input.token = .keyword .voidWord ∨ ∃ name, input.token = .name name := by
  rw [CallableShape.methodTokens] at shows
  cases isResult : shape.result with
  | none =>
      rw [isResult] at shows
      exact .inl (Input.Shows.head shows)
  | some type =>
      rw [isResult] at shows
      exact .inr (typeName_head (named.result isResult) shows)

theorem classMembers_shown (fuel : Nat) (className : String) {shape : CallableShape} (named : shape.IsNamed)
    {names : List String} (sameLength : names.length = shape.parameters.length) {input : Input}
    {rest : List PlacedToken} (shows : input.Shows (.keyword .publicWord :: .keyword .staticWord ::
      shape.methodTokens names) rest) :
    Ensures input (classMembers fuel className) fun found _ => ∃ first methods,
      found.1 = first :: methods ∧ shape.Reads first ∧ first.name = "Execute" ∧ first.modifiers = .publicStatic := by
  cases fuel with
  | zero => exact .exhausted
  | succ fuel =>
      have ends (next : Input) (behind : next.Shows (shape.methodTokens names) rest) :
          setModifier? .publicStatic next.token = none ∧ next.token.isKeyword .classWord = false := by
        rcases method_head named behind with isVoid | ⟨name, isName⟩
        · rw [isVoid]
          exact ⟨rfl, rfl⟩
        · rw [isName]
          exact ⟨rfl, rfl⟩
      rw [classMembers]
      refine .peek ?_
      rw [shows.head]
      refine .here ((modifierList_shown fuel shows fun next behind => (ends next behind).1).bind
        fun modifiers next both => .peek ?_)
      obtain ⟨rfl, behind⟩ := both
      rw [(ends next behind).2]
      refine (method_shown fuel _ _ className named sameLength behind).bind fun first next reads => ?_
      exact (anything _).bind fun others _ _ => .pure ⟨first, others.1, rfl, reads⟩

theorem classDecl_shown (fuel : Nat) (modifiers : Modifiers) (start : Span) {shape : CallableShape}
    (named : shape.IsNamed) {names : List String} (sameLength : names.length = shape.parameters.length)
    {input : Input} {rest : List PlacedToken} (shows : input.Shows (.keyword .classWord :: .name "Executer" ::
      .symbol .leftBrace :: .keyword .publicWord :: .keyword .staticWord :: shape.methodTokens names) rest) :
    Ensures input (classDecl fuel modifiers start) fun decl _ => shape.ReadsClass decl := by
  cases fuel with
  | zero => exact .exhausted
  | succ fuel =>
      rw [classDecl]
      refine (expectWord_shown shows).bind fun _ next behind => ?_
      refine (expectName_shown behind).bind fun found next both => .sees (.sees (.guard .unsupportedHere fun _ => ?_))
      obtain ⟨isName, behind⟩ := both
      refine (expect_shown behind).bind fun _ next behind => ?_
      refine (classMembers_shown fuel found.1 named sameLength behind).bind fun members next reads => ?_
      obtain ⟨first, methods, isFirst, reads⟩ := reads
      refine (anything _).bind fun stop _ _ =>
        .pure ⟨start.join stop, modifiers, first, methods, members.2, ?_, reads⟩
      rw [isName, isFirst]

/-- A list of using directives ends in front of another word. -/
theorem usings_left (fuel : Nat) {input : Input} (differs : input.token.isKeyword .usingWord = false) :
    Ensures input (usings fuel) fun _ next => next = input := by
  cases fuel with
  | zero => exact .exhausted
  | succ fuel =>
      rw [usings]
      refine .peek ?_
      rw [differs]
      exact .pure rfl

/-- The class of a shape is the first member of its namespace. -/
theorem members_shown (fuel : Nat) {shape : CallableShape} (named : shape.IsNamed) {names : List String}
    (sameLength : names.length = shape.parameters.length) {input : Input} {rest : List PlacedToken}
    (shows : input.Shows (shape.classTokens names) rest) :
    Ensures input (members fuel) fun list _ => ∃ decl others, list = .type decl :: others ∧ shape.ReadsClass decl := by
  cases fuel with
  | zero => exact .exhausted
  | succ fuel =>
      have ends (next : Input) (behind : next.Shows (.keyword .classWord :: .name "Executer" ::
          .symbol .leftBrace :: .keyword .publicWord :: .keyword .staticWord :: shape.methodTokens names) rest) :
          setModifier? .publicStatic next.token = none := by
        rw [behind.head]
        rfl
      rw [members]
      refine .peek ?_
      rw [Input.Shows.head shows]
      refine .here ((modifierList_shown fuel shows ends).bind fun modifiers next both => .peek ?_)
      obtain ⟨-, behind⟩ := both
      refine .guard .failHere fun _ => (classDecl_shown fuel _ _ named sameLength behind).bind fun decl next reads => ?_
      exact (anything _).bind fun others _ _ => .pure ⟨decl, others, rfl, reads⟩

theorem space_shown (fuel : Nat) {shape : CallableShape} (named : shape.IsNamed) {names : List String}
    (sameLength : names.length = shape.parameters.length) {input : Input} {rest : List PlacedToken}
    (shows : input.Shows (shape.spaceTokens names) rest) :
    Ensures input (space fuel) fun member _ => shape.ReadsSpace member := by
  cases fuel with
  | zero => exact .exhausted
  | succ fuel =>
      rw [space]
      refine (advance_shown shows).bind fun start next behind => ?_
      have behind : next.Shows (.name "DynamicCompilation" :: Token.dotted [] ++
        .symbol .leftBrace :: shape.classTokens names) rest := behind
      have noDot : Symbol.leftBrace ≠ .dot := by decide
      refine (qualifiedName_shown fuel noDot behind).bind fun found next both => .sees ?_
      obtain ⟨rfl, behind⟩ := both
      refine .guard .unsupportedHere fun _ => (expect_shown behind).bind fun _ next behind => ?_
      have noUsing : next.token.isKeyword .usingWord = false := by
        rw [Input.Shows.head behind]
        rfl
      refine (usings_left fuel noUsing).bind fun directives next same => ?_
      subst same
      refine (members_shown fuel named sameLength behind).bind fun list next reads => .peek ?_
      obtain ⟨decl, others, rfl, reads⟩ := reads
      split
      case' h_3 => refine (anything _).bind fun _ _ _ => ?_
      all_goals exact (anything _).bind fun stop _ _ => .pure ⟨start.join stop, directives, decl, others, rfl, reads⟩

/-- Directives in front of what starts none are read with their names. -/
theorem usings_shown (fuel : Nat) {spaces : List String} (areDotted : ∀ space ∈ spaces, IsDotted space)
    {tokens : List Token} {rest : List PlacedToken}
    (ends : ∀ next : Input, next.Shows tokens rest → next.token.isKeyword .usingWord = false) {input : Input}
    (shows : input.Shows ((spaces.flatMap fun space => Piece.tokens (Piece.directive space)) ++ tokens) rest) :
    Ensures input (usings fuel) fun directives next =>
      directives.map (·.name) = spaces ∧ next.Shows tokens rest := by
  induction fuel generalizing spaces input with
  | zero => exact .exhausted
  | succ fuel ih =>
      rw [usings]
      refine .peek ?_
      cases spaces with
      | nil =>
        rw [ends input shows]
        exact .pure ⟨rfl, shows⟩
      | cons space others =>
        rw [List.forall_mem_cons] at areDotted
        obtain ⟨first, more, isDirective, spelled⟩ := Piece.tokens_directive areDotted.1
        rw [List.flatMap_cons, isDirective, List.append_assoc] at shows
        rw [Input.Shows.head shows]
        refine (advance_shown shows).bind fun start next behind => .peek (.peekAt (.guard .fail fun _ => ?_))
        have behind : next.Shows (.name first :: Token.dotted more ++ .symbol .semicolon ::
            ((others.flatMap fun space => Piece.tokens (Piece.directive space)) ++ tokens)) rest := by
          simpa using behind
        have noDot : Symbol.semicolon ≠ .dot := by decide
        refine (qualifiedName_shown fuel noDot behind).bind fun name next both => ?_
        refine (expect_span_shown both.2).bind fun stop next behind => ?_
        refine (ih areDotted.2 behind).bind fun directives last both' => .pure ⟨?_, both'.2⟩
        rw [List.map_cons, both.1, spelled, both'.1]

/-- A text that begins like the one for a body of a shape has the shape's namespace as its first member. -/
theorem compilationUnit_shown (fuel : Nat) {shape : CallableShape} (named : shape.IsNamed) {spaces names : List String}
    (areDotted : ∀ space ∈ spaces, IsDotted space) (sameLength : names.length = shape.parameters.length)
    {input : Input} {rest : List PlacedToken}
    (shows : input.Shows ((spaces.flatMap fun space => Piece.tokens (Piece.directive space)) ++
      shape.spaceTokens names) rest) :
    Ensures input (compilationUnit fuel) fun unit _ => ∃ first others,
      unit.members = first :: others ∧ shape.ReadsSpace first := by
  rw [compilationUnit]
  have ends (next : Input) (behind : next.Shows (shape.spaceTokens names) rest) :
      next.token.isKeyword .usingWord = false := by
    rw [Input.Shows.head behind]
    rfl
  refine (usings_shown fuel areDotted ends shows).bind fun directives next both => ?_
  obtain ⟨-, behind⟩ := both
  have members : Ensures next (members fuel) fun list _ => ∃ first others,
      list = first :: others ∧ shape.ReadsSpace first := by
    cases fuel with
    | zero => exact .exhausted
    | succ fuel =>
        rw [Reader.members]
        refine .peek ?_
        rw [behind.head]
        refine (space_shown fuel named sameLength behind).bind fun first next reads => ?_
        exact (anything _).bind fun others _ _ => .pure ⟨first, others, rfl, reads⟩
  refine members.bind fun list next reads => .peek ?_
  split
  · exact .pure reads
  · exact .failHere

end Reader

/-! ### Whole texts -/

namespace CallableShape

variable {shape : CallableShape}

theorem tokens_directives (spaces : List String) :
    Piece.tokens ([.blank '\n'].intercalate (spaces.map Piece.directive)) =
      spaces.flatMap fun space => Piece.tokens (Piece.directive space) := by
  cases spaces with
  | nil => rfl
  | cons first rest =>
      rw [List.map_cons, Piece.tokens_intercalate, List.flatMap_map]
      rfl

theorem tokens_resultPieces (shape : CallableShape) :
    Piece.tokens shape.resultPieces = Token.ofResult shape.result := by
  unfold resultPieces
  cases shape.result with
  | none => rfl
  | some type => rfl

theorem tokens_parameters {parameters : List ShapeParameter} {names : List String}
    (identifiers : ∀ name ∈ names, isIdentifier name = true) :
    Piece.tokens (Piece.listed (List.zipWith ShapeParameter.pieces parameters names)) =
      Token.separated .comma ((parameters.zip names).map fun entry => entry.1.tokens entry.2) := by
  have entries : ∀ entry ∈ parameters.zip names,
      Piece.tokens (entry.1.pieces entry.2) = entry.1.tokens entry.2 := fun entry member =>
    ShapeParameter.tokens_pieces entry.1 (identifiers entry.2 (List.of_mem_zip member).2)
  rw [← List.map_uncurry_zip_eq_zipWith]
  cases isZip : parameters.zip names with
  | nil => rfl
  | cons first rest =>
      rw [isZip, List.forall_mem_cons] at entries
      rw [List.map_cons, Piece.listed, Piece.tokens_intercalate, List.map_cons, Token.separated, List.flatMap_map,
        List.flatMap_map]
      refine congrArg₂ (· ++ ·) entries.1 (List.flatMap_congr fun entry member => ?_)
      exact congrArg (Token.symbol .comma :: ·) (entries.2 entry member)

/-- The tokens of the heading. -/
theorem tokens_heading {spaces names : List String} (identifiers : ∀ name ∈ names, isIdentifier name = true) :
    Piece.tokens (shape.heading spaces names) =
      (("System" :: spaces).flatMap fun space => Piece.tokens (Piece.directive space)) ++ shape.spaceTokens names := by
  have opening : Piece.tokens Piece.opening = [.keyword .namespaceWord, .name "DynamicCompilation",
      .symbol .leftBrace, .keyword .publicWord, .keyword .staticWord, .keyword .classWord, .name "Executer",
      .symbol .leftBrace, .keyword .publicWord, .keyword .staticWord] := rfl
  have name : Piece.tokens [.blank ' ', .word "Execute", .mark .leftParen] =
      [.name "Execute", .symbol .leftParen] := rfl
  have bodyOpening : Piece.tokens Piece.bodyOpening = [.symbol .rightParen, .symbol .leftBrace] := rfl
  have newline : Piece.tokens [.blank '\n'] = [] := rfl
  rw [heading]
  simp only [Piece.tokens_append]
  simp only [newline, tokens_directives, opening, tokens_resultPieces, name, tokens_parameters identifiers,
    bodyOpening, List.flatMap_cons, spaceTokens, classTokens, methodTokens, List.append_assoc, List.nil_append,
    List.cons_append]

/-- The source text for a body of a shape has the shape's method as the first one of its first class, if it
can be read at all. -/
theorem IsNamed.reads (named : shape.IsNamed) {names : List String} (sameLength : names.length = shape.arity)
    (areIdentifiers : ∀ name ∈ names, isIdentifier name = true) {body : String} {unit : CompilationUnit}
    (isUnit : CompilationUnit.ofSource (shape.sourceText names body) = .ok unit) :
    ∃ first others, unit.members = first :: others ∧ shape.ReadsSpace first := by
  have areDotted : ∀ space ∈ shape.missingSpaces, IsDotted space :=
    fun space member => named.dotted space (List.mem_filter.1 member).1
  have begins : (shape.sourceText names body).toList = _ := String.toList_ofList
  refine CompilationUnit.of_ofSource isUnit
    (fun unit => ∃ first others, unit.members = first :: others ∧ shape.ReadsSpace first) fun placed isPlaced => ?_
  obtain ⟨front, behind, rfl, isFront, ends⟩ :=
    Piece.tokens_of_tokenize begins (named.allStand_heading areDotted areIdentifiers _) isPlaced
  have isSome : behind ≠ [] := by
    rintro rfl
    cases ends
  rw [tokens_heading areIdentifiers] at isFront
  have shows : Input.Shows ⟨front ++ behind, ⟨0, 0⟩⟩ _ behind := ⟨isSome, front, rfl, isFront⟩
  exact Reader.compilationUnit_shown (readingFuel (front ++ behind)) named
    (List.forall_mem_cons.2 ⟨isDotted_system, areDotted⟩) sameLength shows

end CallableShape

end Snippet
