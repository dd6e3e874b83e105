import Snippet.Proofs.Grammar.Statement
import Snippet.Proofs.Source.Found

/-!
The names that classes and namespaces have in a source text: no plus sign stands in them, so a plus sign in a full name
only ever divides a class from the class around it. Main statement: `CompilationUnit.isPlain_of_ofSource`.
-/

namespace Snippet

/-- Whether no plus sign stands in a name. -/
def IsPlainName (name : String) : Prop := '+' ∉ name.toList

instance (name : String) : Decidable (IsPlainName name) := inferInstanceAs (Decidable (¬ _))

theorem IsPlainName.append {first second : String} (isFirst : IsPlainName first) (isSecond : IsPlainName second) :
    IsPlainName (first ++ second) := by
  unfold IsPlainName
  rw [String.toList_append, List.mem_append]
  exact fun member => member.elim isFirst isSecond

mutual

/-- Whether a class and the classes in it have plain names. -/
def ClassDecl.IsPlain : ClassDecl → Prop
  | .mk _ name _ _ nested => IsPlainName name ∧ ClassDecl.AllPlain nested

/-- Whether classes have plain names. -/
def ClassDecl.AllPlain : List ClassDecl → Prop
  | [] => True
  | first :: rest => first.IsPlain ∧ ClassDecl.AllPlain rest

end

mutual

/-- Whether a member of a namespace, and everything in it, has a plain name. -/
def Member.IsPlain : Member → Prop
  | .space _ name _ members => IsPlainName name ∧ Member.AllPlain members
  | .type decl => decl.IsPlain

/-- Whether members of a namespace have plain names. -/
def Member.AllPlain : List Member → Prop
  | [] => True
  | first :: rest => first.IsPlain ∧ Member.AllPlain rest

end

/-! ### Tokens -/

/-- Whether every name among tokens is plain. -/
def PlacedToken.AllPlain (tokens : List PlacedToken) : Prop :=
  ∀ placed ∈ tokens, ∀ name, placed.token = .name name → IsPlainName name

/-- Whether every name among lexemes is plain. -/
def Lexeme.AllPlain (lexemes : List Lexeme) : Prop :=
  ∀ placed, .token placed ∈ lexemes → ∀ name, placed.token = .name name → IsPlainName name

/-- The names that are read are words. -/
theorem Lexer.allPlain_lexemes (cursor : Cursor) : Lexeme.AllPlain (lexemes cursor) := by
  intro placed member name isName
  obtain stands | ⟨span, isEnd⟩ := lexemes_standsBehind cursor _ member
  · cases stands with
    | token isRead => exact fun isPlus => absurd (isRead.isWord name isName '+' isPlus) (by decide)
  · cases isEnd
    cases isName

/-- The names of a source text are plain. -/
theorem allPlain_tokenize {source : String} {tokens : List PlacedToken} (read : tokenize source = .ok tokens) :
    PlacedToken.AllPlain tokens := by
  obtain ⟨_, rfl⟩ := tokenize_eq_ok_iff.1 read
  exact fun placed member => Lexer.allPlain_lexemes _ placed (Lexeme.mem_tokens.1 member)

/-! ### Readers -/

/-- Whether the end of the text is the last of the tokens that are left, and every name among them is plain. -/
structure Input.IsPlain (input : Input) : Prop where
  ends : input.Ends
  names : PlacedToken.AllPlain input.rest

/-- Behind tokens that are taken the others are left, and the names among the taken ones are plain. -/
theorem Input.Takes.plain {input next : Input} {tokens : List Token} (takes : input.Takes tokens next)
    (plain : input.IsPlain) : next.IsPlain ∧ ∀ name, .name name ∈ tokens → IsPlainName name := by
  obtain ⟨ends, taken, isRest, rfl⟩ := takes
  have names := plain.names
  rw [isRest] at names
  refine ⟨⟨ends, fun placed member => names placed (List.mem_append_right _ member)⟩, fun name member => ?_⟩
  obtain ⟨placed, isTaken, isName⟩ := List.mem_map.1 member
  exact names placed (List.mem_append_left _ isTaken) name isName

namespace Reader

variable {input : Input}

theorem plain_advance (isPlain : input.IsPlain) : Ensures input advance fun _ next => next.IsPlain := by
  intro span next read
  cases read
  obtain ⟨rest, previous⟩ := input
  match rest with
  | [] | [_] => exact isPlain
  | placed :: second :: others =>
    obtain ⟨ends, names⟩ := isPlain
    refine ⟨?_, fun placed member => names placed (List.mem_cons_of_mem _ member)⟩
    rwa [Input.Ends, List.getLast?_cons_cons] at ends

theorem plain_expect (isPlain : input.IsPlain) (sign : Symbol) :
    Ensures input (discard (expect sign)) fun _ next => next.IsPlain :=
  (discard_expect_takes isPlain.ends sign).weaken fun _ _ taken => (taken.plain isPlain).1

theorem expectWord_plain (isPlain : input.IsPlain) (word : Keyword) :
    Ensures input (discard (expectWord word)) fun _ next => next.IsPlain := by
  rw [expectWord]
  refine .map (.get ?_)
  split
  · exact plain_advance isPlain
  · exact .fail

theorem plain_expectName (isPlain : input.IsPlain) :
    Ensures input expectName fun found next => next.IsPlain ∧ IsPlainName found.1 :=
  (expectName_takes isPlain.ends).weaken fun found _ taken =>
    ⟨(taken.plain isPlain).1, (taken.plain isPlain).2 found.1 List.mem_cons_self⟩

theorem plain_nameTail (fuel : Nat) (name : String) (isName : IsPlainName name) (isPlain : input.IsPlain) :
    Ensures input (nameTail fuel name) fun name next => next.IsPlain ∧ IsPlainName name := by
  induction fuel generalizing input name with
  | zero => exact .exhausted
  | succ fuel ih =>
      rw [nameTail]
      refine .eat isPlain.ends (fun behind dot => ?_) (.pure ⟨isPlain, isName⟩)
      refine (plain_expectName (dot.plain isPlain).1).bind fun found next ⟨isPlain, isPart⟩ => ?_
      have isDot : IsPlainName "." := by decide
      exact ih _ ((isName.append isDot).append isPart) isPlain

theorem plain_qualifiedName (fuel : Nat) (isPlain : input.IsPlain) :
    Ensures input (qualifiedName fuel) fun name next => next.IsPlain ∧ IsPlainName name := by
  rw [qualifiedName]
  exact (plain_expectName isPlain).bind fun found next ⟨isPlain, isName⟩ => plain_nameTail fuel found.1 isName isPlain

theorem plain_usings (fuel : Nat) (isPlain : input.IsPlain) :
    Ensures input (usings fuel) fun _ next => next.IsPlain := by
  induction fuel generalizing input with
  | zero => exact .exhausted
  | succ fuel ih =>
      rw [usings]
      refine .peek (.guard (.pure isPlain) fun _ => ?_)
      refine (plain_advance isPlain).bind fun start behind isPlain => .peek (.peekAt (.guard .fail fun _ => ?_))
      refine (plain_qualifiedName fuel isPlain).bind fun name behind ⟨isPlain, _⟩ => ?_
      refine (expect_takes isPlain.ends .semicolon).bind fun stop behind takes => ?_
      exact (ih (takes.plain isPlain).1).bind fun rest last isPlain => .pure isPlain

theorem plain_modifierList (fuel : Nat) (modifiers : Modifiers) (isPlain : input.IsPlain) :
    Ensures input (modifierList fuel modifiers) fun _ next => next.IsPlain := by
  induction fuel generalizing input modifiers with
  | zero => exact .exhausted
  | succ fuel ih =>
      rw [modifierList]
      refine .peek ?_
      split
      · exact .pure isPlain
      · exact .failHere
      · exact (plain_advance isPlain).map.bind fun _ behind isPlain => ih _ isPlain

/-- Whatever result of a method is read, what is behind it goes on. -/
theorem plain_result (fuel : Nat) (token : Token) (isPlain : input.IsPlain) {α : Type}
    {rest : Option TypeName → Reader α} {post : α → Input → Prop}
    (go : ∀ (result : Option TypeName) {middle : Input}, middle.IsPlain → Ensures middle (rest result) post) :
    Ensures input (do
      if token.isKeyword .voidWord then
        discard advance
        rest none
      else if startsType token then rest (← some <$> typeName fuel)
      else rest (← failHere (.badMemberStart token.shown))) post := by
  refine .choose (fun _ => ?_) fun _ => .choose (fun _ => ?_) fun _ => .failHere
  · exact (plain_advance isPlain).map.bind fun _ behind isPlain => go none isPlain
  · exact .mapBind (typeName_takes fuel isPlain.ends) fun type behind takes => go (some type) (takes.plain isPlain).1

theorem plain_method (fuel : Nat) (modifiers : Modifiers) (start : Span) (className : String)
    (isPlain : input.IsPlain) : Ensures input (method fuel modifiers start className) fun _ next => next.IsPlain := by
  rw [method]
  have body (name : String) (result : Option TypeName) {middle : Input} (isPlain : middle.IsPlain) : Ensures middle (do
      let list ← parameters fuel
      discard (expect .leftBrace)
      let body ← statements fuel
      let stop ← expect .rightBrace
      return (⟨name, modifiers, result, list, body, start.join stop⟩ : MethodDecl)) fun _ next => next.IsPlain := by
    refine (parameters_takes fuel isPlain.ends).bind fun list behind takes => ?_
    refine (plain_expect (takes.plain isPlain).1 .leftBrace).bind fun _ behind isPlain => ?_
    refine (statements_takes fuel isPlain.ends).bind fun body behind takes => ?_
    have isPlain := (takes.plain isPlain).1
    exact (expect_takes isPlain.ends .rightBrace).bind fun stop last takes => .pure (takes.plain isPlain).1
  refine .peek ?_
  split
  case' h_1 => refine .peekAt (.guard .unsupportedHere fun _ => ?_)
  all_goals
    refine .peek (plain_result fuel input.token isPlain fun result middle isPlain => ?_)
    refine (plain_expectName isPlain).bind fun found behind known => .peek ?_
    split
    · exact .unsupportedHere
    · exact .unsupportedHere
    · exact .unsupportedHere
    · exact .unsupportedHere
    · exact body found.1 result known.1

mutual

/-- A class that is read has a plain name, and so have the classes in it. -/
theorem plain_classDecl (fuel : Nat) (modifiers : Modifiers) (start : Span) {input : Input} (isPlain : input.IsPlain) :
    Ensures input (classDecl fuel modifiers start) fun decl next => next.IsPlain ∧ decl.IsPlain := by
  match fuel with
  | 0 => exact .exhausted
  | fuel + 1 =>
    rw [classDecl]
    refine (expectWord_plain isPlain .classWord).bind fun _ behind isPlain => ?_
    refine (plain_expectName isPlain).bind fun found behind ⟨isPlain, isName⟩ => .sees (.sees ?_)
    refine .guard .unsupportedHere fun _ => ?_
    refine (plain_expect isPlain .leftBrace).bind fun _ behind isPlain => ?_
    refine (plain_classMembers fuel found.1 isPlain).bind fun list behind ⟨isPlain, areNested⟩ => ?_
    exact (expect_takes isPlain.ends .rightBrace).bind fun stop last takes =>
      .pure ⟨(takes.plain isPlain).1, isName, areNested⟩

theorem plain_classMembers (fuel : Nat) (className : String) {input : Input} (isPlain : input.IsPlain) :
    Ensures input (classMembers fuel className) fun found next => next.IsPlain ∧ ClassDecl.AllPlain found.2 := by
  match fuel with
  | 0 => exact .exhausted
  | fuel + 1 =>
    rw [classMembers]
    refine .peek ?_
    split
    · exact .pure ⟨isPlain, trivial⟩
    · exact .pure ⟨isPlain, trivial⟩
    · refine .here ((plain_modifierList fuel .none isPlain).bind fun modifiers behind isPlain => .peek (.choose ?_ ?_))
      · intro isClass
        refine (plain_classDecl fuel modifiers input.span isPlain).bind fun first behind ⟨isPlain, isFirst⟩ => ?_
        exact (plain_classMembers fuel className isPlain).bind fun found last ⟨isPlain, areFound⟩ =>
          .pure ⟨isPlain, isFirst, areFound⟩
      · intro isMethod
        refine (plain_method fuel modifiers input.span className isPlain).bind fun first behind isPlain => ?_
        exact (plain_classMembers fuel className isPlain).bind fun found last ⟨isPlain, areFound⟩ =>
          .pure ⟨isPlain, areFound⟩

end

mutual

/-- A namespace that is read has a plain name, and so has everything in it. -/
theorem plain_space (fuel : Nat) {input : Input} (isPlain : input.IsPlain) :
    Ensures input (space fuel) fun member next => next.IsPlain ∧ member.IsPlain := by
  match fuel with
  | 0 => exact .exhausted
  | fuel + 1 =>
    rw [space]
    refine (plain_advance isPlain).bind fun start behind isPlain => ?_
    refine (plain_qualifiedName fuel isPlain).bind fun name behind ⟨isPlain, isName⟩ => .sees ?_
    refine .guard .unsupportedHere fun _ => ?_
    refine (plain_expect isPlain .leftBrace).bind fun _ behind isPlain => ?_
    refine (plain_usings fuel isPlain).bind fun directives behind isPlain => ?_
    refine (plain_members fuel isPlain).bind fun list behind ⟨isPlain, areMembers⟩ => .peek ?_
    have closed : Ensures behind (do
        let stop ← expect .rightBrace
        return Member.space (start.join stop) name directives list) fun member next =>
          next.IsPlain ∧ member.IsPlain :=
      (expect_takes isPlain.ends .rightBrace).bind fun stop last takes =>
        .pure ⟨(takes.plain isPlain).1, isName, areMembers⟩
    split
    · exact closed
    · exact closed
    · exact .failHere

theorem plain_members (fuel : Nat) {input : Input} (isPlain : input.IsPlain) :
    Ensures input (members fuel) fun list next => next.IsPlain ∧ Member.AllPlain list := by
  match fuel with
  | 0 => exact .exhausted
  | fuel + 1 =>
    rw [members]
    refine .peek (.choose (fun _ => ?_) fun _ => .guard .failHere fun _ => .choose (fun _ => ?_) fun _ => ?_)
    · refine (plain_space fuel isPlain).bind fun first behind ⟨isPlain, isFirst⟩ => ?_
      exact (plain_members fuel isPlain).bind fun rest last ⟨isPlain, areRest⟩ => .pure ⟨isPlain, isFirst, areRest⟩
    · refine .here ((plain_modifierList fuel .none isPlain).bind fun modifiers behind isPlain => .peek ?_)
      refine .guard .failHere fun _ => ?_
      refine (plain_classDecl fuel modifiers input.span isPlain).bind fun first behind ⟨isPlain, isFirst⟩ => ?_
      exact (plain_members fuel isPlain).bind fun rest last ⟨isPlain, areRest⟩ => .pure ⟨isPlain, isFirst, areRest⟩
    · exact .pure ⟨isPlain, trivial⟩

end

theorem plain_compilationUnit (fuel : Nat) (isPlain : input.IsPlain) :
    Ensures input (compilationUnit fuel) fun unit _ => Member.AllPlain unit.members := by
  rw [compilationUnit]
  refine (plain_usings fuel isPlain).bind fun directives behind isPlain => ?_
  refine (plain_members fuel isPlain).bind fun list behind ⟨isPlain, areMembers⟩ => .peek ?_
  split
  · exact .pure areMembers
  · exact .failHere

end Reader

/-- No plus sign stands in the names of the classes and namespaces of a source text. -/
theorem CompilationUnit.isPlain_of_ofSource {source : String} {unit : CompilationUnit}
    (isUnit : ofSource source = .ok unit) : Member.AllPlain unit.members := by
  refine of_ofSource isUnit (fun unit => Member.AllPlain unit.members) fun tokens isTokens => ?_
  have begins : source.toList = Piece.texts [] ++ source.toList := rfl
  obtain ⟨first, behind, areTokens, noToken, ends⟩ := Piece.tokens_of_tokenize begins rfl isTokens
  obtain rfl : first = [] := List.map_eq_nil_iff.1 noToken
  have isPlain : (⟨tokens, ⟨0, 0⟩⟩ : Input).IsPlain := ⟨areTokens ▸ ends, allPlain_tokenize isTokens⟩
  exact Reader.plain_compilationUnit _ isPlain

end Snippet
