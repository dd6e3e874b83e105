import Mathlib.Data.List.Basic
import Snippet.Proofs.Grammar.Known
import Snippet.Proofs.Shape.TypeText

/-!
What is read from the full name of a type. Main statement: the type name has the names of the full name as
its parts, and the type arguments.
-/

namespace Snippet

/-! ### Tokens -/

theorem Piece.tokens_intercalate (separator part : List Piece) (rest : List (List Piece)) :
    tokens (separator.intercalate (part :: rest)) =
      tokens part ++ rest.flatMap fun part => tokens separator ++ tokens part := by
  induction rest generalizing part with
  | nil => simp
  | cons second others ih =>
      rw [List.intercalate_cons_cons, tokens_append, tokens_append, ih, List.flatMap_cons, List.append_assoc,
        List.append_assoc]

theorem Piece.tokens_word {name : String} (identifier : isIdentifier name = true) :
    tokens [.word name] = [.name name] := by
  have noKeyword := (Bool.and_eq_true_iff.1 identifier).2
  rw [Option.isNone_iff_eq_none] at noKeyword
  show [Lexer.wordToken name] = _
  rw [Lexer.wordToken, noKeyword]

theorem Piece.tokens_dotted {first : String} {rest : List String}
    (identifiers : ∀ name ∈ first :: rest, isIdentifier name = true) :
    tokens (dotted (first :: rest)) = .name first :: Token.dotted rest := by
  rw [List.forall_mem_cons] at identifiers
  rw [dotted, List.map_cons, tokens_intercalate, tokens_word identifiers.1, List.flatMap_map]
  refine congrArg (Token.name first :: ·) ?_
  refine List.flatMap_congr fun name isName => ?_
  rw [tokens_word (identifiers.2 name isName)]
  rfl

/-- The tokens of further types with a comma in front of each one. -/
def Token.furtherTypes (types : List TypeDesc) : List Token :=
  types.flatMap fun type => .symbol .comma :: Piece.tokens type.pieces

/-- The tokens of type arguments in angle brackets. -/
def Token.inAngles : List TypeDesc → List Token
  | [] => []
  | first :: rest => .symbol .less :: Piece.tokens first.pieces ++ furtherTypes rest ++ [.symbol .greater]

theorem TypeDesc.tokens_pieces (type : TypeDesc) : Piece.tokens type.pieces =
    Piece.tokens (Piece.dotted type.names) ++ Token.inAngles type.arguments := by
  obtain ⟨space, enclosing, name, arguments, origin⟩ := type
  rw [pieces, Piece.tokens_append, piecesOfAll_eq_map]
  refine congrArg (_ ++ ·) ?_
  cases arguments with
  | nil => rfl
  | cons first rest =>
      rw [Piece.inAngles, if_neg (by simp), Piece.tokens_append, List.map_cons, Piece.listed]
      show Token.symbol .less :: Piece.tokens ([Piece.mark .comma, .blank ' '].intercalate _) ++ _ = _
      rw [Piece.tokens_intercalate, List.flatMap_map]
      rfl

/-- Whether a type name is that of a type: its parts are the names of the full name, and the last one has
the type arguments. -/
inductive TypeDesc.Reads : TypeDesc → TypeName → Prop where
  | intro {type : TypeDesc} {span : Span} {written : List TypeName}
    (sameLength : written.length = type.arguments.length)
    (arguments : ∀ pair ∈ type.arguments.zip written, Reads pair.1 pair.2) :
    Reads type (.named span ((TypeDesc.outerNames type.space type.enclosing).map (.mk · []) ++
      [.mk type.name written]))

/-- Whether type names are those of types, one by one. -/
def TypeDesc.ReadsAll (types : List TypeDesc) (written : List TypeName) : Prop :=
  written.length = types.length ∧ ∀ pair ∈ types.zip written, pair.1.Reads pair.2

theorem TypeDesc.ReadsAll.nil : TypeDesc.ReadsAll [] [] := ⟨rfl, fun _ member => absurd member List.not_mem_nil⟩

theorem TypeDesc.ReadsAll.cons {type : TypeDesc} {types : List TypeDesc} {first : TypeName} {written : List TypeName}
    (rest : TypeDesc.ReadsAll types written) (reads : type.Reads first) :
    TypeDesc.ReadsAll (type :: types) (first :: written) :=
  ⟨congrArg (· + 1) rest.1, List.forall_mem_cons.2 ⟨reads, rest.2⟩⟩

/-- Whether a token may stand behind a type name. -/
def Token.endsType (token : Token) : Bool := token.isName || token.isSymbol .comma || token.isSymbol .greater

/-- Whether what stands behind a type name ends it. -/
def EndsTypeName (rest : List PlacedToken) : Prop := ∀ last : Input, last.rest = rest → last.token.endsType = true

theorem Token.not_isSymbol_of_endsType {token : Token} (ends : token.endsType = true) {sign : Symbol}
    (differs : sign ≠ .comma ∧ sign ≠ .greater) : token.isSymbol sign = false := by
  cases token with
  | symbol found =>
      have isEnd : found = .comma ∨ found = .greater := by simpa [endsType, isName, isSymbol] using ends
      rcases isEnd with rfl | rfl
      · exact beq_eq_false_iff_ne.2 differs.1.symm
      · exact beq_eq_false_iff_ne.2 differs.2.symm
  | _ => rfl

namespace Reader

theorem refuseNullable_left {input : Input} (ends : input.token.endsType = true) :
    Ensures input refuseNullable fun _ next => next = input := by
  rw [refuseNullable]
  refine .sees ?_
  rw [Token.not_isSymbol_of_endsType ends (by decide)]
  exact .pure rfl

/-- Behind a type argument stands a token that ends it. -/
theorem furtherTypes_endsType {types : List TypeDesc} {input : Input} {tokens : List Token}
    {rest : List PlacedToken} (shows : input.Shows (Token.furtherTypes types ++ .symbol .greater :: tokens) rest) :
    input.token.endsType = true := by
  cases types with
  | nil =>
      rw [shows.head]
      rfl
  | cons first others =>
      rw [Input.Shows.head shows]
      rfl

mutual

/-- The name of a type is read as such. -/
theorem typeName_shown (fuel : Nat) {type : TypeDesc} (named : type.IsNamed) {input : Input}
    {rest : List PlacedToken} (shows : input.Shows (Piece.tokens type.pieces) rest) (ends : EndsTypeName rest) :
    Ensures input (typeName fuel) fun written next => type.Reads written ∧ next.rest = rest := by
  match fuel with
  | 0 => exact .exhausted
  | fuel + 1 =>
    obtain ⟨-, identifiers, arguments⟩ := named
    rw [TypeDesc.tokens_pieces] at shows
    rw [typeName]
    refine .here (.peek ?_)
    obtain ⟨first, others, isNames⟩ := List.exists_cons_of_ne_nil (show type.names ≠ [] from List.concat_ne_nil _ _)
    have isName : input.token = .name first := by
      rw [isNames] at identifiers shows
      rw [Piece.tokens_dotted identifiers] at shows
      exact shows.head
    rw [isName]
    refine (typeSegments_shown fuel identifiers arguments shows ends).bind fun segments next read => ?_
    obtain ⟨written, rfl, readsAll, isRest⟩ := read
    refine .previous (.pureBind ?_)
    refine (refuseNullable_left (ends next isRest)).bind fun _ last same => ?_
    subst same
    exact .pure ⟨.intro readsAll.1 readsAll.2, isRest⟩

theorem typeSegments_shown (fuel : Nat) {outer : List String} {last : String} {arguments : List TypeDesc}
    (identifiers : ∀ name ∈ outer ++ [last], isIdentifier name = true)
    (named : ∀ argument ∈ arguments, argument.IsNamed) {input : Input} {rest : List PlacedToken}
    (shows : input.Shows (Piece.tokens (Piece.dotted (outer ++ [last])) ++ Token.inAngles arguments) rest)
    (ends : EndsTypeName rest) :
    Ensures input (typeSegments fuel) fun segments next => ∃ written,
      segments = outer.map (.mk · []) ++ [.mk last written] ∧ TypeDesc.ReadsAll arguments written ∧
        next.rest = rest := by
  match fuel with
  | 0 => exact .exhausted
  | fuel + 1 =>
    rw [typeSegments]
    cases outer with
    | nil =>
      rw [List.nil_append, Piece.tokens_dotted identifiers] at shows
      refine (expectName_shown shows).bind fun found next both => ?_
      obtain ⟨rfl, behind⟩ := both
      replace behind : next.Shows (Token.inAngles arguments) rest := behind
      refine .sees ?_
      cases arguments with
      | nil =>
        have isEnd := ends next behind.isRest
        have noLess := Token.not_isSymbol_of_endsType isEnd (show Symbol.less ≠ .comma ∧ _ by decide)
        have noDot := Token.not_isSymbol_of_endsType isEnd (show Symbol.dot ≠ .comma ∧ _ by decide)
        refine .choose (fun isLess => absurd isLess (by simp [noLess])) fun _ => .pureBind (.sees (.peekAt ?_))
        refine .choose (fun isDot => absurd isDot (by simp [noDot])) fun _ => .pure ?_
        exact ⟨[], rfl, .nil, behind.isRest⟩
      | cons first others =>
        have isLess : next.token.isSymbol .less = true := by
          rw [behind.head]
          rfl
        refine .choose (fun _ => ?_) fun noLess => absurd isLess noLess
        refine (typeArguments_shown fuel named behind).bind fun written last both => .sees (.peekAt ?_)
        have noDot := Token.not_isSymbol_of_endsType (ends last both.2) (show Symbol.dot ≠ .comma ∧ _ by decide)
        refine .choose (fun isDot => absurd isDot (by simp [noDot])) fun _ => .pure ?_
        exact ⟨written, rfl, both.1, both.2⟩
    | cons first others =>
      obtain ⟨second, more, isMore⟩ := List.exists_cons_of_ne_nil (List.concat_ne_nil last others)
      rw [List.cons_append] at identifiers shows
      rw [Piece.tokens_dotted identifiers] at shows
      rw [List.forall_mem_cons] at identifiers
      refine (expectName_shown shows).bind fun found next both => ?_
      obtain ⟨rfl, behind⟩ := both
      replace behind : next.Shows (.symbol .dot :: (Piece.tokens (Piece.dotted (others ++ [last])) ++
        Token.inAngles arguments)) rest := by
        rw [isMore, Piece.tokens_dotted (isMore ▸ identifiers.2)]
        rw [isMore] at behind
        exact behind
      have isDot : next.token.isSymbol .dot = true := by
        rw [behind.head]
        rfl
      have isName : (next.tokenAt 1).isName = true := by
        rw [isMore, Piece.tokens_dotted (isMore ▸ identifiers.2)] at behind
        rw [behind.second]
        rfl
      have noLess : ¬next.token.isSymbol .less = true := by
        rw [behind.head]
        decide
      refine .sees (.choose (fun isLess => absurd isLess noLess) fun _ => .pureBind (.sees (.peekAt ?_)))
      refine .choose (fun _ => ?_) fun left => absurd (Bool.and_eq_true_iff.2 ⟨isDot, isName⟩) left
      have dot : Ensures next (discard advance) fun _ last => last.Shows _ rest := .map (advance_shown behind)
      refine dot.bind fun _ next behindDot => ?_
      refine (typeSegments_shown fuel identifiers.2 named behindDot ends).bind fun segments last read => .pure ?_
      obtain ⟨written, rfl, readsAll, isRest⟩ := read
      exact ⟨written, rfl, readsAll, isRest⟩

theorem typeArguments_shown (fuel : Nat) {first : TypeDesc} {others : List TypeDesc}
    (named : ∀ argument ∈ first :: others, argument.IsNamed) {input : Input} {rest : List PlacedToken}
    (shows : input.Shows (Token.inAngles (first :: others)) rest) :
    Ensures input (typeArguments fuel) fun written next =>
      TypeDesc.ReadsAll (first :: others) written ∧ next.rest = rest := by
  match fuel with
  | 0 => exact .exhausted
  | fuel + 1 =>
    rw [List.forall_mem_cons] at named
    rw [typeArguments]
    refine (expect_shown shows).bind fun _ next behind => ?_
    obtain ⟨middle, isFirst, further⟩ := (show next.Shows (Piece.tokens first.pieces ++
      (Token.furtherTypes others ++ [.symbol .greater])) rest by simpa using behind).split
    have ends : EndsTypeName middle := fun last isLast => furtherTypes_endsType (further last isLast)
    refine (typeName_shown fuel named.1 isFirst ends).bind fun written next both => ?_
    obtain ⟨reads, isMiddle⟩ := both
    refine (typeArgumentsTail_shown fuel named.2 (further next isMiddle)).bind fun more next both => ?_
    obtain ⟨readsAll, greater⟩ := both
    refine (expect_shown greater).bind fun _ last isLast => .pure ⟨?_, isLast.isRest⟩
    exact readsAll.cons reads

theorem typeArgumentsTail_shown (fuel : Nat) {others : List TypeDesc}
    (named : ∀ argument ∈ others, argument.IsNamed) {input : Input} {tokens : List Token} {rest : List PlacedToken}
    (shows : input.Shows (Token.furtherTypes others ++ .symbol .greater :: tokens) rest) :
    Ensures input (typeArgumentsTail fuel) fun written next =>
      TypeDesc.ReadsAll others written ∧ next.Shows (.symbol .greater :: tokens) rest := by
  match fuel with
  | 0 => exact .exhausted
  | fuel + 1 =>
    rw [typeArgumentsTail]
    cases others with
    | nil =>
      have noComma : input.token.isSymbol .comma = false := by
        rw [shows.head]
        rfl
      refine (eat_left noComma).bind fun found next both => ?_
      obtain ⟨rfl, rfl⟩ := both
      exact .pure ⟨.nil, shows⟩
    | cons first others =>
      rw [List.forall_mem_cons] at named
      refine (eat_shown shows).bind fun found next both => ?_
      obtain ⟨rfl, behind⟩ := both
      obtain ⟨middle, isFirst, further⟩ := (show next.Shows (Piece.tokens first.pieces ++
        (Token.furtherTypes others ++ .symbol .greater :: tokens)) rest by
          rw [← List.append_assoc]
          exact behind).split
      have ends : EndsTypeName middle := fun last isLast => furtherTypes_endsType (further last isLast)
      refine (typeName_shown fuel named.1 isFirst ends).bind fun written next both => ?_
      obtain ⟨reads, isMiddle⟩ := both
      refine (typeArgumentsTail_shown fuel named.2 (further next isMiddle)).bind fun more last both => .pure ?_
      exact ⟨both.1.cons reads, both.2⟩

end

end Reader

end Snippet
