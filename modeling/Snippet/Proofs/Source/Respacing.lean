import Snippet.Proofs.Source.Alone
import Snippet.Proofs.Source.Found

/-!
Texts with other layout between their tokens. Main statement: such a text has the tokens of the text as it was, and in
both texts every token starts behind the token in front of it.
-/

namespace Snippet

open Text

/-! ### Layout -/

/-- A piece of the layout between tokens. -/
inductive Filler where
  | blank (character : Char)
  | line (comment : List Char)
  | block (comment : List Char)

namespace Filler

/-- The characters of a piece of layout. -/
def text : Filler → List Char
  | blank character => [character]
  | line comment => '/' :: '/' :: (comment ++ ['\n'])
  | block comment => '/' :: '*' :: (comment ++ ['*', '/'])

/-- Whether a piece is a blank, or a comment that does not end before the piece. -/
def IsComplete : Filler → Prop
  | blank character => isLayout character = true
  | line comment => '\n' ∉ comment
  | block comment => ¬ ['*', '/'] <:+: comment

end Filler

/-- Layout that separates tokens: a blank, and behind it blanks and complete comments. -/
structure Layout where
  first : Char
  isBlank : isLayout first = true
  others : List Filler
  isComplete : ∀ filler ∈ others, filler.IsComplete

/-- The characters of layout. -/
def Layout.text (layout : Layout) : List Char := layout.first :: layout.others.flatMap Filler.text

/-- A comment that reaches to the end of a text. -/
structure Remark where
  comment : List Char
  isLine : '\n' ∉ comment

/-- The characters of a comment that reaches to the end of a text. -/
def Remark.text (remark : Remark) : List Char := '/' :: '/' :: remark.comment

/-- Whether characters are blanks and complete comments, the last of which may end with the text. -/
inductive IsGap (atEnd : Prop) : List Char → Prop
  | none : IsGap atEnd []
  | filler {filler : Filler} {gap : List Char} (isComplete : filler.IsComplete) (others : IsGap atEnd gap) :
      IsGap atEnd (filler.text ++ gap)
  | remark (ends : atEnd) (remark : Remark) : IsGap atEnd remark.text

/-- The layout of a text: in front of the first token, behind every token, and a last comment. -/
structure Spacing where
  opening : Layout
  behind : Nat → Layout
  remark : Option Remark

namespace Spacing

/-- The characters of token texts and of what stands behind them, from the token of an index on. -/
def body (spacing : Spacing) (index : Nat) : List (List Char) → List Char
  | [] => spacing.remark.elim [] Remark.text
  | text :: rest => text ++ ((spacing.behind index).text ++ spacing.body (index + 1) rest)

/-- The characters of a text with given texts of tokens. -/
def text (spacing : Spacing) (texts : List (List Char)) : List Char := spacing.opening.text ++ spacing.body 0 texts

end Spacing

/-! ### The texts of tokens -/

/-- The characters behind a number of bytes. -/
def dropBytes : List Char → Nat → List Char
  | [], _ => []
  | character :: rest, size => if size = 0 then character :: rest else dropBytes rest (size - character.utf8Size)

/-- The characters in a number of bytes. -/
def takeBytes : List Char → Nat → List Char
  | [], _ => []
  | character :: rest, size => if size = 0 then [] else character :: takeBytes rest (size - character.utf8Size)

/-- The characters of a text in a range. -/
def Span.textIn (span : Span) (source : String) : List Char :=
  takeBytes (dropBytes source.toList span.start) (span.stop - span.start)

theorem dropBytes_append (front rest : List Char) : dropBytes (front ++ rest) (byteSize front) = rest := by
  induction front with
  | nil => cases rest <;> rfl
  | cons character front ih =>
      have positive := character.utf8Size_pos
      rw [List.cons_append, dropBytes, Cursor.byteSize_cons, if_neg (by omega), Nat.add_sub_cancel_left, ih]

theorem takeBytes_append (front rest : List Char) : takeBytes (front ++ rest) (byteSize front) = front := by
  induction front with
  | nil => cases rest <;> rfl
  | cons character front ih =>
      have positive := character.utf8Size_pos
      rw [List.cons_append, takeBytes, Cursor.byteSize_cons, if_neg (by omega), Nat.add_sub_cancel_left, ih]

/-- A text with other layout between its tokens, the last of which is the end of the text. -/
def respaced (source : String) (tokens : List PlacedToken) (spacing : Spacing) : String :=
  .ofList (spacing.text (tokens.dropLast.map fun placed => placed.span.textIn source))

namespace Lexer

/-! ### Skipping -/

/-- Whether characters are skipped without a problem from within layout on. -/
def LayoutMode.Skips (atEnd : Prop) : LayoutMode → List Char → Prop
  | .blank, gap => IsGap atEnd gap
  | .line, gap => ∃ comment : List Char, '\n' ∉ comment ∧
      (atEnd ∧ gap = comment ∨ ∃ others : List Char, IsGap atEnd others ∧ gap = comment ++ '\n' :: others)
  | .block _, gap => ∃ comment others : List Char, ¬ ['*', '/'] <:+: comment ∧ IsGap atEnd others ∧
      gap = comment ++ '*' :: '/' :: others

/-- Without a problem, blanks and complete comments are skipped. -/
theorem skipLayout_skips (mode : LayoutMode) (characters : List Char) (offset : Nat)
    (quiet : (skipLayout mode characters offset).1 = none) : ∃ gap : List Char,
      (Cursor.mk characters offset).Reaches gap (skipLayout mode characters offset).2 ∧
        mode.Skips ((skipLayout mode characters offset).2.rest = []) gap := by
  have step (front : List Char) {gap rest : List Char} {offset : Nat} {cursor : Cursor}
      (reaches : (Cursor.mk rest (offset + byteSize front)).Reaches gap cursor) :
      (Cursor.mk (front ++ rest) offset).Reaches (front ++ gap) cursor := by
    have isFront : (Cursor.mk (front ++ rest) offset).Reaches front ⟨rest, offset + byteSize front⟩ := ⟨rfl, rfl⟩
    exact isFront.trans reaches
  fun_induction skipLayout mode characters offset with
  | case1 | case5 => exact ⟨[], ⟨rfl, rfl⟩, .none⟩
  | case2 rest offset ih =>
    obtain ⟨gap, reaches, comment, isLine, ⟨ends, rfl⟩ | ⟨others, isGap, rfl⟩⟩ := ih quiet
    · exact ⟨_, step ['/', '/'] reaches, .remark ends ⟨gap, isLine⟩⟩
    · refine ⟨_, step ['/', '/'] reaches, ?_⟩
      have isComplete : (Filler.line comment).IsComplete := isLine
      have isText : (Filler.line comment).text ++ others = ['/', '/'] ++ (comment ++ '\n' :: others) := by simp [Filler.text]
      exact isText ▸ IsGap.filler isComplete isGap
  | case3 rest offset ih =>
    obtain ⟨gap, reaches, comment, others, isBlock, isGap, rfl⟩ := ih quiet
    refine ⟨_, step ['/', '*'] reaches, ?_⟩
    have isComplete : (Filler.block comment).IsComplete := isBlock
    have isText : (Filler.block comment).text ++ others = ['/', '*'] ++ (comment ++ '*' :: '/' :: others) := by
      simp [Filler.text]
    exact isText ▸ IsGap.filler isComplete isGap
  | case4 character rest offset _ _ isBlank ih =>
    obtain ⟨gap, reaches, isGap⟩ := ih quiet
    have isComplete : (Filler.blank character).IsComplete := isBlank
    refine ⟨_, step [character] ?_, .filler isComplete isGap⟩
    rwa [Cursor.byteSize_cons, utf8Size_of_isLayout isBlank]
  | case6 => exact ⟨[], ⟨rfl, rfl⟩, [], List.not_mem_nil, .inl ⟨rfl, rfl⟩⟩
  | case7 rest offset ih =>
    obtain ⟨gap, reaches, isGap⟩ := ih quiet
    exact ⟨_, step ['\n'] reaches, [], List.not_mem_nil, .inr ⟨gap, isGap, rfl⟩⟩
  | case8 character rest offset noBreak ih =>
    obtain ⟨gap, reaches, comment, isLine, isGap⟩ := ih quiet
    refine ⟨_, step [character] reaches, character :: comment, List.not_mem_cons_of_ne_of_not_mem (Ne.symm noBreak) isLine, ?_⟩
    exact isGap.imp (And.imp_right (congrArg (character :: ·)))
      (Exists.imp fun others => And.imp_right (congrArg (character :: ·)))
  | case9 => cases quiet
  | case10 start rest offset ih =>
    obtain ⟨gap, reaches, isGap⟩ := ih quiet
    exact ⟨_, step ['*', '/'] reaches, [], gap, by decide, isGap, rfl⟩
  | case11 start character rest offset noEnd ih =>
    obtain ⟨gap, reaches, comment, others, isBlock, isGap, rfl⟩ := ih quiet
    refine ⟨_, step [character] reaches, character :: comment, others, fun isInfix => ?_, isGap, rfl⟩
    rcases List.infix_cons_iff.1 isInfix with ⟨behind, isPrefix⟩ | within
    · obtain ⟨rfl, isComment⟩ := List.cons.inj isPrefix
      rw [← isComment] at reaches
      exact noEnd _ rfl reaches.1
    · exact isBlock within

/-- Nothing is skipped in front of what is no blank and starts no comment. -/
def IsSolid (characters : List Char) : Prop :=
  ∃ (first : Char) (rest : List Char), characters = first :: rest ∧ isLayout first = false ∧
    (first = '/' → rest.head? ≠ some '/' ∧ rest.head? ≠ some '*')

theorem skipLayout_solid {mode : LayoutMode} {characters : List Char} {offset : Nat}
    (isLeft : (skipLayout mode characters offset).2.rest ≠ []) : IsSolid (skipLayout mode characters offset).2.rest := by
  fun_induction skipLayout mode characters offset with
  | case1 | case6 | case9 => exact absurd rfl isLeft
  | case2 rest offset ih | case3 rest offset ih | case4 character rest offset _ _ _ ih
  | case7 rest offset ih | case8 character rest offset _ ih | case10 start rest offset ih
  | case11 start character rest offset _ ih => exact ih isLeft
  | case5 first rest offset noLine noBlock notBlank =>
      refine ⟨first, rest, rfl, Bool.eq_false_iff.2 notBlank, fun isSlash => ⟨fun isLine => ?_, fun isBlock => ?_⟩⟩
      · obtain ⟨behind, isRest⟩ := List.head?_eq_some_iff.1 isLine
        exact noLine behind isSlash isRest
      · obtain ⟨behind, isRest⟩ := List.head?_eq_some_iff.1 isBlock
        exact noBlock behind isSlash isRest

theorem skipLayout_of_solid {characters : List Char} (solid : IsSolid characters) (offset : Nat) :
    skipLayout .blank characters offset = (none, ⟨characters, offset⟩) := by
  obtain ⟨first, rest, rfl, notBlank, noComment⟩ := solid
  rw [skipLayout, if_neg (Bool.eq_false_iff.1 notBlank)]
  · rintro behind rfl rfl
    exact (noComment rfl).1 rfl
  · rintro behind rfl rfl
    exact (noComment rfl).2 rfl

theorem skipLayout_block {comment : List Char} (isComplete : ¬ ['*', '/'] <:+: comment) (start : Nat)
    (rest : List Char) (offset : Nat) : skipLayout (.block start) (comment ++ '*' :: '/' :: rest) offset =
      skipLayout .blank rest (offset + byteSize comment + 2) := by
  induction comment generalizing offset with
  | nil => rfl
  | cons character comment ih =>
      have others : ¬ ['*', '/'] <:+: comment := fun isInfix => isComplete (isInfix.trans (List.suffix_cons _ _).isInfix)
      rw [List.cons_append, skipLayout, ih others, Cursor.byteSize_cons, ← Nat.add_assoc]
      rintro behind rfl isBehind
      cases comment with
      | nil => cases isBehind
      | cons next comment =>
          obtain ⟨rfl, _⟩ := List.cons.inj isBehind
          exact isComplete ⟨[], comment, rfl⟩

theorem skipLayout_line {comment : List Char} (isLine : '\n' ∉ comment) (rest : List Char) (offset : Nat) :
    skipLayout .line (comment ++ rest) offset = skipLayout .line rest (offset + byteSize comment) := by
  induction comment generalizing offset with
  | nil => rfl
  | cons character comment ih =>
      obtain ⟨noBreak, others⟩ := not_or.1 (fun found => isLine (List.mem_cons.2 found))
      rw [List.cons_append, skipLayout, if_neg (Ne.symm noBreak), ih others, Cursor.byteSize_cons, ← Nat.add_assoc]

theorem skipLayout_filler {filler : Filler} (isComplete : filler.IsComplete) (rest : List Char) (offset : Nat) :
    skipLayout .blank (filler.text ++ rest) offset = skipLayout .blank rest (offset + byteSize filler.text) := by
  cases filler with
  | blank character =>
      have isBlank : isLayout character = true := isComplete
      have noSlash : character ≠ '/' := by
        rintro rfl
        cases isBlank
      rw [Filler.text, List.singleton_append, skipLayout, if_pos isBlank, Cursor.byteSize_cons,
        utf8Size_of_isLayout isBlank]
      · rfl
      · exact fun _ isSlash => absurd isSlash noSlash
      · exact fun _ isSlash => absurd isSlash noSlash
  | line comment =>
      have size : byteSize (Filler.line comment).text = byteSize comment + 3 := by
        rw [Filler.text, Cursor.byteSize_cons, Cursor.byteSize_cons, Cursor.byteSize_append]
        show 1 + (1 + (byteSize comment + 1)) = byteSize comment + 3
        omega
      rw [size, Filler.text, List.cons_append, List.cons_append, List.append_assoc, skipLayout,
        skipLayout_line isComplete, List.singleton_append, skipLayout, if_pos rfl]
      exact congrArg (skipLayout .blank rest) (by omega)
  | block comment =>
      have size : byteSize (Filler.block comment).text = byteSize comment + 4 := by
        rw [Filler.text, Cursor.byteSize_cons, Cursor.byteSize_cons, Cursor.byteSize_append]
        show 1 + (1 + (byteSize comment + 2)) = byteSize comment + 4
        omega
      rw [size, Filler.text, List.cons_append, List.cons_append, List.append_assoc, skipLayout]
      exact (skipLayout_block isComplete offset rest (offset + 2)).trans
        (congrArg (skipLayout .blank rest) (by omega))

theorem skipLayout_layout (layout : Layout) (rest : List Char) (offset : Nat) :
    skipLayout .blank (layout.text ++ rest) offset = skipLayout .blank rest (offset + byteSize layout.text) := by
  have others (fillers : List Filler) (areComplete : ∀ filler ∈ fillers, filler.IsComplete) (offset : Nat) :
      skipLayout .blank (fillers.flatMap Filler.text ++ rest) offset =
        skipLayout .blank rest (offset + byteSize (fillers.flatMap Filler.text)) := by
    induction fillers generalizing offset with
    | nil => rfl
    | cons filler fillers ih =>
        obtain ⟨isComplete, areComplete⟩ := List.forall_mem_cons.1 areComplete
        rw [List.flatMap_cons, List.append_assoc, skipLayout_filler isComplete, ih areComplete, Cursor.byteSize_append,
          ← Nat.add_assoc]
  have isBlank : (Filler.blank layout.first).IsComplete := layout.isBlank
  exact others (.blank layout.first :: layout.others) (List.forall_mem_cons.2 ⟨isBlank, layout.isComplete⟩) offset

theorem skipLayout_remark (remark : Remark) (offset : Nat) :
    skipLayout .blank remark.text offset = (none, ⟨[], offset + byteSize remark.text⟩) := by
  have read := skipLayout_line remark.isLine [] (offset + 2)
  rw [List.append_nil] at read
  rw [Remark.text, skipLayout, read, Cursor.byteSize_cons, Cursor.byteSize_cons, ← Nat.add_assoc, ← Nat.add_assoc]
  rfl

/-! ### Tokens and their texts -/

/-- Whether a text is read as a token, whatever stands behind a break. -/
def IsTokenText (text : List Char) (token : Token) : Prop :=
  text ≠ [] ∧ ∀ (other : List Char) (offset : Nat), AtBreak other →
    lexemes ⟨text ++ other, offset⟩ =
      .token ⟨token, ⟨offset, offset + byteSize text⟩⟩ :: lexemes ⟨other, offset + byteSize text⟩

/-- A lexeme in front of which nothing is skipped comes first. -/
theorem lexemes_of_skipped {cursor : Cursor} {first : Char} {rest : List Char} {offset : Nat}
    (skipped : skipLayout .blank cursor.rest cursor.offset = (none, ⟨first :: rest, offset⟩)) :
    lexemes cursor = (readLexeme first rest offset).found ++ lexemes (readLexeme first rest offset).cursor :=
  lexemes_of_cons skipped rfl

/-- A lexeme that is a token comes first. -/
theorem lexemes_cons {cursor : Cursor} {first : Char} {rest : List Char} {offset : Nat} {token : Token} {behind : Cursor}
    (skipped : skipLayout .blank cursor.rest cursor.offset = (none, ⟨first :: rest, offset⟩))
    (reads : readLexeme first rest offset = .token token offset behind) :
    lexemes cursor = .token ⟨token, ⟨offset, behind.offset⟩⟩ :: lexemes behind := by
  rw [lexemes_of_skipped skipped, reads]
  rfl

theorem lexemes_of_end {cursor : Cursor} {offset : Nat}
    (skipped : skipLayout .blank cursor.rest cursor.offset = (none, ⟨[], offset⟩)) :
    lexemes cursor = [.token ⟨.endOfFile, ⟨offset, offset⟩⟩] :=
  lexemes_of_nil skipped rfl

theorem IsTokenText.of_alone {first : Char} {used left : List Char} {token : Token}
    (solid : IsSolid (first :: (used ++ left)))
    (alone : ∀ (other : List Char) (offset : Nat), AtBreak other →
      readLexeme first (used ++ other) offset = .token token offset ⟨other, offset + byteSize (first :: used)⟩) :
    IsTokenText (first :: used) token := by
  refine ⟨List.cons_ne_nil _ _, fun other offset stops => ?_⟩
  have solid : IsSolid (first :: (used ++ other)) := by
    obtain ⟨_, _, same, notBlank, noComment⟩ := solid
    cases same
    refine ⟨first, used ++ other, rfl, notBlank, fun isSlash => ?_⟩
    cases used with
    | cons next used => exact noComment isSlash
    | nil =>
        cases other with
        | nil => exact ⟨by simp, by simp⟩
        | cons next other =>
            have noSlash := stops.head_ne rfl '/' rfl
            have noStar := stops.head_ne rfl '*' rfl
            exact ⟨by simpa using noSlash, by simpa using noStar⟩
  have skipped : skipLayout .blank (first :: used ++ other) offset = (none, ⟨first :: (used ++ other), offset⟩) :=
    skipLayout_of_solid solid offset
  exact lexemes_cons skipped (alone other offset stops)

/-- Whether tokens with their texts stand in characters from an offset on, up to an offset. -/
inductive StandsIn : List Char → Nat → List (PlacedToken × List Char) → Nat → Prop
  | done {gap : List Char} (isGap : IsGap True gap) (offset : Nat) : StandsIn gap offset [] (offset + byteSize gap)
  | token {gap text rest : List Char} {token : Token} {offset stop : Nat}
      {entries : List (PlacedToken × List Char)} (isGap : IsGap False gap) (isRead : token ≠ .endOfFile)
      (isText : IsTokenText text token)
      (others : StandsIn rest (offset + byteSize gap + byteSize text) entries stop) :
      StandsIn (gap ++ (text ++ rest)) offset
        ((⟨token, ⟨offset + byteSize gap, offset + byteSize gap + byteSize text⟩⟩, text) :: entries) stop

/-- The lexemes of tokens and of the end of a text. -/
def lexemesOf (placed : List PlacedToken) (stop : Nat) : List Lexeme :=
  placed.map Lexeme.token ++ [.token ⟨.endOfFile, ⟨stop, stop⟩⟩]

/-- Lexemes without problems have no problem of layout in front. -/
theorem skipLayout_quiet {cursor : Cursor} (clean : (lexemes cursor).filterMap Lexeme.finding? = []) :
    (skipLayout .blank cursor.rest cursor.offset).1 = none := by
  rw [lexemes] at clean
  simp only at clean
  cases isFound : (skipLayout .blank cursor.rest cursor.offset).1 with
  | none => rfl
  | some finding =>
      rw [isFound] at clean
      split at clean <;> cases clean

/-- Lexemes without problems are tokens that stand in the text. -/
theorem exists_standsIn (cursor : Cursor) (clean : (lexemes cursor).filterMap Lexeme.finding? = []) :
    ∃ (entries : List (PlacedToken × List Char)) (stop : Nat),
      StandsIn cursor.rest cursor.offset entries stop ∧ lexemes cursor = lexemesOf (entries.map (·.1)) stop := by
  induction cursor using lexemes.induct with
  | case1 cursor skipped left =>
      have quiet := skipLayout_quiet clean
      obtain ⟨gap, ⟨isRest, isOffset⟩, isGap⟩ := skipLayout_skips .blank cursor.rest cursor.offset quiet
      have left : (skipLayout .blank cursor.rest cursor.offset).2.rest = [] := left
      rw [left, List.append_nil] at isRest
      have isRest : cursor.rest = gap := isRest
      have isGap : IsGap True gap := by simpa only [left, LayoutMode.Skips] using isGap
      have isEnd : skipLayout .blank cursor.rest cursor.offset = (none, ⟨[], cursor.offset + byteSize gap⟩) := by
        rw [← isOffset, ← left, ← quiet]
      refine ⟨[], cursor.offset + byteSize gap, ?_, lexemes_of_end isEnd⟩
      rw [isRest]
      exact .done isGap cursor.offset
  | case2 cursor skipped first rest left reading ih =>
      have quiet := skipLayout_quiet clean
      obtain ⟨gap, ⟨isRest, isOffset⟩, isGap⟩ := skipLayout_skips .blank cursor.rest cursor.offset quiet
      have left : (skipLayout .blank cursor.rest cursor.offset).2.rest = first :: rest := left
      rw [left] at isRest
      have isRest : cursor.rest = gap ++ first :: rest := isRest
      have isGap : IsGap False gap := by simpa only [left, LayoutMode.Skips, List.cons_ne_nil] using isGap
      have solid : IsSolid (first :: rest) := by
        rw [← left]
        exact skipLayout_solid (by rw [left]; exact List.cons_ne_nil _ _)
      have isMore : skipLayout .blank cursor.rest cursor.offset =
          (none, ⟨first :: rest, cursor.offset + byteSize gap⟩) := by
        rw [← isOffset, ← left, ← quiet]
      rw [lexemes_of_skipped isMore, List.filterMap_append, List.append_eq_nil_iff] at clean
      obtain ⟨token, used, behind, rfl, reads, alone⟩ := readLexeme_alone clean.1
      have isRead : token ≠ .endOfFile := by
        have stands := (readLexeme_standsBehind first (used ++ behind) (cursor.offset + byteSize gap)).found
        rw [reads] at stands
        cases stands _ List.mem_cons_self with
        | token isRead => exact isRead.isText
      have isReading : reading = .token token (cursor.offset + byteSize gap)
          ⟨behind, cursor.offset + byteSize gap + byteSize (first :: used)⟩ := by
        rw [← reads, ← isOffset]
      rw [reads] at clean
      rw [isReading] at ih
      obtain ⟨entries, stop, stands, areLexemes⟩ := ih clean.2
      let start := cursor.offset + byteSize gap
      refine ⟨(⟨token, ⟨start, start + byteSize (first :: used)⟩⟩, first :: used) :: entries, stop, ?_, ?_⟩
      · rw [isRest]
        exact .token isGap isRead (.of_alone solid alone) stands
      · rw [lexemes_cons isMore reads]
        exact congrArg _ areLexemes

namespace StandsIn

variable {characters : List Char} {offset stop : Nat} {entries : List (PlacedToken × List Char)}

theorem isTokenText (stands : StandsIn characters offset entries stop) :
    ∀ entry ∈ entries, IsTokenText entry.2 entry.1.token := by
  induction stands with
  | done => exact fun _ member => absurd member List.not_mem_nil
  | token isGap isRead isText others ih => exact List.forall_mem_cons.2 ⟨isText, ih⟩

/-- The text of a token lies in its range. -/
theorem textIn (stands : StandsIn characters offset entries stop) {source : String} (front : List Char)
    (isSource : source.toList = front ++ characters) (isOffset : offset = byteSize front) :
    ∀ entry ∈ entries, entry.1.span.textIn source = entry.2 := by
  induction stands generalizing front with
  | done => exact fun _ member => absurd member List.not_mem_nil
  | @token gap text rest token offset stop entries isGap isRead isText others ih =>
      subst isOffset
      have begins : byteSize front + byteSize gap = byteSize (front ++ gap) := (Cursor.byteSize_append front gap).symm
      have isSource : source.toList = front ++ gap ++ (text ++ rest) := by rw [isSource, List.append_assoc]
      refine List.forall_mem_cons.2 ⟨?_, ih (front ++ gap ++ text) ?_ ?_⟩
      · rw [Span.textIn, isSource]
        dsimp only
        rw [begins, dropBytes_append, Nat.add_sub_cancel_left, takeBytes_append]
      · rw [isSource, List.append_assoc (front ++ gap)]
      · rw [begins, ← Cursor.byteSize_append]

/-- Every token starts behind the one in front of it. -/
theorem starts (stands : StandsIn characters offset entries stop) :
    (entries.map (·.1.span.start) ++ [stop]).Pairwise (· < ·) ∧
      ∀ start ∈ entries.map (·.1.span.start) ++ [stop], offset ≤ start := by
  induction stands with
  | done => simp
  | @token gap text rest token offset stop entries isGap isRead isText others ih =>
      obtain ⟨increase, behind⟩ := ih
      have takes : 0 < byteSize text := by
        obtain ⟨first, used, rfl⟩ := List.exists_cons_of_ne_nil isText.1
        have positive := first.utf8Size_pos
        rw [Cursor.byteSize_cons]
        omega
      rw [List.map_cons, List.cons_append]
      refine ⟨List.pairwise_cons.2 ⟨fun start member => ?_, increase⟩, List.forall_mem_cons.2 ⟨?_, fun start member => ?_⟩⟩
      · have after := behind start member
        show offset + byteSize gap < start
        omega
      · exact Nat.le_add_right offset _
      · have after := behind start member
        omega

end StandsIn

theorem atBreak_layout (layout : Layout) (rest : List Char) : AtBreak (layout.text ++ rest) := layout.isBlank

theorem lexemes_layout (layout : Layout) (rest : List Char) (offset : Nat) :
    lexemes ⟨layout.text ++ rest, offset⟩ = lexemes ⟨rest, offset + byteSize layout.text⟩ :=
  Piece.lexemes_congr (skipLayout_layout layout rest offset)

/-- Texts of tokens with layout between them are read as their tokens. -/
theorem lexemes_body (spacing : Spacing) (entries : List (PlacedToken × List Char))
    (areTexts : ∀ entry ∈ entries, IsTokenText entry.2 entry.1.token) (index offset : Nat) :
    ∃ (placed : List PlacedToken) (stop : Nat),
      lexemes ⟨spacing.body index (entries.map (·.2)), offset⟩ = lexemesOf placed stop ∧
        placed.map (·.token) = entries.map (·.1.token) := by
  induction entries generalizing index offset with
  | nil =>
      cases isRemark : spacing.remark with
      | none =>
          refine ⟨[], offset, ?_, rfl⟩
          rw [List.map_nil, Spacing.body, isRemark]
          exact lexemes_of_end rfl
      | some remark =>
          refine ⟨[], offset + byteSize remark.text, ?_, rfl⟩
          rw [List.map_nil, Spacing.body, isRemark]
          exact lexemes_of_end (skipLayout_remark remark offset)
  | cons entry entries ih =>
      obtain ⟨isText, areTexts⟩ := List.forall_mem_cons.1 areTexts
      obtain ⟨placed, stop, reads, areTokens⟩ := ih areTexts (index + 1)
        (offset + byteSize entry.2 + byteSize (spacing.behind index).text)
      refine ⟨⟨entry.1.token, ⟨offset, offset + byteSize entry.2⟩⟩ :: placed, stop, ?_, by simp [areTokens]⟩
      rw [List.map_cons, Spacing.body, isText.2 _ _ (atBreak_layout ..), lexemes_layout, reads]
      rfl

end Lexer

/-! ### Whole texts -/

theorem tokens_lexemesOf (placed : List PlacedToken) (stop : Nat) :
    (Lexer.lexemesOf placed stop).filterMap Lexeme.token? = placed ++ [⟨.endOfFile, ⟨stop, stop⟩⟩] := by
  have same : Lexeme.token? ∘ Lexeme.token = some := rfl
  simp [Lexer.lexemesOf, List.filterMap_append, List.filterMap_map, same, Lexeme.token?]

theorem findings_lexemesOf (placed : List PlacedToken) (stop : Nat) :
    (Lexer.lexemesOf placed stop).filterMap Lexeme.finding? = [] := by
  have none : Lexeme.finding? ∘ Lexeme.token = fun _ => none := rfl
  simp [Lexer.lexemesOf, List.filterMap_append, List.filterMap_map, none, Lexeme.finding?]

/-- The tokens of a text stand in it with their texts, and are followed by its end. -/
theorem exists_standsIn_of_tokenize {source : String} {tokens : List PlacedToken} (lexes : tokenize source = .ok tokens) :
    ∃ (entries : List (PlacedToken × List Char)) (stop : Nat),
      Lexer.StandsIn source.toList 0 entries stop ∧ tokens = entries.map (·.1) ++ [⟨.endOfFile, ⟨stop, stop⟩⟩] := by
  obtain ⟨clean, rfl⟩ := tokenize_eq_ok_iff.1 lexes
  obtain ⟨entries, stop, stands, areLexemes⟩ := Lexer.exists_standsIn _ clean
  refine ⟨entries, stop, stands, ?_⟩
  rw [areLexemes, tokens_lexemesOf]

/-- Lexemes that are tokens are the tokens of the text. -/
theorem tokenize_of_lexemes {source : String} {placed : List PlacedToken} {stop : Nat}
    (reads : Lexer.lexemes ⟨source.toList, 0⟩ = Lexer.lexemesOf placed stop) :
    tokenize source = .ok (placed ++ [⟨.endOfFile, ⟨stop, stop⟩⟩]) := by
  rw [tokenize_eq_ok_iff, reads]
  exact ⟨findings_lexemesOf placed stop, tokens_lexemesOf placed stop⟩

/-- Every token of a text starts behind the one in front of it. -/
theorem tokenize_starts {source : String} {tokens : List PlacedToken} (lexes : tokenize source = .ok tokens) :
    (tokens.map (·.span.start)).Pairwise (· < ·) := by
  obtain ⟨entries, stop, stands, rfl⟩ := exists_standsIn_of_tokenize lexes
  rw [List.map_append, List.map_map]
  exact stands.starts.1

/-- A text with other layout between its tokens has the same tokens. -/
theorem tokenize_respaced {source : String} {tokens : List PlacedToken} (lexes : tokenize source = .ok tokens)
    (spacing : Spacing) : ∃ tokens' : List PlacedToken, tokenize (respaced source tokens spacing) = .ok tokens' ∧
      tokens'.map (·.token) = tokens.map (·.token) := by
  obtain ⟨entries, stop, stands, rfl⟩ := exists_standsIn_of_tokenize lexes
  have areTexts : ((entries.map (·.1)).map fun placed => placed.span.textIn source) = entries.map (·.2) := by
    rw [List.map_map]
    exact List.map_congr_left (stands.textIn [] rfl rfl)
  obtain ⟨placed, stop', reads, areTokens⟩ :=
    Lexer.lexemes_body spacing entries stands.isTokenText 0 (byteSize spacing.opening.text)
  refine ⟨placed ++ [⟨.endOfFile, ⟨stop', stop'⟩⟩], tokenize_of_lexemes ?_, ?_⟩
  · rw [respaced, List.dropLast_concat, areTexts, Spacing.text, String.toList_ofList, Lexer.lexemes_layout, Nat.zero_add]
    exact reads
  · rw [List.map_append, areTokens, List.map_append, List.map_map]
    rfl

end Snippet
