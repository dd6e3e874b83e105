import Snippet.Proofs.Source.Break

/-!
What a text gives: every lexeme covers characters of the text, every problem is an error, no token that is read is the
end of the text, and every name that is read is a word. Main statement: `Lexer.lexemes_standsBehind`.
-/

namespace Snippet

open Text

namespace Cursor

/-- Whether a cursor is reached from another one. -/
def IsBefore (cursor behind : Cursor) : Prop := ∃ used : List Char, cursor.Reaches used behind

/-- Whether a range covers characters behind a cursor. -/
def Covers (cursor : Cursor) (span : Span) : Prop :=
  ∃ first behind : Cursor, cursor.IsBefore first ∧ first.IsBefore behind ∧ span = ⟨first.offset, behind.offset⟩

theorem isBefore_refl (cursor : Cursor) : cursor.IsBefore cursor := ⟨[], cursor.reaches_refl⟩

theorem isBefore_drop (cursor : Cursor) (count : Nat) : cursor.IsBefore (cursor.drop count) :=
  ⟨_, cursor.reaches_drop count⟩

theorem isBefore_skip (cursor : Cursor) (inClass : Char → Bool) : cursor.IsBefore (cursor.skip inClass) :=
  ⟨_, cursor.reaches_skip inClass⟩

theorem isBefore_append (front rest : List Char) (offset : Nat) :
    IsBefore ⟨front ++ rest, offset⟩ ⟨rest, offset + byteSize front⟩ := ⟨front, rfl, rfl⟩

theorem IsBefore.trans {first second third : Cursor} (head : first.IsBefore second) (tail : second.IsBefore third) :
    first.IsBefore third := by
  obtain ⟨used, isUsed⟩ := head
  obtain ⟨others, areOthers⟩ := tail
  exact ⟨used ++ others, isUsed.trans areOthers⟩

theorem IsBefore.covers {cursor behind : Cursor} (before : cursor.IsBefore behind) :
    cursor.Covers ⟨cursor.offset, behind.offset⟩ := ⟨cursor, behind, cursor.isBefore_refl, before, rfl⟩

theorem Covers.from {cursor behind : Cursor} {span : Span} (covers : behind.Covers span)
    (before : cursor.IsBefore behind) : cursor.Covers span := by
  obtain ⟨first, last, isFirst, isLast, isSpan⟩ := covers
  exact ⟨first, last, before.trans isFirst, isLast, isSpan⟩

section

variable {cursor : Cursor} {rest : List Char} {offset : Nat}

/-- The characters in front are taken. -/
theorem IsBefore.take (front : List Char) (before : cursor.IsBefore ⟨front ++ rest, offset⟩) :
    cursor.IsBefore ⟨rest, offset + byteSize front⟩ := before.trans (isBefore_append front rest offset)

theorem IsBefore.covers_front (front : List Char) (before : cursor.IsBefore ⟨front ++ rest, offset⟩) :
    cursor.Covers ⟨offset, offset + byteSize front⟩ := (isBefore_append front rest offset).covers.from before

end

end Cursor

/-- Whether a token can be read: it is not the end of a text, and a name is a word. -/
structure Token.IsRead (token : Token) : Prop where
  isText : token ≠ .endOfFile
  isWord : ∀ name, token = .name name → ∀ character ∈ name.toList, continuesName character = true

/-- Whether a lexeme can be read from the characters behind a cursor. -/
inductive Lexeme.StandsBehind (cursor : Cursor) : Lexeme → Prop
  | token {placed : PlacedToken} (isRead : placed.token.IsRead) (covers : cursor.Covers placed.span) :
      StandsBehind cursor (.token placed)
  | finding {found : Finding} (isError : found.isError = true) (covers : cursor.Covers found.span) :
      StandsBehind cursor (.finding found)

/-- Whether a result can be read from the characters behind a cursor. -/
structure Reading.StandsBehind (cursor : Cursor) (reading : Reading) : Prop where
  before : cursor.IsBefore reading.cursor
  found : ∀ lexeme ∈ reading.found, lexeme.StandsBehind cursor

/-- Whether a literal can be read from the characters behind a cursor. -/
structure Lexer.Literal.StandsBehind (cursor : Cursor) (literal : Lexer.Literal) : Prop where
  before : cursor.IsBefore literal.cursor
  findings : ∀ found ∈ literal.findings, found.isError = true ∧ cursor.Covers found.span

/-! ### Results -/

section

variable {cursor behind : Cursor} (before : cursor.IsBefore behind)

include before

theorem Lexeme.StandsBehind.from {lexeme : Lexeme} (stands : lexeme.StandsBehind behind) :
    lexeme.StandsBehind cursor := by
  cases stands with
  | token isRead covers => exact .token isRead (covers.from before)
  | finding isError covers => exact .finding isError (covers.from before)

theorem Reading.token_standsBehind {token : Token} (isRead : token.IsRead) :
    (Reading.token token cursor.offset behind).StandsBehind cursor :=
  ⟨before, List.forall_mem_singleton.2 (.token isRead before.covers)⟩

theorem Reading.problem_standsBehind {problem : Problem} (isError : problem.isWarning = false) :
    (Reading.problem problem cursor.offset behind).StandsBehind cursor :=
  ⟨before, List.forall_mem_singleton.2 (.finding (by rw [Finding.isError, isError]; rfl) before.covers)⟩

end

namespace Lexer

namespace Literal.StandsBehind

variable {cursor : Cursor} {literal : Literal}

theorem push (stands : literal.StandsBehind cursor) (character : Char) : (literal.push character).StandsBehind cursor :=
  ⟨stands.before, stands.findings⟩

theorem report (stands : literal.StandsBehind cursor) {problem : Problem} {start stop : Nat}
    (isError : problem.isWarning = false) (covers : cursor.Covers ⟨start, stop⟩) :
    (literal.report problem start stop).StandsBehind cursor :=
  ⟨stands.before, List.forall_mem_cons.2 ⟨⟨by rw [Finding.isError, isError]; rfl, covers⟩, stands.findings⟩⟩

/-- A literal ends with a problem. -/
theorem unfinished {behind : Cursor} (before : cursor.IsBefore behind) {problem : Problem}
    (isError : problem.isWarning = false) :
    StandsBehind cursor ⟨[], [⟨problem, ⟨cursor.offset, behind.offset⟩⟩], behind⟩ :=
  ⟨before, List.forall_mem_singleton.2 ⟨by rw [Finding.isError, isError]; rfl, before.covers⟩⟩

theorem reading (stands : literal.StandsBehind cursor) : (literal.reading cursor.offset).StandsBehind cursor := by
  refine ⟨stands.before, fun lexeme member => ?_⟩
  rcases List.mem_append.1 member with inFindings | isToken
  · obtain ⟨found, isFound, rfl⟩ := List.mem_map.1 inFindings
    obtain ⟨isError, covers⟩ := stands.findings found isFound
    exact .finding isError covers
  · rw [List.mem_singleton.1 isToken]
    exact .token ⟨nofun, nofun⟩ stands.before.covers

end Literal.StandsBehind

/-! ### Readers -/

/-- A comment that is not closed reaches from its start to the end of the text. -/
theorem skipLayout_standsBehind {cursor : Cursor} (mode : LayoutMode) (characters : List Char) (offset : Nat)
    (before : ∃ first : Cursor, cursor.IsBefore first ∧ first.IsBefore ⟨characters, offset⟩ ∧
      ∀ start, mode = .block start → first.offset = start) :
    cursor.IsBefore (skipLayout mode characters offset).2 ∧
      ∀ found ∈ (skipLayout mode characters offset).1, found.isError = true ∧ cursor.Covers found.span := by
  fun_induction skipLayout mode characters offset with
  | case1 | case5 | case6 =>
    obtain ⟨first, isFirst, before, _⟩ := before
    exact ⟨isFirst.trans before, fun _ isFound => by cases isFound⟩
  | case2 rest offset ih =>
    obtain ⟨first, isFirst, before, _⟩ := before
    exact ih ⟨first, isFirst, before.take ['/', '/'], fun _ same => by cases same⟩
  | case3 rest offset ih =>
    obtain ⟨first, isFirst, before, _⟩ := before
    exact ih ⟨_, isFirst.trans before, Cursor.isBefore_append ['/', '*'] rest offset, fun _ => LayoutMode.block.inj⟩
  | case4 character rest offset _ _ isBlank ih =>
    obtain ⟨first, isFirst, before, _⟩ := before
    have taken := before.take [character]
    rw [Cursor.byteSize_cons, utf8Size_of_isLayout isBlank] at taken
    exact ih ⟨first, isFirst, taken, fun _ same => by cases same⟩
  | case7 rest offset ih =>
    obtain ⟨first, isFirst, before, _⟩ := before
    exact ih ⟨first, isFirst, before.take ['\n'], fun _ same => by cases same⟩
  | case8 character rest offset _ ih =>
    obtain ⟨first, isFirst, before, _⟩ := before
    exact ih ⟨first, isFirst, before.take [character], fun _ same => by cases same⟩
  | case9 start offset =>
    obtain ⟨first, isFirst, before, opens⟩ := before
    refine ⟨isFirst.trans before, fun found isFound => ?_⟩
    cases isFound
    exact ⟨rfl, first, _, isFirst, before, by rw [opens start rfl]⟩
  | case10 start rest offset ih =>
    obtain ⟨first, isFirst, before, _⟩ := before
    exact ih ⟨first, isFirst, before.take ['*', '/'], fun _ same => by cases same⟩
  | case11 start character rest offset _ ih =>
    obtain ⟨first, isFirst, before, opens⟩ := before
    exact ih ⟨first, isFirst, before.take [character], opens⟩

/-- Blanks and comments behind a cursor. -/
theorem skipBlank_standsBehind (cursor : Cursor) : cursor.IsBefore (skipLayout .blank cursor.rest cursor.offset).2 ∧
    ∀ found ∈ (skipLayout .blank cursor.rest cursor.offset).1, found.isError = true ∧ cursor.Covers found.span :=
  skipLayout_standsBehind .blank cursor.rest cursor.offset
    ⟨cursor, cursor.isBefore_refl, cursor.isBefore_refl, fun _ same => by cases same⟩

/-- The problems of a literal in quotes stand behind its start. -/
theorem readText_standsBehind {cursor : Cursor} (characters : List Char) (offset : Nat)
    (before : cursor.IsBefore ⟨characters, offset⟩) :
    (readText cursor.offset characters offset).StandsBehind cursor := by
  fun_induction readText cursor.offset characters offset with
  | case1 offset => exact .unfinished before rfl
  | case2 first second third fourth rest offset point isPoint character isScalar ih =>
    have taken := before.take ['\\', 'u', first, second, third, fourth]
    rw [byteSize_of_point isPoint] at taken
    exact (ih taken).push character
  | case3 first second third fourth rest offset point isPoint noScalar ih =>
    have taken := before.take ['\\', 'u', first, second, third, fourth]
    have covers := before.covers_front ['\\', 'u', first, second, third, fourth]
    rw [byteSize_of_point isPoint] at taken covers
    exact (ih taken).report rfl covers
  | case4 first second third fourth rest offset noPoint ih =>
    exact (ih (before.take ['\\', 'u'])).report rfl (before.covers_front ['\\', 'u'])
  | case5 letter rest offset noUnicode behind character isEscape ih =>
    have taken := before.take ['\\', letter]
    rw [Cursor.byteSize_cons, Cursor.byteSize_cons, ← Nat.add_assoc, ← Nat.add_assoc] at taken
    exact (ih taken).push character
  | case6 letter rest offset noUnicode behind noEscape ih =>
    have taken := before.take ['\\', letter]
    have covers := before.covers_front ['\\', letter]
    rw [Cursor.byteSize_cons, Cursor.byteSize_cons, ← Nat.add_assoc, ← Nat.add_assoc] at taken covers
    exact (ih taken).report rfl covers
  | case7 offset ih => exact (ih (before.take ['\\'])).report rfl (before.covers_front ['\\'])
  | case8 rest offset => exact ⟨before.take ['"'], fun _ isFound => by cases isFound⟩
  | case9 character rest offset => exact .unfinished before rfl
  | case10 character rest offset _ _ _ _ _ ih => exact (ih (before.take [character])).push character

/-- The problems of a verbatim literal stand behind its start. -/
theorem readVerbatim_standsBehind {cursor : Cursor} (characters : List Char) (offset : Nat)
    (before : cursor.IsBefore ⟨characters, offset⟩) :
    (readVerbatim cursor.offset characters offset).StandsBehind cursor := by
  fun_induction readVerbatim cursor.offset characters offset with
  | case1 offset => exact .unfinished before rfl
  | case2 rest offset ih => exact (ih (before.take ['"', '"'])).push '"'
  | case3 rest offset => exact ⟨before.take ['"'], fun _ isFound => by cases isFound⟩
  | case4 character rest offset _ _ ih => exact (ih (before.take [character])).push character

theorem skipCharacterLiteral_isBefore {cursor : Cursor} (characters : List Char) (offset : Nat)
    (before : cursor.IsBefore ⟨characters, offset⟩) : cursor.IsBefore (skipCharacterLiteral characters offset) := by
  fun_induction skipCharacterLiteral characters offset with
  | case1 offset => exact before
  | case2 escaped rest offset ih =>
    have taken := before.take ['\\', escaped]
    rw [Cursor.byteSize_cons, Cursor.byteSize_cons, ← Nat.add_assoc, ← Nat.add_assoc] at taken
    exact ih taken
  | case3 rest offset => exact before.take ['\'']
  | case4 rest offset => exact before
  | case5 character rest offset _ _ _ ih => exact ih (before.take [character])

section

variable {cursor behind : Cursor} (before : cursor.IsBefore behind)

include before

theorem finishInteger_standsBehind (value : Option Nat) (isLong : Bool) :
    (finishInteger cursor.offset value isLong behind).StandsBehind cursor := by
  unfold finishInteger
  split
  · exact Reading.problem_standsBehind (before.trans (behind.isBefore_drop 1)) rfl
  · split
    · split
      · exact Reading.token_standsBehind before ⟨nofun, nofun⟩
      · split
        · exact Reading.token_standsBehind before ⟨nofun, nofun⟩
        · exact Reading.problem_standsBehind before rfl
    · exact Reading.problem_standsBehind before rfl

theorem readInteger_standsBehind (value : Option Nat) :
    (readInteger cursor.offset value behind).StandsBehind cursor := by
  rw [readInteger_eq]
  split
  · exact finishInteger_standsBehind (before.trans (behind.isBefore_drop 1)) value _
  · exact finishInteger_standsBehind before value _

end

theorem readDecimal_standsBehind (cursor : Cursor) : (readDecimal cursor).StandsBehind cursor := by
  have before : cursor.IsBefore (readNumeral cursor).cursor := readNumeral_reaches cursor
  have suffixed := before.trans (Cursor.isBefore_drop _ 1)
  rw [readDecimal_eq]
  dsimp only
  split
  · exact Reading.token_standsBehind suffixed ⟨nofun, nofun⟩
  · split
    · exact Reading.problem_standsBehind suffixed rfl
    · split
      · exact Reading.token_standsBehind before ⟨nofun, nofun⟩
      · exact readInteger_standsBehind before _

theorem readNumber_standsBehind (cursor : Cursor) : (readNumber cursor).StandsBehind cursor := by
  rw [readNumber_eq]
  split
  · exact readInteger_standsBehind ((cursor.isBefore_drop 2).trans (Cursor.isBefore_skip _ isHexDigit)) _
  · exact readDecimal_standsBehind cursor

/-- The name that a word may be is the word. -/
theorem wordToken_isRead {word : String} (isWord : ∀ character ∈ word.toList, continuesName character = true) :
    (wordToken word).IsRead := by
  unfold wordToken
  split
  · exact ⟨nofun, nofun⟩
  · refine ⟨nofun, fun name isName => ?_⟩
    cases isName
    exact isWord

theorem readWord_standsBehind (cursor : Cursor) : (readWord cursor).StandsBehind cursor := by
  refine Reading.token_standsBehind (cursor.isBefore_skip continuesName) (wordToken_isRead ?_)
  rw [String.toList_ofList]
  exact List.all_eq_true.1 List.all_takeWhile

theorem readLexeme_standsBehind (first : Char) (rest : List Char) (offset : Nat) :
    (readLexeme first rest offset).StandsBehind ⟨first :: rest, offset⟩ := by
  have before : Cursor.IsBefore ⟨first :: rest, offset⟩ (Cursor.drop ⟨first :: rest, offset⟩ 1) :=
    Cursor.isBefore_drop _ 1
  unfold readLexeme
  dsimp only
  split
  · exact readNumber_standsBehind _
  split
  · exact (readText_standsBehind rest _ before).reading
  split
  · next isVerbatim =>
    obtain ⟨rfl, isQuote⟩ := isVerbatim
    obtain ⟨others, rfl⟩ := List.head?_eq_some_iff.1 isQuote
    exact (readVerbatim_standsBehind others _ (Cursor.isBefore_append ['@', '"'] others offset)).reading
  split
  · exact Reading.problem_standsBehind (skipCharacterLiteral_isBefore rest _ before) rfl
  split
  · exact readWord_standsBehind _
  split
  · exact Reading.token_standsBehind (Cursor.isBefore_drop _ _) ⟨nofun, nofun⟩
  split
  · exact Reading.problem_standsBehind before rfl
  · exact Reading.problem_standsBehind before rfl

/-- Every lexeme from a cursor on stands behind the cursor, but for the end of the text. -/
theorem lexemes_standsBehind (cursor : Cursor) : ∀ lexeme ∈ lexemes cursor,
    lexeme.StandsBehind cursor ∨ ∃ span, lexeme = .token ⟨.endOfFile, span⟩ := by
  have layout (cursor : Cursor) : cursor.IsBefore (skipLayout .blank cursor.rest cursor.offset).2 ∧
      ∀ lexeme ∈ ((skipLayout .blank cursor.rest cursor.offset).1.map Lexeme.finding).toList,
        lexeme.StandsBehind cursor := by
    obtain ⟨before, findings⟩ := skipBlank_standsBehind cursor
    refine ⟨before, fun lexeme member => ?_⟩
    obtain ⟨found, isFound, rfl⟩ := Option.map_eq_some_iff.1 (Option.mem_toList.1 member)
    obtain ⟨isError, covers⟩ := findings found isFound
    exact .finding isError covers
  fun_induction lexemes cursor with
  | case1 cursor skipped reports left =>
    intro lexeme member
    rcases List.mem_append.1 member with isReport | isEnd
    · exact .inl ((layout cursor).2 lexeme isReport)
    · exact .inr ⟨_, List.mem_singleton.1 isEnd⟩
  | case2 cursor skipped reports first rest left reading ih =>
    have before : cursor.IsBefore ⟨first :: rest, skipped.2.offset⟩ := by
      rw [← left]
      exact (layout cursor).1
    have stands := readLexeme_standsBehind first rest skipped.2.offset
    intro lexeme member
    rcases List.mem_append.1 member with isFirst | isOther
    · rcases List.mem_append.1 isFirst with isReport | isFound
      · exact .inl ((layout cursor).2 lexeme isReport)
      · exact .inl ((stands.found lexeme isFound).from before)
    · exact (ih lexeme isOther).imp_left fun stands' => stands'.from (before.trans stands.before)

end Lexer

end Snippet
