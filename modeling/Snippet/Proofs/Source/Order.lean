import Snippet.Proofs.Source.Found

/-!
The order of what is found in a text. Main statements: a later offset has no earlier location, and the problems of lexemes
come in the order of their places, but for literals that are not closed: these are reported behind the bad escapes in them.
-/

namespace Snippet

/-! ### Locations -/

namespace Location

/-- Locations are ordered by lines, and those of one line by columns. -/
instance : LE Location where
  le first second := first.line < second.line ∨ first.line = second.line ∧ first.column ≤ second.column

instance (first second : Location) : Decidable (first ≤ second) :=
  inferInstanceAs (Decidable (first.line < second.line ∨ first.line = second.line ∧ first.column ≤ second.column))

theorem le_refl (location : Location) : location ≤ location := .inr ⟨rfl, Nat.le_refl _⟩

theorem le_trans {first second third : Location} (head : first ≤ second) (tail : second ≤ third) : first ≤ third := by
  obtain head | ⟨sameLine, head⟩ := head
  · obtain tail | ⟨sameLine, -⟩ := tail
    · exact .inl (Nat.lt_trans head tail)
    · exact .inl (sameLine ▸ head)
  · obtain tail | ⟨sameLine', tail⟩ := tail
    · exact .inl (sameLine ▸ tail)
    · exact .inr ⟨sameLine.trans sameLine', Nat.le_trans head tail⟩

theorem le_after (location : Location) (character : Char) : location ≤ location.after character := by
  unfold after
  split
  · exact .inl (Nat.lt_succ_self _)
  · exact .inr ⟨rfl, Nat.le_succ _⟩

theorem le_advance (location : Location) (characters : List Char) (distance : Nat) :
    location ≤ location.advance characters distance := by
  induction characters generalizing location distance with
  | nil => exact location.le_refl
  | cons character rest ih =>
    unfold advance
    split
    · exact location.le_refl
    · exact le_trans (location.le_after character) (ih _ _)

theorem advance_mono (location : Location) (characters : List Char) {first second : Nat} (before : first ≤ second) :
    location.advance characters first ≤ location.advance characters second := by
  induction characters generalizing location first second with
  | nil => exact location.le_refl
  | cons character rest ih =>
    by_cases isStart : first = 0
    · rw [advance, if_pos isStart]
      exact location.le_advance _ second
    · have isBehind : second ≠ 0 := by omega
      rw [advance, if_neg isStart, advance, if_neg isBehind]
      exact ih _ (Nat.sub_le_sub_right before _)

/-- A later offset has no earlier location. -/
theorem ofOffset_mono (text : String) {first second : Nat} (before : first ≤ second) :
    ofOffset text first ≤ ofOffset text second := advance_mono _ _ before

end Location

/-! ### Findings -/

/-- Whether a finding stands rightly in front of another one: its place does not start behind the other's. A literal that is
not closed is reported behind the bad escapes in it, and a program that is too large behind the warnings about it. -/
inductive Finding.Precedes (first second : Finding) : Prop where
  | inOrder (starts : first.span.start ≤ second.span.start)
  | openLiteral (isEscape : first.problem = .badEscape) (isOpen : second.problem = .newlineInLiteral)
    (inside : second.span.start ≤ first.span.start ∧ first.span.stop ≤ second.span.stop)
  | tooLarge (isWarning : first.isError = false) (excess : String) (isExcess : second.problem = .unsupported excess)

theorem Finding.sorted_ordered (findings : List Finding) : (sorted findings).Pairwise Precedes := by
  have ordered := @List.pairwise_mergeSort Finding (fun first second => first.span.start ≤ second.span.start)
    (fun first second third head tail => by simp only [decide_eq_true_eq] at *; omega)
    (fun first second => by simp only [Bool.or_eq_true, decide_eq_true_eq]; omega) findings
  exact ordered.imp fun starts => .inOrder (of_decide_eq_true starts)

theorem Cursor.IsBefore.offset_le {cursor behind : Cursor} (before : cursor.IsBefore behind) :
    cursor.offset ≤ behind.offset := by
  obtain ⟨used, -, isOffset⟩ := before
  rw [isOffset]
  exact Nat.le_add_right _ _

theorem Cursor.Covers.start_le {cursor : Cursor} {span : Span} (covers : cursor.Covers span) :
    cursor.offset ≤ span.start := by
  obtain ⟨first, behind, isFirst, -, rfl⟩ := covers
  exact isFirst.offset_le

/-- The problems among lexemes. -/
def Lexeme.findings (lexemes : List Lexeme) : List Finding := lexemes.filterMap finding?

/-- Whether the problems of a result come in order and start in what was read. -/
structure Reading.IsOrdered (reading : Reading) : Prop where
  ordered : (Lexeme.findings reading.found).Pairwise Finding.Precedes
  upTo : ∀ found ∈ Lexeme.findings reading.found, found.span.start ≤ reading.cursor.offset

namespace Lexer

/-! ### Literals -/

/-- Whether the problems of a literal from `start` on, whose characters in front of `offset` have been read, are bad escapes
in order, and that the literal is not closed. -/
structure Literal.IsOrdered (start offset : Nat) (literal : Literal) : Prop where
  advances : offset ≤ literal.cursor.offset
  ordered : literal.findings.Pairwise Finding.Precedes
  kinds : ∀ found ∈ literal.findings, found = ⟨.newlineInLiteral, ⟨start, literal.cursor.offset⟩⟩ ∨
    found.problem = .badEscape ∧ offset ≤ found.span.start ∧ found.span.start ≤ literal.cursor.offset

namespace Literal.IsOrdered

variable {start offset behind : Nat} {literal : Literal}

/-- A literal is ordered from an earlier offset on. -/
theorem from_earlier (isOrdered : literal.IsOrdered start behind) (before : offset ≤ behind) :
    literal.IsOrdered start offset := by
  refine ⟨Nat.le_trans before isOrdered.advances, isOrdered.ordered, fun found member => ?_⟩
  obtain isOpen | ⟨isEscape, isBehind, inside⟩ := isOrdered.kinds found member
  · exact .inl isOpen
  · exact .inr ⟨isEscape, Nat.le_trans before isBehind, inside⟩

theorem push (isOrdered : literal.IsOrdered start behind) (before : offset ≤ behind) (character : Char) :
    (literal.push character).IsOrdered start offset :=
  let ⟨advances, ordered, kinds⟩ := isOrdered.from_earlier before
  ⟨advances, ordered, kinds⟩

/-- A bad escape stands in front of later ones, and in front of the report that the literal is not closed. -/
theorem report (isOrdered : literal.IsOrdered start behind) (opens : start ≤ offset) (before : offset ≤ behind) :
    (literal.report .badEscape offset behind).IsOrdered start offset := by
  have upTo : offset ≤ literal.cursor.offset := Nat.le_trans before isOrdered.advances
  refine ⟨upTo, List.pairwise_cons.2 ⟨fun found member => ?_, isOrdered.ordered⟩, fun found member => ?_⟩
  · obtain rfl | ⟨-, isBehind, -⟩ := isOrdered.kinds found member
    · exact .openLiteral rfl rfl ⟨opens, isOrdered.advances⟩
    · exact .inOrder (Nat.le_trans before isBehind)
  · obtain rfl | member := List.mem_cons.1 member
    · exact .inr ⟨rfl, Nat.le_refl _, upTo⟩
    · exact (isOrdered.from_earlier before).kinds found member

/-- A literal that is not closed. -/
theorem newline (rest : List Char) :
    IsOrdered start offset ⟨[], [⟨.newlineInLiteral, ⟨start, offset⟩⟩], ⟨rest, offset⟩⟩ :=
  ⟨Nat.le_refl _, List.pairwise_singleton _ _, fun _ member => .inl (List.mem_singleton.1 member)⟩

end Literal.IsOrdered

/-- The bad escapes of a literal in quotes come in order, and behind them that it is not closed. -/
theorem readText_isOrdered (start : Nat) (characters : List Char) (offset : Nat) (opens : start ≤ offset) :
    (readText start characters offset).IsOrdered start offset := by
  fun_induction readText start characters offset with
  | case1 offset => exact .newline []
  | case2 first second third fourth rest offset point _ character _ ih => exact (ih (by omega)).push (by omega) character
  | case3 first second third fourth rest offset point _ _ ih => exact (ih (by omega)).report opens (by omega)
  | case4 first second third fourth rest offset _ ih => exact (ih (by omega)).report opens (by omega)
  | case5 letter rest offset _ behind character _ ih => exact (ih (by omega)).push (by omega) character
  | case6 letter rest offset _ behind _ ih => exact (ih (by omega)).report opens (by omega)
  | case7 offset ih => exact (ih (by omega)).report opens (by omega)
  | case8 rest offset => exact ⟨Nat.le_succ _, .nil, fun _ member => absurd member List.not_mem_nil⟩
  | case9 character rest offset => exact .newline _
  | case10 character rest offset _ _ _ _ _ ih => exact (ih (by omega)).push (by omega) character

/-- Of a verbatim literal nothing is reported but that it is not closed. -/
theorem readVerbatim_findings (start : Nat) (characters : List Char) (offset : Nat) :
    (readVerbatim start characters offset).findings = [] ∨
      ∃ stop, (readVerbatim start characters offset).findings = [⟨.unterminatedLiteral, ⟨start, stop⟩⟩] := by
  fun_induction readVerbatim start characters offset with
  | case1 offset => exact .inr ⟨offset, rfl⟩
  | case2 rest offset ih => exact ih
  | case3 rest offset => exact .inl rfl
  | case4 character rest offset _ _ ih => exact ih

/-! ### Readers -/

/-- The problems of a literal are those of its reading. -/
theorem Literal.findings_reading (literal : Literal) (start : Nat) :
    Lexeme.findings (literal.reading start).found = literal.findings := by
  rw [Lexeme.findings, Literal.reading, List.filterMap_append, List.filterMap_map]
  exact (List.append_nil _).trans List.filterMap_some

/-- Whether one lexeme has been read, from an offset on. -/
inductive Reading.IsSingle (start : Nat) : Reading → Prop where
  | token (token : Token) (cursor : Cursor) : IsSingle start (.token token start cursor)
  | problem (problem : Problem) (cursor : Cursor) : IsSingle start (.problem problem start cursor)

theorem Reading.IsSingle.isOrdered {start : Nat} {reading : Reading} (isSingle : IsSingle start reading)
    (opens : start ≤ reading.cursor.offset) : reading.IsOrdered := by
  cases isSingle with
  | token token cursor => exact ⟨.nil, nofun⟩
  | problem problem cursor =>
    exact ⟨List.pairwise_singleton _ _, fun found member => by rw [List.mem_singleton.1 member]; exact opens⟩

theorem finishInteger_isSingle (start : Nat) (value : Option Nat) (isLong : Bool) (cursor : Cursor) :
    Reading.IsSingle start (finishInteger start value isLong cursor) := by
  unfold finishInteger
  split
  · exact .problem _ _
  · split
    · split
      · exact .token _ _
      · split
        · exact .token _ _
        · exact .problem _ _
    · exact .problem _ _

theorem readInteger_isSingle (start : Nat) (value : Option Nat) (cursor : Cursor) :
    Reading.IsSingle start (readInteger start value cursor) := by
  rw [readInteger_eq]
  split <;> exact finishInteger_isSingle _ _ _ _

theorem readNumber_isSingle (cursor : Cursor) : Reading.IsSingle cursor.offset (readNumber cursor) := by
  rw [readNumber_eq]
  split
  · exact readInteger_isSingle _ _ _
  · rw [readDecimal_eq]
    dsimp only
    split
    · exact .token _ _
    · split
      · exact .problem _ _
      · split
        · exact .token _ _
        · exact readInteger_isSingle _ _ _

theorem Literal.reading_isOrdered {literal : Literal} {start : Nat} (ordered : literal.findings.Pairwise Finding.Precedes)
    (upTo : ∀ found ∈ literal.findings, found.span.start ≤ literal.cursor.offset) : (literal.reading start).IsOrdered := by
  refine ⟨literal.findings_reading start ▸ ordered, fun found member => ?_⟩
  rw [literal.findings_reading] at member
  exact upTo found member

theorem readText_reading_isOrdered (rest : List Char) {start offset : Nat} (opens : start ≤ offset) :
    ((readText start rest offset).reading start).IsOrdered := by
  have isOrdered := readText_isOrdered start rest offset opens
  refine Literal.reading_isOrdered isOrdered.ordered fun found member => ?_
  obtain rfl | ⟨-, -, inside⟩ := isOrdered.kinds found member
  · exact Nat.le_trans opens isOrdered.advances
  · exact inside

theorem readVerbatim_reading_isOrdered {rest : List Char} {start offset : Nat}
    (opens : start ≤ (readVerbatim start rest offset).cursor.offset) :
    ((readVerbatim start rest offset).reading start).IsOrdered := by
  obtain isClosed | ⟨stop, isOpen⟩ := readVerbatim_findings start rest offset
  · exact Literal.reading_isOrdered (isClosed ▸ .nil) (by rw [isClosed]; nofun)
  · refine Literal.reading_isOrdered (isOpen ▸ List.pairwise_singleton _ _) fun found member => ?_
    rw [isOpen] at member
    rw [List.mem_singleton.1 member]
    exact opens

/-- One lexeme is read, but for a literal, which comes with its problems. -/
theorem readLexeme_cases (first : Char) (rest : List Char) (offset : Nat) :
    Reading.IsSingle offset (readLexeme first rest offset) ∨
      (∃ size, readLexeme first rest offset = (readText offset rest (offset + size)).reading offset) ∨
      ∃ others size, readLexeme first rest offset = (readVerbatim offset others (offset + size)).reading offset := by
  unfold readLexeme
  dsimp only
  split
  · exact .inl (readNumber_isSingle ⟨first :: rest, offset⟩)
  split
  · exact .inr (.inl ⟨_, rfl⟩)
  split
  · exact .inr (.inr ⟨_, _, rfl⟩)
  split
  · exact .inl (.problem _ _)
  split
  · exact .inl (.token _ _)
  split
  · exact .inl (.token _ _)
  split
  · exact .inl (.problem _ _)
  · exact .inl (.problem _ _)

/-- The problems of a lexeme come in order. -/
theorem readLexeme_isOrdered (first : Char) (rest : List Char) (offset : Nat) :
    (readLexeme first rest offset).IsOrdered := by
  have opens := (readLexeme_standsBehind first rest offset).before.offset_le
  obtain isSingle | ⟨size, isText⟩ | ⟨others, size, isVerbatim⟩ := readLexeme_cases first rest offset
  · exact isSingle.isOrdered opens
  · rw [isText]
    exact readText_reading_isOrdered rest (Nat.le_add_right _ _)
  · rw [isVerbatim] at opens ⊢
    exact readVerbatim_reading_isOrdered opens

/-- A comment is reported only at the end of the text. -/
theorem skipLayout_reports (mode : LayoutMode) (characters : List Char) (offset : Nat) :
    (skipLayout mode characters offset).1 = none ∨ (skipLayout mode characters offset).2.rest = [] := by
  fun_induction skipLayout mode characters offset with
  | case1 | case5 | case6 => exact .inl rfl
  | case2 rest offset ih | case3 rest offset ih | case7 rest offset ih | case10 start rest offset ih => exact ih
  | case4 character rest offset _ _ _ ih | case8 character rest offset _ ih | case11 start character rest offset _ ih =>
    exact ih
  | case9 start offset => exact .inr rfl

/-- The problems of lexemes come in order. -/
theorem lexemes_ordered (cursor : Cursor) : (Lexeme.findings (lexemes cursor)).Pairwise Finding.Precedes := by
  fun_induction lexemes cursor with
  | case1 cursor skipped reports left =>
    rw [Lexeme.findings, List.filterMap_append]
    unfold reports
    cases skipped.1 with
    | none => exact .nil
    | some found => exact List.pairwise_singleton _ _
  | case2 cursor skipped reports first rest left reading ih =>
    -- an open comment is the last lexeme, so nothing is reported in front of this one
    have quiet : reports = [] := by
      obtain isNone | isEnd := skipLayout_reports .blank cursor.rest cursor.offset
      · show (skipped.1.map Lexeme.finding).toList = []
        rw [show skipped.1 = none from isNone]
        rfl
      · rw [show skipped.2.rest = [] from isEnd] at left
        cases left
    have isOrdered : reading.IsOrdered := readLexeme_isOrdered first rest skipped.2.offset
    rw [quiet, List.nil_append, Lexeme.findings, List.filterMap_append]
    refine List.pairwise_append.2 ⟨isOrdered.ordered, ih, fun found member later isLater => ?_⟩
    refine .inOrder (Nat.le_trans (isOrdered.upTo found member) ?_)
    obtain stands | ⟨span, isEnd⟩ := lexemes_standsBehind reading.cursor _ (Lexeme.mem_findings.1 isLater)
    · cases stands with
      | finding isError covers => exact covers.start_le
    · cases isEnd

end Lexer

/-- The problems of a text come in order. -/
theorem tokenize_ordered {source : String} {findings : List Finding} (fails : tokenize source = .error findings) :
    findings.Pairwise Finding.Precedes := by
  obtain ⟨rfl, -⟩ := tokenize_eq_error_iff.1 fails
  exact Lexer.lexemes_ordered _

end Snippet
