import Snippet.Proofs.Json.RoundTrip
import Snippet.Proofs.Source.Respacing

/-!
The spellings of a whole number: decimal digits with gaps between and behind them, and hexadecimal digits in either case
behind zeros. All of them are read as the same token, or are all too large.
Main statement: `tokenize_of_spells`.
-/

namespace Snippet

open Text

/-! ### Hexadecimal digits -/

/-- Whether a character is the hexadecimal digit of a number, in either case. -/
def IsHexDigitOf (character : Char) (value : Nat) : Prop := value < 16 ∧ character.toLower = value.digitChar

theorem toNat_digitChar {value : Nat} (isDigit : value < 16) :
    value.digitChar.toNat = if value < 10 then 48 + value else 87 + value :=
  (by decide : ∀ value < 16, value.digitChar.toNat = if value < 10 then 48 + value else 87 + value) value isDigit

theorem toNat_toLower (character : Char) : character.toLower.toNat =
    if 65 ≤ character.toNat ∧ character.toNat ≤ 90 then character.toNat + 32 else character.toNat := by
  have isUpper : (character.val ≥ 'A'.val ∧ character.val ≤ 'Z'.val) ↔
      65 ≤ character.toNat ∧ character.toNat ≤ 90 := by
    simp [UInt32.le_iff_toNat_le]
  delta Char.toLower
  split
  · next inRange =>
    obtain ⟨low, high⟩ := isUpper.1 inRange
    rw [if_pos ⟨low, high⟩]
    show (character.val + 32).toNat = character.val.toNat + 32
    rw [UInt32.toNat_add]
    exact Nat.mod_eq_of_lt (by simp; omega)
  · next notInRange => rw [if_neg (mt isUpper.2 notInRange)]

theorem hexDigit?_eq (character : Char) : hexDigit? character =
    if 48 ≤ character.toNat ∧ character.toNat ≤ 57 then some (character.toNat - 48)
    else if 97 ≤ character.toNat ∧ character.toNat ≤ 102 then some (character.toNat - 87)
    else if 65 ≤ character.toNat ∧ character.toNat ≤ 70 then some (character.toNat - 55)
    else none := by
  simp only [hexDigit?, Char.isDigit, Char.le_def, UInt32.le_iff_toNat_le, Bool.and_eq_true, decide_eq_true_eq,
    ge_iff_le]
  show (if 48 ≤ character.toNat ∧ character.toNat ≤ 57 then some (character.toNat - 48)
    else if 97 ≤ character.toNat ∧ character.toNat ≤ 102 then some (character.toNat - 97 + 10)
    else if 65 ≤ character.toNat ∧ character.toNat ≤ 70 then some (character.toNat - 65 + 10)
    else none) = _
  grind

theorem hexDigit?_eq_some_iff {character : Char} {value : Nat} :
    hexDigit? character = some value ↔ IsHexDigitOf character value := by
  rw [hexDigit?_eq, IsHexDigitOf]
  constructor
  · intro isDigit
    have small : value < 16 := by grind
    refine ⟨small, Char.toNat_inj.1 ?_⟩
    rw [toNat_toLower, toNat_digitChar small]
    grind
  · rintro ⟨small, same⟩
    have same := congrArg Char.toNat same
    rw [toNat_toLower, toNat_digitChar small] at same
    grind

theorem hexNumber?_append_singleton (digits : List Char) (digit : Char) : hexNumber? (digits ++ [digit]) =
    (hexNumber? digits).bind fun number => (hexDigit? digit).map (16 * number + ·) := by
  simp only [hexNumber?, List.foldlM_append, List.foldlM_cons, List.foldlM_nil, bind_pure]
  rfl

/-- Zeros in front of a hexadecimal number do not count. -/
theorem hexNumber?_zeros (zeros : Nat) (digits : List Char) :
    hexNumber? (List.replicate zeros '0' ++ digits) = hexNumber? digits := by
  induction zeros with
  | zero => rfl
  | succ zeros ih =>
    rw [List.replicate_succ, List.cons_append, ← ih]
    rfl

/-- The hexadecimal digits of a number, in either case, denote the number. -/
theorem hexNumber?_of_toDigits {number : Nat} {digits : List Char}
    (areDigits : digits.map Char.toLower = Nat.toDigits 16 number) : hexNumber? digits = some number := by
  induction number using Nat.strongRecOn generalizing digits with
  | _ number ih =>
    by_cases single : number < 16
    · rw [Nat.toDigits_of_lt_base single] at areDigits
      obtain ⟨digit, rfl, isDigit⟩ := List.map_eq_singleton_iff.1 areDigits
      have value := hexDigit?_eq_some_iff.2 ⟨single, isDigit⟩
      simp [hexNumber?, value]
    · -- The last digit is that of the remainder, and the others are those of the quotient.
      rw [Nat.toDigits_of_base_le (by decide) (by omega)] at areDigits
      obtain ⟨front, back, rfl, areFront, isBack⟩ := List.map_eq_append_iff.1 areDigits
      obtain ⟨digit, rfl, isDigit⟩ := List.map_eq_singleton_iff.1 isBack
      have value := hexDigit?_eq_some_iff.2 ⟨Nat.mod_lt number (by decide : 0 < 16), isDigit⟩
      rw [hexNumber?_append_singleton, ih (number / 16) (by omega) areFront, value]
      simp [Nat.div_add_mod]

/-! ### Spellings -/

/-- Whether a text spells a whole number, in decimal digits with gaps anywhere behind the first one, or in hexadecimal
digits. -/
inductive Spells (number : Nat) : List Char → Prop
  | decimal {text : List Char} (noGap : text.head? ≠ some '_') (areDigits : text.filter (· ≠ '_') = Nat.toDigits 10 number) :
      Spells number text
  | hexadecimal {mark : Char} {digits : List Char} (isMark : mark = 'x' ∨ mark = 'X') (zeros : Nat)
      (areDigits : digits.map Char.toLower = Nat.toDigits 16 number) :
      Spells number ('0' :: mark :: (List.replicate zeros '0' ++ digits))

namespace Lexer

/-- Whether a text ends here or goes on with the suffix of a `long`. -/
def AtSuffix (rest : List Char) : Prop := rest.head?.all isLongSuffix = true

namespace AtSuffix

variable {rest : List Char}

theorem cases (stops : AtSuffix rest) : rest = [] ∨ ∃ behind, rest = 'l' :: behind ∨ rest = 'L' :: behind := by
  cases rest with
  | nil => exact .inl rfl
  | cons suffix behind =>
    have isSuffix : suffix = 'l' ∨ suffix = 'L' := by simpa [AtSuffix, isLongSuffix] using stops
    exact .inr ⟨behind, isSuffix.imp (congrArg (· :: behind)) (congrArg (· :: behind))⟩

/-- No character of a class without the letter L stands at the suffix. -/
theorem run_eq_nil (stops : AtSuffix rest) {inClass : Char → Bool} (never : inClass 'l' = false ∧ inClass 'L' = false) :
    rest.takeWhile inClass = [] ∧ rest.dropWhile inClass = rest := by
  obtain rfl | ⟨behind, rfl | rfl⟩ := stops.cases <;> simp [never]

/-- A run of characters of such a class is read up to the suffix. -/
theorem skip (stops : AtSuffix rest) (inClass : Char → Bool) (never : inClass 'l' = false ∧ inClass 'L' = false)
    {text : List Char} (areIn : ∀ character ∈ text, inClass character = true) (offset : Nat) :
    (Cursor.mk (text ++ rest) offset).run inClass = text ∧
      (Cursor.mk (text ++ rest) offset).skip inClass = ⟨rest, offset + byteSize text⟩ := by
  obtain ⟨noRun, stays⟩ := stops.run_eq_nil never
  have run : (Cursor.mk (text ++ rest) offset).run inClass = text := by
    rw [Cursor.run, List.takeWhile_append_of_pos areIn, noRun, List.append_nil]
  refine ⟨run, ?_⟩
  rw [Cursor.skip, run, List.dropWhile_append_of_pos areIn, stays]

end AtSuffix

section Decimal

variable {number : Nat} {text : List Char} (areDigits : text.filter (· ≠ '_') = Nat.toDigits 10 number)

include areDigits

theorem isDigitOrGap_of_filter : ∀ character ∈ text, isDigitOrGap character = true := by
  intro character member
  by_cases isGap : character = '_'
  · simp [isDigitOrGap, isGap]
  · have inDigits : character ∈ Nat.toDigits 10 number := by
      rw [← areDigits, List.mem_filter]
      exact ⟨member, by simpa using isGap⟩
    simp [isDigitOrGap, Json.isDigit_of_mem_toDigits inDigits]

theorem filter_isDigit : text.filter Char.isDigit = Nat.toDigits 10 number := by
  rw [← areDigits]
  refine List.filter_congr fun character member => ?_
  have isIn := isDigitOrGap_of_filter areDigits character member
  by_cases isGap : character = '_'
  · simp [isGap]
  · simpa [isDigitOrGap, isGap] using isIn

/-- The digits of a number are read up to its suffix. -/
theorem readNumeral_of_filter {rest : List Char} (stops : AtSuffix rest) (offset : Nat) :
    readNumeral ⟨text ++ rest, offset⟩ =
      ⟨Nat.toDigits 10 number, [], 0, false, ⟨rest, offset + byteSize text⟩⟩ := by
  obtain ⟨run, skips⟩ := stops.skip isDigitOrGap (by decide) (isDigitOrGap_of_filter areDigits) offset
  rw [readNumeral, digitsAt, run, skips, filter_isDigit areDigits, readFraction_eq]
  obtain rfl | ⟨behind, rfl | rfl⟩ := stops.cases <;> rfl

theorem not_startsHexadecimal_of_filter {rest : List Char} (stops : AtSuffix rest) :
    startsHexadecimal (text ++ rest) = false := by
  refine Bool.eq_false_iff.2 fun starts => ?_
  have noMark {character : Char} (isMark : character = 'x' ∨ character = 'X') : character ∉ text := by
    intro member
    have isIn := isDigitOrGap_of_filter areDigits character member
    rcases isMark with rfl | rfl <;> exact absurd isIn (by decide)
  simp only [startsHexadecimal, Bool.and_eq_true, Bool.or_eq_true, beq_iff_eq] at starts
  rcases text with _ | ⟨first, _ | ⟨second, others⟩⟩
  · exact absurd areDigits.symm Nat.toDigits_ne_nil
  · obtain rfl | ⟨behind, rfl | rfl⟩ := stops.cases <;> simp at starts
  · have isMark : second = 'x' ∨ second = 'X' := by simpa using starts.2
    exact noMark isMark (by simp)

end Decimal

end Lexer

namespace Spells

open Lexer

variable {number : Nat} {text : List Char}

/-- A spelled number is read up to its suffix. -/
theorem readNumber_eq (spells : Spells number text) {rest : List Char} (stops : AtSuffix rest) (offset : Nat) :
    readNumber ⟨text ++ rest, offset⟩ = readInteger offset (some number) ⟨rest, offset + byteSize text⟩ := by
  cases spells with
  | decimal noGap areDigits =>
    rw [Lexer.readNumber_eq, not_startsHexadecimal_of_filter areDigits stops, if_neg Bool.false_ne_true, readDecimal_eq,
      readNumeral_of_filter areDigits stops]
    simp only [Json.ofDigits_toDigits]
    obtain rfl | ⟨behind, rfl | rfl⟩ := stops.cases <;> rfl
  | @hexadecimal mark digits isMark zeros areDigits =>
    have starts : startsHexadecimal ('0' :: mark :: (List.replicate zeros '0' ++ digits) ++ rest) = true := by
      rcases isMark with rfl | rfl <;> rfl
    have denotes : hexNumber? (List.replicate zeros '0' ++ digits) = some number := by
      rw [hexNumber?_zeros, hexNumber?_of_toDigits areDigits]
    have notEmpty : (List.replicate zeros '0' ++ digits).isEmpty = false := by
      cases digits with
      | nil => exact absurd areDigits.symm Nat.toDigits_ne_nil
      | cons => simp
    have markSize : mark.utf8Size = 1 := by rcases isMark with rfl | rfl <;> rfl
    obtain ⟨run, skips⟩ := stops.skip isHexDigit (by decide) (hexDigits_of_hexNumber? denotes) (offset + 2)
    have behind : Cursor.drop ⟨'0' :: mark :: (List.replicate zeros '0' ++ digits) ++ rest, offset⟩ 2 =
        ⟨List.replicate zeros '0' ++ digits ++ rest, offset + 2⟩ := by
      simp [Cursor.drop, byteSize, markSize]
      rfl
    rw [Lexer.readNumber_eq, if_pos starts, behind, readHexadecimal, run, skips, notEmpty, denotes]
    simp only [Cursor.byteSize_cons, markSize]
    congr 2
    show offset + 2 + byteSize (List.replicate zeros '0' ++ digits) = offset + (1 + (1 + _))
    omega

/-- The decimal digits of a number spell it. -/
theorem toDigits (number : Nat) : Spells number (Nat.toDigits 10 number) := by
  have noGap : '_' ∉ Nat.toDigits 10 number := fun member =>
    absurd (Json.isDigit_of_mem_toDigits member) (by decide)
  refine .decimal (fun isGap => noGap (List.mem_of_mem_head? isGap)) (List.filter_eq_self.2 fun character member => ?_)
  simpa using fun isGap : character = '_' => noGap (isGap ▸ member)

/-- A spelled number starts with a digit. -/
theorem starts (spells : Spells number text) : ∃ first others, text = first :: others ∧ first.isDigit = true := by
  cases spells with
  | decimal noGap areDigits =>
    cases text with
    | nil => exact absurd areDigits.symm Nat.toDigits_ne_nil
    | cons first others =>
      have isIn := isDigitOrGap_of_filter areDigits first List.mem_cons_self
      have noGap : first ≠ '_' := fun isGap => noGap (by rw [isGap]; rfl)
      exact ⟨first, others, rfl, by simpa [isDigitOrGap, noGap] using isIn⟩
  | hexadecimal => exact ⟨_, _, rfl, rfl⟩

/-- A spelled number up to the end of a text is one lexeme, behind which the text ends. -/
theorem lexemes_eq (spells : Spells number text) {suffix : List Char} (isSuffix : suffix = [] ∨ suffix = ['l'] ∨ suffix = ['L'])
    (offset : Nat) :
    lexemes ⟨text ++ suffix, offset⟩ =
      (finishInteger offset (some number) (!suffix.isEmpty) ⟨[], offset + byteSize (text ++ suffix)⟩).found ++
        [.token ⟨.endOfFile, ⟨offset + byteSize (text ++ suffix), offset + byteSize (text ++ suffix)⟩⟩] := by
  have stops : AtSuffix suffix := by obtain rfl | rfl | rfl := isSuffix <;> rfl
  have finishes : readInteger offset (some number) ⟨suffix, offset + byteSize text⟩ =
      finishInteger offset (some number) (!suffix.isEmpty) ⟨[], offset + byteSize (text ++ suffix)⟩ := by
    rw [readInteger_eq, Cursor.byteSize_append, ← Nat.add_assoc]
    obtain rfl | rfl | rfl := isSuffix <;> rfl
  have ends : (finishInteger offset (some number) (!suffix.isEmpty) ⟨[], offset + byteSize (text ++ suffix)⟩).cursor =
      ⟨[], offset + byteSize (text ++ suffix)⟩ := by
    simp only [finishInteger, List.head?_nil, Option.any_none, Bool.false_eq_true, if_false]
    split
    · rfl
    · split <;> rfl
  obtain ⟨first, others, isText, isDigit⟩ := spells.starts
  have starts : startsNumber first (others ++ suffix).head? = true := by simp [startsNumber, isDigit]
  have reads := readLexeme_number starts offset
  rw [← List.cons_append, ← isText, spells.readNumber_eq stops, finishes] at reads
  have noComment : first ≠ '/' := by
    rintro rfl
    exact absurd isDigit (by decide)
  have skipped : skipLayout .blank (text ++ suffix) offset = (none, ⟨first :: (others ++ suffix), offset⟩) := by
    rw [isText, List.cons_append]
    exact Piece.skipLayout_of_not_isLayout (Json.not_isLayout_of_isDigit isDigit) noComment
  rw [lexemes_of_skipped skipped, reads, ends, lexemes_of_end (skipLayout.eq_1 _)]

end Spells

/-! ### Literals -/

/-- Whether a source text is the literal of a whole number, with the suffix of a `long` or without it: one token up to the
end of the text with the value of the number, or the report that the number is too large. -/
def ReadsAsInteger (source : String) (number : Nat) (isLong : Bool) : Prop :=
  let whole : Span := ⟨0, source.utf8ByteSize⟩
  let ending : PlacedToken := ⟨.endOfFile, ⟨source.utf8ByteSize, source.utf8ByteSize⟩⟩
  if isLong = false ∧ number ≤ 2147483647 then
    ∃ value : Int32, value.toInt = number ∧ tokenize source = .ok [⟨.int value, whole⟩, ending]
  else if number ≤ 9223372036854775807 then
    ∃ value : Int64, value.toInt = number ∧ tokenize source = .ok [⟨.long value, whole⟩, ending]
  else ∃ problem : Problem, problem.code = "CS1021" ∧ tokenize source = .error [⟨problem, whole⟩]

/-- A text whose only lexeme is a problem has no tokens. -/
theorem tokenize_of_finding {source : String} {finding : Finding} {ending : PlacedToken}
    (reads : Lexer.lexemes ⟨source.toList, 0⟩ = [.finding finding, .token ending]) :
    tokenize source = .error [finding] := by
  rw [tokenize_eq_error_iff, reads]
  exact ⟨rfl, List.cons_ne_nil _ _⟩

theorem Spells.readsAsInteger {number : Nat} {text : List Char} (spells : Spells number text) {suffix : List Char}
    (isSuffix : suffix = [] ∨ suffix = ['l'] ∨ suffix = ['L']) :
    ReadsAsInteger (String.ofList (text ++ suffix)) number (!suffix.isEmpty) := by
  generalize isSource : String.ofList (text ++ suffix) = source
  have reads := spells.lexemes_eq isSuffix 0
  rw [Nat.zero_add, ← Cursor.utf8ByteSize_ofList, isSource] at reads
  have isText : text ++ suffix = source.toList := by rw [← isSource, String.toList_ofList]
  rw [isText] at reads
  simp only [Lexer.finishInteger, List.head?_nil, Option.any_none, Bool.false_eq_true, if_false] at reads
  unfold ReadsAsInteger
  generalize (!suffix.isEmpty) = isLong at reads ⊢
  by_cases isInt : isLong = false ∧ number ≤ 2147483647
  · have small : (!isLong && decide (number < 0x80000000)) = true := by
      rw [isInt.1, Bool.not_false, Bool.true_and, decide_eq_true_eq]
      omega
    rw [if_pos small] at reads
    have reads : Lexer.lexemes ⟨source.toList, 0⟩ =
        Lexer.lexemesOf [⟨.int (.ofNat number), ⟨0, source.utf8ByteSize⟩⟩] source.utf8ByteSize := reads
    rw [if_pos isInt]
    exact ⟨.ofNat number, Int32.toInt_ofNat_of_lt (by omega), tokenize_of_lexemes reads⟩
  have notSmall : ¬ (!isLong && decide (number < 0x80000000)) = true := by
    rintro isSmall
    obtain ⟨isShort, small⟩ := Bool.and_eq_true_iff.1 isSmall
    exact isInt ⟨by simpa using isShort, by have := of_decide_eq_true small; omega⟩
  rw [if_neg notSmall] at reads
  rw [if_neg isInt]
  by_cases fits : number ≤ 9223372036854775807
  · rw [if_pos (by omega)] at reads
    have reads : Lexer.lexemes ⟨source.toList, 0⟩ =
        Lexer.lexemesOf [⟨.long (.ofNat number), ⟨0, source.utf8ByteSize⟩⟩] source.utf8ByteSize := reads
    rw [if_pos fits]
    exact ⟨.ofNat number, Int64.toInt_ofNat_of_lt (by omega), tokenize_of_lexemes reads⟩
  · rw [if_neg (by omega)] at reads
    rw [if_neg fits]
    exact ⟨.integerTooLarge, rfl, tokenize_of_finding reads⟩

/-- All spellings of a whole number are read alike: as a token of the number if it fits, and else as too large. -/
theorem tokenize_of_spells {number : Nat} {text : List Char} (spells : Spells number text) :
    ReadsAsInteger (String.ofList text) number false ∧
      ∀ suffix ∈ ['l', 'L'], ReadsAsInteger (String.ofList (text ++ [suffix])) number true := by
  refine ⟨?_, fun suffix member => ?_⟩
  · have alone := spells.readsAsInteger (.inl rfl)
    rwa [List.append_nil] at alone
  · have isSuffix : suffix = 'l' ∨ suffix = 'L' := by simpa using member
    exact spells.readsAsInteger (.inr (isSuffix.imp (congrArg ([·])) (congrArg ([·]))))

/-- The greatest 64-bit integer with zeros in front and in mixed case. -/
theorem tokenize_of_spells_greatest :
    Spells 9223372036854775807 "0X007fFFffFFFfffFfFf".toList ∧
      ReadsAsInteger "0X007fFFffFFFfffFfFf" 9223372036854775807 false ∧
      ReadsAsInteger "0X007fFFffFFFfffFfFfl" 9223372036854775807 true := by
  have areDigits : "7fFFffFFFfffFfFf".toList.map Char.toLower = Nat.toDigits 16 9223372036854775807 := rfl
  have spells : Spells 9223372036854775807 "0X007fFFffFFFfffFfFf".toList := .hexadecimal (.inr rfl) 2 areDigits
  obtain ⟨alone, suffixed⟩ := tokenize_of_spells spells
  exact ⟨spells, alone, suffixed 'l' (by simp)⟩

end Snippet
