import Snippet.Json.Decoding
import Snippet.Json.Reading
import Snippet.Text.Split

/-!
JSON text is read back. Values without reals have one written form up to the blanks in it, and the reader takes it in
every layout; the compact form has no blanks, and the indented one has a line for each item. Main statements:
`Json.read?_compact`, `Json.read?_pretty`.
-/

namespace Snippet.Json

open Text

/-! ### Characters of string literals -/

/-- Two hexadecimal digits behind two zeros denote the number that they were made from. -/
theorem hexNumber?_hexByte : ∀ number < 32, hexNumber? (['0', '0'] ++ hexByte number) = some number := by
  decide

theorem scalar?_toNat (character : Char) : scalar? character.toNat = some character := by
  have isValid : character.toNat.isValidChar := character.valid
  rw [scalar?, if_pos isValid, Char.ofNat_toNat]

/-- A four digit escape of a number that is no surrogate denotes its character, whatever stands behind it. -/
theorem readBody_unicode {a b c d character : Char} (denotes : hexNumber? [a, b, c, d] = some character.toNat)
    (small : character.toNat < 32) (tail : List Char) :
    readBody ('\\' :: 'u' :: a :: b :: c :: d :: tail) =
      (readBody tail).map fun (body, behind) => (body.push character, behind) := by
  have plain : isHighSurrogate character.toNat = false := by
    rw [isHighSurrogate, Bool.and_eq_false_iff]
    exact .inl (decide_eq_false (by omega))
  by_cases escaped : ∃ e f g h rest, tail = '\\' :: 'u' :: e :: f :: g :: h :: rest
  · obtain ⟨e, f, g, h, rest, rfl⟩ := escaped
    rw [readBody, denotes]
    cases isLow : hexNumber? [e, f, g, h] with
    | some low =>
      simp only [plain, Bool.false_and, Bool.false_eq_true, if_false, scalar?_toNat]
    | none =>
      have refused : readBody ('\\' :: 'u' :: e :: f :: g :: h :: rest) = none := by
        rw [readBody.eq_def]
        split <;> grind
      rw [refused]
      rfl
  · rw [readBody.eq_def]
    split <;> grind [scalar?_toNat]

/-- An escaped character is read back. -/
theorem readBody_escape (character : Char) (tail : List Char) :
    readBody (escape character ++ tail) =
      (readBody tail).map fun (body, behind) => (body.push character, behind) := by
  unfold escape
  split
  · rfl
  · rfl
  · rfl
  · rfl
  · rfl
  · rfl
  · rfl
  · split
    · next small =>
      exact readBody_unicode (hexNumber?_hexByte _ small) small tail
    · next noQuote noBackslash _ _ _ _ _ large =>
      rw [List.singleton_append, readBody.eq_def]
      split <;> grind

/-- The escaped characters of a text are read up to the closing quote. -/
theorem readBody_escaped (characters rest : List Char) :
    readBody (characters.flatMap escape ++ '"' :: rest) = some (⟨characters, false⟩, rest) := by
  induction characters with
  | nil => rfl
  | cons first others ih =>
      rw [List.flatMap_cons, List.append_assoc, readBody_escape, ih]
      rfl

theorem toList_quote (text : String) : (quote text).toList = '"' :: (text.toList.flatMap escape ++ ['"']) := by
  simp [quote]

/-! ### Numbers -/

/-- Whether no number goes on with what stands here. -/
def EndsNumber (rest : List Char) : Prop :=
  ∀ character ∈ rest.head?, character.isDigit = false ∧ character ≠ '.' ∧ character ≠ 'e' ∧ character ≠ 'E'

theorem endsNumber_cons (character : Char) (rest : List Char)
    (ends : character.isDigit = false ∧ character ≠ '.' ∧ character ≠ 'e' ∧ character ≠ 'E') :
    EndsNumber (character :: rest) := by
  intro first isFirst
  cases isFirst
  exact ends

theorem isDigit_of_mem_toDigits {number : Nat} {character : Char} (member : character ∈ Nat.toDigits 10 number) :
    character.isDigit = true := Nat.isDigit_of_mem_toDigits (by decide) (by decide) member

theorem ofDigits_toDigits (number : Nat) : Decimal.ofDigits (Nat.toDigits 10 number) = number := by
  have same : Decimal.ofDigits (Nat.toDigits 10 number) = Nat.ofDigitChars 10 (Nat.toDigits 10 number) 0 :=
    Nat.ofDigitChars_eq_foldl.symm
  rw [same, Nat.ofDigitChars_ten_toDigits]

theorem head?_toDigits_append (number : Nat) (rest : List Char) :
    (Nat.toDigits 10 number ++ rest).head? = (Nat.toDigits 10 number).head? := by
  obtain ⟨first, others, areDigits⟩ := List.exists_cons_of_ne_nil (Nat.toDigits_ne_nil (b := 10) (n := number))
  rw [areDigits]
  rfl

/-- Only zero is written with a leading zero. -/
theorem eq_zero_of_head?_toDigits {number : Nat} (leads : (Nat.toDigits 10 number).head? = some '0') :
    number = 0 := by
  induction number using Nat.strongRecOn with
  | _ number ih =>
      by_cases single : number < 10
      · rw [Nat.toDigits_of_lt_base single] at leads
        simpa using leads
      · have shorter : number / 10 < number := by omega
        rw [Nat.toDigits_of_base_le (by decide) (by omega), head?_toDigits_append] at leads
        have isZero := ih (number / 10) shorter leads
        omega

theorem takeWhile_digits {digits rest : List Char} (areDigits : ∀ digit ∈ digits, digit.isDigit = true)
    (ends : EndsNumber rest) :
    (digits ++ rest).takeWhile Char.isDigit = digits ∧ (digits ++ rest).dropWhile Char.isDigit = rest := by
  rw [List.takeWhile_append_of_pos areDigits, List.dropWhile_append_of_pos areDigits]
  cases rest with
  | nil => simp
  | cons first others =>
      have isOther := (ends first rfl).1
      simp [isOther]

/-- The digits of a number are read up to what no number goes on with. -/
theorem readWhole?_toDigits (number : Nat) {rest : List Char} (ends : EndsNumber rest) :
    readWhole? (Nat.toDigits 10 number ++ rest) = some (Nat.toDigits 10 number, rest) := by
  obtain ⟨areTaken, areDropped⟩ := takeWhile_digits (fun digit => @isDigit_of_mem_toDigits number digit) ends
  have read : readDigits? (Nat.toDigits 10 number ++ rest) = some (Nat.toDigits 10 number, rest) := by
    rw [readDigits?, areTaken, areDropped]
    split
    · next isEmpty => exact absurd isEmpty Nat.toDigits_ne_nil
    · rfl
  rw [readWhole?.eq_def]
  split
  · next others isZero =>
    have leads : (Nat.toDigits 10 number).head? = some '0' := by
      rw [← head?_toDigits_append number rest, isZero]
      rfl
    obtain rfl := eq_zero_of_head?_toDigits leads
    obtain rfl : rest = others := (List.cons.inj isZero).2
    have stops : rest.head?.any Char.isDigit = false := by
      cases rest with
      | nil => rfl
      | cons first others => exact (ends first rfl).1
    rw [stops]
    rfl
  · exact read

theorem readFraction?_none {rest : List Char} (ends : EndsNumber rest) : readFraction? rest = some (none, rest) := by
  cases rest with
  | nil => rfl
  | cons first others =>
      have noPoint := (ends first rfl).2.1
      rw [readFraction?.eq_def]
      split
      · next isPoint => exact absurd (List.cons.inj isPoint).1 noPoint
      · rfl

theorem readPower?_none {rest : List Char} (ends : EndsNumber rest) : readPower? rest = some (none, rest) := by
  cases rest with
  | nil => rfl
  | cons first others =>
      obtain ⟨-, -, isSmall, isLarge⟩ := ends first rfl
      rw [readPower?.eq_def]
      split
      · next isPower => exact absurd (List.cons.inj isPower).1 isSmall
      · next isPower => exact absurd (List.cons.inj isPower).1 isLarge
      · rfl

/-- The digits of a number are read as this number, behind a minus as its opposite. There is no minus zero. -/
theorem readNumber?_toDigits (negative : Bool) (number : Nat) (proper : negative = true → number ≠ 0)
    {rest : List Char} (ends : EndsNumber rest) :
    readNumber? negative (Nat.toDigits 10 number ++ rest) =
      some (.int (if negative then -(number : Int) else number), rest) := by
  have isWhole : (none : Option (List Char)).isNone ∧ (none : Option Int).isNone ∧ ¬ (negative ∧ number = 0) :=
    ⟨rfl, rfl, fun ⟨isNegative, isZero⟩ => proper isNegative isZero⟩
  rw [readNumber?, readWhole?_toDigits number ends]
  simp only [bind, Option.bind, readFraction?_none ends, readPower?_none ends, ofDigits_toDigits, if_pos isWhole]
  rfl

theorem toList_toString (value : Int) :
    (toString value).toList =
      if 0 ≤ value then Nat.toDigits 10 value.toNat else '-' :: Nat.toDigits 10 (-value).toNat := by
  rw [Int.toString_eq_repr, Int.repr_eq_if]
  split <;> simp

/-! ### Layouts -/

/-- Where the written form of a value has blanks: in front of an item and of a closing bracket by the depth of
nesting, and behind the colon of a member. -/
structure Layout where
  line : Nat → List Char
  gap : List Char
  line_blank : ∀ depth, ∀ character ∈ line depth, isLayout character = true
  gap_blank : ∀ character ∈ gap, isLayout character = true

namespace Layout

/-- No blanks. -/
def none : Layout := ⟨fun _ => [], [], by simp, by simp⟩

/-- Items on lines of their own, two blanks a level. -/
def indented : Layout where
  line depth := '\n' :: List.replicate (2 * depth) ' '
  gap := [' ']
  line_blank depth character member := by
    rcases List.mem_cons.1 member with rfl | isBlank
    · rfl
    · rw [List.eq_of_mem_replicate isBlank]
      rfl
  gap_blank character member := by
    rw [List.mem_singleton.1 member]
    rfl

theorem line_none (depth : Nat) : none.line depth = [] := rfl

theorem gap_none : none.gap = [] := rfl

theorem gap_indented : indented.gap = [' '] := rfl

mutual

/-- The text of a value at a depth of nesting. -/
def spell (layout : Layout) (depth : Nat) : Json → List Char
  | array [] => ['[', ']']
  | array (first :: rest) =>
    '[' :: (layout.line (depth + 1) ++ layout.spell (depth + 1) first ++ layout.spellItems depth rest ++ [']'])
  | object [] => ['\x7b', '\x7d']
  | object ((name, value) :: rest) =>
    '\x7b' :: (layout.line (depth + 1) ++ (quote name).toList ++ ':' :: layout.gap ++ layout.spell (depth + 1) value ++
      layout.spellMembers depth rest ++ ['\x7d'])
  | other => other.compact.toList

/-- The text of the items of an array behind another one, up to the closing bracket. -/
def spellItems (layout : Layout) (depth : Nat) : List Json → List Char
  | [] => layout.line depth
  | item :: rest =>
    ',' :: (layout.line (depth + 1) ++ layout.spell (depth + 1) item ++ layout.spellItems depth rest)

/-- The text of the members of an object behind another one, up to the closing brace. -/
def spellMembers (layout : Layout) (depth : Nat) : List (String × Json) → List Char
  | [] => layout.line depth
  | (name, value) :: rest =>
    ',' :: (layout.line (depth + 1) ++ (quote name).toList ++ ':' :: layout.gap ++ layout.spell (depth + 1) value ++
      layout.spellMembers depth rest)

end

end Layout

/-! ### Values -/

mutual

/-- Whether a value has one written form: no reals, and no texts that no character list denotes. -/
def IsExact : Json → Prop
  | null | bool _ | int _ | string _ => True
  | real _ | brokenString => False
  | array items => AllExact items
  | object members => MembersExact members

/-- Whether all items of an array have one written form. -/
def AllExact : List Json → Prop
  | [] => True
  | first :: rest => first.IsExact ∧ AllExact rest

/-- Whether the values of all members of an object have one written form. -/
def MembersExact : List (String × Json) → Prop
  | [] => True
  | (_, value) :: rest => value.IsExact ∧ MembersExact rest

end

theorem skipBlanks_cons {character : Char} (solid : isLayout character = false) (rest : List Char) :
    skipBlanks (character :: rest) = character :: rest := by
  rw [skipBlanks, List.dropWhile_cons_of_neg (by simp [solid])]

theorem skipBlanks_append {blanks : List Char} (areBlank : ∀ character ∈ blanks, isLayout character = true)
    (rest : List Char) : skipBlanks (blanks ++ rest) = skipBlanks rest :=
  List.dropWhile_append_of_pos areBlank

/-- No number goes on with blanks. -/
theorem endsNumber_append {blanks rest : List Char} (areBlank : ∀ character ∈ blanks, isLayout character = true)
    (ends : EndsNumber rest) : EndsNumber (blanks ++ rest) := by
  cases blanks with
  | nil => exact ends
  | cons blank others =>
    have isBlank := areBlank blank List.mem_cons_self
    simp only [isLayout, Bool.or_eq_true, beq_iff_eq] at isBlank
    refine endsNumber_cons blank _ ?_
    rcases isBlank with ((rfl | rfl) | rfl) | rfl <;> decide

theorem not_isLayout_of_isDigit {character : Char} (isDigit : character.isDigit = true) :
    isLayout character = false := by
  simp only [isLayout, Bool.or_eq_false_iff, beq_eq_false_iff_ne, ne_eq]
  refine ⟨⟨⟨?_, ?_⟩, ?_⟩, ?_⟩ <;> rintro rfl <;> exact absurd isDigit (by decide)

/-- A value does not start with a blank, nor with the end of an array. -/
theorem spell_starts {value : Json} (exact : value.IsExact) (layout : Layout) (depth : Nat) :
    ∃ first others, layout.spell depth value = first :: others ∧ isLayout first = false ∧ first ≠ ']' := by
  cases value with
  | null => exact ⟨'n', ['u', 'l', 'l'], rfl, by decide, by decide⟩
  | bool truth =>
    cases truth with
    | true => exact ⟨'t', ['r', 'u', 'e'], rfl, by decide, by decide⟩
    | false => exact ⟨'f', ['a', 'l', 's', 'e'], rfl, by decide, by decide⟩
  | int number =>
    show ∃ first others, (toString number).toList = first :: others ∧ _
    rw [toList_toString]
    split
    · obtain ⟨first, others, areDigits⟩ :=
        List.exists_cons_of_ne_nil (Nat.toDigits_ne_nil (b := 10) (n := number.toNat))
      have isDigit : first.isDigit = true := isDigit_of_mem_toDigits (areDigits ▸ List.mem_cons_self)
      refine ⟨first, others, areDigits, not_isLayout_of_isDigit isDigit, ?_⟩
      rintro rfl
      exact absurd isDigit (by decide)
    · exact ⟨'-', _, rfl, by decide, by decide⟩
  | string text =>
    show ∃ first others, (quote text).toList = first :: others ∧ _
    rw [toList_quote]
    exact ⟨'"', _, rfl, by decide, by decide⟩
  | array items => cases items <;> exact ⟨'[', _, rfl, by decide, by decide⟩
  | object members => cases members <;> exact ⟨'\x7b', _, rfl, by decide, by decide⟩
  | real | brokenString => exact exact.elim

theorem readBody_quote (text : String) (rest : List Char) :
    ∃ tail, (quote text).toList ++ rest = '"' :: tail ∧ readBody tail = some (⟨text.toList, false⟩, rest) := by
  refine ⟨text.toList.flatMap escape ++ '"' :: rest, ?_, readBody_escaped text.toList rest⟩
  rw [toList_quote, List.cons_append, List.append_assoc]
  rfl

theorem readValue_int (number : Int) (fuel : Nat) {rest : List Char} (ends : EndsNumber rest) :
    readValue (fuel + 1) ((toString number).toList ++ rest) = some (int number, rest) := by
  rw [toList_toString]
  by_cases isNatural : 0 ≤ number
  · have read := readNumber?_toDigits false number.toNat nofun ends
    obtain ⟨first, others, areDigits⟩ :=
      List.exists_cons_of_ne_nil (Nat.toDigits_ne_nil (b := 10) (n := number.toNat))
    have isDigit : first.isDigit = true := isDigit_of_mem_toDigits (areDigits ▸ List.mem_cons_self)
    have isNumber : readValue (fuel + 1) (first :: (others ++ rest)) =
        readNumber? false (first :: (others ++ rest)) := by
      rw [readValue.eq_def]
      dsimp only
      split
      all_goals first
        | rfl
        | next isOther => cases isOther; exact absurd isDigit (by decide)
    rw [if_pos isNatural, areDigits, List.cons_append, isNumber, ← List.cons_append, ← areDigits, read]
    simp [Int.toNat_of_nonneg isNatural]
  · have read := readNumber?_toDigits true (-number).toNat (by omega) ends
    rw [if_pos rfl, Int.toNat_of_nonneg (by omega), Int.neg_neg] at read
    rw [if_neg isNatural, List.cons_append, readValue.eq_def]
    dsimp only
    split
    all_goals simp_all

theorem readValue_string {fuel : Nat} {tail rest : List Char} {text : String}
    (read : readBody tail = some (⟨text.toList, false⟩, rest)) :
    readValue (fuel + 1) ('"' :: tail) = some (string text, rest) := by
  rw [readValue.eq_def]
  dsimp only
  split
  all_goals simp_all

theorem readValue_array {fuel : Nat} {characters rest : List Char} {items : List Json}
    (filled : ∀ behind, skipBlanks characters ≠ ']' :: behind)
    (read : readItems fuel (skipBlanks characters) = some (items, rest)) :
    readValue (fuel + 1) ('[' :: characters) = some (array items, rest) := by
  rw [readValue.eq_def]
  dsimp only
  split
  all_goals simp_all

theorem readValue_object {fuel : Nat} {characters rest : List Char} {members : List (String × Json)}
    (filled : ∀ behind, skipBlanks characters ≠ '\x7d' :: behind)
    (read : readMembers fuel (skipBlanks characters) = some (members, rest)) :
    readValue (fuel + 1) ('\x7b' :: characters) = some (object members, rest) := by
  rw [readValue.eq_def]
  dsimp only
  split
  all_goals simp_all

/-- The first item of an array is read, and then what stands behind it decides. -/
theorem readItems_item {fuel : Nat} {characters behind : List Char} {item : Json}
    (read : readValue fuel characters = some (item, behind)) :
    readItems (fuel + 1) characters =
      match skipBlanks behind with
      | ']' :: rest => some ([item], rest)
      | ',' :: rest => (readItems fuel (skipBlanks rest)).map fun (items, rest) => (item :: items, rest)
      | _ => none := by
  rw [readItems]
  simp only [bind, Option.bind, read]
  generalize skipBlanks behind = next
  split
  · rfl
  · next rest =>
    show _ = (readItems fuel (skipBlanks rest)).map fun (items, rest) => (item :: items, rest)
    cases readItems fuel (skipBlanks rest) <;> rfl
  · simp_all

/-- The first member of an object is read, and then what stands behind it decides. -/
theorem readMembers_member {fuel : Nat} {tail between behind : List Char} {name : String} {value : Json}
    (isName : readBody tail = some (⟨name.toList, false⟩, ':' :: between))
    (read : readValue fuel (skipBlanks between) = some (value, behind)) :
    readMembers (fuel + 1) ('"' :: tail) =
      match skipBlanks behind with
      | '\x7d' :: rest => some ([(name, value)], rest)
      | ',' :: rest => (readMembers fuel (skipBlanks rest)).map fun (members, rest) => ((name, value) :: members, rest)
      | _ => none := by
  rw [readMembers]
  simp only [bind, Option.bind, isName, skipBlanks_cons (show isLayout ':' = false by decide), read]
  rw [if_neg Bool.false_ne_true, String.ofList_toList]
  generalize skipBlanks behind = next
  split
  · rfl
  · next rest =>
    show _ = (readMembers fuel (skipBlanks rest)).map fun (members, rest) => ((name, value) :: members, rest)
    cases readMembers fuel (skipBlanks rest) <;> rfl
  · simp_all

section

variable (layout : Layout)

/-- Blanks are skipped up to a value. -/
theorem skipBlanks_spell {value : Json} (exact : value.IsExact) {blanks : List Char}
    (areBlank : ∀ character ∈ blanks, isLayout character = true) (depth : Nat) (rest : List Char) :
    skipBlanks (blanks ++ (layout.spell depth value ++ rest)) = layout.spell depth value ++ rest := by
  obtain ⟨first, others, isText, solid, -⟩ := spell_starts exact layout depth
  rw [skipBlanks_append areBlank, isText, List.cons_append, skipBlanks_cons solid]

theorem skipBlanks_quote {blanks : List Char} (areBlank : ∀ character ∈ blanks, isLayout character = true)
    (text : String) (rest : List Char) :
    skipBlanks (blanks ++ ((quote text).toList ++ rest)) = (quote text).toList ++ rest := by
  rw [skipBlanks_append areBlank, toList_quote, List.cons_append, skipBlanks_cons (by decide)]

/-- No number goes on with what stands behind an item. -/
theorem endsNumber_spellItems (depth : Nat) (items : List Json) (rest : List Char) :
    EndsNumber (layout.spellItems depth items ++ ']' :: rest) := by
  cases items with
  | nil => exact endsNumber_append (layout.line_blank depth) (endsNumber_cons ']' rest (by decide))
  | cons item others => exact endsNumber_cons ',' _ (by decide)

theorem endsNumber_spellMembers (depth : Nat) (members : List (String × Json)) (rest : List Char) :
    EndsNumber (layout.spellMembers depth members ++ '\x7d' :: rest) := by
  cases members with
  | nil => exact endsNumber_append (layout.line_blank depth) (endsNumber_cons '\x7d' rest (by decide))
  | cons member others => exact endsNumber_cons ',' _ (by decide)

mutual

/-- A value of one written form is read back in front of what no number goes on with, in every layout. -/
theorem readValue_spell (value : Json) (exact : value.IsExact) (depth fuel : Nat)
    (enough : 2 * (layout.spell depth value).length ≤ fuel) {rest : List Char} (ends : EndsNumber rest) :
    readValue fuel (layout.spell depth value ++ rest) = some (value, rest) := by
  obtain ⟨fuel, rfl⟩ : ∃ less, fuel = less + 1 := by
    obtain ⟨first, others, isText, -, -⟩ := spell_starts exact layout depth
    rw [isText, List.length_cons] at enough
    exact ⟨fuel - 1, by omega⟩
  cases value with
  | null => rfl
  | bool truth => cases truth <;> rfl
  | int number => exact readValue_int number fuel ends
  | string text =>
    obtain ⟨tail, isTail, read⟩ := readBody_quote text rest
    show readValue (fuel + 1) ((quote text).toList ++ rest) = _
    rw [isTail]
    exact readValue_string read
  | array items =>
    cases items with
    | nil => rfl
    | cons first others =>
      have text : layout.spell depth (array (first :: others)) ++ rest =
          '[' :: (layout.line (depth + 1) ++ (layout.spell (depth + 1) first ++
            (layout.spellItems depth others ++ ']' :: rest))) := by
        simp [Layout.spell]
      have solid := skipBlanks_spell layout exact.1 (layout.line_blank (depth + 1)) (depth + 1)
        (layout.spellItems depth others ++ ']' :: rest)
      have read := readItems_spell first others exact depth fuel
        (by simp only [Layout.spell, List.length_cons, List.length_append] at enough; omega) rest
      obtain ⟨start, tail, isStart, -, notEnd⟩ := spell_starts exact.1 layout (depth + 1)
      rw [text]
      refine readValue_array (fun behind same => ?_) (solid.symm ▸ read)
      rw [solid, isStart] at same
      exact notEnd (List.cons.inj same).1
  | object members =>
    cases members with
    | nil => rfl
    | cons member others =>
      obtain ⟨name, value⟩ := member
      have text : layout.spell depth (object ((name, value) :: others)) ++ rest =
          '\x7b' :: (layout.line (depth + 1) ++ ((quote name).toList ++ ':' :: (layout.gap ++
            (layout.spell (depth + 1) value ++ (layout.spellMembers depth others ++ '\x7d' :: rest))))) := by
        simp [Layout.spell]
      have solid := skipBlanks_quote (layout.line_blank (depth + 1)) name (':' :: (layout.gap ++
        (layout.spell (depth + 1) value ++ (layout.spellMembers depth others ++ '\x7d' :: rest))))
      have read := readMembers_spell name value others exact depth fuel
        (by simp only [Layout.spell, List.length_cons, List.length_append] at enough; omega) rest
      rw [text]
      refine readValue_object (fun behind same => ?_) (solid.symm ▸ read)
      rw [solid, toList_quote] at same
      exact absurd (List.cons.inj same).1 (by decide)
  | real | brokenString => exact exact.elim
termination_by fuel

theorem readItems_spell (first : Json) (others : List Json) (exact : AllExact (first :: others)) (depth fuel : Nat)
    (enough : 2 * ((layout.spell (depth + 1) first).length + (layout.spellItems depth others).length) + 1 ≤ fuel)
    (rest : List Char) :
    readItems fuel (layout.spell (depth + 1) first ++ (layout.spellItems depth others ++ ']' :: rest)) =
      some (first :: others, rest) := by
  obtain ⟨fuel, rfl⟩ : ∃ less, fuel = less + 1 := ⟨fuel - 1, by omega⟩
  have read := readValue_spell first exact.1 (depth + 1) fuel (by omega)
    (endsNumber_spellItems layout depth others rest)
  rw [readItems_item read]
  match others with
  | [] =>
    rw [Layout.spellItems, skipBlanks_append (layout.line_blank depth), skipBlanks_cons (by decide)]
    rfl
  | second :: further =>
    have behind := readItems_spell second further exact.2 depth fuel
      (by simp only [Layout.spellItems, List.length_cons, List.length_append] at enough; omega) rest
    have solid := skipBlanks_spell layout exact.2.1 (layout.line_blank (depth + 1)) (depth + 1)
      (layout.spellItems depth further ++ ']' :: rest)
    rw [Layout.spellItems, List.cons_append, skipBlanks_cons (by decide), List.append_assoc, List.append_assoc]
    show (readItems fuel (skipBlanks _)).map _ = _
    rw [solid, behind]
    rfl
termination_by fuel

theorem readMembers_spell (name : String) (value : Json) (others : List (String × Json))
    (exact : MembersExact ((name, value) :: others)) (depth fuel : Nat)
    (enough : 2 * ((layout.spell (depth + 1) value).length + (layout.spellMembers depth others).length) + 1 ≤ fuel)
    (rest : List Char) :
    readMembers fuel ((quote name).toList ++ ':' :: (layout.gap ++ (layout.spell (depth + 1) value ++
      (layout.spellMembers depth others ++ '\x7d' :: rest)))) = some ((name, value) :: others, rest) := by
  obtain ⟨fuel, rfl⟩ : ∃ less, fuel = less + 1 := ⟨fuel - 1, by omega⟩
  have read := readValue_spell value exact.1 (depth + 1) fuel (by omega)
    (endsNumber_spellMembers layout depth others rest)
  rw [← skipBlanks_spell layout exact.1 layout.gap_blank (depth + 1)] at read
  obtain ⟨tail, isTail, isName⟩ := readBody_quote name (':' :: (layout.gap ++ (layout.spell (depth + 1) value ++
    (layout.spellMembers depth others ++ '\x7d' :: rest))))
  rw [isTail, readMembers_member isName read]
  match others with
  | [] =>
    rw [Layout.spellMembers, skipBlanks_append (layout.line_blank depth), skipBlanks_cons (by decide)]
    rfl
  | (second, item) :: further =>
    have behind := readMembers_spell second item further exact.2 depth fuel
      (by simp only [Layout.spellMembers, List.length_cons, List.length_append] at enough; omega) rest
    have solid := skipBlanks_quote (layout.line_blank (depth + 1)) second (':' :: (layout.gap ++
      (layout.spell (depth + 1) item ++ (layout.spellMembers depth further ++ '\x7d' :: rest))))
    rw [Layout.spellMembers, List.cons_append, skipBlanks_cons (by decide)]
    simp only [List.append_assoc, List.cons_append]
    show (readMembers fuel (skipBlanks _)).map _ = _
    rw [solid, behind]
    rfl
termination_by fuel

end

end

/-- A text that spells a value without reals in some layout is read as the value. -/
theorem read?_of_spell {value : Json} (exact : value.IsExact) {text : String} {layout : Layout} {depth : Nat}
    (spelled : text.toList = layout.spell depth value) : read? text = some value := by
  have solid := skipBlanks_spell layout exact (List.forall_mem_nil _) depth []
  rw [List.nil_append, List.append_nil] at solid
  have read := readValue_spell layout value exact depth (2 * (layout.spell depth value).length + 2)
    (by omega) (show EndsNumber [] from fun _ isFirst => absurd isFirst (by simp))
  rw [List.append_nil] at read
  rw [read?]
  simp only [spelled, solid, read, bind, Option.bind]
  rfl

/-! ### Compact and indented texts -/

section

open Json.Layout

mutual

theorem toList_compact : ∀ (value : Json) (depth : Nat), value.compact.toList = none.spell depth value
  | array [], _ | object [], _ => rfl
  | array (first :: rest), depth => by
    have further := toList_compactItems rest depth
    simp [compact, compactItems, spell, line_none, String.toList_intercalate, intercalate_cons,
      toList_compact first (depth + 1), further]
  | object ((name, value) :: rest), depth => by
    have further := toList_compactMembers rest depth
    simp [compact, compactMembers, spell, line_none, gap_none, String.toList_intercalate, intercalate_cons,
      toList_compact value (depth + 1), further]
  | null, _ | bool _, _ | int _, _ | real _, _ | string _, _ | brokenString, _ => rfl

theorem toList_compactItems : ∀ (items : List Json) (depth : Nat),
    ((compactItems items).map String.toList).flatMap (',' :: ·) = none.spellItems depth items
  | [], _ => rfl
  | first :: rest, depth => by
    simp [compactItems, spellItems, line_none, toList_compact first (depth + 1), toList_compactItems rest depth]

theorem toList_compactMembers : ∀ (members : List (String × Json)) (depth : Nat),
    ((compactMembers members).map String.toList).flatMap (',' :: ·) = none.spellMembers depth members
  | [], _ => rfl
  | (name, value) :: rest, depth => by
    simp [compactMembers, spellMembers, line_none, gap_none, toList_compact value (depth + 1),
      toList_compactMembers rest depth]

end

/-- Parts on lines of their own, without the first one: they stand behind it, and the line of the bracket behind them. -/
theorem toList_indented (depth : Nat) (first last part : String) (parts : List String) :
    (indented depth first last (part :: parts)).toList =
      first.toList ++ (Layout.indented.line (depth + 1) ++ (part.toList ++
        ((parts.map String.toList).flatMap (fun part => ',' :: (Layout.indented.line (depth + 1) ++ part)) ++
          (Layout.indented.line depth ++ last.toList)))) := by
  simp [Json.indented, Layout.indented, String.toList_intercalate, intercalate_cons, List.flatMap_map]

mutual

theorem toList_pretty : ∀ (value : Json) (depth : Nat),
    (value.pretty depth).toList = Layout.indented.spell depth value
  | array [], _ => by simp [pretty, prettyItems, Json.indented, spell]
  | object [], _ => by simp [pretty, prettyMembers, Json.indented, spell]
  | array (first :: rest), depth => by
    have further := toList_prettyItems rest depth
    rw [pretty, prettyItems, toList_indented, ← List.append_assoc (List.flatMap _ _), further,
      toList_pretty first (depth + 1)]
    simp [spell]
  | object ((name, value) :: rest), depth => by
    have further := toList_prettyMembers rest depth
    rw [pretty, prettyMembers, toList_indented, ← List.append_assoc (List.flatMap _ _), further]
    simp [spell, toList_pretty value (depth + 1), gap_indented]
  | null, _ | bool _, _ | int _, _ | real _, _ | string _, _ | brokenString, _ => rfl

theorem toList_prettyItems : ∀ (items : List Json) (depth : Nat),
    ((prettyItems (depth + 1) items).map String.toList).flatMap
        (fun part => ',' :: (Layout.indented.line (depth + 1) ++ part)) ++ Layout.indented.line depth =
      Layout.indented.spellItems depth items
  | [], _ => rfl
  | first :: rest, depth => by
    have further := toList_prettyItems rest depth
    simp [prettyItems, spellItems, toList_pretty first (depth + 1), further]

theorem toList_prettyMembers : ∀ (members : List (String × Json)) (depth : Nat),
    ((prettyMembers (depth + 1) members).map String.toList).flatMap
        (fun part => ',' :: (Layout.indented.line (depth + 1) ++ part)) ++ Layout.indented.line depth =
      Layout.indented.spellMembers depth members
  | [], _ => rfl
  | (name, value) :: rest, depth => by
    have further := toList_prettyMembers rest depth
    simp [prettyMembers, spellMembers, gap_indented, toList_pretty value (depth + 1), further]

end

end

/-- The written form of a value without reals is read back as the value. -/
theorem read?_compact {value : Json} (exact : value.IsExact) : read? value.compact = some value :=
  read?_of_spell exact (toList_compact value 0)

/-- The indented form of a value without reals is read back as the value. -/
theorem read?_pretty {value : Json} (exact : value.IsExact) (depth : Nat) : read? (value.pretty depth) = some value :=
  read?_of_spell exact (toList_pretty value depth)

/-! ### Decoding -/

theorem intIn?_int {low high value : Int} (above : low ≤ value) (below : value ≤ high) :
    (int value).intIn? low high = some value := if_pos ⟨above, below⟩

theorem unsigned?_int {bound number : Nat} (inside : number < bound) :
    (int number).unsigned? bound = some number := by
  rw [unsigned?, intIn?_int (by omega) (by omega)]
  rfl

/-- Lists come back if their items do. -/
theorem list?_map {α : Type} (item? : Json → Option α) (toJson : α → Json)
    (returns : ∀ item, item? (toJson item) = some item) (items : List α) :
    list? item? (array (items.map toJson)) = some items := by
  rw [list?]
  induction items with
  | nil => rfl
  | cons first rest ih => simp [List.mapM_cons, returns, ih]

theorem allExact_map {α : Type} (toJson : α → Json) (exact : ∀ item, (toJson item).IsExact) (items : List α) :
    AllExact (items.map toJson) := by
  induction items with
  | nil => trivial
  | cons first rest ih => exact ⟨exact first, ih⟩

@[simp]
theorem isExact_map {α : Type} (toJson : α → Json) (items : List α) (exact : ∀ item, (toJson item).IsExact) :
    (array (items.map toJson)).IsExact := allExact_map toJson exact items

end Snippet.Json
