import Mathlib.Algebra.GroupWithZero.Nat
import Snippet.Machine.Step
import Snippet.Proofs.Source.Boundary

/-!
The members of texts agree with each other. Texts are searched by bytes, and indices and lengths count characters: a
text stands at a byte position of another one only if its characters stand at the character there, so the characters in
front of the position are the index. Main statement: `BuiltinMember.agree`.
-/

namespace Snippet

namespace Text

/-! ### Places of a pattern -/

section

variable {α : Type} {pattern whole : List α} {index : Nat}

/-- Whether a list stands in another one behind a number of elements. -/
structure MatchesAt (pattern whole : List α) (index : Nat) : Prop where
  inside : index ≤ whole.length
  starts : pattern <+: whole.drop index

/-- Whether a list stands in another one behind a number of elements, and behind none that is smaller. -/
structure FirstAt (pattern whole : List α) (index : Nat) : Prop where
  matchesAt : MatchesAt pattern whole index
  isFirst : ∀ earlier < index, ¬MatchesAt pattern whole earlier

theorem matchesAt_zero_iff : MatchesAt pattern whole 0 ↔ pattern <+: whole :=
  ⟨MatchesAt.starts, fun starts => ⟨Nat.zero_le _, starts⟩⟩

theorem matchesAt_succ_iff {first : α} :
    MatchesAt pattern (first :: whole) (index + 1) ↔ MatchesAt pattern whole index :=
  ⟨fun ⟨inside, starts⟩ => ⟨Nat.le_of_succ_le_succ inside, starts⟩,
    fun ⟨inside, starts⟩ => ⟨Nat.succ_le_succ inside, starts⟩⟩

theorem not_matchesAt_nil (isSome : pattern ≠ []) : ¬MatchesAt pattern [] index := by
  intro ⟨_, starts⟩
  rw [List.drop_nil] at starts
  exact isSome (List.prefix_nil.1 starts)

theorem matchesAt_append_iff {front : List α} :
    MatchesAt pattern (front ++ whole) (front.length + index) ↔ MatchesAt pattern whole index := by
  have sameDrop : (front ++ whole).drop (front.length + index) = whole.drop index := by simp
  constructor
  · rintro ⟨inside, starts⟩
    rw [List.length_append] at inside
    exact ⟨by omega, sameDrop ▸ starts⟩
  · rintro ⟨inside, starts⟩
    refine ⟨?_, sameDrop.symm ▸ starts⟩
    rw [List.length_append]
    omega

/-- The part of a list from a match on that is as long as the pattern is the pattern. -/
theorem matchesAt_iff_take : MatchesAt pattern whole index ↔
    index + pattern.length ≤ whole.length ∧ (whole.drop index).take pattern.length = pattern := by
  constructor
  · rintro ⟨inside, starts⟩
    have length := starts.length_le
    rw [List.length_drop] at length
    exact ⟨by omega, (List.prefix_iff_eq_take.1 starts).symm⟩
  · rintro ⟨inside, isPattern⟩
    exact ⟨by omega, List.prefix_iff_eq_take.2 isPattern.symm⟩

end

section

variable {pattern characters : List Char} {index : Nat}

theorem indexIn?_le_length (found : indexIn? pattern characters = some index) : index ≤ characters.length := by
  induction characters generalizing index with
  | nil =>
    rw [indexIn?] at found
    split at found <;> cases found
    exact Nat.le_refl 0
  | cons character rest ih =>
    rw [indexIn?] at found
    split at found
    · cases found
      exact Nat.zero_le _
    · obtain ⟨before, here, rfl⟩ := Option.map_eq_some_iff.1 found
      exact Nat.succ_le_succ (ih here)

theorem firstAt_of_indexIn? (found : indexIn? pattern characters = some index) : FirstAt pattern characters index where
  matchesAt := ⟨indexIn?_le_length found, List.isPrefixOf_iff_prefix.1 (indexIn?_isPrefixOf found)⟩
  isFirst earlier before := by
    intro ⟨_, starts⟩
    have differs := not_isPrefixOf_of_lt found earlier before
    rw [List.isPrefixOf_iff_prefix.2 starts] at differs
    cases differs

theorem not_matchesAt_of_indexIn? (missing : indexIn? pattern characters = none) (index : Nat) :
    ¬MatchesAt pattern characters index := by
  induction characters generalizing index with
  | nil =>
    rw [indexIn?] at missing
    split at missing
    · cases missing
    · next isSome => exact not_matchesAt_nil (by simpa using isSome)
  | cons character rest ih =>
    rw [indexIn?] at missing
    split at missing
    · cases missing
    · next differs =>
      cases index with
      | zero => rwa [matchesAt_zero_iff, ← List.isPrefixOf_iff_prefix]
      | succ index =>
        rw [matchesAt_succ_iff]
        exact ih (Option.map_eq_none_iff.1 missing) index

end

/-! ### Bytes -/

/-- The bytes of characters. -/
def bytes (characters : List Char) : List UInt8 := characters.flatMap String.utf8EncodeChar

theorem length_bytes (characters : List Char) : (bytes characters).length = byteSize characters := by
  induction characters with
  | nil => rfl
  | cons character rest ih =>
    rw [bytes, List.flatMap_cons, List.length_append, String.length_utf8EncodeChar, Cursor.byteSize_cons]
    exact congrArg _ ih

theorem bytes_cons (character : Char) (rest : List Char) :
    bytes (character :: rest) = String.utf8EncodeChar character ++ bytes rest := List.flatMap_cons

/-- The first bytes tell characters apart. -/
theorem eq_of_utf8EncodeChar_append {first second : Char} {rest rest' : List UInt8}
    (same : String.utf8EncodeChar first ++ rest = String.utf8EncodeChar second ++ rest') : first = second := by
  have decoded := congrArg (fun bytes => bytes.toByteArray.utf8DecodeChar? 0) same
  simp only [List.toByteArray_append, ByteArray.utf8DecodeChar?_utf8EncodeChar_append] at decoded
  exact Option.some.inj decoded

/-- The bytes of characters begin with those of others exactly if the characters do. -/
theorem bytes_prefix_iff {pattern characters : List Char} :
    bytes pattern <+: bytes characters ↔ pattern <+: characters := by
  induction pattern generalizing characters with
  | nil => simp [bytes]
  | cons first rest ih =>
    cases characters with
    | nil => simp [bytes, String.utf8EncodeChar_ne_nil]
    | cons character characters =>
      rw [List.cons_prefix_cons, ← ih, bytes_cons, bytes_cons]
      constructor
      · intro starts
        obtain ⟨behind, same⟩ := starts
        obtain rfl : first = character := eq_of_utf8EncodeChar_append (by rw [← List.append_assoc]; exact same)
        rw [List.append_assoc] at same
        exact ⟨rfl, behind, List.append_cancel_left same⟩
      · rintro ⟨rfl, starts⟩
        exact (List.prefix_append_right_inj _).2 starts

/-- Inside the bytes of a character no other character begins. -/
theorem not_matchesAt_inside {pattern characters : List Char} {character : Char} {position : Nat}
    (isSome : pattern ≠ []) (isInside : 0 < position ∧ position < character.utf8Size) :
    ¬MatchesAt (bytes pattern) (bytes (character :: characters)) position := by
  intro ⟨_, behind, same⟩
  obtain ⟨first, rest, rfl⟩ := List.exists_cons_of_ne_nil isSome
  rw [← String.length_utf8EncodeChar] at isInside
  have byte : (bytes (character :: characters))[position]? = (String.utf8EncodeChar first)[0]? := by
    have here := congrArg (·[0]?) same
    rw [bytes_cons, List.append_assoc] at here
    simp only [List.getElem?_drop, Nat.add_zero] at here
    rw [← here, List.getElem?_append_left (List.length_pos_iff.2 String.utf8EncodeChar_ne_nil)]
  rw [bytes_cons, List.getElem?_append_left isInside.2, List.getElem?_eq_getElem isInside.2,
    List.getElem?_eq_getElem (List.length_pos_iff.2 String.utf8EncodeChar_ne_nil), Option.some_inj] at byte
  have isFirst := UInt8.isUTF8FirstByte_getElem_zero_utf8EncodeChar (c := first)
  rw [← byte, UInt8.isUTF8FirstByte_getElem_utf8EncodeChar] at isFirst
  exact Nat.ne_of_gt isInside.1 isFirst

/-- A match in characters lies in front of the first one or behind it. -/
theorem exists_matchesAt_cons_iff {pattern characters : List Char} {character : Char} {position : Nat} :
    (∃ index, MatchesAt pattern (character :: characters) index ∧
        position = (bytes ((character :: characters).take index)).length) ↔
      position = 0 ∧ pattern <+: character :: characters ∨
        ∃ index, MatchesAt pattern characters index ∧
          position = character.utf8Size + (bytes (characters.take index)).length := by
  constructor
  · rintro ⟨_ | index, found, isPosition⟩
    · exact .inl ⟨isPosition, matchesAt_zero_iff.1 found⟩
    · refine .inr ⟨index, matchesAt_succ_iff.1 found, ?_⟩
      rw [isPosition, List.take_succ_cons, bytes_cons, List.length_append, String.length_utf8EncodeChar]
  · rintro (⟨rfl, starts⟩ | ⟨index, found, rfl⟩)
    · exact ⟨0, matchesAt_zero_iff.2 starts, rfl⟩
    · refine ⟨index + 1, matchesAt_succ_iff.2 found, ?_⟩
      rw [List.take_succ_cons, bytes_cons, List.length_append, String.length_utf8EncodeChar]

/-- A place of bytes lies on a boundary of characters. -/
theorem matchesAt_bytes_iff {pattern characters : List Char} (isSome : pattern ≠ []) {position : Nat} :
    MatchesAt (bytes pattern) (bytes characters) position ↔
      ∃ index, MatchesAt pattern characters index ∧ position = (bytes (characters.take index)).length := by
  induction characters generalizing position with
  | nil =>
    have hasBytes : bytes pattern ≠ [] := by
      obtain ⟨first, rest, rfl⟩ := List.exists_cons_of_ne_nil isSome
      rw [bytes_cons]
      exact List.append_ne_nil_of_left_ne_nil String.utf8EncodeChar_ne_nil _
    exact ⟨fun found => absurd found (not_matchesAt_nil hasBytes),
      fun ⟨_, found, _⟩ => absurd found (not_matchesAt_nil isSome)⟩
  | cons character rest ih =>
    rw [exists_matchesAt_cons_iff]
    have isWide := character.utf8Size_pos
    by_cases isInside : position < character.utf8Size
    · have notBehind (index : Nat) : position ≠ character.utf8Size + (bytes (rest.take index)).length := by omega
      rcases Nat.eq_zero_or_pos position with rfl | positive
      · simp [matchesAt_zero_iff, bytes_prefix_iff, notBehind]
      · simp [not_matchesAt_inside isSome ⟨positive, isInside⟩, Nat.ne_of_gt positive, notBehind]
    · obtain ⟨more, rfl⟩ := Nat.exists_eq_add_of_le (Nat.le_of_not_lt isInside)
      have isBehind : character.utf8Size + more ≠ 0 := by omega
      have behind : MatchesAt (bytes pattern) (bytes (character :: rest)) (character.utf8Size + more) ↔
          MatchesAt (bytes pattern) (bytes rest) more := by
        rw [bytes_cons, ← String.length_utf8EncodeChar, matchesAt_append_iff]
      rw [behind, ih]
      simp only [isBehind, false_and, false_or, Nat.add_left_cancel_iff]

/-- The first place in the bytes is the size of the characters in front of the first place in the characters. -/
theorem FirstAt.bytes {pattern characters : List Char} {index : Nat} (first : FirstAt pattern characters index) :
    FirstAt (Text.bytes pattern) (Text.bytes characters) (byteSize (characters.take index)) := by
  rw [← length_bytes]
  by_cases isSome : pattern = []
  · subst isSome
    obtain rfl : index = 0 := Nat.eq_zero_of_not_pos fun positive =>
      first.isFirst 0 positive ⟨Nat.zero_le _, List.nil_prefix⟩
    exact ⟨⟨Nat.zero_le _, List.nil_prefix⟩, fun earlier before => absurd before (Nat.not_lt_zero _)⟩
  · refine ⟨(matchesAt_bytes_iff isSome).2 ⟨index, first.matchesAt, rfl⟩, fun earlier before isThere => ?_⟩
    obtain ⟨other, found, rfl⟩ := (matchesAt_bytes_iff isSome).1 isThere
    refine first.isFirst other (Nat.lt_of_not_le fun isBehind => ?_) found
    -- Characters up to a later place have at least as many bytes.
    obtain ⟨more, same⟩ := List.take_prefix_take_left (l := characters) isBehind
    rw [← same, Text.bytes, List.flatMap_append, List.length_append] at before
    exact absurd before (Nat.not_lt.2 (Nat.le_add_right _ _))

/-- Characters that stand nowhere have no place in the bytes. -/
theorem not_matchesAt_bytes {pattern characters : List Char} (missing : ∀ index, ¬MatchesAt pattern characters index)
    (position : Nat) : ¬MatchesAt (bytes pattern) (bytes characters) position := by
  have isSome : pattern ≠ [] := by
    rintro rfl
    exact missing 0 ⟨Nat.zero_le _, List.nil_prefix⟩
  rw [matchesAt_bytes_iff isSome]
  exact fun ⟨index, found, _⟩ => missing index found

end Text

namespace BuiltinMember

open Text

/-! ### Results of members -/

/-- Whether a member of a text gives a value, in every world, and leaves the world as it is. -/
def Gives (member : BuiltinMember) (text : String) (arguments : List Value) (value : Value) : Prop :=
  member.apply (.text text) arguments = pure (some value)

/-- Whether a member is one of texts and has a result. -/
def IsOfText (member : BuiltinMember) (text : String) (arguments : List Value) (result : Except Exception Value) :
    Prop :=
  onAny? member (.text text) arguments = none ∧ onText? member text arguments = some result

section

variable {member : BuiltinMember} {text : String} {arguments : List Value} {result : Except Exception Value}
  {value : Value}

theorem IsOfText.gives_iff (isOfText : member.IsOfText text arguments result) :
    member.Gives text arguments value ↔ result = .ok value := by
  have applied : member.apply (.text text) arguments = some <$> Action.ofExcept result := by
    unfold apply
    rw [isOfText.1]
    dsimp only
    rw [isOfText.2]
  rw [Gives, applied]
  cases result with
  | ok found =>
    constructor
    · intro same
      have run := congrArg (fun action : Action (Option Value) => (action.run .empty).1) same
      cases run
      rfl
    · rintro ⟨⟩
      rfl
  | error exception =>
    constructor
    · intro same
      have run := congrArg (fun action : Action (Option Value) => (action.run .empty).1) same
      cases run
    · nofun

end

/-- The length of a text, as a number of the program. -/
def lengthOf (text : String) : Int32 := .ofNat text.length

theorem toInt_lengthOf {text : String} (short : text.length < 2 ^ 31) : (lengthOf text).toInt = text.length :=
  Int32.toInt_ofNat_of_lt short

theorem lengthValue_of_lt {length : Nat} (short : length < 2 ^ 31) : lengthValue length = .int (.ofNat length) := by
  rw [lengthValue, Nat.min_eq_left (by omega)]

theorem gives_length (text : String) : textLength.Gives text [] (lengthValue text.length) := rfl

/-! ### Substrings -/

section

variable {text result : String} {start count : Int} {index amount : Int32} {value : Value}

theorem substring_eq_ok_iff : substring text start none = .ok result ↔
    (0 ≤ start ∧ start ≤ text.length) ∧ result.toList = text.toList.drop start.toNat := by
  rw [substring, String.length_toList]
  dsimp only
  split
  · next outside => simp; omega
  · next inside =>
    rw [Except.ok.injEq, ← String.toList_inj, String.toList_ofList, eq_comm]
    exact ⟨fun same => ⟨by omega, same⟩, And.right⟩

theorem substringRange_eq_ok_iff : substring text start (some count) = .ok result ↔
    ((0 ≤ start ∧ start ≤ text.length) ∧ 0 ≤ count ∧ start + count ≤ text.length) ∧
      result.toList = (text.toList.drop start.toNat).take count.toNat := by
  rw [substring, String.length_toList]
  dsimp only
  split
  · next outside => simp; omega
  · next inside =>
    split
    · next outside => simp; omega
    · next within =>
      rw [Except.ok.injEq, ← String.toList_inj, String.toList_ofList, eq_comm]
      exact ⟨fun same => ⟨by omega, same⟩, And.right⟩

theorem gives_substring_iff : textSubstring.Gives text [.int index] value ↔
    ∃ result, substring text index.toInt none = .ok result ∧ value = .text result := by
  have isOfText : textSubstring.IsOfText text [.int index]
      (substring text index.toInt none >>= fun result => pure (.text result)) := ⟨rfl, rfl⟩
  rw [isOfText.gives_iff]
  cases substring text index.toInt none with
  | error exception => simp [bind, Except.bind]
  | ok result => simp [bind, Except.bind, pure, Except.pure, eq_comm]

theorem gives_substringRange_iff : textSubstringRange.Gives text [.int index, .int amount] value ↔
    ∃ result, substring text index.toInt (some amount.toInt) = .ok result ∧ value = .text result := by
  have isOfText : textSubstringRange.IsOfText text [.int index, .int amount]
      (substring text index.toInt (some amount.toInt) >>= fun result => pure (.text result)) := ⟨rfl, rfl⟩
  rw [isOfText.gives_iff]
  cases substring text index.toInt (some amount.toInt) with
  | error exception => simp [bind, Except.bind]
  | ok result => simp [bind, Except.bind, pure, Except.pure, eq_comm]

end

/-! ### Searching -/

section

variable {text pattern : String} {index : Int32}

theorem gives_indexOf (text pattern : String) : textIndexOf.Gives text [.text pattern]
    (((indexOf? text pattern).map lengthValue).getD (.int (-1))) := by
  have isOfText : textIndexOf.IsOfText text [.text pattern]
      (.ok (((indexOf? text pattern).map lengthValue).getD (.int (-1)))) := by
    refine ⟨rfl, congrArg some ?_⟩
    rw [show textArgument [.text pattern] 0 "value" = .ok pattern from rfl]
    dsimp only [bind, Except.bind]
    cases indexOf? text pattern <;> rfl
  exact isOfText.gives_iff.2 rfl

theorem gives_contains (text pattern : String) :
    textContains.Gives text [.text pattern] (.bool (occursIn pattern text)) := rfl

theorem gives_startsWith (text pattern : String) :
    textStartsWith.Gives text [.text pattern] (.bool (beginsWith text pattern)) := rfl

theorem gives_endsWith (text pattern : String) :
    textEndsWith.Gives text [.text pattern] (.bool (endsWith text pattern)) := rfl

/-- Whether the part of a text from an index on that is as long as a pattern is the pattern. -/
def ContinuesWith (text pattern : String) (index : Int32) : Prop :=
  textSubstringRange.Gives text [.int index, .int (lengthOf pattern)] (.text pattern)

/-- A text continues with a pattern where its characters stand. -/
theorem continuesWith_iff (short : pattern.length < 2 ^ 31) : ContinuesWith text pattern index ↔
    0 ≤ index.toInt ∧ MatchesAt pattern.toList text.toList index.toInt.toNat := by
  rw [ContinuesWith, gives_substringRange_iff, matchesAt_iff_take, toInt_lengthOf short, String.length_toList,
    String.length_toList]
  constructor
  · rintro ⟨result, isResult, same⟩
    cases same
    obtain ⟨inside, isPattern⟩ := substringRange_eq_ok_iff.1 isResult
    exact ⟨inside.1.1, by omega, isPattern.symm⟩
  · rintro ⟨notNegative, inside, isPattern⟩
    exact ⟨pattern, substringRange_eq_ok_iff.2 ⟨by omega, isPattern.symm⟩, rfl⟩

end

/-- Whether an index is that of a pattern in a text: the least one from which on the text continues with the pattern, or
-1 where there is none. It is the number of characters in front of the first byte from which on the bytes of the pattern
stand in those of the text. -/
def IsIndexOf (text pattern : String) (index : Int32) : Prop :=
  (ContinuesWith text pattern index ∧ (∀ other, ContinuesWith text pattern other → index ≤ other) ∧
      ∃ position front, FirstAt (bytes pattern.toList) (bytes text.toList) position ∧
        Bytes.slice? text 0 position = some front ∧ index.toInt = front.length) ∨
    index = -1 ∧ (∀ other, ¬ContinuesWith text pattern other) ∧
      ∀ position, ¬MatchesAt (bytes pattern.toList) (bytes text.toList) position

/-- What the members of texts say about a text and a pattern, in characters. -/
structure Agree (text pattern : String) : Prop where
  /-- The length is the number of characters. -/
  length : textLength.Gives text [] (.int (lengthOf text)) ∧ (lengthOf text).toInt = text.toList.length
  /-- A text contains the pattern if there is an index of it, and begins with the pattern if the index is 0. -/
  index : ∃ index, textIndexOf.Gives text [.text pattern] (.int index) ∧ IsIndexOf text pattern index ∧
    textContains.Gives text [.text pattern] (.bool (index != -1)) ∧
    textStartsWith.Gives text [.text pattern] (.bool (index == 0))
  /-- A text ends with a pattern that is no longer if the pattern stands in its last place. -/
  ends : ∃ ends, textEndsWith.Gives text [.text pattern] (.bool ends) ∧
    (ends = true ↔ lengthOf pattern ≤ lengthOf text ∧
      textSubstring.Gives text [.int (lengthOf text - lengthOf pattern)] (.text pattern))
  /-- There is a rest of the text from each index in it on, and from its end on. -/
  substring : ∀ index rest, textSubstring.Gives text [.int index] (.text rest) ↔
    (0 ≤ index ∧ index ≤ lengthOf text) ∧ rest.toList = text.toList.drop index.toInt.toNat
  /-- There is a part of the text if neither its start nor its end lies outside of the text. -/
  substringRange : ∀ index amount part,
    textSubstringRange.Gives text [.int index, .int amount] (.text part) ↔
      ((0 ≤ index ∧ index ≤ lengthOf text) ∧ 0 ≤ amount ∧ index.toInt + amount.toInt ≤ (lengthOf text).toInt) ∧
        part.toList = (text.toList.drop index.toInt.toNat).take amount.toInt.toNat
  /-- A text is joined of its parts in front of an index and from there on. -/
  joined : ∀ index : Int32, 0 ≤ index → index ≤ lengthOf text → ∃ front rest,
    textSubstringRange.Gives text [.int 0, .int index] (.text front) ∧
      textSubstring.Gives text [.int index] (.text rest) ∧
      Operation.concat.apply (.text front) (.text rest) = .ok (.text text)

section

variable {text pattern : String}

theorem gives_substring_text_iff (short : text.length < 2 ^ 31) {index : Int32} {rest : String} :
    textSubstring.Gives text [.int index] (.text rest) ↔
      (0 ≤ index ∧ index ≤ lengthOf text) ∧ rest.toList = text.toList.drop index.toInt.toNat := by
  rw [gives_substring_iff, Int32.le_iff_toInt_le, Int32.le_iff_toInt_le, Int32.toInt_zero, toInt_lengthOf short,
    ← substring_eq_ok_iff]
  exact ⟨fun ⟨_, isRest, same⟩ => by cases same; exact isRest, fun isRest => ⟨rest, isRest, rfl⟩⟩

theorem gives_substringRange_text_iff (short : text.length < 2 ^ 31) {index amount : Int32} {part : String} :
    textSubstringRange.Gives text [.int index, .int amount] (.text part) ↔
      ((0 ≤ index ∧ index ≤ lengthOf text) ∧ 0 ≤ amount ∧ index.toInt + amount.toInt ≤ (lengthOf text).toInt) ∧
        part.toList = (text.toList.drop index.toInt.toNat).take amount.toInt.toNat := by
  rw [gives_substringRange_iff, Int32.le_iff_toInt_le, Int32.le_iff_toInt_le, Int32.le_iff_toInt_le, Int32.toInt_zero,
    toInt_lengthOf short, ← substringRange_eq_ok_iff]
  exact ⟨fun ⟨_, isPart, same⟩ => by cases same; exact isPart, fun isPart => ⟨part, isPart, rfl⟩⟩

/-- The index of a pattern that is found. -/
theorem isIndexOf_of_some (short : text.length < 2 ^ 31) (short' : pattern.length < 2 ^ 31) {index : Nat}
    (first : FirstAt pattern.toList text.toList index) : IsIndexOf text pattern (.ofNat index) := by
  have inside := first.matchesAt.inside
  rw [String.length_toList] at inside
  have isIndex : (Int32.ofNat index).toInt = index := Int32.toInt_ofNat_of_lt (Nat.lt_of_le_of_lt inside short)
  refine .inl ⟨?_, fun other found => ?_, _, text.toList.take index, first.bytes, ?_, ?_⟩
  · rw [continuesWith_iff short', isIndex]
    exact ⟨Int.natCast_nonneg _, first.matchesAt⟩
  · obtain ⟨notNegative, found⟩ := (continuesWith_iff short').1 found
    rw [Int32.le_iff_toInt_le, isIndex]
    have notEarlier : ¬other.toInt.toNat < index := fun before => first.isFirst _ before found
    omega
  · have isIn : Cursor.IsIn ⟨text.toList.take index ++ text.toList.drop index, 0⟩ text := by
      rw [List.take_append_drop]
      exact .start text
    simpa using Bytes.slice?_append _ isIn
  · rw [isIndex, List.length_take, String.length_toList, Nat.min_eq_left inside]

/-- There is no index of a pattern that is not found. -/
theorem isIndexOf_of_none (short : pattern.length < 2 ^ 31)
    (missing : ∀ index, ¬MatchesAt pattern.toList text.toList index) : IsIndexOf text pattern (-1) :=
  .inr ⟨rfl, fun _ found => missing _ ((continuesWith_iff short).1 found).2, not_matchesAt_bytes missing⟩

/-- A text begins with a pattern where it matches in front of all characters. -/
theorem beginsWith_iff : beginsWith text pattern = true ↔ MatchesAt pattern.toList text.toList 0 := by
  rw [beginsWith, List.isPrefixOf_iff_prefix, matchesAt_zero_iff]

theorem agree_index (short : text.length < 2 ^ 31) (short' : pattern.length < 2 ^ 31) :
    ∃ index, textIndexOf.Gives text [.text pattern] (.int index) ∧ IsIndexOf text pattern index ∧
      textContains.Gives text [.text pattern] (.bool (index != -1)) ∧
      textStartsWith.Gives text [.text pattern] (.bool (index == 0)) := by
  have given := gives_indexOf text pattern
  have contained := gives_contains text pattern
  have begun := gives_startsWith text pattern
  rw [occursIn] at contained
  cases found : indexOf? text pattern with
  | none =>
    rw [found] at given contained
    have missing := not_matchesAt_of_indexIn? found
    have notBegun : beginsWith text pattern = false := Bool.eq_false_iff.2 (mt beginsWith_iff.1 (missing 0))
    rw [notBegun] at begun
    exact ⟨-1, given, isIndexOf_of_none short' missing, contained, begun⟩
  | some index =>
    rw [found] at given contained
    have first := firstAt_of_indexIn? found
    have inside := first.matchesAt.inside
    rw [String.length_toList] at inside
    have isShort := Nat.lt_of_le_of_lt inside short
    have isIndex : (Int32.ofNat index).toInt = index := Int32.toInt_ofNat_of_lt isShort
    have isThere : (Int32.ofNat index != -1) = true := by
      rw [bne_iff_ne, Ne, ← Int32.toInt_inj, isIndex]
      show ¬(index : Int) = -1
      omega
    have isStart : (Int32.ofNat index == 0) = beginsWith text pattern := by
      rw [Bool.eq_iff_iff, beginsWith_iff, beq_iff_eq, ← Int32.toInt_inj, isIndex, Int32.toInt_zero]
      constructor
      · intro isZero
        obtain rfl : index = 0 := by omega
        exact first.matchesAt
      · intro begins
        have notBehind : ¬0 < index := fun behind => first.isFirst 0 behind begins
        omega
    refine ⟨.ofNat index, ?_, isIndexOf_of_some short short' first, ?_, ?_⟩
    · rw [← lengthValue_of_lt isShort]
      exact given
    · rw [isThere]
      exact contained
    · rw [isStart]
      exact begun

theorem agree_ends (short : text.length < 2 ^ 31) (short' : pattern.length < 2 ^ 31) :
    endsWith text pattern = true ↔ lengthOf pattern ≤ lengthOf text ∧
      textSubstring.Gives text [.int (lengthOf text - lengthOf pattern)] (.text pattern) := by
  have length := toInt_lengthOf short
  have length' := toInt_lengthOf short'
  rw [gives_substring_text_iff short, Int32.le_iff_toInt_le, Int32.le_iff_toInt_le, Int32.le_iff_toInt_le, length,
    length', endsWith, List.isSuffixOf_iff_suffix]
  by_cases fits : pattern.length ≤ text.length
  · have place : (lengthOf text - lengthOf pattern).toInt = (text.length - pattern.length : Nat) := by
      rw [lengthOf, lengthOf, ← Int32.ofNat_sub _ _ fits]
      exact Int32.toInt_ofNat_of_lt (by omega)
    rw [List.suffix_iff_eq_drop, String.length_toList, String.length_toList, place, Int32.toInt_zero, Int.toNat_natCast]
    exact ⟨fun same => ⟨by omega, by omega, same⟩, fun inPlace => inPlace.2.2⟩
  · have longer (suffix : pattern.toList <:+ text.toList) : False := by
      have length := suffix.length_le
      rw [String.length_toList, String.length_toList] at length
      exact fits length
    exact ⟨fun suffix => (longer suffix).elim, fun inPlace => by omega⟩

/-- The members of texts agree with each other on every two texts that are not too long for an index. -/
theorem agree (short : text.length < 2 ^ 31) (short' : pattern.length < 2 ^ 31) : Agree text pattern where
  length := by
    rw [toInt_lengthOf short, String.length_toList]
    exact ⟨lengthValue_of_lt short ▸ gives_length text, rfl⟩
  index := agree_index short short'
  ends := ⟨_, gives_endsWith text pattern, agree_ends short short'⟩
  substring _ _ := gives_substring_text_iff short
  substringRange _ _ _ := gives_substringRange_text_iff short
  joined index notNegative inside := by
    refine ⟨.ofList (text.toList.take index.toInt.toNat), .ofList (text.toList.drop index.toInt.toNat), ?_, ?_, ?_⟩
    · rw [gives_substringRange_text_iff short]
      rw [Int32.le_iff_toInt_le] at inside
      refine ⟨⟨⟨Int32.le_refl _, ?_⟩, notNegative, ?_⟩, ?_⟩
      · rw [Int32.le_iff_toInt_le, toInt_lengthOf short, Int32.toInt_zero]
        exact Int.natCast_nonneg _
      · rwa [Int32.toInt_zero, Int.zero_add]
      · rw [String.toList_ofList]
        rfl
    · rw [gives_substring_text_iff short]
      exact ⟨⟨notNegative, inside⟩, String.toList_ofList⟩
    · show Except.ok (Value.text (String.ofList _ ++ String.ofList _)) = _
      rw [← String.ofList_append, List.take_append_drop, String.ofList_toList]

end

/-- A pattern of two bytes behind characters of two and of three bytes. -/
theorem agree_accents : "€xé".length < 2 ^ 31 ∧ "é".length < 2 ^ 31 ∧ Agree "€xé" "é" :=
  ⟨by decide, by decide, agree (by decide) (by decide)⟩

end BuiltinMember

end Snippet
