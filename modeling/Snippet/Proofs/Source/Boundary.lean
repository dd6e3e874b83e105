import Snippet.Proofs.Source.Bytes

/-!
Bytes and characters. From a cursor on, the bytes of a text are those of the characters that are left: what is asked of
ASCII characters only is answered alike by the byte and by the character (`Bytes.any_byteAt?`), and loops that step over
single bytes come behind a character that is not ASCII (`Bytes.step_over`). The characters between two cursors are a
slice of the text (`Bytes.slice?_of_reaches`).
-/

namespace Snippet

open Text Lexer

namespace Bytes

/-! ### Bytes of characters -/

/-- The bytes of a character, as the characters of their numbers. -/
def codes (character : Char) : List Char := (String.utf8EncodeChar character).map fun byte => Char.ofNat byte.toNat

theorem utf8Size_eq_one_iff {character : Char} : character.utf8Size = 1 ↔ character.toNat ≤ 127 := by
  rw [Char.utf8Size_eq_one_iff, UInt32.le_iff_toNat_le]
  rfl

theorem toNat_code (byte : UInt8) : (Char.ofNat byte.toNat).toNat = byte.toNat := by
  have small := byte.toNat_lt
  exact toNat_ofNat_of_isValidChar (.inl (by omega))

theorem length_codes (character : Char) : (codes character).length = character.utf8Size := by
  rw [codes, List.length_map, String.length_utf8EncodeChar]

theorem codes_ascii {character : Char} (isAscii : character.utf8Size = 1) : codes character = [character] := by
  have small := utf8Size_eq_one_iff.1 isAscii
  rw [codes, String.utf8EncodeChar_eq_singleton isAscii, List.map_singleton, List.singleton_inj, ← Char.toNat_inj,
    toNat_code, UInt32.toNat_toUInt8]
  exact Nat.mod_eq_of_lt (by show character.toNat < 256; omega)

/-- No byte of another character is that of an ASCII character. -/
theorem codes_wide {character : Char} (isWide : character.utf8Size ≠ 1) : ∀ code ∈ codes character, code.utf8Size ≠ 1 := by
  have bytes : ∀ byte ∈ String.utf8EncodeChar character, 128 ≤ byte.toNat := by
    have notSmall : ¬ character.val.toNat ≤ 127 := mt utf8Size_eq_one_iff.2 isWide
    intro byte member
    rw [String.utf8EncodeChar] at member
    simp only [if_neg notSmall] at member
    split at member
    · simp only [List.mem_cons, List.not_mem_nil, or_false] at member
      rcases member with rfl | rfl <;> simp <;> omega
    · split at member
      · simp only [List.mem_cons, List.not_mem_nil, or_false] at member
        rcases member with rfl | rfl | rfl <;> simp <;> omega
      · simp only [List.mem_cons, List.not_mem_nil, or_false] at member
        rcases member with rfl | rfl | rfl | rfl <;> simp <;> omega
  intro code member
  obtain ⟨byte, isByte, rfl⟩ := List.mem_map.1 member
  have high := bytes byte isByte
  rw [Ne, utf8Size_eq_one_iff, toNat_code]
  omega

theorem length_flatMap_codes (characters : List Char) : (characters.flatMap codes).length = byteSize characters := by
  induction characters with
  | nil => rfl
  | cons character rest ih => rw [List.flatMap_cons, List.length_append, length_codes, ih, Cursor.byteSize_cons]

/-- The bytes of a text are those of its characters. -/
theorem byteAt?_eq (source : String) (pos : Nat) : byteAt? source pos = (source.toList.flatMap codes)[pos]? := by
  have bytes : source.toByteArray.data.toList = source.toList.flatMap String.utf8EncodeChar := by
    rw [← String.utf8Encode_toList, List.utf8Encode, List.toList_data_toByteArray]
  have areCodes : source.toList.flatMap codes =
      (source.toList.flatMap String.utf8EncodeChar).map fun byte => Char.ofNat byte.toNat := List.map_flatMap.symm
  rw [byteAt?, areCodes, ← bytes, List.getElem?_map, Array.getElem?_toList]

end Bytes

/-! ### Cursors -/

namespace Cursor.IsIn

variable {source : String} {character : Char} {rest : List Char} {offset : Nat}

theorem take (front : List Char) (isIn : IsIn ⟨front ++ rest, offset⟩ source) :
    IsIn ⟨rest, offset + byteSize front⟩ source := Cursor.IsBefore.take front isIn

/-- A boundary of characters behind a cursor is reached from it. -/
theorem exists_reaches {cursor : Cursor} {stop : Nat} (isIn : cursor.IsIn source) (isBehind : cursor.offset ≤ stop)
    (isValid : (String.Pos.Raw.mk stop).IsValid source) :
    ∃ (used rest : List Char), cursor.Reaches used ⟨rest, stop⟩ := by
  obtain ⟨front, isSource, isOffset⟩ := isIn.exists_front
  obtain ⟨before, left, isWhole, isStop⟩ := String.Pos.Raw.isValid_iff_exists_append.1 isValid
  have isStop : stop = byteSize before.toList := by
    rw [← Cursor.utf8ByteSize_ofList, String.ofList_toList]
    exact congrArg String.Pos.Raw.byteIdx isStop
  rw [isWhole, String.toList_append] at isSource
  obtain ⟨used, isBefore, isRest⟩ : ∃ used, before.toList = front ++ used ∧ cursor.rest = used ++ left.toList := by
    rcases List.append_eq_append_iff.1 isSource with ⟨others, isFront, isLeft⟩ | found
    · -- The boundary is the cursor itself, so nothing stands between the two.
      cases others with
      | nil => exact ⟨[], by rw [isFront, List.append_nil, List.append_nil], isLeft.symm⟩
      | cons character others =>
        have positive := character.utf8Size_pos
        rw [isOffset, isStop, isFront, Cursor.byteSize_append, Cursor.byteSize_cons] at isBehind
        omega
    · exact found
  exact ⟨used, left.toList, isRest, by rw [isStop, isBefore, isOffset, Cursor.byteSize_append]⟩

/-- Behind an ASCII character. -/
theorem next (isIn : IsIn ⟨character :: rest, offset⟩ source) (isAscii : character.utf8Size = 1) :
    IsIn ⟨rest, offset + 1⟩ source := by
  have behind := isIn.take [character]
  rwa [Cursor.byteSize_cons, isAscii] at behind

end Cursor.IsIn

namespace Bytes

variable {source : String} {cursor behind : Cursor} {character : Char} {rest : List Char} {offset : Nat}

/-- The bytes from a cursor on are those of the characters that are left. -/
theorem byteAt?_add (isIn : cursor.IsIn source) (count : Nat) :
    byteAt? source (cursor.offset + count) = (cursor.rest.flatMap codes)[count]? := by
  obtain ⟨front, isSource, isOffset⟩ := isIn.exists_front
  rw [byteAt?_eq, isSource, isOffset, List.flatMap_append, ← length_flatMap_codes,
    List.getElem?_append_right (Nat.le_add_right _ _), Nat.add_sub_cancel_left]

theorem byteAt?_end (isIn : Cursor.IsIn ⟨[], offset⟩ source) (count : Nat) : byteAt? source (offset + count) = none :=
  byteAt?_add isIn count

theorem byteAt?_ascii (isIn : Cursor.IsIn ⟨character :: rest, offset⟩ source) (isAscii : character.utf8Size = 1) :
    byteAt? source offset = some character := by
  have isCode := byteAt?_add isIn 0
  rwa [List.flatMap_cons, codes_ascii isAscii] at isCode

theorem byteAt?_wide (isIn : Cursor.IsIn ⟨character :: rest, offset⟩ source) (isWide : character.utf8Size ≠ 1)
    {count : Nat} (within : count < character.utf8Size) :
    ∃ code, byteAt? source (offset + count) = some code ∧ code.utf8Size ≠ 1 := by
  have isCode := byteAt?_add isIn count
  rw [← length_codes] at within
  rw [List.flatMap_cons, List.getElem?_append_left within, List.getElem?_eq_getElem within] at isCode
  exact ⟨_, isCode, codes_wide isWide _ (List.getElem_mem within)⟩

/-- What is asked of ASCII characters only is answered alike by the byte and by the character. -/
theorem bind_byteAt? {α : Type} (isIn : Cursor.IsIn ⟨rest, offset⟩ source) {f : Char → Option α}
    (ascii : ∀ character, character.utf8Size ≠ 1 → f character = none) :
    (byteAt? source offset).bind f = rest.head?.bind f := by
  cases rest with
  | nil =>
    have isEnd : byteAt? source offset = none := byteAt?_end isIn 0
    rw [isEnd, List.head?_nil]
  | cons character rest =>
    by_cases isAscii : character.utf8Size = 1
    · rw [byteAt?_ascii isIn isAscii, List.head?_cons]
    · obtain ⟨code, isCode, isWide⟩ := byteAt?_wide isIn isAscii character.utf8Size_pos
      rw [Nat.add_zero] at isCode
      rw [isCode, List.head?_cons, Option.bind_some, Option.bind_some, ascii code isWide, ascii character isAscii]

theorem any_byteAt? (isIn : Cursor.IsIn ⟨rest, offset⟩ source) {inClass : Char → Bool}
    (ascii : ∀ character, inClass character = true → character.utf8Size = 1) :
    (byteAt? source offset).any inClass = rest.head?.any inClass := by
  have same (found : Option Char) :
      found.any inClass = (found.bind fun character => if inClass character then some () else none).isSome := by
    cases found with
    | none => rfl
    | some character => cases isThere : inClass character <;> simp [isThere]
  rw [same, same, bind_byteAt? isIn]
  intro character isWide
  exact if_neg (mt (ascii character) isWide)

theorem byteAt?_eq_some_iff (isIn : Cursor.IsIn ⟨rest, offset⟩ source) (isAscii : character.utf8Size = 1) :
    byteAt? source offset = some character ↔ rest.head? = some character := by
  have same (found : Option Char) : found = some character ↔ found.any (· == character) = true := by
    cases found <;> simp
  rw [same, same, any_byteAt? isIn]
  intro other isSame
  rwa [beq_iff_eq.1 isSame]

/-! ### Loops -/

theorem goOn_eq {α : Type} {pos next : Nat} (isFurther : pos < next) (isInside : pos < source.utf8ByteSize)
    (follow : Nat → Option α) : (goOn source pos next fun _ => follow next) = follow next := dif_pos ⟨isFurther, isInside⟩

/-- A byte stands in front of the end of the text. -/
theorem inside_of_byteAt? {pos : Nat} {code : Char} (isCode : byteAt? source pos = some code) :
    pos < source.utf8ByteSize := by
  rw [byteAt?, Option.map_eq_some_iff] at isCode
  obtain ⟨byte, isByte, _⟩ := isCode
  exact (Array.getElem?_eq_some_iff.1 isByte).1

/-- A character stands in front of the end of the text. -/
theorem inside_of_isIn (isIn : Cursor.IsIn ⟨character :: rest, offset⟩ source) : offset < source.utf8ByteSize := by
  have size : offset + byteSize (character :: rest) = source.utf8ByteSize := isIn.offset_eq
  have positive := character.utf8Size_pos
  rw [Cursor.byteSize_cons] at size
  omega

/-- A loop goes on behind a character. -/
theorem goOn_behind {α : Type} (isIn : Cursor.IsIn ⟨character :: rest, offset⟩ source) {next : Nat}
    (isFurther : offset < next) (follow : Nat → Option α) :
    (goOn source offset next fun _ => follow next) = follow next := goOn_eq isFurther (inside_of_isIn isIn) follow

/-- Steps over the single bytes of a character that is not ASCII lead behind it. -/
theorem step_over {α : Type} {scan : Nat → α} (isIn : Cursor.IsIn ⟨character :: rest, offset⟩ source)
    (isWide : character.utf8Size ≠ 1)
    (steps : ∀ pos code, byteAt? source pos = some code → code.utf8Size ≠ 1 → scan pos = scan (pos + 1))
    {count : Nat} (within : count ≤ character.utf8Size) : scan (offset + count) = scan (offset + character.utf8Size) := by
  induction isLeft : character.utf8Size - count generalizing count with
  | zero =>
    have isAll : count = character.utf8Size := by omega
    rw [isAll]
  | succ left ih =>
    obtain ⟨code, isCode, isWideCode⟩ := byteAt?_wide isIn isWide (show count < character.utf8Size by omega)
    rw [steps _ code isCode isWideCode, Nat.add_assoc, ih (by omega) (by omega)]

/-- Steps over the bytes of a character lead behind it. -/
theorem step_behind {α : Type} {scan : Nat → α} (isIn : Cursor.IsIn ⟨character :: rest, offset⟩ source)
    (ascii : character.utf8Size = 1 → scan offset = scan (offset + 1))
    (steps : ∀ pos code, byteAt? source pos = some code → code.utf8Size ≠ 1 → scan pos = scan (pos + 1)) :
    scan offset = scan (offset + character.utf8Size) := by
  by_cases isAscii : character.utf8Size = 1
  · rw [ascii isAscii, isAscii]
  · exact step_over isIn isAscii steps (Nat.zero_le _)

/-! ### Slices -/

/-- The characters between two cursors are a slice of the text. -/
theorem slice?_of_reaches {used : List Char} (isIn : cursor.IsIn source) (reaches : cursor.Reaches used behind) :
    slice? source cursor.offset behind.offset = some used := by
  rw [slice?, if_pos (isIn.liesIn ⟨used, reaches⟩), isIn.textIn reaches]

/-- The characters in front of others are a slice of the text. -/
theorem slice?_append (used : List Char) (isIn : Cursor.IsIn ⟨used ++ rest, offset⟩ source) :
    slice? source offset (offset + byteSize used) = some used := by
  have reaches : Cursor.Reaches ⟨used ++ rest, offset⟩ used ⟨rest, offset + byteSize used⟩ := ⟨rfl, rfl⟩
  exact slice?_of_reaches isIn reaches

/-- A slice from a cursor on is made up of the characters up to another cursor. -/
theorem exists_of_slice? {stop : Nat} {text : List Char} (isIn : Cursor.IsIn ⟨rest, offset⟩ source)
    (isSlice : slice? source offset stop = some text) :
    ∃ behind : List Char, rest = text ++ behind ∧ offset + byteSize text = stop := by
  unfold slice? at isSlice
  split at isSlice
  · next lies =>
    obtain ⟨used, behind, reaches⟩ := isIn.exists_reaches lies.ordered lies.stops
    have isText : (Span.mk offset stop).textIn source = used := isIn.textIn reaches
    rw [isText] at isSlice
    cases isSlice
    exact ⟨behind, reaches.1, reaches.2.symm⟩
  · cases isSlice

theorem next?_eq (isIn : Cursor.IsIn ⟨rest, offset⟩ source) : next? source offset = some rest.head? := by
  have size : offset + byteSize rest = source.utf8ByteSize := isIn.offset_eq
  rw [← List.append_nil rest] at isIn
  rw [next?, ← size, slice?_append rest isIn]
  rfl

end Bytes

end Snippet
