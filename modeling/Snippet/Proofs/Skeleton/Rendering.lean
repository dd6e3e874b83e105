import Mathlib.Data.List.Induction
import Snippet.Skeleton.Generation

/-!
Rendering of skeletons. Main statements: a skeleton that is written from chunks of text and markers is
rendered to the chunks with the slots filled between them; the rules by which any skeleton is rendered; and
the texts between braces that mark a slot.
-/

namespace Snippet

/-! ### Markers -/

namespace SkeletonSlot

variable {slot : SkeletonSlot}

/-- The digit by which a skeleton may mark a slot. -/
def digit : SkeletonSlot → Char
  | usings => '0'
  | space => '1'
  | className => '2'
  | returnType => '3'
  | methodName => '4'
  | parameters => '5'
  | body => '6'

/-- Whether a text is the digit or the name of a slot. -/
def IsMarker (slot : SkeletonSlot) (marker : List Char) : Prop := marker = [slot.digit] ∨ marker = slot.name.toList

/-- Whether a text is the digit of a slot behind any number of zeros, which a plus sign may precede. -/
def IsNumeral (slot : SkeletonSlot) (marker : List Char) : Prop :=
  ∃ zeros, marker = List.replicate zeros '0' ++ [slot.digit] ∨
    marker = '+' :: (List.replicate zeros '0' ++ [slot.digit])

/-- Whether a text is a numeral of a slot or its name. -/
def Marks (slot : SkeletonSlot) (marker : List Char) : Prop := slot.IsNumeral marker ∨ marker = slot.name.toList

theorem all_getElem?_eq_some_iff {number : Nat} : all[number]? = some slot ↔ number = slot.digit.toNat - '0'.toNat := by
  match number with
  | 0 | 1 | 2 | 3 | 4 | 5 | 6 => cases slot <;> decide
  | number + 7 => cases slot <;> simp [all, digit]

theorem isDigit_digit (slot : SkeletonSlot) : slot.digit.isDigit = true := by
  cases slot <;> rfl

theorem digit_lt (slot : SkeletonSlot) : slot.digit.toNat - '0'.toNat < 10 := by
  cases slot <;> decide

/-- A digit is known by its number. -/
theorem eq_of_isDigit {first second : Char} (isFirst : first.isDigit = true) (isSecond : second.isDigit = true)
    (same : first.toNat - '0'.toNat = second.toNat - '0'.toNat) : first = second := by
  have isLarge {character : Char} (isDigit : character.isDigit = true) : '0'.toNat ≤ character.toNat := by
    simp only [Char.isDigit, Bool.and_eq_true, decide_eq_true_eq] at isDigit
    exact isDigit.1
  have := isLarge isFirst
  have := isLarge isSecond
  exact Char.toNat_inj.1 (by omega)

theorem ofDigits_concat (digits : List Char) (last : Char) :
    Decimal.ofDigits (digits ++ [last]) = 10 * Decimal.ofDigits digits + (last.toNat - '0'.toNat) := by
  rw [Decimal.ofDigits, List.foldl_append]
  rfl

theorem ofDigits_replicate (zeros : Nat) : Decimal.ofDigits (List.replicate zeros '0') = 0 := by
  induction zeros with
  | zero => rfl
  | succ zeros ih => rw [List.replicate_succ', ofDigits_concat, ih]; rfl

/-- Digits that denote zero are zeros. -/
theorem eq_replicate_of_ofDigits {digits : List Char} (areDigits : ∀ digit ∈ digits, digit.isDigit = true)
    (isZero : Decimal.ofDigits digits = 0) : digits = List.replicate digits.length '0' := by
  induction digits using List.reverseRecOn with
  | nil => rfl
  | append_singleton front last ih =>
    rw [List.forall_mem_append, List.forall_mem_singleton] at areDigits
    rw [ofDigits_concat] at isZero
    have isLast : last = '0' := eq_of_isDigit areDigits.2 rfl (by omega)
    rw [List.length_append, List.length_singleton, List.replicate_succ', ← ih areDigits.1 (by omega), isLast]

/-- Digits that denote less than ten are a digit behind zeros. -/
theorem exists_replicate_of_ofDigits {digits : List Char} (isSome : digits ≠ [])
    (areDigits : ∀ digit ∈ digits, digit.isDigit = true) (isSmall : Decimal.ofDigits digits < 10) :
    ∃ zeros last, digits = List.replicate zeros '0' ++ [last] ∧ last.isDigit = true ∧
      Decimal.ofDigits digits = last.toNat - '0'.toNat := by
  obtain ⟨front, last, rfl⟩ := (List.eq_nil_or_concat digits).resolve_left isSome
  rw [List.concat_eq_append] at areDigits isSmall ⊢
  rw [List.forall_mem_append, List.forall_mem_singleton] at areDigits
  rw [ofDigits_concat] at isSmall ⊢
  -- all digits but the last count tenfold
  have isZero : Decimal.ofDigits front = 0 := by omega
  exact ⟨front.length, last, by rw [← eq_replicate_of_ofDigits areDigits.1 isZero], areDigits.2, by omega⟩

/-- The number of a text is that of its digits, which a plus sign may precede. -/
theorem number?_eq_some_iff {marker : List Char} {number : Nat} : number? marker = some number ↔
    ∃ digits, (marker = digits ∨ marker = '+' :: digits) ∧ digits ≠ [] ∧ (∀ digit ∈ digits, digit.isDigit = true) ∧
      Decimal.ofDigits digits = number := by
  have unsigned (digits : List Char) : (if digits.isEmpty ∨ ¬ digits.all Char.isDigit then none
      else some (Decimal.ofDigits digits)) = some number ↔
      digits ≠ [] ∧ (∀ digit ∈ digits, digit.isDigit = true) ∧ Decimal.ofDigits digits = number := by
    simp only [List.isEmpty_iff, List.all_eq_true, ite_eq_iff, reduceCtorEq, and_false, false_or, Option.some_inj]
    tauto
  unfold number?
  dsimp only
  split
  · next digits =>
    rw [unsigned]
    refine ⟨fun isNumber => ⟨digits, .inr rfl, isNumber⟩, ?_⟩
    rintro ⟨others, same | same, isNumber⟩
    · rw [← same] at isNumber
      exact absurd (isNumber.2.1 '+' List.mem_cons_self) (by decide)
    · obtain ⟨-, rfl⟩ := List.cons.inj same
      exact isNumber
  · next noSign =>
    rw [unsigned]
    refine ⟨fun isNumber => ⟨marker, .inl rfl, isNumber⟩, ?_⟩
    rintro ⟨digits, rfl | same, isNumber⟩
    · exact isNumber
    · exact absurd same (noSign digits)

theorem IsNumeral.number? {marker : List Char} (isNumeral : slot.IsNumeral marker) :
    number? marker = some (slot.digit.toNat - '0'.toNat) := by
  obtain ⟨zeros, isMarker⟩ := isNumeral
  refine number?_eq_some_iff.2 ⟨_, isMarker, by simp, ?_, by rw [ofDigits_concat, ofDigits_replicate]; omega⟩
  rw [List.forall_mem_append, List.forall_mem_singleton]
  exact ⟨fun _ isZero => List.eq_of_mem_replicate isZero ▸ rfl, slot.isDigit_digit⟩

/-- A number is that of a slot exactly if it stands there as a numeral of the slot. -/
theorem isNumeral_iff {marker : List Char} :
    slot.IsNumeral marker ↔ SkeletonSlot.number? marker = some (slot.digit.toNat - '0'.toNat) := by
  refine ⟨IsNumeral.number?, fun isNumber => ?_⟩
  obtain ⟨digits, isMarker, isSome, areDigits, same⟩ := number?_eq_some_iff.1 isNumber
  obtain ⟨zeros, last, rfl, isDigit, isLast⟩ :=
    exists_replicate_of_ofDigits isSome areDigits (same ▸ slot.digit_lt)
  rw [eq_of_isDigit isDigit slot.isDigit_digit (isLast.symm.trans same)] at isMarker
  exact ⟨zeros, isMarker⟩

theorem number?_name (slot : SkeletonSlot) : number? slot.name.toList = none := by
  cases slot <;> rfl

/-- The texts that mark a slot are its numerals and its name. -/
theorem ofMarker?_eq_some_iff {marker : List Char} : ofMarker? marker = some slot ↔ slot.Marks marker := by
  have notName {number : Nat} (isNumber : number? marker = some number) : marker ≠ slot.name.toList := by
    rintro rfl
    rw [number?_name] at isNumber
    cases isNumber
  unfold ofMarker? Marks
  rw [isNumeral_iff]
  split
  · next number isNumber =>
    rw [all_getElem?_eq_some_iff, isNumber, Option.some_inj, or_iff_left (notName isNumber)]
  · next isNone =>
    rw [isNone, or_iff_right (fun isNumber => nomatch isNumber)]
    constructor
    · intro isFound
      have isName := List.find?_some isFound
      rw [beq_iff_eq.1 isName, String.toList_ofList]
    · rintro rfl
      rw [String.ofList_toList]
      cases slot <;> rfl

theorem IsMarker.marks {marker : List Char} (isMarker : slot.IsMarker marker) : ofMarker? marker = some slot :=
  ofMarker?_eq_some_iff.2 (isMarker.imp_left fun isDigit => ⟨0, .inl isDigit⟩)

/-- No text that marks a slot has a brace. -/
theorem noBrace_of_ofMarker? {marker : List Char} (marks : ofMarker? marker = some slot) :
    ∀ character ∈ marker, character ≠ '\x7b' ∧ character ≠ '\x7d' := by
  have digit : slot.digit ≠ '\x7b' ∧ slot.digit ≠ '\x7d' := by cases slot <;> decide
  have name : ∀ character ∈ slot.name.toList, character ≠ '\x7b' ∧ character ≠ '\x7d' := by
    have all : slot.name.toList.all (fun character => character != '\x7b' && character != '\x7d') = true := by
      cases slot <;> rfl
    simpa using all
  have numeral (zeros : Nat) : ∀ character ∈ List.replicate zeros '0' ++ [slot.digit],
      character ≠ '\x7b' ∧ character ≠ '\x7d' := by
    rw [List.forall_mem_append, List.forall_mem_singleton]
    exact ⟨fun _ isZero => List.eq_of_mem_replicate isZero ▸ by decide, digit⟩
  obtain ⟨zeros, rfl | rfl⟩ | rfl := ofMarker?_eq_some_iff.1 marks
  · exact numeral zeros
  · exact List.forall_mem_cons.2 ⟨by decide, numeral zeros⟩
  · exact name

end SkeletonSlot

/-! ### Steps of rendering -/

section

variable (fill : SkeletonSlot → List Char)

theorem renderCharacters_nil : renderCharacters fill [] = [] := by
  rw [renderCharacters]

/-- What a character becomes depends on the one behind it, and behind a single opening brace on the marker. -/
theorem renderCharacters_cons (character : Char) (rest : List Char) :
    renderCharacters fill (character :: rest) =
      if character = '\x7b' then
        if rest.head? = some '\x7b' then '\x7b' :: renderCharacters fill rest.tail
        else (slotAt? rest).elim ('\x7b' :: renderCharacters fill rest)
          fun found => fill found.1 ++ renderCharacters fill found.2
      else if character = '\x7d' ∧ rest.head? = some '\x7d' then '\x7d' :: renderCharacters fill rest.tail
      else character :: renderCharacters fill rest := by
  split
  · next isOpen =>
    rw [isOpen]
    split
    · next doubled =>
      obtain ⟨others, rfl⟩ := List.head?_eq_some_iff.1 doubled
      rw [renderCharacters, List.tail_cons]
    · next single =>
      rw [renderCharacters]
      · split <;> next found => rw [found]; rfl
      · rintro others rfl
        exact single rfl
  · next notOpen =>
    split
    · next doubled =>
      obtain ⟨others, rfl⟩ := List.head?_eq_some_iff.1 doubled.2
      rw [doubled.1, renderCharacters, List.tail_cons]
    · next single =>
      rw [renderCharacters]
      · exact fun others isOpen => absurd isOpen notOpen
      · rintro others isClose rfl
        exact single ⟨isClose, rfl⟩
      · exact notOpen

theorem renderCharacters_openBraces (rest : List Char) :
    renderCharacters fill ('\x7b' :: '\x7b' :: rest) = '\x7b' :: renderCharacters fill rest := by
  simp [renderCharacters_cons]

theorem renderCharacters_closeBraces (rest : List Char) :
    renderCharacters fill ('\x7d' :: '\x7d' :: rest) = '\x7d' :: renderCharacters fill rest := by
  simp [renderCharacters_cons fill '\x7d']

theorem renderCharacters_other {character : Char} (noBrace : character ≠ '\x7b' ∧ character ≠ '\x7d')
    (rest : List Char) : renderCharacters fill (character :: rest) = character :: renderCharacters fill rest := by
  rw [renderCharacters_cons, if_neg noBrace.1, if_neg fun isClose => noBrace.2 isClose.1]

/-- A text is split at its first closing brace. -/
theorem splitMarker?_eq_some_iff {characters marker behind : List Char} :
    splitMarker? characters = some (marker, behind) ↔
      (∀ character ∈ marker, character ≠ '\x7d') ∧ characters = marker ++ '\x7d' :: behind := by
  constructor
  · intro split
    have whole := List.takeWhile_append_dropWhile (p := (· != '\x7d')) (l := characters)
    have stops := List.head?_dropWhile_not (· != '\x7d') characters
    unfold splitMarker? at split
    split at split
    · cases split
    · next brace rest dropped =>
      rw [dropped] at whole stops
      obtain ⟨rfl, rfl⟩ := Prod.mk.inj (Option.some.inj split)
      have isBrace : brace = '\x7d' := bne_eq_false_iff_eq.1 stops
      refine ⟨fun character isTaken => ?_, ?_⟩
      · exact bne_iff_ne.1 (List.all_eq_true.1 List.all_takeWhile character isTaken)
      · exact whole.symm.trans (isBrace ▸ rfl)
  · rintro ⟨noBrace, rfl⟩
    have continues : ∀ character ∈ marker, (character != '\x7d') = true :=
      fun character member => bne_iff_ne.2 (noBrace character member)
    rw [splitMarker?, List.dropWhile_append_of_pos continues, List.takeWhile_append_of_pos continues]
    simp

/-- A marker is found exactly if it stands with its closing brace at the beginning of a text. -/
theorem slotAt?_eq_some_iff {slot : SkeletonSlot} {characters behind : List Char} :
    slotAt? characters = some (slot, behind) ↔
      ∃ marker, SkeletonSlot.ofMarker? marker = some slot ∧ characters = marker ++ '\x7d' :: behind := by
  constructor
  · intro isSlot
    unfold slotAt? at isSlot
    split at isSlot
    · next marker rest split =>
      obtain ⟨_, marks, pair⟩ := Option.map_eq_some_iff.1 isSlot
      obtain ⟨rfl, rfl⟩ := Prod.mk.inj pair
      exact ⟨marker, marks, (splitMarker?_eq_some_iff.1 split).2⟩
    · cases isSlot
  · rintro ⟨marker, marks, stands⟩
    have noBrace := fun character member => (SkeletonSlot.noBrace_of_ofMarker? marks character member).2
    rw [slotAt?, splitMarker?_eq_some_iff.2 ⟨noBrace, stands⟩]
    exact congrArg (Option.map _) marks

/-- A marker behind a brace is replaced by what fills its slot, which is not read again. -/
theorem renderCharacters_marker {slot : SkeletonSlot} {marker : List Char}
    (marks : SkeletonSlot.ofMarker? marker = some slot) (rest : List Char) :
    renderCharacters fill ('\x7b' :: (marker ++ '\x7d' :: rest)) = fill slot ++ renderCharacters fill rest := by
  have found : slotAt? (marker ++ '\x7d' :: rest) = some (slot, rest) := slotAt?_eq_some_iff.2 ⟨marker, marks, rfl⟩
  have single : (marker ++ '\x7d' :: rest).head? ≠ some '\x7b' := by
    cases marker with
    | nil => simp
    | cons first behind =>
      have noBrace := SkeletonSlot.noBrace_of_ofMarker? marks first List.mem_cons_self
      exact fun isBrace => noBrace.1 (Option.some.inj isBrace)
  rw [renderCharacters_cons, if_pos rfl, if_neg single, found]
  rfl

/-- An opening brace behind which neither another one nor a marker stands is copied. -/
theorem renderCharacters_openBrace {rest : List Char} (single : rest.head? ≠ some '\x7b')
    (noMarker : slotAt? rest = none) :
    renderCharacters fill ('\x7b' :: rest) = '\x7b' :: renderCharacters fill rest := by
  rw [renderCharacters_cons, if_pos rfl, if_neg single, noMarker]
  rfl

/-- A closing brace behind which no other one stands is copied. -/
theorem renderCharacters_closeBrace {rest : List Char} (single : rest.head? ≠ some '\x7d') :
    renderCharacters fill ('\x7d' :: rest) = '\x7d' :: renderCharacters fill rest := by
  rw [renderCharacters_cons, if_neg (by decide), if_neg fun doubled => single doubled.2]

end

/-! ### Chunks and markers -/

/-- A piece of which a skeleton is written: a chunk of text, or a marker by number or by name. -/
inductive SkeletonPiece where
  | chunk (text : String)
  | marker (slot : SkeletonSlot) (isNamed : Bool)
deriving DecidableEq, Repr

/-- A character as it stands in a skeleton: braces are doubled. -/
def escapeBrace (character : Char) : List Char :=
  if character = '\x7b' ∨ character = '\x7d' then [character, character] else [character]

namespace SkeletonPiece

/-- A piece as it stands in a skeleton. -/
def written : SkeletonPiece → String
  | chunk text => String.ofList (text.toList.flatMap escapeBrace)
  | marker slot isNamed => "\x7b" ++ (if isNamed then slot.name else slot.digit.toString) ++ "\x7d"

/-- What a piece becomes when the slots are filled. -/
def filled (fill : SkeletonSlot → String) : SkeletonPiece → String
  | chunk text => text
  | marker slot _ => fill slot

/-- The skeleton that some pieces make up. -/
def write (pieces : List SkeletonPiece) : String := String.join (pieces.map written)

/-- The text that some pieces make up with the slots filled. -/
def fillAll (fill : SkeletonSlot → String) (pieces : List SkeletonPiece) : String :=
  String.join (pieces.map (filled fill))

end SkeletonPiece

section

variable (fill : SkeletonSlot → String)

theorem renderCharacters_escapeBrace (fill : SkeletonSlot → List Char) (text rest : List Char) :
    renderCharacters fill (text.flatMap escapeBrace ++ rest) = text ++ renderCharacters fill rest := by
  induction text with
  | nil => rfl
  | cons character others ih =>
    rw [List.flatMap_cons, List.append_assoc, List.cons_append, ← ih, escapeBrace]
    by_cases isOpen : character = '\x7b'
    · rw [isOpen]
      exact renderCharacters_openBraces fill _
    by_cases isClose : character = '\x7d'
    · rw [isClose]
      exact renderCharacters_closeBraces fill _
    rw [if_neg (not_or.2 ⟨isOpen, isClose⟩)]
    exact renderCharacters_other fill ⟨isOpen, isClose⟩ _

/-- A written piece is rendered to the filled one, whatever stands behind it. -/
theorem renderCharacters_written (piece : SkeletonPiece) (rest : List Char) :
    renderCharacters (fun slot => (fill slot).toList) (piece.written.toList ++ rest) =
      (piece.filled fill).toList ++ renderCharacters (fun slot => (fill slot).toList) rest := by
  cases piece with
  | chunk text =>
    rw [SkeletonPiece.written, String.toList_ofList]
    exact renderCharacters_escapeBrace _ text.toList rest
  | marker slot isNamed =>
    have isMarker : slot.IsMarker (if isNamed then slot.name else slot.digit.toString).toList := by
      cases isNamed
      · exact .inl (String.toList_singleton _)
      · exact .inr rfl
    rw [SkeletonPiece.written, String.toList_append, String.toList_append, List.append_assoc, List.append_assoc]
    exact renderCharacters_marker _ isMarker.marks rest

/-- Written pieces are rendered to the filled ones, whatever stands behind them. -/
theorem renderCharacters_write (pieces : List SkeletonPiece) (rest : List Char) :
    renderCharacters (fun slot => (fill slot).toList) ((SkeletonPiece.write pieces).toList ++ rest) =
      (SkeletonPiece.fillAll fill pieces).toList ++ renderCharacters (fun slot => (fill slot).toList) rest := by
  induction pieces with
  | nil => rfl
  | cons piece others ih =>
    rw [SkeletonPiece.write, SkeletonPiece.fillAll, List.map_cons, List.map_cons, String.join_cons, String.join_cons,
      String.toList_append, String.toList_append, List.append_assoc, List.append_assoc, renderCharacters_written]
    exact congrArg _ ih

theorem renderSkeleton_written (pieces : List SkeletonPiece) :
    renderSkeleton (SkeletonPiece.write pieces) fill = SkeletonPiece.fillAll fill pieces := by
  have rendered := renderCharacters_write fill pieces []
  rw [List.append_nil, renderCharacters_nil, List.append_nil] at rendered
  rw [renderSkeleton, rendered, String.ofList_toList]

end

theorem addReturn_eq (body returnType : String) :
    addReturn body returnType = body ∨ addReturn body returnType = "return " ++ body ++ ";" := by
  unfold addReturn
  split
  · exact .inr rfl
  · exact .inl rfl

/-- A skeleton written from chunks and markers is rendered to the chunks with the slots' texts in place of the
markers, whatever these texts contain. In particular a body stands in the generated text as it is, or as the
expression of a return statement. -/
theorem renderSkeleton_write (pieces front behind : List SkeletonPiece) (fill : SkeletonSlot → String)
    (request : GenerationRequest) (body : String) (isNamed : Bool) :
    renderSkeleton (SkeletonPiece.write pieces) fill = SkeletonPiece.fillAll fill pieces ∧
      { request with
        body := some body
        skeleton := SkeletonPiece.write (front ++ .marker .body isNamed :: behind) : GenerationRequest }.generate =
          .ok (SkeletonPiece.fillAll (request.fill (addReturn body request.returnType)) front ++
            addReturn body request.returnType ++
            SkeletonPiece.fillAll (request.fill (addReturn body request.returnType)) behind) ∧
      (addReturn body request.returnType = body ∨
        addReturn body request.returnType = "return " ++ body ++ ";") := by
  refine ⟨renderSkeleton_written fill pieces, ?_, addReturn_eq body request.returnType⟩
  refine congrArg Except.ok ((renderSkeleton_written _ _).trans ?_)
  rw [SkeletonPiece.fillAll, List.map_append, String.join_append, List.map_cons, String.join_cons,
    ← String.append_assoc]
  rfl

/-! ### Any skeleton -/

/-- The rules by which a text is rendered where some texts in braces mark the slots. Doubled braces become single
ones, a marked slot is filled, and every other character is copied. -/
inductive Renders (marks : SkeletonSlot → List Char → Prop) (fill : SkeletonSlot → List Char) :
    List Char → List Char → Prop where
  | done : Renders marks fill [] []
  | openBraces {rest text : List Char} (rendered : Renders marks fill rest text) :
      Renders marks fill ('\x7b' :: '\x7b' :: rest) ('\x7b' :: text)
  | closeBraces {rest text : List Char} (rendered : Renders marks fill rest text) :
      Renders marks fill ('\x7d' :: '\x7d' :: rest) ('\x7d' :: text)
  | slot {slot : SkeletonSlot} {marker rest text : List Char} (isMarker : marks slot marker)
      (rendered : Renders marks fill rest text) :
      Renders marks fill ('\x7b' :: (marker ++ '\x7d' :: rest)) (fill slot ++ text)
  | openBrace {rest text : List Char} (single : rest.head? ≠ some '\x7b')
      (noMarker : ∀ slot marker behind, marks slot marker → rest ≠ marker ++ '\x7d' :: behind)
      (rendered : Renders marks fill rest text) : Renders marks fill ('\x7b' :: rest) ('\x7b' :: text)
  | closeBrace {rest text : List Char} (single : rest.head? ≠ some '\x7d') (rendered : Renders marks fill rest text) :
      Renders marks fill ('\x7d' :: rest) ('\x7d' :: text)
  | other {character : Char} {rest text : List Char} (noBrace : character ≠ '\x7b' ∧ character ≠ '\x7d')
      (rendered : Renders marks fill rest text) : Renders marks fill (character :: rest) (character :: text)

section

variable {fill : SkeletonSlot → List Char}

theorem slotAt?_eq_none_iff {characters : List Char} : slotAt? characters = none ↔
    ∀ slot marker behind, SkeletonSlot.Marks slot marker → characters ≠ marker ++ '\x7d' :: behind := by
  rw [Option.eq_none_iff_forall_ne_some]
  constructor
  · intro noSlot slot marker behind marks stands
    exact noSlot (slot, behind) (slotAt?_eq_some_iff.2 ⟨marker, SkeletonSlot.ofMarker?_eq_some_iff.2 marks, stands⟩)
  · rintro noMarker ⟨slot, behind⟩ isSlot
    obtain ⟨marker, marks, stands⟩ := slotAt?_eq_some_iff.1 isSlot
    exact noMarker slot marker behind (SkeletonSlot.ofMarker?_eq_some_iff.1 marks) stands

/-- Rendering goes by the rules. -/
theorem renders_renderCharacters (characters : List Char) :
    Renders SkeletonSlot.Marks fill characters (renderCharacters fill characters) := by
  fun_induction renderCharacters fill characters with
  | case1 => exact .done
  | case2 rest ih => exact .openBraces ih
  | case3 rest ih => exact .closeBraces ih
  | case4 rest single slot behind isSlot ih =>
    obtain ⟨marker, marks, rfl⟩ := slotAt?_eq_some_iff.1 isSlot
    exact .slot (SkeletonSlot.ofMarker?_eq_some_iff.1 marks) ih
  | case5 rest single noSlot ih =>
    refine .openBrace (fun isBrace => ?_) (slotAt?_eq_none_iff.1 noSlot) ih
    obtain ⟨others, isRest⟩ := List.head?_eq_some_iff.1 isBrace
    exact single others isRest
  | case6 character rest _ noClose noBrace ih =>
    by_cases isClose : character = '\x7d'
    · subst isClose
      refine .closeBrace (fun isBrace => ?_) ih
      obtain ⟨others, isRest⟩ := List.head?_eq_some_iff.1 isBrace
      exact noClose others rfl isRest
    · exact .other ⟨noBrace, isClose⟩ ih

/-- The rules leave no choice. -/
theorem Renders.eq_renderCharacters {characters text : List Char}
    (renders : Renders SkeletonSlot.Marks fill characters text) : renderCharacters fill characters = text := by
  induction renders with
  | done => exact renderCharacters_nil fill
  | openBraces _ ih => rw [renderCharacters_openBraces, ih]
  | closeBraces _ ih => rw [renderCharacters_closeBraces, ih]
  | slot isMarker _ ih => rw [renderCharacters_marker fill (SkeletonSlot.ofMarker?_eq_some_iff.2 isMarker), ih]
  | openBrace single noMarker _ ih =>
    rw [renderCharacters_openBrace fill single (slotAt?_eq_none_iff.2 noMarker), ih]
  | closeBrace single _ ih => rw [renderCharacters_closeBrace fill single, ih]
  | other noBrace _ ih => rw [renderCharacters_other fill noBrace, ih]

end

/-- A skeleton is rendered by the rules alone, where the numerals and the names of the slots mark them. -/
theorem renderSkeleton_eq_iff (skeleton text : String) (fill : SkeletonSlot → String) :
    renderSkeleton skeleton fill = text ↔
      Renders SkeletonSlot.Marks (fun slot => (fill slot).toList) skeleton.toList text.toList := by
  rw [renderSkeleton, ← String.toList_inj, String.toList_ofList]
  constructor
  · rintro rendered
    rw [← rendered]
    exact renders_renderCharacters _
  · exact Renders.eq_renderCharacters

/-- The digits and the names are not the only markers: a digit behind a plus sign marks a slot. -/
theorem not_renderSkeleton_eq_iff_isMarker : ¬∀ (skeleton text : String) (fill : SkeletonSlot → String),
    renderSkeleton skeleton fill = text ↔
      Renders SkeletonSlot.IsMarker (fun slot => (fill slot).toList) skeleton.toList text.toList := by
  intro rules
  have noMarker (slot : SkeletonSlot) (marker behind : List Char) (isMarker : slot.IsMarker marker) :
      ['+', '1', '\x7d'] ≠ marker ++ '\x7d' :: behind := by
    obtain rfl | rfl := isMarker <;> cases slot <;> simp [SkeletonSlot.digit, SkeletonSlot.name]
  -- by the rules for these markers the braces are copied, but the number is that of a slot
  have copied : Renders SkeletonSlot.IsMarker (fun _ => []) ['\x7b', '+', '1', '\x7d'] ['\x7b', '+', '1', '\x7d'] :=
    .openBrace (by decide) noMarker (.other (by decide) (.other (by decide) (.closeBrace (by decide) .done)))
  have marks : SkeletonSlot.ofMarker? ['+', '1'] = some .space :=
    SkeletonSlot.ofMarker?_eq_some_iff.2 (.inl ⟨0, .inr rfl⟩)
  have filled : renderCharacters (fun _ => []) ['\x7b', '+', '1', '\x7d'] = [] :=
    (renderCharacters_marker (fun _ => []) marks []).trans (renderCharacters_nil _)
  have rendered := (rules "\x7b+1\x7d" "\x7b+1\x7d" fun _ => "").2 copied
  exact List.cons_ne_nil _ _ ((String.ofList_inj.1 rendered).symm.trans filled)

end Snippet
