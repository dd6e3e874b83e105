import Snippet.Callable.Shape
import Snippet.Proofs.Source.Piece
import Snippet.Text.Split

/-!
The full names of described types as texts. Main statement: a full name of identifiers is a text of
pieces that are read by themselves.
-/

namespace Snippet

open Text

/-! ### Joined texts -/

theorem intercalate_append {α : Type} (separator : List α) {front behind : List (List α)}
    (hasFront : front ≠ []) (hasBehind : behind ≠ []) :
    separator.intercalate (front ++ behind) =
      separator.intercalate front ++ separator ++ separator.intercalate behind := by
  match front with
  | [] => contradiction
  | [part] =>
    obtain ⟨next, others, rfl⟩ := List.exists_cons_of_ne_nil hasBehind
    rw [List.singleton_append, List.intercalate_cons_cons, List.intercalate_singleton]
  | part :: next :: others =>
    have ih := intercalate_append separator (List.cons_ne_nil next others) hasBehind
    rw [List.cons_append, List.cons_append, List.intercalate_cons_cons, ← List.cons_append, ih,
      List.intercalate_cons_cons]
    simp only [List.append_assoc]

namespace Piece

/-- Words with a dot between each two of them. -/
def dotted (names : List String) : List Piece := [.mark .dot].intercalate (names.map fun name => [.word name])

/-- Parts with a comma and a blank between each two of them. -/
def listed (parts : List (List Piece)) : List Piece := [.mark .comma, .blank ' '].intercalate parts

/-- Parts in angle brackets; without parts there are no brackets. -/
def inAngles (parts : List (List Piece)) : List Piece :=
  if parts = [] then [] else .mark .less :: listed parts ++ [.mark .greater]

theorem texts_intercalate (separator : List Piece) (parts : List (List Piece)) :
    texts (separator.intercalate parts) = (texts separator).intercalate (parts.map texts) := by
  induction parts with
  | nil => rfl
  | cons first rest ih =>
      cases rest with
      | nil => simp [List.intercalate]
      | cons second others =>
        rw [List.intercalate_cons_cons, List.map_cons, List.map_cons, List.intercalate_cons_cons, texts_append,
          texts_append, ih, List.map_cons]

theorem texts_dotted (names : List String) : texts (dotted names) = ['.'].intercalate (names.map String.toList) := by
  rw [dotted, texts_intercalate, List.map_map]
  congr 2
  exact funext fun name => List.append_nil _

/-- A text is put together from its parts between dots. -/
theorem texts_dotted_splitAt (text : String) : texts (dotted (splitAt '.' text)) = text.toList := by
  have same : String.toList ∘ String.ofList = id := funext fun _ => String.toList_ofList
  rw [texts_dotted, splitAt, List.map_map, same, List.map_id, intercalate_splitCharacters]

theorem texts_dotted_append {front behind : List String} (hasFront : front ≠ []) (hasBehind : behind ≠ []) :
    texts (dotted (front ++ behind)) = texts (dotted front) ++ '.' :: texts (dotted behind) := by
  rw [texts_dotted, List.map_append, intercalate_append _ (by simpa) (by simpa), texts_dotted, texts_dotted,
    List.append_assoc]
  rfl

theorem texts_inAngles {parts : List (List Piece)} {names : List String} (isSome : names ≠ [])
    (spelled : names.map String.toList = parts.map texts) :
    texts (inAngles parts) = ("<" ++ String.intercalate ", " names ++ ">").toList := by
  have more : parts ≠ [] := by
    rintro rfl
    exact isSome (List.map_eq_nil_iff.1 spelled)
  simp only [inAngles, if_neg more, String.toList_append, String.toList_intercalate, spelled, List.cons_append,
    texts_cons, texts_append, listed, texts_intercalate, List.append_assoc]
  rfl

/-! ### Pieces that stand by themselves -/

/-- Whether the pieces begin like a name. -/
def BeginsName (pieces : List Piece) : Prop :=
  ∃ first, (texts pieces).head? = some first ∧ startsName first = true

theorem beginsName_word {name : String} (isWord : isWord name = true) (rest : List Piece) :
    BeginsName (.word name :: rest) := by
  unfold Snippet.isWord at isWord
  split at isWord
  · cases isWord
  · next first others spelled =>
    refine ⟨first, ?_, (Bool.and_eq_true_iff.1 isWord).1⟩
    simp [text, spelled]

theorem BeginsName.append {pieces : List Piece} (begins : BeginsName pieces) (others : List Piece) :
    BeginsName (pieces ++ others) := by
  obtain ⟨first, isFirst, starts⟩ := begins
  exact ⟨first, by rw [texts_append, List.head?_append, isFirst]; rfl, starts⟩

/-- The characters behind the name of a type. -/
def EndsType (next : Option Char) : Prop := next = some ' ' ∨ next = some ',' ∨ next = some '>'

theorem EndsType.stops {next : Option Char} (ends : EndsType next) : next.any continuesName = false := by
  rcases ends with rfl | rfl | rfl <;> rfl

theorem stands_word {name : String} (isWord : isWord name = true) {next : Option Char}
    (stops : next.any continuesName = false) : stands (.word name) next = true := by
  rw [stands, isWord, stops]
  rfl

theorem stands_dot {first : Char} (starts : startsName first = true) : stands (.mark .dot) (some first) = true := by
  have noNumber : Lexer.startsNumber '.' (some first) = false := by
    rw [Lexer.startsNumber, Option.any_some, not_isDigit_of_startsName starts]
    rfl
  show (_ == _ && !Lexer.startsNumber '.' (some first) && _) = true
  rw [noNumber]
  rfl

theorem stands_less {first : Char} (starts : startsName first = true) :
    stands (.mark .less) (some first) = true := by
  have noPair : first ≠ '=' := ne_of_startsName starts '=' rfl
  simp [stands, Symbol.spelling, standsAlone, Lexer.symbol?, Symbol.pair?, Symbol.single?, Lexer.startsNumber, noPair]

theorem stands_greater {next : Option Char} (ends : EndsType next) : stands (.mark .greater) next = true := by
  rcases ends with rfl | rfl | rfl <;> rfl

theorem stands_comma (next : Option Char) : stands (.mark .comma) next = true := by
  cases next <;> rfl

theorem stands_semicolon (next : Option Char) : stands (.mark .semicolon) next = true := by
  cases next <;> rfl

theorem beginsName_dotted {names : List String} (isSome : names ≠ [])
    (areWords : ∀ name ∈ names, isWord name = true) : BeginsName (dotted names) := by
  match names with
  | [] => contradiction
  | [last] => exact beginsName_word (areWords last List.mem_cons_self) _
  | first :: second :: rest =>
    rw [dotted, List.map_cons, List.map_cons, List.intercalate_cons_cons, List.append_assoc]
    exact beginsName_word (areWords first List.mem_cons_self) _

theorem allStand_dotted {names : List String} (areWords : ∀ name ∈ names, isWord name = true)
    {next : Option Char} (stops : next.any continuesName = false) : allStand (dotted names) next = true := by
  match names with
  | [] => rfl
  | [last] => exact Bool.and_eq_true_iff.2 ⟨stands_word (areWords last List.mem_cons_self) stops, rfl⟩
  | first :: second :: rest =>
    rw [List.forall_mem_cons] at areWords
    obtain ⟨character, isFirst, starts⟩ := beginsName_dotted (List.cons_ne_nil second rest) areWords.2
    show (stands (.word first) (some '.') && (stands (.mark .dot)
      ((texts (dotted (second :: rest))).head?.or next) && allStand (dotted (second :: rest)) next)) = true
    rw [stands_word areWords.1 rfl, isFirst, Option.some_or, stands_dot starts, allStand_dotted areWords.2 stops]
    rfl

/-- Parts that stand in front of a separator and at the end stand one behind the other. -/
theorem allStand_intercalate {separator : List Piece} {first : Char}
    (begins : (texts separator).head? = some first) (separates : ∀ next, allStand separator next = true)
    {parts : List (List Piece)} {next : Option Char}
    (stand : ∀ part ∈ parts, allStand part (some first) = true ∧ allStand part next = true) :
    allStand (separator.intercalate parts) next = true := by
  induction parts with
  | nil => rfl
  | cons part rest ih =>
      rw [List.forall_mem_cons] at stand
      cases rest with
      | nil => simpa using stand.1.2
      | cons second others =>
        rw [List.intercalate_cons_cons, List.append_assoc, allStand_append, texts_append, List.head?_append, begins,
          Option.some_or, Option.some_or, stand.1.1, allStand_append, separates, ih stand.2]
        rfl

/-- Parts that stand in front of a comma and at the end of the list stand one behind the other. -/
theorem allStand_listed {parts : List (List Piece)} {next : Option Char}
    (stand : ∀ part ∈ parts, allStand part (some ',') = true ∧ allStand part next = true) :
    allStand (listed parts) next = true :=
  allStand_intercalate rfl (fun _ => by rw [allStand, stands_comma]; rfl) stand

/-- A list in angle brackets whose first part begins like a name. -/
theorem allStand_inAngles {first : List Piece} {rest : List (List Piece)}
    (stand : ∀ part ∈ first :: rest, allStand part (some ',') = true ∧ allStand part (some '>') = true)
    (begins : BeginsName first) {next : Option Char} (ends : EndsType next) :
    allStand (inAngles (first :: rest)) next = true := by
  obtain ⟨character, isFirst, starts⟩ : BeginsName (listed (first :: rest)) := by
    cases rest with
    | nil => simpa [listed, List.intercalate] using begins
    | cons second others =>
      have split : listed (first :: second :: others) =
          first ++ [.mark .comma, .blank ' '] ++ listed (second :: others) := List.intercalate_cons_cons
      rw [split, List.append_assoc]
      exact begins.append _
  rw [inAngles, if_neg (List.cons_ne_nil first rest), List.cons_append, allStand, texts_append,
    List.head?_append, isFirst, Option.some_or, Option.some_or, stands_less starts, Bool.true_and, allStand_append]
  exact Bool.and_eq_true_iff.2 ⟨allStand_listed stand, Bool.and_eq_true_iff.2 ⟨stands_greater ends, rfl⟩⟩

end Piece

namespace TypeDesc

/-- The names in front of the last one in a full name: those of a namespace and of the types around. -/
def outerNames (space : Option String) (enclosing : List String) : List String :=
  (space.elim [] fun space => if space.isEmpty then [] else splitAt '.' space) ++ enclosing

/-- The names of which the full name consists, without those of the type arguments. -/
def names (type : TypeDesc) : List String := outerNames type.space type.enclosing ++ [type.name]

mutual

/-- The pieces of a full name. -/
def pieces : TypeDesc → List Piece
  | ⟨space, enclosing, name, arguments, _⟩ =>
    Piece.dotted (outerNames space enclosing ++ [name]) ++ Piece.inAngles (piecesOfAll arguments)

/-- The pieces of each of some full names. -/
def piecesOfAll : List TypeDesc → List (List Piece)
  | [] => []
  | type :: rest => type.pieces :: piecesOfAll rest

end

@[simp]
theorem piecesOfAll_eq_map (types : List TypeDesc) : piecesOfAll types = types.map pieces := by
  induction types with
  | nil => rfl
  | cons first rest ih => rw [piecesOfAll, ih, List.map_cons]

/-- Whether all names in a full name are identifiers. -/
inductive IsNamed : TypeDesc → Prop where
  | intro {type : TypeDesc} (hasSpace : type.space.isSome) (identifiers : ∀ name ∈ type.names, isIdentifier name = true)
    (arguments : ∀ argument ∈ type.arguments, IsNamed argument) : IsNamed type

/-- The names of a full name with dots between them are the name of the definition. -/
theorem toList_definition (space : String) (enclosing : List String) (name : String) :
    (String.intercalate "." ((if space.isEmpty then [] else [space]) ++ enclosing ++ [name])).toList =
      Piece.texts (Piece.dotted (outerNames (some space) enclosing ++ [name])) := by
  have inner : enclosing ++ [name] ≠ [] := by simp
  have dots (names : List String) : (String.intercalate "." names).toList = Piece.texts (Piece.dotted names) := by
    rw [Piece.texts_dotted, String.toList_intercalate]
    rfl
  rw [dots, outerNames, Option.elim_some, List.append_assoc, List.append_assoc]
  split
  · rfl
  · have parts : splitAt '.' space ≠ [] := by simpa [splitAt] using splitCharacters_ne_nil '.' space.toList
    rw [Piece.texts_dotted_append parts inner, Piece.texts_dotted_append (List.cons_ne_nil space []) inner,
      Piece.texts_dotted_splitAt]
    exact congrArg (· ++ '.' :: _) (List.append_nil _)

/-- Whether a text is the full name of a type, put together from the type's pieces. -/
def Spells (type : TypeDesc) (name : String) : Prop :=
  type.nameOrOpen = .ok name ∧ name.toList = Piece.texts type.pieces

theorem namesOrOpen_spell {types : List TypeDesc} (spell : ∀ type ∈ types, ∃ name, type.Spells name) :
    ∃ names, namesOrOpen types = .ok names ∧
      names.map String.toList = types.map fun type => Piece.texts type.pieces := by
  induction types with
  | nil => exact ⟨[], rfl, rfl⟩
  | cons first rest ih =>
      rw [List.forall_mem_cons] at spell
      obtain ⟨name, isName, spelled⟩ := spell.1
      obtain ⟨names, areNames, allSpelled⟩ := ih spell.2
      refine ⟨name :: names, ?_, ?_⟩
      · rw [namesOrOpen, isName, areNames]
        rfl
      · rw [List.map_cons, List.map_cons, spelled, allSpelled]

/-- A type whose names are identifiers has a full name, which consists of its pieces. -/
theorem IsNamed.spells {type : TypeDesc} (named : type.IsNamed) : ∃ name, type.Spells name := by
  induction named with
  | @intro type hasSpace identifiers _ ih =>
      obtain ⟨space, enclosing, name, arguments, origin⟩ := type
      obtain ⟨space, rfl⟩ := Option.isSome_iff_exists.1 hasSpace
      obtain ⟨names, areNames, spelled⟩ := namesOrOpen_spell ih
      have definition := toList_definition space enclosing name
      cases arguments with
      | nil =>
        cases areNames
        refine ⟨_, by rw [nameOrOpen]; rfl, ?_⟩
        rw [pieces, piecesOfAll, Piece.inAngles, if_pos rfl, List.append_nil, definition]
      | cons first rest =>
        cases names with
        | nil => cases spelled
        | cons one others =>
          refine ⟨_, by rw [nameOrOpen, areNames]; rfl, ?_⟩
          have angles : Piece.texts (Piece.inAngles ((first :: rest).map pieces)) =
              ("<" ++ String.intercalate ", " (one :: others) ++ ">").toList :=
            Piece.texts_inAngles (List.cons_ne_nil one others) (spelled.trans (List.map_map ..).symm)
          rw [pieces, piecesOfAll_eq_map, Piece.texts_append, angles, ← definition]
          simp only [String.toList_append, List.append_assoc]

/-! ### Types that stand by themselves -/

theorem IsNamed.beginsName {type : TypeDesc} (named : type.IsNamed) : Piece.BeginsName type.pieces := by
  obtain ⟨-, identifiers, -⟩ := named
  obtain ⟨space, enclosing, name, arguments, origin⟩ := type
  have areWords : ∀ part ∈ outerNames space enclosing ++ [name], isWord part = true :=
    fun part isPart => isWord_of_isIdentifier (identifiers part isPart)
  exact (Piece.beginsName_dotted (List.concat_ne_nil _ _) areWords).append _

/-- The full name of a type is read by itself in front of the characters that may stand behind it. -/
theorem IsNamed.allStand {type : TypeDesc} (named : type.IsNamed) {next : Option Char}
    (ends : Piece.EndsType next) : Piece.allStand type.pieces next = true := by
  induction named generalizing next with
  | @intro type _ identifiers areNamed ih =>
      obtain ⟨space, enclosing, name, arguments, origin⟩ := type
      have areWords : ∀ part ∈ outerNames space enclosing ++ [name], isWord part = true :=
        fun part isPart => isWord_of_isIdentifier (identifiers part isPart)
      rw [pieces, piecesOfAll_eq_map, Piece.allStand_append, Bool.and_eq_true_iff]
      cases arguments with
      | nil => exact ⟨Piece.allStand_dotted areWords ends.stops, rfl⟩
      | cons first rest =>
        have begins := (areNamed first List.mem_cons_self).beginsName
        have stand : ∀ part ∈ (first :: rest).map pieces,
            Piece.allStand part (some ',') = true ∧ Piece.allStand part (some '>') = true := by
          intro part member
          obtain ⟨argument, isArgument, rfl⟩ := List.mem_map.1 member
          exact ⟨ih argument isArgument (.inr (.inl rfl)), ih argument isArgument (.inr (.inr rfl))⟩
        have opened : (some '<').any continuesName = false := rfl
        exact ⟨Piece.allStand_dotted areWords opened, Piece.allStand_inAngles stand begins ends⟩

end TypeDesc

end Snippet
