import Mathlib.Data.List.Basic
import Snippet.Text.Split
import Snippet.Typing.Ty

/-!
Full names tell types apart: what stands between angle brackets can be taken apart in one way only, if no
name in it has a bracket or a comma. Main statement: `Ty.ofDesc_eq_of_nameOrOpen_eq`.
-/

namespace Snippet

/-! ### Texts with closed brackets -/

namespace Bracketed

/-- Whether a character divides a full name. -/
def isDivider (character : Char) : Bool := character == '<' || character == '>' || character == ','

/-- The number of open brackets behind a character. Outside of all brackets none is closed, and there is no
comma. -/
def step (depth : Nat) (character : Char) : Option Nat :=
  if character = '<' then some (depth + 1)
  else
    match depth with
    | 0 => if isDivider character then none else some 0
    | outer + 1 => some (if character = '>' then outer else outer + 1)

/-- Whether every bracket in a text is closed, and commas stand in brackets only. -/
def IsClosed (text : List Char) : Prop := text.foldlM step 0 = some 0

/-- Whether a text may stand behind a name: it is empty or begins with a divider that ends the name. -/
def Ends (rest : List Char) : Prop := ∀ character ∈ rest.head?, step 0 character = none

/-- Texts with a comma in front of each one. -/
def further (texts : List (List Char)) : List Char := texts.flatMap (", ".toList ++ ·)

variable {text first second rest rest' : List Char}

/-- Two texts in front of equal ones are equal if neither goes on where the other one ends. -/
theorem eq_of_append_eq_append (same : first ++ rest = second ++ rest')
    (stops : ∀ character more, second = first ++ character :: more → rest.head? ≠ some character)
    (stops' : ∀ character more, first = second ++ character :: more → rest'.head? ≠ some character) :
    first = second := by
  rcases List.append_eq_append_iff.1 same with ⟨more, isSecond, isRest⟩ | ⟨more, isFirst, isRest⟩
  · cases more with
    | nil => rw [isSecond, List.append_nil]
    | cons character others => exact absurd (by rw [isRest]; rfl) (stops character others isSecond)
  · cases more with
    | nil => rw [isFirst, List.append_nil]
    | cons character others => exact absurd (by rw [isRest]; rfl) (stops' character others isFirst)

/-- Texts without dividers leave brackets as they are. -/
theorem foldlM_step_plain (plain : ∀ character ∈ text, isDivider character = false) (depth : Nat) :
    text.foldlM step depth = some depth := by
  induction text with
  | nil => rfl
  | cons character rest ih =>
      rw [List.forall_mem_cons] at plain
      have same : step depth character = some depth := by
        have isPlain := plain.1
        simp only [isDivider, Bool.or_eq_false_iff, beq_eq_false_iff_ne] at isPlain
        cases depth <;> simp [step, isDivider, isPlain]
      rw [List.foldlM_cons, same]
      exact ih plain.2

theorem step_add {depth behind : Nat} {character : Char} (taken : step depth character = some behind) (more : Nat) :
    step (depth + more) character = some (behind + more) := by
  unfold step at taken ⊢
  by_cases opens : character = '<'
  · rw [if_pos opens] at taken ⊢
    cases taken
    rw [Nat.add_right_comm]
  · rw [if_neg opens] at taken ⊢
    cases depth with
    | zero =>
      by_cases divides : isDivider character
      · simp [divides] at taken
      · have closesNot : character ≠ '>' := by
          rintro rfl
          exact divides rfl
        simp only [if_neg divides, Option.some.injEq] at taken
        subst taken
        cases more <;> simp [divides, closesNot]
    | succ outer =>
      cases taken
      rw [Nat.add_right_comm]
      simp only [Option.some.injEq]
      split <;> omega

/-- What a text does with brackets does not depend on those around it. -/
theorem foldlM_step_add {depth behind : Nat} (taken : text.foldlM step depth = some behind) (more : Nat) :
    text.foldlM step (depth + more) = some (behind + more) := by
  induction text generalizing depth with
  | nil =>
      cases taken
      rfl
  | cons character rest ih =>
      rw [List.foldlM_cons] at taken ⊢
      obtain ⟨middle, isMiddle, isBehind⟩ := Option.bind_eq_some_iff.1 taken
      rw [step_add isMiddle]
      exact ih isBehind

namespace IsClosed

theorem of_plain (plain : ∀ character ∈ text, isDivider character = false) : IsClosed text := foldlM_step_plain plain 0

theorem append (one : IsClosed first) (other : IsClosed second) : IsClosed (first ++ second) := by
  rw [IsClosed, List.foldlM_append, one]
  exact other

/-- A closed text leaves open brackets as they are. -/
theorem foldlM (closed : IsClosed text) (depth : Nat) : text.foldlM step depth = some depth := by
  simpa using foldlM_step_add closed depth

/-- Closed texts with commas between them are closed in brackets. -/
theorem inAngles {texts : List (List Char)} (one : IsClosed first) (others : ∀ text ∈ texts, IsClosed text) :
    IsClosed ('<' :: (first ++ further texts ++ ['>'])) := by
  have inside : (further texts).foldlM step 1 = some 1 := by
    induction texts with
    | nil => rfl
    | cons text rest ih =>
        rw [List.forall_mem_cons] at others
        rw [further, List.flatMap_cons, List.append_assoc, List.foldlM_append]
        show (some 1).bind (fun depth => (text ++ _).foldlM step depth) = some 1
        rw [Option.bind_some, List.foldlM_append, others.1.foldlM]
        exact ih others.2
  rw [IsClosed, List.foldlM_cons]
  show (first ++ further texts ++ ['>']).foldlM step 1 = some 0
  rw [List.foldlM_append, List.foldlM_append, one.foldlM]
  show ((further texts).foldlM step 1).bind _ = some 0
  rw [inside]
  rfl

/-- A closed text is known from a text that begins with it, as long as the rest ends it. -/
theorem eq_of_append_eq (one : IsClosed first) (other : IsClosed second) (ends : Ends rest) (ends' : Ends rest')
    (same : first ++ rest = second ++ rest') : first = second := by
  have stops {first second rest : List Char} (one : IsClosed first) (other : IsClosed second) (ends : Ends rest)
      (character : Char) (more : List Char) (longer : second = first ++ character :: more) :
      rest.head? ≠ some character := by
    intro isHead
    have refused := ends character isHead
    rw [longer, IsClosed, List.foldlM_append, one] at other
    replace other : (step 0 character).bind (more.foldlM step ·) = some 0 := other
    rw [refused] at other
    cases other
  exact eq_of_append_eq_append same (stops one other ends) (stops other one ends')

end IsClosed

theorem ends_further (texts : List (List Char)) : Ends (further texts ++ ['>']) := by
  cases texts <;> exact fun character isHead => by cases isHead; rfl

/-- Closed texts are known from the text that lists them. -/
theorem further_injective {texts texts' : List (List Char)} (closed : ∀ text ∈ texts, IsClosed text)
    (closed' : ∀ text ∈ texts', IsClosed text) (same : further texts ++ ['>'] = further texts' ++ ['>']) :
    texts = texts' := by
  induction texts generalizing texts' with
  | nil =>
      cases texts' with
      | nil => rfl
      | cons text' rest' => cases same
  | cons text rest ih =>
      cases texts' with
      | nil => cases same
      | cons text' rest' =>
        rw [List.forall_mem_cons] at closed closed'
        have behind : text ++ (further rest ++ ['>']) = text' ++ (further rest' ++ ['>']) := by
          simpa [further] using same
        have first := closed.1.eq_of_append_eq closed'.1 (ends_further rest) (ends_further rest') behind
        subst first
        rw [ih closed.2 closed'.2 (List.append_cancel_left behind)]

end Bracketed

/-! ### Full names -/

namespace TypeDesc

open Bracketed Text

/-- Whether no name in a type divides a full name. -/
inductive IsPlain : TypeDesc → Prop where
  | intro {type : TypeDesc}
      (names : ∀ name ∈ type.space.toList ++ type.enclosing ++ [type.name],
        ∀ character ∈ name.toList, isDivider character = false)
      (arguments : ∀ argument ∈ type.arguments, IsPlain argument) : IsPlain type

/-- Whether the names of a type are plain is decided by the characters in them. -/
theorem IsPlain.of_all {type : TypeDesc}
    (names : (type.space.toList ++ type.enclosing ++ [type.name]).all
      (fun name => name.toList.all fun character => !isDivider character) = true)
    (arguments : ∀ argument ∈ type.arguments, IsPlain argument) : IsPlain type := by
  refine .intro ?_ arguments
  simpa only [List.all_eq_true, Bool.not_eq_true'] using names

/-- The text of type arguments behind the name of their definition. -/
def argumentText : List String → List Char
  | [] => []
  | first :: rest => '<' :: (first.toList ++ further (rest.map String.toList) ++ ['>'])

/-- A full name is the name of the definition with those of the arguments behind it. -/
theorem nameOrOpen_eq_ok {space name full : String} {enclosing : List String} {arguments : List TypeDesc}
    {origin : Option String} (named : nameOrOpen ⟨some space, enclosing, name, arguments, origin⟩ = .ok full) :
    ∃ names, namesOrOpen arguments = .ok names ∧ full.toList =
      (String.intercalate "." ((if space.isEmpty then [] else [space]) ++ enclosing ++ [name])).toList ++
        argumentText names := by
  rw [nameOrOpen] at named
  cases isNames : namesOrOpen arguments with
  | error unnamed =>
    rw [isNames] at named
    cases named
  | ok names =>
    rw [isNames] at named
    refine ⟨names, rfl, ?_⟩
    cases names with
    | nil =>
      cases named
      exact (List.append_nil _).symm
    | cons first rest =>
      cases named
      simp [argumentText, further, String.toList_intercalate, intercalate_cons]

/-- The names of types are those of the first one and of the others. -/
theorem namesOrOpen_cons_eq_ok {type : TypeDesc} {rest : List TypeDesc} {names : List String}
    (named : namesOrOpen (type :: rest) = .ok names) :
    ∃ first others, type.nameOrOpen = .ok first ∧ namesOrOpen rest = .ok others ∧ names = first :: others := by
  rw [namesOrOpen] at named
  cases isFirst : type.nameOrOpen with
  | error unnamed =>
    rw [isFirst] at named
    cases named
  | ok first =>
    cases areOthers : namesOrOpen rest with
    | error unnamed =>
      rw [isFirst, areOthers] at named
      cases named
    | ok others =>
      rw [isFirst, areOthers] at named
      cases named
      exact ⟨first, others, rfl, rfl, rfl⟩

/-- The names of arguments are known from the text behind the definition. -/
theorem argumentText_injective {names names' : List String} (closed : ∀ name ∈ names, IsClosed name.toList)
    (closed' : ∀ name ∈ names', IsClosed name.toList) (same : argumentText names = argumentText names') :
    names = names' := by
  match names, names' with
  | [], [] => rfl
  | [], _ :: _ | _ :: _, [] => cases same
  | first :: rest, first' :: rest' =>
    rw [List.forall_mem_cons] at closed closed'
    have behind : first.toList ++ (further (rest.map String.toList) ++ ['>']) =
        first'.toList ++ (further (rest'.map String.toList) ++ ['>']) := by
      simpa [argumentText] using same
    have firsts := closed.1.eq_of_append_eq closed'.1 (ends_further _) (ends_further _) behind
    rw [firsts] at behind
    have rests := further_injective (List.forall_mem_map.2 closed.2) (List.forall_mem_map.2 closed'.2)
      (List.append_cancel_left behind)
    rw [String.toList_inj.1 firsts, (List.map_injective_iff.2 fun _ _ => String.toList_inj.1) rests]

theorem nameOrOpen_of_fullName? {type : TypeDesc} {full : String} (named : type.fullName? = some full) :
    type.nameOrOpen = .ok full := by
  rw [fullName?] at named
  cases isName : type.nameOrOpen with
  | error unnamed =>
    rw [isName] at named
    cases named
  | ok name =>
    rw [isName] at named
    cases named
    rfl

/-- Types of which each one has a full name have them together. -/
theorem namesOrOpen_of_mapM_fullName? {types : List TypeDesc} {names : List String}
    (named : types.mapM (·.fullName?) = some names) : namesOrOpen types = .ok names := by
  induction types generalizing names with
  | nil =>
      cases named
      rfl
  | cons type rest ih =>
      rw [List.mapM_cons] at named
      obtain ⟨first, isFirst, named⟩ := Option.bind_eq_some_iff.1 named
      obtain ⟨others, areOthers, named⟩ := Option.bind_eq_some_iff.1 named
      cases named
      rw [namesOrOpen, nameOrOpen_of_fullName? isFirst, ih areOthers]
      rfl

variable {type type' : TypeDesc} {types types' : List TypeDesc}

theorem namesOrOpen_closed (closed : ∀ type ∈ types, ∀ full, type.nameOrOpen = .ok full → IsClosed full.toList)
    {names : List String} (named : namesOrOpen types = .ok names) : ∀ name ∈ names, IsClosed name.toList := by
  induction types generalizing names with
  | nil =>
      cases named
      exact fun _ member => absurd member List.not_mem_nil
  | cons type rest ih =>
      rw [List.forall_mem_cons] at closed
      obtain ⟨first, others, isFirst, areOthers, rfl⟩ := namesOrOpen_cons_eq_ok named
      exact List.forall_mem_cons.2 ⟨closed.1 first isFirst, ih closed.2 areOthers⟩

/-- The name of a definition has no divider. -/
theorem definition_plain {space name : String} {enclosing : List String}
    (plain : ∀ part ∈ (some space).toList ++ enclosing ++ [name],
      ∀ character ∈ part.toList, isDivider character = false) :
    ∀ character ∈ (String.intercalate "." ((if space.isEmpty then [] else [space]) ++ enclosing ++ [name])).toList,
      isDivider character = false := by
  intro character member
  rw [String.toList_intercalate] at member
  rcases mem_of_mem_intercalate member with isDot | ⟨part, isPart, inPart⟩
  · rw [List.mem_singleton.1 isDot]
    rfl
  · obtain ⟨text, isText, rfl⟩ := List.mem_map.1 isPart
    refine plain text ?_ character inPart
    split at isText <;> simp_all

/-- Brackets in full names are closed. -/
theorem IsPlain.isClosed (plain : type.IsPlain) {full : String} (named : type.nameOrOpen = .ok full) :
    IsClosed full.toList := by
  induction plain generalizing full with
  | @intro type names _ ih =>
      obtain ⟨space, enclosing, name, arguments, origin⟩ := type
      cases space with
      | none =>
        rw [nameOrOpen] at named
        cases named
      | some space =>
        obtain ⟨texts, areTexts, isFull⟩ := nameOrOpen_eq_ok named
        have closed := namesOrOpen_closed (fun argument member full => ih argument member) areTexts
        rw [isFull]
        refine (IsClosed.of_plain (definition_plain names)).append ?_
        cases texts with
        | nil => rfl
        | cons first rest =>
          rw [List.forall_mem_cons] at closed
          exact closed.1.inAngles (List.forall_mem_map.2 closed.2)

/-- Types of one full name have one definition, and their arguments have the same full names. -/
theorem IsPlain.eq_of_nameOrOpen_eq {space space' name name' full : String} {enclosing enclosing' : List String}
    {origin origin' : Option String}
    (plain : IsPlain ⟨some space, enclosing, name, types, origin⟩)
    (plain' : IsPlain ⟨some space', enclosing', name', types', origin'⟩)
    (named : nameOrOpen ⟨some space, enclosing, name, types, origin⟩ = .ok full)
    (named' : nameOrOpen ⟨some space', enclosing', name', types', origin'⟩ = .ok full) :
    String.intercalate "." ((if space.isEmpty then [] else [space]) ++ enclosing ++ [name]) =
      String.intercalate "." ((if space'.isEmpty then [] else [space']) ++ enclosing' ++ [name']) ∧
    ∃ names, namesOrOpen types = .ok names ∧ namesOrOpen types' = .ok names := by
  obtain ⟨texts, areTexts, isFull⟩ := nameOrOpen_eq_ok named
  obtain ⟨texts', areTexts', isFull'⟩ := nameOrOpen_eq_ok named'
  obtain ⟨names, arguments⟩ := plain
  obtain ⟨names', arguments'⟩ := plain'
  have closed := namesOrOpen_closed (fun argument member full => (arguments argument member).isClosed) areTexts
  have closed' := namesOrOpen_closed (fun argument member full => (arguments' argument member).isClosed) areTexts'
  have plain := definition_plain names
  have plain' := definition_plain names'
  rw [isFull] at isFull'
  have stops {first second : List Char} (plain : ∀ character ∈ second, isDivider character = false)
      (texts : List String) (character : Char) (more : List Char) (longer : second = first ++ character :: more) :
      (argumentText texts).head? ≠ some character := by
    have isPlain := plain character (by simp [longer])
    cases texts with
    | nil => exact nofun
    | cons first rest =>
      rintro ⟨⟩
      cases isPlain
  have definitions := eq_of_append_eq_append isFull' (stops plain' texts) (stops plain texts')
  rw [definitions] at isFull'
  have sameTexts := argumentText_injective closed closed' (List.append_cancel_left isFull')
  exact ⟨String.toList_inj.1 definitions, texts, areTexts, sameTexts ▸ areTexts'⟩

end TypeDesc

namespace Ty

/-- If static types are known from full names one by one, they are known from all of them together. -/
theorem ofDescs_eq_of_namesOrOpen_eq {types types' : List TypeDesc}
    (each : ∀ type ∈ types, ∀ type' ∈ types', ∀ full, type.nameOrOpen = .ok full → type'.nameOrOpen = .ok full →
      ofDesc type = ofDesc type')
    {names : List String} (named : TypeDesc.namesOrOpen types = .ok names)
    (named' : TypeDesc.namesOrOpen types' = .ok names) : ofDescs types = ofDescs types' := by
  induction types generalizing types' names with
  | nil =>
      cases named
      cases types' with
      | nil => rfl
      | cons type' rest' =>
        obtain ⟨_, _, -, -, isCons⟩ := TypeDesc.namesOrOpen_cons_eq_ok named'
        cases isCons
  | cons type rest ih =>
      obtain ⟨first, others, isFirst, areOthers, rfl⟩ := TypeDesc.namesOrOpen_cons_eq_ok named
      cases types' with
      | nil => cases named'
      | cons type' rest' =>
        obtain ⟨first', others', isFirst', areOthers', same⟩ := TypeDesc.namesOrOpen_cons_eq_ok named'
        cases same
        rw [ofDescs, ofDescs, each type List.mem_cons_self type' List.mem_cons_self _ isFirst isFirst',
          ih (fun type member type' member' => each type (List.mem_cons_of_mem _ member) type'
            (List.mem_cons_of_mem _ member')) areOthers areOthers']

/-- The static type of a type is known from its full name. -/
theorem ofDesc_eq_of_nameOrOpen_eq {type type' : TypeDesc} (plain : type.IsPlain) (plain' : type'.IsPlain)
    {full : String} (named : type.nameOrOpen = .ok full) (named' : type'.nameOrOpen = .ok full) :
    ofDesc type = ofDesc type' := by
  induction plain generalizing type' full with
  | @intro type names areArguments ih =>
      have isPlain : type.IsPlain := .intro names areArguments
      obtain ⟨space, enclosing, name, arguments, origin⟩ := type
      obtain ⟨space', enclosing', name', arguments', origin'⟩ := type'
      cases space with
      | none => cases named
      | some space =>
        cases space' with
        | none => cases named'
        | some space' =>
          obtain ⟨definitions, texts, areTexts, areTexts'⟩ := isPlain.eq_of_nameOrOpen_eq plain' named named'
          obtain ⟨-, areArguments'⟩ := plain'
          have sameArguments : ofDescs arguments = ofDescs arguments' :=
            ofDescs_eq_of_namesOrOpen_eq (fun argument member argument' member' full named named' =>
              ih argument member (areArguments' argument' member') named named') areTexts areTexts'
          rw [ofDesc, ofDesc, definitions, sameArguments]

theorem ofDescs_eq_map (types : List TypeDesc) : ofDescs types = types.map ofDesc := by
  induction types with
  | nil => rfl
  | cons first rest ih => rw [ofDescs, ih, List.map_cons]

/-- The static types of types are known from their full names. -/
theorem map_ofDesc_eq_of_mapM_fullName? {types types' : List TypeDesc} (plain : ∀ type ∈ types, type.IsPlain)
    (plain' : ∀ type ∈ types', type.IsPlain) {names : List String}
    (named : types.mapM (·.fullName?) = some names) (named' : types'.mapM (·.fullName?) = some names) :
    types.map ofDesc = types'.map ofDesc := by
  rw [← ofDescs_eq_map, ← ofDescs_eq_map]
  exact ofDescs_eq_of_namesOrOpen_eq (fun type member type' member' full named named' =>
    ofDesc_eq_of_nameOrOpen_eq (plain type member) (plain' type' member') named named')
    (TypeDesc.namesOrOpen_of_mapM_fullName? named) (TypeDesc.namesOrOpen_of_mapM_fullName? named')

end Ty

end Snippet
