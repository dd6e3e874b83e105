import Snippet.Proofs.Shape.Reading
import Snippet.Proofs.Typing.Resolution
import Snippet.Text.Split

/-!
What the full name of a type means inside the generated class. Main statement: if its first name is a type
or a namespace of the libraries, then it means the type of that full name, or it is refused.
-/

namespace Snippet

open Text

/-- Whether no type of the libraries is one of the namespace of generated classes. -/
def LibrarySet.IsForeign (libraries : LibrarySet) : Prop :=
  ∀ library ∈ libraries.libraries, ∀ type ∈ library.types,
    beginsWith type.fullName "DynamicCompilation." = false

/-- Whether the first name in a full name is a type or a namespace of the libraries, here and in the type
arguments. -/
inductive TypeDesc.IsRooted (libraries : LibrarySet) : TypeDesc → Prop where
  | intro {type : TypeDesc}
    (first : ∀ name ∈ type.names.head?, (libraries.findType? name).isSome ∨ libraries.hasNamespace name = true)
    (arguments : ∀ argument ∈ type.arguments, IsRooted libraries argument) : IsRooted libraries type

/-- Whether a type and its type arguments are ones of the libraries. Of a type that lies inside others in
the global namespace, the outermost one is to be a type or a namespace of the libraries too. -/
inductive TypeDesc.IsDefined (libraries : LibrarySet) : TypeDesc → Prop where
  | intro {type : TypeDesc}
    (declared : ∃ library ∈ libraries.libraries, ∃ found ∈ library.types, type.space = some found.space ∧
      type.enclosing = found.enclosing ∧ type.name = found.name)
    (outermost : type.space = some "" → ∀ name ∈ type.enclosing.head?,
      (libraries.findType? name).isSome ∨ libraries.hasNamespace name = true)
    (arguments : ∀ argument ∈ type.arguments, IsDefined libraries argument) : IsDefined libraries type

/-- A namespace lies in each one that some of its names from the first one on make up. -/
theorem LibrarySet.hasNamespace_of_prefix {libraries : LibrarySet} {library : Library}
    (inSet : library ∈ libraries.libraries) {type : HostType} (inLibrary : type ∈ library.types) {front : List String}
    (isSome : front ≠ []) (isFront : front <+: splitAt '.' type.space) :
    libraries.hasNamespace (String.intercalate "." front) = true := by
  refine List.any_eq_true.2 ⟨library, inSet, List.any_eq_true.2 ⟨type, inLibrary, ?_⟩⟩
  obtain ⟨rest, isSplit⟩ := isFront
  have whole : (String.intercalate "." (front ++ rest)).toList = type.space.toList := by
    rw [isSplit, String.toList_intercalate, splitAt, List.map_map]
    have same : String.toList ∘ String.ofList = id := funext fun _ => String.toList_ofList
    rw [same, List.map_id]
    exact intercalate_splitCharacters '.' type.space.toList
  cases rest with
  | nil =>
    rw [List.append_nil] at whole
    rw [String.toList_inj.1 whole, beq_self_eq_true, Bool.true_or]
  | cons next others =>
    rw [String.toList_intercalate, List.map_append, intercalate_append _ (by simpa using isSome) (by simp),
      ← String.toList_intercalate] at whole
    refine Bool.or_eq_true_iff.2 (.inr (List.isPrefixOf_iff_prefix.2 ?_))
    rw [String.toList_append, ← whole]
    exact List.prefix_append _ _

/-- A namespace lies in the one of its first name. -/
theorem LibrarySet.hasNamespace_first {libraries : LibrarySet} {library : Library}
    (inSet : library ∈ libraries.libraries) {type : HostType} (inLibrary : type ∈ library.types) {first : String}
    {rest : List String} (parts : splitAt '.' type.space = first :: rest) :
    libraries.hasNamespace first = true :=
  hasNamespace_of_prefix inSet inLibrary (List.cons_ne_nil first []) (parts ▸ List.prefix_append [first] rest)

theorem LibrarySet.findType?_isSome {libraries : LibrarySet} {library : Library}
    (inSet : library ∈ libraries.libraries) {type : HostType} (inLibrary : type ∈ library.types) :
    (libraries.findType? type.fullName).isSome := by
  refine List.findSome?_isSome_iff.2 ⟨library, inSet, ?_⟩
  exact List.find?_isSome.2 ⟨type, inLibrary, beq_self_eq_true type.fullName⟩

/-- The first name of a type that the libraries define is one of theirs. -/
theorem TypeDesc.IsDefined.isRooted {libraries : LibrarySet} {type : TypeDesc} (defined : type.IsDefined libraries) :
    type.IsRooted libraries := by
  induction defined with
  | @intro type declared outermost _ ih =>
      obtain ⟨library, inSet, found, inLibrary, space, enclosing, name⟩ := declared
      refine ⟨fun first isFirst => ?_, ih⟩
      rw [names, outerNames, space, Option.elim_some] at isFirst
      split at isFirst
      · next isGlobal =>
        have isGlobal := String.isEmpty_iff.1 isGlobal
        rw [isGlobal] at space
        cases outer : type.enclosing with
        | nil =>
          have fullName : found.fullName = type.name := by
            rw [HostType.fullName, isGlobal, ← enclosing, outer, ← name]
            exact String.intercalate_singleton
          rw [outer] at isFirst
          obtain rfl : type.name = first := Option.some.inj isFirst
          exact .inl (fullName ▸ LibrarySet.findType?_isSome inSet inLibrary)
        | cons next others =>
          rw [outer] at isFirst
          exact outermost space first (by rw [outer]; exact isFirst)
      · obtain ⟨head, rest, parts⟩ := List.exists_cons_of_ne_nil (l := splitAt '.' found.space)
          (by simpa [splitAt] using splitCharacters_ne_nil '.' found.space.toList)
        rw [parts] at isFirst
        obtain rfl : head = first := Option.some.inj isFirst
        exact .inr (LibrarySet.hasNamespace_first inSet inLibrary parts)

/-! ### Dotted names -/

theorem intercalate_concat {names : List String} (isSome : names ≠ []) (last : String) :
    String.intercalate "." (names ++ [last]) = String.intercalate "." names ++ "." ++ last := by
  refine String.toList_inj.1 ?_
  have front : names.map String.toList ≠ [] := by simpa using isSome
  rw [String.toList_append, String.toList_append, String.toList_intercalate, String.toList_intercalate,
    List.map_append, intercalate_append _ front (by simp)]
  simp

theorem TypeDesc.definition_eq (space : String) (enclosing : List String) (name : String) :
    String.intercalate "." ((if space.isEmpty then [] else [space]) ++ enclosing ++ [name]) =
      String.intercalate "." (outerNames (some space) enclosing ++ [name]) := by
  refine String.toList_inj.1 ?_
  rw [toList_definition, Piece.texts_dotted, String.toList_intercalate]
  rfl

theorem isEmpty_intercalate {first : String} (rest : List String) (isSome : isIdentifier first = true) :
    (String.intercalate "." (first :: rest)).isEmpty = false := by
  have begins := Piece.beginsName_word (isWord_of_isIdentifier isSome) []
  obtain ⟨character, isFirst, -⟩ := begins
  refine Bool.eq_false_iff.2 fun isEmpty => ?_
  have noText := congrArg String.toList (String.isEmpty_iff.1 isEmpty)
  rw [String.toList_intercalate] at noText
  cases rest with
  | nil =>
    rw [List.map_singleton, List.intercalate_singleton] at noText
    simp [Piece.text, noText] at isFirst
  | cons second others =>
    rw [List.map_cons, List.map_cons, List.intercalate_cons_cons] at noText
    simp at noText

theorem beginsWith_append (first second : String) : beginsWith (first ++ second) first = true := by
  rw [beginsWith, String.toList_append]
  exact List.isPrefixOf_iff_prefix.2 (List.prefix_append _ _)

theorem beginsWith_trans {text front : String} (begins : beginsWith text front = true) (more : String) :
    beginsWith (text ++ more) front = true := by
  rw [beginsWith, String.toList_append]
  exact List.isPrefixOf_iff_prefix.2 ((List.isPrefixOf_iff_prefix.1 begins).trans (List.prefix_append _ _))

/-! ### Meanings -/

/-- Whether a meaning leads to no type of the libraries: a class of the program, or a namespace below that
of generated classes. -/
def Meaning.IsLost : Meaning → Prop
  | .type (.compiled _) => True
  | .type (.host _ _) => False
  | .space name => beginsWith name "DynamicCompilation." = true

/-- Whether a meaning is the type or the namespace of a dotted name. -/
def Meaning.Leads (names : List String) (meaning : Meaning) : Prop :=
  meaning = .type (.host (String.intercalate "." names) []) ∨ meaning = .space (String.intercalate "." names)

namespace Environment

variable {environment : Environment}

theorem meaning?_eq_some {name : String} {meaning : Meaning} (found : environment.meaning? name = some meaning) :
    (∃ index, meaning = .type (.compiled index)) ∨
      (meaning = .type (.host name []) ∧ (environment.libraries.findType? name).isSome) ∨ meaning = .space name := by
  unfold meaning? at found
  split at found
  · next symbol isSymbol =>
    cases found
    unfold typeNamed? at isSymbol
    split at isSymbol
    · cases isSymbol
      exact .inl ⟨_, rfl⟩
    · obtain ⟨type, isType, rfl⟩ := Option.map_eq_some_iff.1 isSymbol
      exact .inr (.inl ⟨rfl, by rw [isType]; rfl⟩)
  · split_ifs at found
    cases found
    exact .inr (.inr rfl)

theorem meaning?_isSome {name : String} (rooted : (environment.libraries.findType? name).isSome ∨
    environment.libraries.hasNamespace name = true) : (environment.meaning? name).isSome := by
  unfold meaning?
  split
  · rfl
  · next isMissing =>
    unfold typeNamed? at isMissing
    split at isMissing
    · cases isMissing
    · have noType : environment.libraries.findType? name = none := Option.map_eq_none_iff.1 isMissing
      have isSpace : environment.hasNamespace name = true := by
        rw [hasNamespace, rooted.resolve_left (by simp [noType]), Bool.or_true]
      rw [if_pos isSpace]
      rfl

/-- Below the namespace of generated classes there is nothing of the libraries. -/
theorem meaning?_isLost (foreign : environment.libraries.IsForeign) {name : String} {meaning : Meaning}
    (generated : beginsWith name "DynamicCompilation." = true)
    (found : environment.meaning? name = some meaning) : meaning.IsLost := by
  rcases meaning?_eq_some found with ⟨index, rfl⟩ | ⟨rfl, isType⟩ | rfl
  · trivial
  · obtain ⟨type, isType⟩ := Option.isSome_iff_exists.1 isType
    obtain ⟨library, inSet, isType⟩ := List.exists_of_findSome?_eq_some isType
    have named : type.fullName = name := by simpa using List.find?_some isType
    have foreign := foreign library inSet type (List.mem_of_find?_eq_some isType)
    rw [named, generated] at foreign
    cases foreign
  · exact generated

theorem meaning?_leads {names : List String} {meaning : Meaning}
    (found : environment.meaning? (String.intercalate "." names) = some meaning) :
    meaning.IsLost ∨ meaning.Leads names := by
  rcases meaning?_eq_some found with ⟨index, rfl⟩ | ⟨rfl, -⟩ | rfl
  · exact .inl trivial
  · exact .inr (.inl rfl)
  · exact .inr (.inr rfl)

/-- The first name of a type in the class of a shape. -/
theorem findSimple_leads (foreign : environment.libraries.IsForeign) {index : Nat} {info : ClassInfo}
    (isClass : environment.class? index = some info) (isGenerated : info.space = "DynamicCompilation") {name : String}
    (rooted : (environment.libraries.findType? name).isSome ∨ environment.libraries.hasNamespace name = true)
    {meaning : Meaning} (found : environment.findSimple index name = .found meaning) :
    meaning.IsLost ∨ meaning.Leads [name] := by
  unfold findSimple at found
  split at found
  · cases found
    exact .inl trivial
  · have chain : spaceChain "DynamicCompilation" = ["DynamicCompilation", ""] := by decide +kernel
    have inner : qualify "DynamicCompilation" name = "DynamicCompilation." ++ name := by
      rw [qualify, if_neg (by decide)]
      rfl
    have outer : qualify "" name = name := if_pos rfl
    obtain ⟨root, isRoot⟩ := Option.isSome_iff_exists.1 (meaning?_isSome rooted)
    simp only [isClass, isGenerated, chain, List.findSome?_cons, inner, outer, isRoot] at found
    cases isInner : environment.meaning? ("DynamicCompilation." ++ name) with
    | some lost =>
      simp only [isInner] at found
      cases found
      exact .inl (meaning?_isLost foreign (beginsWith_append _ _) isInner)
    | none =>
      simp only [isInner] at found
      cases found
      have isAlone : environment.meaning? (String.intercalate "." [name]) = some meaning := isRoot
      exact meaning?_leads isAlone

theorem findMember?_isLost (foreign : environment.libraries.IsForeign) {container meaning : Meaning} {name : String}
    (lost : container.IsLost) (found : environment.findMember? container name = some meaning) : meaning.IsLost := by
  unfold findMember? at found
  split at found
  · next space =>
    refine meaning?_isLost foreign ?_ found
    have isSome : space.isEmpty = false := by
      refine Bool.eq_false_iff.2 fun isEmpty => ?_
      rw [String.isEmpty_iff.1 isEmpty] at lost
      cases lost
    rw [qualify, isSome]
    exact beginsWith_trans (beginsWith_trans lost _) _
  · obtain ⟨nested, -, rfl⟩ := Option.map_eq_some_iff.1 found
    trivial
  · cases lost

theorem findMember?_leads {names : List String} {container meaning : Meaning} {name : String}
    (isSome : (String.intercalate "." names).isEmpty = false) (leads : container.Leads names)
    (found : environment.findMember? container name = some meaning) :
    meaning.IsLost ∨ meaning.Leads (names ++ [name]) := by
  have more : names ≠ [] := by
    rintro rfl
    cases isSome
  rcases leads with rfl | rfl
  · obtain ⟨type, -, rfl⟩ := Option.map_eq_some_iff.1 found
    exact .inr (.inl (by rw [intercalate_concat more]))
  · rw [findMember?, qualify, isSome] at found
    replace found : environment.meaning? (String.intercalate "." names ++ "." ++ name) = some meaning := found
    rw [← intercalate_concat more] at found
    exact meaning?_leads found

theorem withArguments_nil {meaning result : Meaning} {name : String} {span : Span}
    (given : environment.withArguments meaning [] name span = .ok result) : result = meaning := by
  unfold withArguments at given
  split at given
  · split_ifs at given with isList isOne
    · exact isOne.elim
    · cases given
      rfl
  · cases given
    rfl
  · cases given
    rfl

theorem withArguments_isLost {meaning result : Meaning} (lost : meaning.IsLost) {arguments : List Ty} {name : String}
    {span : Span} (given : environment.withArguments meaning arguments name span = .ok result) : result = meaning := by
  unfold withArguments at given
  split at given
  · cases lost
  · split_ifs at given
    cases given
    rfl
  · split_ifs at given
    cases given
    rfl

/-! ### Dotted names of types -/

/-- What a lost name leads to with type arguments, if anything. -/
theorem resolveNext_isLost (foreign : environment.libraries.IsForeign) {index : Nat} {span : Span}
    {container next : Meaning} (lost : container.IsLost) {segment : TypeSegment}
    (resolved : environment.resolveNext index span container segment = .ok next) : next.IsLost := by
  obtain ⟨name, arguments⟩ := segment
  simp only [resolveNext] at resolved
  obtain ⟨types, -, resolved⟩ := of_bind_eq_ok resolved
  split at resolved
  · next meaning found =>
    have lost := findMember?_isLost foreign lost found
    rw [withArguments_isLost lost resolved]
    exact lost
  · cases resolved

theorem resolveRest_isLost (foreign : environment.libraries.IsForeign) {index : Nat} {span : Span}
    {segments : List TypeSegment} {container last : Meaning} (lost : container.IsLost)
    (resolved : environment.resolveRest index span container segments = .ok last) : last.IsLost := by
  induction segments generalizing container with
  | nil =>
      cases resolved
      exact lost
  | cons segment rest ih =>
      simp only [resolveRest] at resolved
      obtain ⟨next, isNext, resolved⟩ := of_bind_eq_ok resolved
      exact ih (resolveNext_isLost foreign lost isNext) resolved

/-- Whether a meaning is the type of a dotted name with the given type arguments, or leads to no type of
the libraries. -/
def Means (environment : Environment) (index : Nat) (names : List String) (written : List TypeName)
    (result : Meaning) : Prop :=
  result.IsLost ∨ ∃ (meaning : Meaning) (arguments : List Ty) (name : String) (span : Span), meaning.Leads names ∧
    environment.resolveArguments index written = .ok arguments ∧
    environment.withArguments meaning arguments name span = .ok result

theorem resolveNext_means {index : Nat} {span : Span} {names : List String}
    (isSome : (String.intercalate "." names).isEmpty = false) {container next : Meaning}
    (leads : container.Leads names) {name : String} {written : List TypeName}
    (resolved : environment.resolveNext index span container (.mk name written) = .ok next) :
    environment.Means index (names ++ [name]) written next := by
  simp only [resolveNext] at resolved
  obtain ⟨types, areTypes, resolved⟩ := of_bind_eq_ok resolved
  split at resolved
  · next meaning found =>
    rcases findMember?_leads isSome leads found with lost | leads
    · rw [withArguments_isLost lost resolved]
      exact .inl lost
    · exact .inr ⟨meaning, types, name, span, leads, areTypes, resolved⟩
  · cases resolved

theorem Means.leads {index : Nat} {names : List String} {result : Meaning}
    (means : environment.Means index names [] result) : result.IsLost ∨ result.Leads names := by
  rcases means with lost | ⟨meaning, arguments, name, span, leads, isNone, given⟩
  · exact .inl lost
  · simp only [resolveArguments] at isNone
    cases isNone
    rw [withArguments_nil given]
    exact .inr leads

theorem resolveRest_means {index : Nat} {span : Span} (foreign : environment.libraries.IsForeign)
    {first : String} (isIdentifier : isIdentifier first = true) {front : List String} {container result : Meaning}
    (leads : container.Leads (first :: front)) {names : List String} {last : String} {written : List TypeName}
    (resolved : environment.resolveRest index span container (names.map (.mk · []) ++ [.mk last written]) =
      .ok result) :
    environment.Means index (first :: front ++ (names ++ [last])) written result := by
  have isSome (rest : List String) := isEmpty_intercalate rest isIdentifier
  induction names generalizing front container with
  | nil =>
      simp only [List.map_nil, List.nil_append, resolveRest] at resolved
      obtain ⟨next, isNext, resolved⟩ := of_bind_eq_ok resolved
      cases resolved
      exact resolveNext_means (isSome front) leads isNext
  | cons name others ih =>
      simp only [List.map_cons, List.cons_append, resolveRest] at resolved
      obtain ⟨next, isNext, resolved⟩ := of_bind_eq_ok resolved
      rcases (resolveNext_means (isSome front) leads isNext).leads with lost | leads
      · exact .inl (resolveRest_isLost foreign lost resolved)
      · simpa using ih leads resolved

/-- The class of a shape's method, as the names in it are looked up. -/
structure IsGenerated (environment : Environment) (index : Nat) : Prop where
  foreign : environment.libraries.IsForeign
  inClass : ∃ info, environment.class? index = some info ∧ info.space = "DynamicCompilation"

/-- The first part of a dotted name whose first name belongs to the libraries. -/
theorem resolveFirst_means {index : Nat} (generated : environment.IsGenerated index) {name : String}
    (rooted : (environment.libraries.findType? name).isSome ∨ environment.libraries.hasNamespace name = true)
    {written : List TypeName} {span : Span} {result : Meaning}
    (resolved : environment.resolveFirst index span (.mk name written) = .ok result) :
    environment.Means index [name] written result := by
  obtain ⟨info, isClass, isSpace⟩ := generated.inClass
  simp only [resolveFirst] at resolved
  obtain ⟨types, areTypes, resolved⟩ := of_bind_eq_ok resolved
  split at resolved
  · next meaning found =>
    rcases findSimple_leads generated.foreign isClass isSpace rooted found with lost | leads
    · rw [withArguments_isLost lost resolved]
      exact .inl lost
    · exact .inr ⟨meaning, types, name, span, leads, areTypes, resolved⟩
  · cases resolved
  · cases resolved

/-- A dotted name whose first name belongs to the libraries. -/
theorem resolveSymbol_means {index : Nat} (generated : environment.IsGenerated index) {names : List String}
    {last : String} {written : List TypeName} {span : Span}
    (identifiers : ∀ name ∈ names ++ [last], isIdentifier name = true)
    (rooted : ∀ name ∈ (names ++ [last]).head?,
      (environment.libraries.findType? name).isSome ∨ environment.libraries.hasNamespace name = true)
    {symbol : TypeSymbol} (resolved : environment.resolveSymbol index
      (.named span (names.map (.mk · []) ++ [.mk last written])) = .ok symbol) :
    environment.Means index (names ++ [last]) written (.type symbol) := by
  cases names with
  | nil =>
    simp only [List.map_nil, List.nil_append, resolveSymbol] at resolved
    obtain ⟨first, isFirst, resolved⟩ := of_bind_eq_ok resolved
    obtain ⟨meaning, isRest, resolved⟩ := of_bind_eq_ok resolved
    have means := resolveFirst_means generated (rooted last rfl) isFirst
    cases isRest
    split at resolved
    · cases resolved
      exact means
    · cases resolved
  | cons name others =>
    simp only [List.map_cons, List.cons_append, resolveSymbol] at resolved
    obtain ⟨first, isFirst, resolved⟩ := of_bind_eq_ok resolved
    obtain ⟨meaning, isRest, resolved⟩ := of_bind_eq_ok resolved
    split at resolved
    · cases resolved
      rcases (resolveFirst_means generated (rooted name rfl) isFirst).leads with lost | leads
      · exact .inl (resolveRest_isLost generated.foreign lost isRest)
      · exact resolveRest_means generated.foreign (identifiers name List.mem_cons_self) leads isRest
    · cases resolved

/-! ### Types -/

theorem resolveArguments_ok {index : Nat} {written : List TypeName} {types : List Ty}
    (resolved : environment.resolveArguments index written = .ok types) :
    List.Forall₂ (fun name type => environment.resolveType index .typeArgument name = .ok type) written types := by
  induction written generalizing types with
  | nil =>
      simp only [resolveArguments] at resolved
      cases resolved
      exact .nil
  | cons first rest ih =>
      simp only [resolveArguments] at resolved
      obtain ⟨symbol, isSymbol, resolved⟩ := of_bind_eq_ok resolved
      obtain ⟨type, isType, resolved⟩ := of_bind_eq_ok resolved
      obtain ⟨others, areOthers, resolved⟩ := of_bind_eq_ok resolved
      cases resolved
      refine .cons ?_ (ih areOthers)
      rw [resolveType, isSymbol]
      exact isType

/-- The type of a library's type is the one of its definition. -/
theorem symbolType_host {definition : String} {arguments : List Ty} {use : StaticTypeUse} {span : Span} {type : Ty}
    (isType : environment.symbolType use span (.host definition arguments) = .ok type) :
    type = Ty.ofDefinition definition arguments := by
  simp only [symbolType] at isType
  split at isType
  · next name isData =>
    split_ifs at isType
    cases isType
    exact isData.symm
  · cases isType
    rfl

theorem fullName_ofDefinition_nil {definition : String} (notList : definition ≠ TypeNames.list) :
    (Ty.ofDefinition definition []).fullName = definition := by
  have notList : (definition == TypeNames.list) = false := beq_eq_false_iff_ne.2 notList
  unfold Ty.ofDefinition
  split_ifs with boolean int long double string object list
  · exact (beq_iff_eq.1 boolean).symm
  · exact (beq_iff_eq.1 int).symm
  · exact (beq_iff_eq.1 long).symm
  · exact (beq_iff_eq.1 double).symm
  · exact (beq_iff_eq.1 string).symm
  · exact (beq_iff_eq.1 object).symm
  · rw [notList] at list
    cases list
  · rfl

/-- A type of a dotted name with type arguments, of which only the list takes one. -/
theorem Means.symbol {index : Nat} {names : List String} {written : List TypeName} {symbol : TypeSymbol}
    (means : environment.Means index names written (.type symbol)) : (∃ owner, symbol = .compiled owner) ∨
      ∃ arguments, environment.resolveArguments index written = .ok arguments ∧
        symbol = .host (String.intercalate "." names) arguments ∧
        (String.intercalate "." names = TypeNames.list ∧ arguments.length = 1 ∨
          String.intercalate "." names ≠ TypeNames.list ∧ arguments = []) := by
  rcases means with lost | ⟨meaning, arguments, name, span, leads, areTypes, given⟩
  · cases symbol with
    | compiled index => exact .inl ⟨index, rfl⟩
    | host definition held => cases lost
  · refine .inr ⟨arguments, areTypes, ?_⟩
    unfold withArguments at given
    rcases leads with rfl | rfl
    · dsimp only at given
      split_ifs at given with isList isOne isEmpty
      · cases given
        exact ⟨rfl, .inl ⟨beq_iff_eq.1 isList, isOne⟩⟩
      · cases given
        obtain rfl := List.isEmpty_iff.1 isEmpty
        exact ⟨rfl, .inr ⟨fun same => isList (beq_iff_eq.2 same), rfl⟩⟩
    · dsimp only at given
      split_ifs at given
      cases given

/-- The full name of a type means the type of this name in the class of a shape, or it is refused. -/
theorem resolveType_reads {index : Nat} (generated : environment.IsGenerated index) {type : TypeDesc}
    (named : type.IsNamed) (rooted : type.IsRooted environment.libraries) {use : StaticTypeUse} {written : TypeName}
    (reads : type.Reads written) {resolved : Ty} (isType : environment.resolveType index use written = .ok resolved) :
    type.nameOrOpen = .ok resolved.fullName := by
  induction rooted generalizing use written resolved with
  | @intro type first _ ih =>
      obtain ⟨hasSpace, identifiers, areNamed⟩ := named
      obtain ⟨sameLength, areRead⟩ := reads
      obtain ⟨space, enclosing, name, arguments, origin⟩ := type
      obtain ⟨space, rfl⟩ := Option.isSome_iff_exists.1 hasSpace
      obtain ⟨symbol, isSymbol, isType⟩ := of_bind_eq_ok isType
      have means := resolveSymbol_means generated identifiers first isSymbol
      rcases means.symbol with ⟨owner, rfl⟩ | means
      · cases isType
      · obtain ⟨types, areTypes, rfl, isForm⟩ := means
        have isResolved := symbolType_host isType
        have resolves := resolveArguments_ok areTypes
        rw [TypeDesc.nameOrOpen, TypeDesc.definition_eq]
        rcases isForm with ⟨isList, isOne⟩ | ⟨notList, rfl⟩
        · obtain ⟨element, rfl⟩ := List.length_eq_one_iff.1 isOne
          obtain ⟨one, others, isElement, last, rfl⟩ := List.forall₂_cons_right_iff.1 resolves
          cases last
          obtain ⟨argument, rfl⟩ := List.length_eq_one_iff.1 sameLength.symm
          have inner := ih argument List.mem_cons_self (areNamed argument List.mem_cons_self)
            (areRead (argument, one) List.mem_cons_self) isElement
          have isNames : TypeDesc.namesOrOpen [argument] = .ok [element.fullName] := by
            rw [TypeDesc.namesOrOpen, inner]
            rfl
          rw [isResolved, isNames, isList]
          rfl
        · cases resolves
          obtain rfl : arguments = [] := List.length_eq_zero_iff.1 sameLength.symm
          rw [isResolved, fullName_ofDefinition_nil notList]
          rfl

end Environment

end Snippet
