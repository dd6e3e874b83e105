import Snippet.Proofs.Typing.Checker

/-!
Names of types: the type that a name means exists, and every refusal of a name is an error.
-/

namespace Snippet

/-- Whether the type can be written down: variables may have it, and no error stands in it. -/
structure Ty.Named (typing : Typing) (type : Ty) : Prop extends type.Stores typing where
  whole : type.IsWhole
  known : ∀ name, type = .data name → (typing.libraries.findType? name).isSome

theorem Ty.Named.written {typing : Typing} {type : Ty} (named : type.Named typing) : type ≠ .error := by
  rintro rfl
  exact named.whole

/-- Whether a result is good, or else an error. -/
def Resolves {α : Type} (good : α → Prop) : Except Finding α → Prop
  | .ok value => good value
  | .error finding => finding.isError = true

namespace Resolves

variable {α β : Type} {good : α → Prop} {goal : β → Prop}

theorem bind {result : Except Finding α} {next : α → Except Finding β} (head : Resolves good result)
    (tail : ∀ value, good value → Resolves goal (next value)) : Resolves goal (result >>= next) := by
  cases result with
  | error finding => exact head
  | ok value => exact tail value head

theorem mono {good' : α → Prop} {result : Except Finding α} (resolves : Resolves good result)
    (weaker : ∀ value, good value → good' value) : Resolves good' result := by
  cases result with
  | error finding => exact resolves
  | ok value => exact weaker value resolves

end Resolves

namespace Environment

variable {environment : Environment} {typing : Typing}

/-- Whether a meaning is that of a name without type arguments. -/
def IsFresh (environment : Environment) : Meaning → Prop
  | .type (.host definition arguments) =>
    (environment.libraries.findType? definition).isSome ∧ arguments = []
  | _ => True

/-- Whether a type symbol means a type of variables, unless it is a class of the program. -/
def IsSettled (typing : Typing) : TypeSymbol → Prop
  | .host definition arguments => (Ty.ofDefinition definition arguments).Named typing
  | .compiled _ => True

/-- Whether a meaning is settled. -/
def Settles (typing : Typing) : Meaning → Prop
  | .type symbol => IsSettled typing symbol
  | .space _ => True

theorem typeNamed?_fresh {fullName : String} {symbol : TypeSymbol}
    (found : environment.typeNamed? fullName = some symbol) : environment.IsFresh (.type symbol) := by
  unfold typeNamed? at found
  split at found
  · cases found
    trivial
  · obtain ⟨type, isType, rfl⟩ := Option.map_eq_some_iff.1 found
    exact ⟨by rw [isType, Option.isSome_some], rfl⟩

theorem meaning?_fresh {fullName : String} {meaning : Meaning}
    (found : environment.meaning? fullName = some meaning) : environment.IsFresh meaning := by
  unfold meaning? at found
  split at found
  · next symbol isSymbol =>
    cases found
    exact typeNamed?_fresh isSymbol
  · split at found
    · cases found
      trivial
    · cases found

theorem importedTypes_fresh {usings : List String} {name full : String} {symbol : TypeSymbol}
    (member : (full, symbol) ∈ environment.importedTypes usings name) :
    environment.IsFresh (.type symbol) := by
  let IsFreshList (found : List (String × TypeSymbol)) : Prop :=
    ∀ entry ∈ found, environment.IsFresh (.type entry.2)
  have steps : IsFreshList (environment.importedTypes usings name) := by
    refine List.foldlRecOn usings _ (fun _ member => absurd member List.not_mem_nil) fun found fresh space _ => ?_
    dsimp only
    split
    · exact fresh
    · split
      · next symbol isSymbol =>
        intro entry inFound
        rcases List.mem_append.1 inFound with old | new
        · exact fresh entry old
        · rw [List.mem_singleton.1 new]
          exact typeNamed?_fresh isSymbol
      · exact fresh
  exact steps (full, symbol) member

theorem findSimple_fresh {index : Nat} {name : String} {meaning : Meaning}
    (found : environment.findSimple index name = .found meaning) : environment.IsFresh meaning := by
  unfold findSimple at found
  split at found
  · cases found
    trivial
  · simp only at found
    split at found
    · next meaning isMeaning =>
      cases found
      obtain ⟨outer, _, isOuter⟩ := List.exists_of_findSome?_eq_some isMeaning
      exact meaning?_fresh isOuter
    · split at found
      · cases found
      · next full symbol isOne =>
        cases found
        exact importedTypes_fresh (isOne ▸ List.mem_singleton.2 rfl)
      · cases found

theorem findMember?_fresh {container meaning : Meaning} {name : String}
    (found : environment.findMember? container name = some meaning) : environment.IsFresh meaning := by
  unfold findMember? at found
  split at found
  · exact meaning?_fresh found
  · obtain ⟨nested, _, rfl⟩ := Option.map_eq_some_iff.1 found
    trivial
  · obtain ⟨type, isType, rfl⟩ := Option.map_eq_some_iff.1 found
    exact ⟨by rw [isType, Option.isSome_some], rfl⟩

/-- A name without arguments, unless it is the list, means a type of variables. -/
theorem ofDefinition_named {definition : String} (libraries : typing.libraries = environment.libraries)
    (known : (environment.libraries.findType? definition).isSome) (notList : definition ≠ TypeNames.list) :
    (Ty.ofDefinition definition []).Named typing := by
  have notList : (definition == TypeNames.list) = false := beq_eq_false_iff_ne.2 notList
  unfold Ty.ofDefinition
  split_ifs with boolean int long double string object <;>
    try exact ⟨⟨rfl, fun _ => trivial⟩, trivial, nofun⟩
  · exact absurd ‹_› (by simp [notList])
  · refine ⟨⟨rfl, fun _ => ⟨libraries ▸ known, by simp [Ty.ofDefinition, *]⟩⟩, trivial, ?_⟩
    rintro name ⟨⟩
    exact libraries ▸ known

/-- A fresh name with arguments that variables may have is settled. -/
theorem withArguments_settles (libraries : typing.libraries = environment.libraries) {meaning : Meaning}
    (fresh : environment.IsFresh meaning) {arguments : List Ty}
    (named : ∀ argument ∈ arguments, argument.Named typing) (name : String) (span : Span) :
    Resolves (Settles typing) (environment.withArguments meaning arguments name span) := by
  unfold withArguments
  split
  · next definition held =>
    obtain ⟨known, rfl⟩ := fresh
    split_ifs with isList isOne isEmpty
    · obtain ⟨argument, rfl⟩ := List.length_eq_one_iff.1 isOne
      have stored := named argument (List.mem_singleton.2 rfl)
      rw [beq_iff_eq.1 isList]
      exact ⟨⟨stored.holds, stored.defined⟩, stored.whole, nofun⟩
    · rfl
    · exact ofDefinition_named libraries known (by simpa using isList)
    · rfl
  · split_ifs
    · trivial
    · rfl
  · split_ifs
    · trivial
    · rfl

theorem missingMember_isError (container : Meaning) (name : String) :
    (environment.missingMember container name).isWarning = false := by
  cases container <;> rfl

/-- The type of a settled name can be written down. -/
theorem symbolType_named (typing : Typing) (symbol : TypeSymbol) (use : StaticTypeUse) (span : Span) :
    Resolves (fun type => IsSettled typing symbol → type.Named typing)
      (environment.symbolType use span symbol) := by
  cases symbol with
  | compiled index => rfl
  | host definition arguments =>
    simp only [symbolType]
    split
    · next name isData =>
      split_ifs
      · rfl
      · exact fun settled => isData ▸ settled
    · exact id

/-- A keyword means a settled type. -/
theorem basic_settled (type : BasicType) : IsSettled typing (.host (Ty.ofBasic type).fullName []) := by
  have isBasic : (Ty.ofBasic type).isBasic = true := by cases type <;> rfl
  show (Ty.ofDefinition _ []).Named typing
  rw [Ty.ofDefinition_fullName isBasic]
  cases type <;> exact ⟨⟨rfl, fun _ => trivial⟩, trivial, nofun⟩

/-- A class that can be written down in a place of use is not static. -/
theorem symbolType_creates (libraries : typing.libraries = environment.libraries) (symbol : TypeSymbol)
    (use : StaticTypeUse) (span : Span) :
    Resolves (fun type => IsSettled typing symbol →
        type.Named typing ∧ ∀ name, type = .data name → typing.libraries.Creates name)
      (environment.symbolType use span symbol) := by
  cases symbol with
  | compiled index => rfl
  | host definition arguments =>
    simp only [symbolType]
    split
    · next name isData =>
      split_ifs with isStatic
      · rfl
      · intro settled
        have named : (Ty.data name).Named typing := isData ▸ settled
        refine ⟨named, ?_⟩
        rintro _ ⟨⟩
        obtain ⟨type, found⟩ := Option.isSome_iff_exists.1 (named.known name rfl)
        refine ⟨type, found, fun kind => isStatic ?_⟩
        rw [← libraries, found, Option.any_some, kind]
        rfl
    · next notData => exact fun settled => ⟨settled, fun name isData => absurd isData (notData name)⟩

mutual

/-- A type name means a type of variables, or it is refused with an error. -/
theorem resolveSymbol_settles (libraries : typing.libraries = environment.libraries) (index : Nat)
    (type : TypeName) :
    Resolves (IsSettled typing) (environment.resolveSymbol index type) := by
  match type with
  | .basic _ type => exact basic_settled type
  | .named span [] => rfl
  | .named span (segment :: rest) =>
    simp only [resolveSymbol]
    refine (resolveFirst_settles libraries index span segment).bind fun first settled => ?_
    refine (resolveRest_settles libraries index span first settled rest).bind fun meaning settled => ?_
    cases meaning with
    | type symbol => exact settled
    | space name => rfl

theorem resolveFirst_settles (libraries : typing.libraries = environment.libraries) (index : Nat)
    (span : Span) (segment : TypeSegment) :
    Resolves (Settles typing) (environment.resolveFirst index span segment) := by
  match segment with
  | .mk name arguments =>
    simp only [resolveFirst]
    refine (resolveArguments_named libraries index arguments).bind fun arguments named => ?_
    split
    · next meaning found =>
      exact withArguments_settles libraries (findSimple_fresh found) named name span
    · rfl
    · rfl

theorem resolveRest_settles (libraries : typing.libraries = environment.libraries) (index : Nat)
    (span : Span) (container : Meaning) (settled : Settles typing container)
    (segments : List TypeSegment) :
    Resolves (Settles typing) (environment.resolveRest index span container segments) := by
  match segments with
  | [] => exact settled
  | segment :: rest =>
    simp only [resolveRest]
    exact (resolveNext_settles libraries index span container segment).bind fun next settled =>
      resolveRest_settles libraries index span next settled rest

theorem resolveNext_settles (libraries : typing.libraries = environment.libraries) (index : Nat)
    (span : Span) (container : Meaning) (segment : TypeSegment) :
    Resolves (Settles typing) (environment.resolveNext index span container segment) := by
  match segment with
  | .mk name arguments =>
    simp only [resolveNext]
    refine (resolveArguments_named libraries index arguments).bind fun arguments named => ?_
    split
    · next meaning found =>
      exact withArguments_settles libraries (findMember?_fresh found) named name span
    · simp [Resolves, Finding.isError, missingMember_isError]

theorem resolveArguments_named (libraries : typing.libraries = environment.libraries) (index : Nat)
    (types : List TypeName) :
    Resolves (fun arguments => ∀ argument ∈ arguments, argument.Named typing)
      (environment.resolveArguments index types) := by
  match types with
  | [] => exact fun _ member => absurd member List.not_mem_nil
  | type :: rest =>
    simp only [resolveArguments]
    refine (resolveSymbol_settles libraries index type).bind fun symbol settled => ?_
    refine (symbolType_named typing symbol _ _).bind fun first named => ?_
    refine (resolveArguments_named libraries index rest).bind fun others namedOthers => ?_
    intro argument member
    rcases List.mem_cons.1 member with rfl | inOthers
    · exact named settled
    · exact namedOthers argument inOthers

end

/-- A named type is one of variables, or it is refused with an error. -/
theorem resolveType_named (libraries : typing.libraries = environment.libraries) (index : Nat)
    (use : StaticTypeUse) (type : TypeName) :
    Resolves (Ty.Named typing) (environment.resolveType index use type) :=
  (resolveSymbol_settles libraries index type).bind fun symbol settled =>
    (symbolType_named typing symbol _ _).mono fun _ named => named settled

/-- A type that a program names is whole. -/
theorem resolveType_whole (environment : Environment) (index : Nat) (use : StaticTypeUse) (type : TypeName) :
    Resolves Ty.IsWhole (environment.resolveType index use type) := by
  let typing : Typing := ⟨environment.libraries, [], [], .void⟩
  have libraries : typing.libraries = environment.libraries := rfl
  exact (resolveType_named libraries index use type).mono fun _ named => named.whole

end Environment

end Snippet
