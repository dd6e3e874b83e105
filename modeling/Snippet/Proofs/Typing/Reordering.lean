import Snippet.Proofs.Typing.Resolution

/-!
Names where the namespaces in use stand in another order. Main statement: a type name that means a type means the same
type in every order, and any other one is refused with an error.
-/

namespace Snippet

/-- Whether a class differs from another one at most in the order of the namespaces in use. -/
def ClassInfo.Reorders (info info' : ClassInfo) : Prop :=
  ∃ usings, info.usings.Perm usings ∧ info' = { info with usings }

/-- Whether the classes of two programs differ at most in the order of the namespaces in use. -/
def ClassInfo.ReorderAll (classes classes' : Array ClassInfo) : Prop :=
  ∀ index : Nat, Option.Rel ClassInfo.Reorders classes[index]? classes'[index]?

/-- The environment with other classes. -/
def Environment.withClasses (environment : Environment) (classes : Array ClassInfo) : Environment :=
  { environment with classes }

/-- Whether a lookup gives the same as another one, or both are ambiguous. -/
inductive Lookup.Reorders : Lookup → Lookup → Prop where
  | same (lookup : Lookup) : Reorders lookup lookup
  | ambiguous (first second first' second' : String) : Reorders (.ambiguous first second) (.ambiguous first' second')

/-- What the types of a name in the namespaces in use mean together. -/
def Lookup.ofTypes : List (String × TypeSymbol) → Lookup
  | [] => .missing
  | [(_, symbol)] => .found (.type symbol)
  | (first, _) :: (second, _) :: _ => .ambiguous first second

theorem Lookup.ofTypes_reorders {types types' : List (String × TypeSymbol)} (perm : types.Perm types') :
    (Lookup.ofTypes types).Reorders (Lookup.ofTypes types') := by
  cases types with
  | nil =>
    rw [List.nil_perm.1 perm]
    exact .same _
  | cons entry others =>
    cases others with
    | nil =>
      rw [List.singleton_perm.1 perm]
      exact .same _
    | cons other rest =>
      obtain ⟨entry', others', rfl⟩ := List.exists_cons_of_length_eq_add_one perm.length_eq.symm
      obtain ⟨other', rest', rfl⟩ := List.exists_cons_of_length_eq_add_one (Nat.succ.inj perm.length_eq).symm
      exact .ambiguous ..

namespace Resolves

variable {α β : Type}

/-- A result is kept by itself if every refusal is an error. -/
theorem same {result : Except Finding α} (errors : ∀ finding, result = .error finding → finding.isError = true) :
    Resolves (result = .ok ·) result := by
  cases result with
  | ok value => rfl
  | error finding => exact errors finding rfl

/-- A sequence of results is kept if its parts are. -/
theorem keepsBind {first first' : Except Finding α} {rest rest' : α → Except Finding β}
    (head : Resolves (first' = .ok ·) first) (tail : ∀ value, Resolves (rest' value = .ok ·) (rest value)) :
    Resolves (first' >>= rest' = .ok ·) (first >>= rest) := by
  refine head.bind fun value kept => ?_
  rw [kept]
  exact tail value

/-- A choice between results is kept if both are. -/
theorem keepsChoose {condition : Prop} [Decidable condition] {first first' second second' : Except Finding α}
    (yes : Resolves (first' = .ok ·) first) (no : Resolves (second' = .ok ·) second) :
    Resolves ((if condition then first' else second') = .ok ·) (if condition then first else second) := by
  split
  · exact yes
  · exact no

end Resolves

namespace Environment

variable {environment : Environment}

/-! ### Imported types -/

/-- Some types of a name, with the one in one more namespace. -/
def importing (environment : Environment) (name : String) (found : List (String × TypeSymbol)) (space : String) :
    List (String × TypeSymbol) :=
  if found.any (·.1 == qualify space name) then found
  else
    match environment.typeNamed? (qualify space name) with
    | some symbol => found ++ [(qualify space name, symbol)]
    | none => found

theorem importedTypes_eq (usings : List String) (name : String) :
    environment.importedTypes usings name = usings.foldl (environment.importing name) [] := rfl

/-- Whether types are held by their full names, each one once. -/
structure Imports (environment : Environment) (found : List (String × TypeSymbol)) : Prop where
  named : ∀ entry ∈ found, environment.typeNamed? entry.1 = some entry.2
  nodup : found.Nodup

theorem Imports.importing {found : List (String × TypeSymbol)} (imports : environment.Imports found)
    (name space : String) : environment.Imports (environment.importing name found space) := by
  unfold Environment.importing
  split_ifs with isFound
  · exact imports
  · split
    · next symbol isSymbol =>
      refine ⟨fun entry member => ?_, ?_⟩
      · rcases List.mem_append.1 member with old | new
        · exact imports.named entry old
        · rw [List.mem_singleton.1 new]
          exact isSymbol
      · refine List.nodup_append.2 ⟨imports.nodup, by simp, fun entry old other new same => isFound ?_⟩
        rw [same, List.mem_singleton.1 new] at old
        exact List.any_eq_true.2 ⟨_, old, beq_self_eq_true _⟩
    · exact imports

theorem Imports.mem_importing {found : List (String × TypeSymbol)} (imports : environment.Imports found)
    {name space : String} {entry : String × TypeSymbol} : entry ∈ environment.importing name found space ↔
      entry ∈ found ∨ qualify space name = entry.1 ∧ environment.typeNamed? entry.1 = some entry.2 := by
  unfold Environment.importing
  split_ifs with isFound
  · refine ⟨.inl, fun holds => holds.elim id fun ⟨isName, isNamed⟩ => ?_⟩
    obtain ⟨other, member, same⟩ := List.any_eq_true.1 isFound
    have sameName : entry.1 = other.1 := (isName.symm.trans (beq_iff_eq.1 same).symm)
    have sameSymbol : some entry.2 = some other.2 := by
      rw [← isNamed, sameName, imports.named other member]
    rwa [Prod.ext sameName (Option.some.inj sameSymbol)]
  · split
    · next symbol isSymbol =>
      rw [List.mem_append, List.mem_singleton]
      refine or_congr_right ⟨fun same => ?_, fun ⟨isName, isNamed⟩ => ?_⟩
      · rw [same]
        exact ⟨rfl, isSymbol⟩
      · rw [← isName, isSymbol] at isNamed
        exact Prod.ext isName.symm (Option.some.inj isNamed).symm
    · next isMissing =>
      refine ⟨.inl, fun holds => holds.elim id fun ⟨isName, isNamed⟩ => ?_⟩
      rw [← isName, isMissing] at isNamed
      cases isNamed

theorem Imports.foldl {found : List (String × TypeSymbol)} (imports : environment.Imports found) (name : String)
    (usings : List String) : environment.Imports (usings.foldl (environment.importing name) found) ∧
      ∀ entry, entry ∈ usings.foldl (environment.importing name) found ↔ entry ∈ found ∨
        (∃ space ∈ usings, qualify space name = entry.1) ∧ environment.typeNamed? entry.1 = some entry.2 := by
  induction usings generalizing found with
  | nil => exact ⟨imports, fun entry => by simp⟩
  | cons space rest ih =>
    obtain ⟨imported, members⟩ := ih (imports.importing name space)
    refine ⟨imported, fun entry => ?_⟩
    rw [List.foldl_cons, members, imports.mem_importing, or_assoc, ← or_and_right]
    simp

/-- The imported types do not depend on the order of the namespaces in use. -/
theorem importedTypes_perm {usings usings' : List String} (perm : usings.Perm usings') (name : String) :
    (environment.importedTypes usings name).Perm (environment.importedTypes usings' name) := by
  have nothing : environment.Imports [] := ⟨fun _ member => absurd member List.not_mem_nil, List.nodup_nil⟩
  obtain ⟨imports, members⟩ := nothing.foldl name usings
  obtain ⟨imports', members'⟩ := nothing.foldl name usings'
  rw [importedTypes_eq, importedTypes_eq, List.perm_ext_iff_of_nodup imports.nodup imports'.nodup]
  intro entry
  rw [members, members']
  simp only [perm.mem_iff]

/-! ### Names -/

variable {classes : Array ClassInfo}

section

variable (reorders : ClassInfo.ReorderAll environment.classes classes)

include reorders

/-- What does not look at the namespaces in use sees the same classes. -/
theorem map_class?_withClasses {α : Type} (view : ClassInfo → α)
    (same : ∀ (info : ClassInfo) (usings : List String), view { info with usings } = view info) (index : Nat) :
    ((environment.withClasses classes).class? index).map view = (environment.class? index).map view := by
  have related : Option.Rel ClassInfo.Reorders (environment.class? index)
    ((environment.withClasses classes).class? index) := reorders index
  revert related
  generalize environment.class? index = found, (environment.withClasses classes).class? index = found'
  rintro (⟨usings, -, rfl⟩ | _)
  · exact congrArg some (same _ usings)
  · rfl

theorem any_class?_withClasses (test : ClassInfo → Bool)
    (same : ∀ (info : ClassInfo) (usings : List String), test { info with usings } = test info) (index : Nat) :
    ((environment.withClasses classes).class? index).any test = (environment.class? index).any test := by
  have sameTests := map_class?_withClasses reorders test same index
  simpa [Option.any_map] using congrArg (Option.any id) sameTests

@[simp]
theorem classShown_withClasses (index : Nat) :
    (environment.withClasses classes).classShown index = environment.classShown index := by
  rw [classShown, map_class?_withClasses reorders ClassInfo.shown fun _ _ => rfl]
  rfl

theorem nestedClass?_withClasses (index : Nat) (name : String) :
    (environment.withClasses classes).nestedClass? index name = environment.nestedClass? index name := by
  have sameNested := map_class?_withClasses reorders ClassInfo.nested (fun _ _ => rfl) index
  simpa [nestedClass?, Option.bind_map, Function.comp_def] using
    congrArg (Option.bind · fun nested => nested.lookup name) sameNested

theorem classChain_withClasses (index : Nat) :
    (environment.withClasses classes).classChain index = environment.classChain index := by
  have goes (fuel index : Nat) :
      classChain.go (environment.withClasses classes) fuel index = classChain.go environment fuel index := by
    induction fuel generalizing index with
    | zero => rfl
    | succ fuel ih =>
      have sameParent := map_class?_withClasses reorders ClassInfo.parent (fun _ _ => rfl) index
      rw [classChain.go, classChain.go]
      generalize environment.class? index = found, (environment.withClasses classes).class? index = found' at sameParent
      cases found <;> cases found' <;>
        simp only [Option.map_none, Option.map_some, reduceCtorEq, Option.some.injEq] at sameParent
      · rfl
      · dsimp only
        rw [sameParent]
        cases ClassInfo.parent _ with
        | none => rfl
        | some parent => exact congrArg (index :: ·) (ih parent)
  exact goes (index + 1) index

/-- A simple name means the same, or it is ambiguous in both orders. -/
theorem findSimple_reorders (index : Nat) (name : String) :
    (environment.findSimple index name).Reorders ((environment.withClasses classes).findSimple index name) := by
  have sameNested : ((environment.withClasses classes).nestedClass? · name) = (environment.nestedClass? · name) :=
    funext fun index => nestedClass?_withClasses reorders index name
  unfold findSimple
  rw [classChain_withClasses reorders, sameNested]
  cases (environment.classChain index).findSome? (environment.nestedClass? · name) with
  | some nested => exact .same _
  | none =>
    have sameMeaning : (environment.withClasses classes).meaning? = environment.meaning? := rfl
    have sameTypes : (environment.withClasses classes).importedTypes = environment.importedTypes := rfl
    have related : Option.Rel ClassInfo.Reorders (environment.class? index)
      ((environment.withClasses classes).class? index) := reorders index
    rw [sameMeaning, sameTypes]
    revert related
    generalize environment.class? index = found, (environment.withClasses classes).class? index = found'
    rintro (@⟨info, _, usings, perm, rfl⟩ | _)
    · dsimp only
      cases (spaceChain info.space).findSome? fun outer => environment.meaning? (qualify outer name) with
      | some meaning => exact .same _
      | none => exact Lookup.ofTypes_reorders (environment.importedTypes_perm perm name)
    · exact .same _

@[simp]
theorem symbolShown_withClasses (symbol : TypeSymbol) :
    (environment.withClasses classes).symbolShown symbol = environment.symbolShown symbol := by
  cases symbol with
  | compiled index => exact classShown_withClasses reorders index
  | host definition arguments => rfl

theorem findMember?_withClasses (container : Meaning) (name : String) :
    (environment.withClasses classes).findMember? container name = environment.findMember? container name := by
  unfold findMember?
  split
  · rfl
  · rw [nestedClass?_withClasses reorders]
  · rfl

theorem withArguments_withClasses (meaning : Meaning) (arguments : List Ty) (name : String) (span : Span) :
    (environment.withClasses classes).withArguments meaning arguments name span =
      environment.withArguments meaning arguments name span := by
  cases meaning with
  | space space => rfl
  | type symbol =>
    cases symbol with
    | compiled index => rw [withArguments, withArguments, classShown_withClasses reorders]
    | host definition held => rfl

theorem symbolType_withClasses (use : StaticTypeUse) (span : Span) (symbol : TypeSymbol) :
    (environment.withClasses classes).symbolType use span symbol = environment.symbolType use span symbol := by
  cases symbol with
  | compiled index => rw [symbolType, symbolType, classShown_withClasses reorders]
  | host definition arguments => rfl

end

/-! ### Names of types -/

/-- A refused list of type arguments is refused with an error. -/
theorem withArguments_kept (meaning : Meaning) (arguments : List Ty) (name : String) (span : Span) :
    Resolves (environment.withArguments meaning arguments name span = .ok ·)
      (environment.withArguments meaning arguments name span) := by
  refine .same fun finding refused => ?_
  revert refused
  unfold withArguments
  split <;> (repeat' split) <;> rintro ⟨⟩ <;> rfl

/-- A class of the program, or a static type, in a place of use is refused with an error. -/
theorem symbolType_kept (use : StaticTypeUse) (span : Span) (symbol : TypeSymbol) :
    Resolves (environment.symbolType use span symbol = .ok ·) (environment.symbolType use span symbol) := by
  refine .same fun finding refused => ?_
  revert refused
  unfold symbolType
  split
  · rintro ⟨⟩
    rfl
  · split
    · split <;> rintro ⟨⟩
      rfl
    · rintro ⟨⟩

mutual

theorem resolveSymbol_kept (reorders : ClassInfo.ReorderAll environment.classes classes) (index : Nat)
    (type : TypeName) :
    Resolves ((environment.withClasses classes).resolveSymbol index type = .ok ·)
      (environment.resolveSymbol index type) := by
  match type with
  | .basic _ _ => rfl
  | .named _ [] => rfl
  | .named span (segment :: rest) =>
    rw [resolveSymbol, resolveSymbol]
    refine (resolveFirst_kept reorders index span segment).keepsBind fun first =>
      (resolveRest_kept reorders index span first rest).keepsBind fun meaning => ?_
    cases meaning <;> rfl

theorem resolveFirst_kept (reorders : ClassInfo.ReorderAll environment.classes classes) (index : Nat) (span : Span)
    (segment : TypeSegment) :
    Resolves ((environment.withClasses classes).resolveFirst index span segment = .ok ·)
      (environment.resolveFirst index span segment) := by
  match segment with
  | .mk name arguments =>
    rw [resolveFirst, resolveFirst]
    refine (resolveArguments_kept reorders index arguments).keepsBind fun types => ?_
    have lookups := findSimple_reorders reorders index name
    revert lookups
    generalize environment.findSimple index name = lookup,
      (environment.withClasses classes).findSimple index name = lookup'
    rintro (_ | _)
    · cases lookup with
      | found meaning =>
        dsimp only
        rw [withArguments_withClasses reorders]
        exact withArguments_kept meaning types name span
      | ambiguous first second => rfl
      | missing => rfl
    · rfl

theorem resolveRest_kept (reorders : ClassInfo.ReorderAll environment.classes classes) (index : Nat) (span : Span)
    (container : Meaning) (segments : List TypeSegment) :
    Resolves ((environment.withClasses classes).resolveRest index span container segments = .ok ·)
      (environment.resolveRest index span container segments) := by
  match segments with
  | [] => rfl
  | segment :: rest =>
    rw [resolveRest, resolveRest]
    exact (resolveNext_kept reorders index span container segment).keepsBind fun next =>
      resolveRest_kept reorders index span next rest

theorem resolveNext_kept (reorders : ClassInfo.ReorderAll environment.classes classes) (index : Nat) (span : Span)
    (container : Meaning) (segment : TypeSegment) :
    Resolves ((environment.withClasses classes).resolveNext index span container segment = .ok ·)
      (environment.resolveNext index span container segment) := by
  match segment with
  | .mk name arguments =>
    rw [resolveNext, resolveNext]
    refine (resolveArguments_kept reorders index arguments).keepsBind fun types => ?_
    rw [findMember?_withClasses reorders]
    cases environment.findMember? container name with
    | some meaning =>
      dsimp only
      rw [withArguments_withClasses reorders]
      exact withArguments_kept meaning types name span
    | none => simp [Resolves, Finding.isError, missingMember_isError]

theorem resolveArguments_kept (reorders : ClassInfo.ReorderAll environment.classes classes) (index : Nat)
    (types : List TypeName) :
    Resolves ((environment.withClasses classes).resolveArguments index types = .ok ·)
      (environment.resolveArguments index types) := by
  match types with
  | [] => rfl
  | type :: rest =>
    rw [resolveArguments, resolveArguments]
    refine (resolveSymbol_kept reorders index type).keepsBind fun symbol => ?_
    rw [symbolType_withClasses reorders]
    exact (symbolType_kept _ _ symbol).keepsBind fun first =>
      (resolveArguments_kept reorders index rest).keepsBind fun others => rfl

end

/-- A type name means the same type in every order, or it is refused with an error. -/
theorem resolveType_kept (reorders : ClassInfo.ReorderAll environment.classes classes) (index : Nat)
    (use : StaticTypeUse) (type : TypeName) :
    Resolves ((environment.withClasses classes).resolveType index use type = .ok ·)
      (environment.resolveType index use type) := by
  rw [resolveType, resolveType]
  refine (resolveSymbol_kept reorders index type).keepsBind fun symbol => ?_
  rw [symbolType_withClasses reorders]
  exact symbolType_kept use type.span symbol

end Environment

end Snippet
