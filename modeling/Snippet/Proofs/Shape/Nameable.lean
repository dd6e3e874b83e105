import Mathlib.Data.List.Infix
import Snippet.Compiler.Basic
import Snippet.Proofs.Emit.Characters
import Snippet.Proofs.Shape.Naming
import Snippet.Proofs.Typing.Declared

/-!
Types of libraries can be named. Main statement: in a source text whose own names stay out of the way, the full name of
a type means this type, provided that the types and namespaces on the way to it can be passed.
-/

namespace Snippet

open Text

/-! ### Ways through libraries -/

namespace LibrarySet

variable {libraries : LibrarySet}

/-- Whether the type of a dotted name is found when one name is looked up behind the other. Every part of it is a type
or a namespace. What lies behind a type are types again, since a type hides the namespace of its name. No type on the
way is the generic list, whose name does not stand alone. -/
structure IsPassable (libraries : LibrarySet) (names : List String) : Prop where
  known : ∀ front ≠ [], front <+: names → (libraries.findType? (String.intercalate "." front)).isSome ∨
    libraries.hasNamespace (String.intercalate "." front) = true
  typesInside : ∀ front ≠ [], ∀ name, front ++ [name] <+: names →
    (libraries.findType? (String.intercalate "." front)).isSome →
    (libraries.findType? (String.intercalate "." (front ++ [name]))).isSome
  notList : ∀ front ≠ [], front <+: names → (libraries.findType? (String.intercalate "." front)).isSome →
    String.intercalate "." front ≠ TypeNames.list

theorem IsPassable.of_prefix {front names : List String} (passable : libraries.IsPassable names)
    (isFront : front <+: names) : libraries.IsPassable front where
  known inner isSome isInner := passable.known inner isSome (isInner.trans isFront)
  typesInside inner isSome name isInner := passable.typesInside inner isSome name (isInner.trans isFront)
  notList inner isSome isInner := passable.notList inner isSome (isInner.trans isFront)

/-- What a dotted name means in libraries: the type of this name if there is one, and else a namespace. -/
def meaningOf (libraries : LibrarySet) (names : List String) : Meaning :=
  if (libraries.findType? (String.intercalate "." names)).isSome then .type (.host (String.intercalate "." names) [])
  else .space (String.intercalate "." names)

end LibrarySet

/-! ### Looking names up -/

namespace Environment

variable {environment : Environment} {first : String} {owner : Nat}

/-- Whether no class of the program outside other ones has a full name that begins with a name. -/
def Avoids (environment : Environment) (first : String) : Prop :=
  ∀ rest, environment.topLevel.lookup (String.intercalate "." (first :: rest)) = none

/-- Whether a name means nothing closer to a class than in the global namespace: no class in the class or in one around
it, and neither a type nor a namespace in a namespace around it. -/
structure IsFree (environment : Environment) (owner : Nat) (first : String) : Prop where
  classes : ∀ index ∈ environment.classChain owner, environment.nestedClass? index first = none
  spaces : ∀ info, environment.class? owner = some info → ∀ space ∈ spaceChain info.space, space ≠ "" →
    environment.meaning? (qualify space first) = none

theorem meaning?_eq_meaningOf (avoids : environment.Avoids first) {rest : List String}
    (passable : environment.libraries.IsPassable (first :: rest)) :
    environment.meaning? (String.intercalate "." (first :: rest)) =
      some (environment.libraries.meaningOf (first :: rest)) := by
  have known := passable.known (first :: rest) (List.cons_ne_nil first rest) List.prefix_rfl
  rw [meaning?, typeNamed?, avoids rest, LibrarySet.meaningOf]
  dsimp only
  cases found : environment.libraries.findType? (String.intercalate "." (first :: rest)) with
  | some type => rfl
  | none =>
    rw [found] at known
    rw [Option.map_none, hasNamespace, known.resolve_left Bool.false_ne_true, Bool.or_true]
    rfl

theorem global_mem_spaceChain (space : String) : "" ∈ spaceChain space := by
  unfold spaceChain
  dsimp only
  rw [List.range_succ, List.map_append, List.map_singleton, Nat.sub_self, List.take_zero]
  exact List.mem_append_right _ List.mem_cons_self

/-- A name that means nothing in the other ones of some namespaces means what it does in the global one. -/
theorem findSome?_meaning? {chain : List String} (isGlobal : "" ∈ chain)
    (free : ∀ space ∈ chain, space ≠ "" → environment.meaning? (qualify space first) = none) {meaning : Meaning}
    (isMeaning : environment.meaning? first = some meaning) :
    chain.findSome? (fun space => environment.meaning? (qualify space first)) = some meaning := by
  induction chain with
  | nil => cases isGlobal
  | cons space others ih =>
    rw [List.forall_mem_cons] at free
    rw [List.findSome?_cons]
    by_cases here : space = ""
    · rw [here, show qualify "" first = first from if_pos rfl, isMeaning]
    · rw [free.1 here]
      exact ih ((List.mem_cons.1 isGlobal).resolve_left (Ne.symm here)) free.2

theorem findSimple_eq_meaningOf (avoids : environment.Avoids first) (free : environment.IsFree owner first)
    (passable : environment.libraries.IsPassable [first]) :
    environment.findSimple owner first = .found (environment.libraries.meaningOf [first]) := by
  have isMeaning : environment.meaning? first = some (environment.libraries.meaningOf [first]) :=
    meaning?_eq_meaningOf avoids passable
  have noClass : (environment.classChain owner).findSome? (environment.nestedClass? · first) = none :=
    List.findSome?_eq_none_iff.2 free.classes
  unfold findSimple
  rw [noClass]
  dsimp only
  cases isClass : environment.class? owner with
  | some info =>
    dsimp only
    rw [findSome?_meaning? (global_mem_spaceChain info.space) (free.spaces info isClass) isMeaning]
  | none =>
    dsimp only
    rw [findSome?_meaning? (global_mem_spaceChain "") (fun space inChain notGlobal => ?_) isMeaning]
    cases List.mem_singleton.1 inChain
    exact absurd rfl notGlobal

theorem findMember?_eq_meaningOf (avoids : environment.Avoids first) (isFirst : isIdentifier first = true)
    {front : List String} {name : String}
    (passable : environment.libraries.IsPassable (first :: front ++ [name])) :
    environment.findMember? (environment.libraries.meaningOf (first :: front)) name =
      some (environment.libraries.meaningOf (first :: front ++ [name])) := by
  have isSome : first :: front ≠ [] := List.cons_ne_nil first front
  have next := intercalate_concat isSome name
  rw [LibrarySet.meaningOf]
  split
  · next isType =>
    have isInner := passable.typesInside _ isSome name List.prefix_rfl isType
    rw [LibrarySet.meaningOf, if_pos isInner, findMember?, ← next]
    obtain ⟨type, isInner⟩ := Option.isSome_iff_exists.1 isInner
    rw [isInner]
    rfl
  · rw [findMember?, qualify, isEmpty_intercalate front isFirst, if_neg Bool.false_ne_true, ← next]
    exact meaning?_eq_meaningOf avoids passable

theorem withArguments_meaningOf {names : List String} (isSome : names ≠ [])
    (passable : environment.libraries.IsPassable names) (name : String) (span : Span) :
    environment.withArguments (environment.libraries.meaningOf names) [] name span =
      .ok (environment.libraries.meaningOf names) := by
  rw [LibrarySet.meaningOf]
  split
  · next isType =>
    have notList := beq_eq_false_iff_ne.2 (passable.notList names isSome List.prefix_rfl isType)
    rw [withArguments, notList]
    rfl
  · rfl

/-! ### Resolving dotted names -/

theorem resolveRest_eq_meaningOf (avoids : environment.Avoids first) (isFirst : isIdentifier first = true) (span : Span)
    {front rest : List String} (passable : environment.libraries.IsPassable (first :: front ++ rest)) :
    environment.resolveRest owner span (environment.libraries.meaningOf (first :: front)) (rest.map (.mk · [])) =
      .ok (environment.libraries.meaningOf (first :: front ++ rest)) := by
  induction rest generalizing front with
  | nil =>
    rw [List.append_nil]
    rfl
  | cons name others ih =>
    have isNext : first :: front ++ name :: others = first :: (front ++ [name]) ++ others := by simp
    rw [isNext] at passable ⊢
    have part : environment.libraries.IsPassable (first :: (front ++ [name])) :=
      passable.of_prefix (List.prefix_append _ others)
    have found : environment.resolveNext owner span (environment.libraries.meaningOf (first :: front)) (.mk name []) =
        .ok (environment.libraries.meaningOf (first :: (front ++ [name]))) := by
      rw [resolveNext, resolveArguments, ok_bind, findMember?_eq_meaningOf avoids isFirst part]
      exact withArguments_meaningOf (List.cons_ne_nil _ _) part name span
    rw [List.map_cons, resolveRest, found, ok_bind]
    exact ih passable

/-- A dotted name means the type of this name, if every part of it can be passed. -/
theorem resolveSymbol_eq_host (avoids : environment.Avoids first) (isFirst : isIdentifier first = true)
    (free : environment.IsFree owner first) (span : Span) {rest : List String}
    (passable : environment.libraries.IsPassable (first :: rest))
    (isType : (environment.libraries.findType? (String.intercalate "." (first :: rest))).isSome) :
    environment.resolveSymbol owner (.named span ((first :: rest).map (.mk · []))) =
      .ok (.host (String.intercalate "." (first :: rest)) []) := by
  have part : environment.libraries.IsPassable [first] := passable.of_prefix (List.prefix_append [first] rest)
  have found : environment.resolveFirst owner span (.mk first []) = .ok (environment.libraries.meaningOf [first]) := by
    rw [resolveFirst, resolveArguments, ok_bind, findSimple_eq_meaningOf avoids free part]
    exact withArguments_meaningOf (List.cons_ne_nil first []) part first span
  have remaining : environment.resolveRest owner span (environment.libraries.meaningOf [first]) (rest.map (.mk · [])) =
      .ok (environment.libraries.meaningOf (first :: rest)) := resolveRest_eq_meaningOf avoids isFirst span passable
  rw [List.map_cons, resolveSymbol, found, ok_bind, remaining, ok_bind, LibrarySet.meaningOf, if_pos isType]

end Environment

/-! ### Full names of types -/

/-- Whether the way to a type of libraries can be passed. Each type around it is a type of the libraries, or at least a
namespace; what lies behind a type on the way are types again; and no type on the way is the generic list. -/
structure HostType.IsReachable (type : HostType) (libraries : LibrarySet) : Prop where
  enclosed : ∀ outer ≠ [], outer <+: type.enclosing →
    (libraries.findType? (String.intercalate "." (TypeDesc.outerNames (some type.space) outer))).isSome ∨
      libraries.hasNamespace (String.intercalate "." (TypeDesc.outerNames (some type.space) outer)) = true
  typesInside : ∀ front ≠ [], ∀ name, front ++ [name] <+: type.desc.names →
    (libraries.findType? (String.intercalate "." front)).isSome →
    (libraries.findType? (String.intercalate "." (front ++ [name]))).isSome
  notList : ∀ front ≠ [], front <+: type.desc.names → (libraries.findType? (String.intercalate "." front)).isSome →
    String.intercalate "." front ≠ TypeNames.list

namespace HostType

variable {libraries : LibrarySet} {library : Library} {type : HostType}

instance (type : HostType) (libraries : LibrarySet) : Decidable (type.IsReachable libraries) :=
  decidable_of_iff
    ((∀ outer ∈ type.enclosing.inits, outer ≠ [] →
        (libraries.findType? (String.intercalate "." (TypeDesc.outerNames (some type.space) outer))).isSome ∨
          libraries.hasNamespace (String.intercalate "." (TypeDesc.outerNames (some type.space) outer)) = true) ∧
      (∀ front ∈ type.desc.names.inits, front ≠ [] → ∀ name ∈ type.desc.names, front ++ [name] <+: type.desc.names →
        (libraries.findType? (String.intercalate "." front)).isSome →
        (libraries.findType? (String.intercalate "." (front ++ [name]))).isSome) ∧
      ∀ front ∈ type.desc.names.inits, front ≠ [] → (libraries.findType? (String.intercalate "." front)).isSome →
        String.intercalate "." front ≠ TypeNames.list)
    ⟨fun ⟨enclosed, typesInside, notList⟩ => {
      enclosed outer isSome inside := enclosed outer ((List.mem_inits _ _).2 inside) isSome
      typesInside front isSome name inside :=
        typesInside front ((List.mem_inits _ _).2 ((List.prefix_append front [name]).trans inside)) isSome name
          (inside.subset (List.mem_append_right front List.mem_cons_self)) inside
      notList front isSome inside := notList front ((List.mem_inits _ _).2 inside) isSome },
    fun reachable =>
      ⟨fun outer inside isSome => reachable.enclosed outer isSome ((List.mem_inits _ _).1 inside),
        fun front _ isSome name _ => reachable.typesInside front isSome name,
        fun front inside isSome => reachable.notList front isSome ((List.mem_inits _ _).1 inside)⟩⟩

theorem intercalate_names (type : HostType) : String.intercalate "." type.desc.names = type.fullName :=
  (TypeDesc.definition_eq type.space type.enclosing type.name).symm

/-- A part of a full name is made up of names of the namespace or reaches into the types around, or it is all of it. -/
theorem prefix_names {front : List String} (isFront : front <+: type.desc.names) :
    front <+: TypeDesc.outerNames (some type.space) [] ∨
      (∃ outer ≠ [], outer <+: type.enclosing ∧ front = TypeDesc.outerNames (some type.space) outer) ∨
      front = type.desc.names := by
  have split (inner : List String) : TypeDesc.outerNames (some type.space) inner =
      TypeDesc.outerNames (some type.space) [] ++ inner := by
    rw [TypeDesc.outerNames, TypeDesc.outerNames, List.append_nil]
  rcases List.prefix_concat_iff.1 isFront with whole | inside
  · exact .inr (.inr whole)
  · change front <+: TypeDesc.outerNames (some type.space) type.enclosing at inside
    rw [split] at inside
    rcases List.prefix_or_prefix_of_prefix inside (List.prefix_append _ _) with inSpace | ⟨outer, rfl⟩
    · exact .inl inSpace
    · by_cases isSpace : outer = []
      · rw [isSpace, List.append_nil]
        exact .inl List.prefix_rfl
      · exact .inr (.inl ⟨outer, isSpace, (List.prefix_append_right_inj _).1 inside, (split outer).symm⟩)

theorem IsReachable.isPassable (reachable : type.IsReachable libraries) (inSet : library ∈ libraries.libraries)
    (inLibrary : type ∈ library.types) : libraries.IsPassable type.desc.names where
  known front isSome isFront := by
    rcases prefix_names isFront with inSpace | ⟨outer, isOuter, inside, rfl⟩ | rfl
    · refine .inr (LibrarySet.hasNamespace_of_prefix inSet inLibrary isSome ?_)
      rw [TypeDesc.outerNames, List.append_nil, Option.elim_some] at inSpace
      split at inSpace
      · exact absurd (List.prefix_nil.1 inSpace) isSome
      · exact inSpace
    · exact reachable.enclosed outer isOuter inside
    · rw [intercalate_names]
      exact .inl (LibrarySet.findType?_isSome inSet inLibrary)
  typesInside := reachable.typesInside
  notList := reachable.notList

end HostType

/-! ### Names of a source text -/

namespace Collected

mutual

/-- A class inside another one is not known outside of it. -/
theorem collectClass_topLevel (collected : Collected) (space : String) (usings : List String) (index : Nat)
    (decl : ClassDecl) : (collected.collectClass space usings (some index) decl).topLevel = collected.topLevel := by
  match decl with
  | .mk span name modifiers methods nested =>
    rw [collectClass]
    dsimp only
    split
    · rfl
    · rw [collectClasses_topLevel]
      rfl

theorem collectClasses_topLevel (collected : Collected) (space : String) (usings : List String) (index : Nat)
    (decls : List ClassDecl) :
    (collected.collectClasses space usings (some index) decls).topLevel = collected.topLevel := by
  match decls with
  | [] => rw [collectClasses]
  | first :: rest => rw [collectClasses, collectClasses_topLevel, collectClass_topLevel]

end

mutual

/-- What is known outside of classes has been known before or is declared under its full name. -/
theorem mem_topLevel_collectMember {collected : Collected} {space : String} {usings : List String} {member : Member}
    {entry : String × Nat} (isKnown : entry ∈ (collected.collectMember space usings member).topLevel) :
    entry ∈ collected.topLevel ∨ ∃ type ∈ member.declared space, type.fullName = entry.1 := by
  match member with
  | .space _ name directives members =>
    rw [collectMember] at isKnown
    have before := mem_topLevel_collectMembers isKnown
    rw [Member.declared]
    exact before
  | .type (.mk span name modifiers methods nested) =>
    rw [collectMember, collectClass] at isKnown
    dsimp only at isKnown
    split at isKnown
    · exact .inl isKnown
    · rw [collectClasses_topLevel] at isKnown
      refine (List.mem_append.1 isKnown).imp_right fun isNew => ?_
      cases List.mem_singleton.1 isNew
      rw [Member.declared, ClassDecl.declared]
      exact ⟨_, List.mem_cons_self, rfl⟩

theorem mem_topLevel_collectMembers {collected : Collected} {space : String} {usings : List String}
    {members : List Member} {entry : String × Nat}
    (isKnown : entry ∈ (collected.collectMembers space usings members).topLevel) :
    entry ∈ collected.topLevel ∨ ∃ type ∈ Member.declaredIn space members, type.fullName = entry.1 := by
  match members with
  | [] =>
    rw [collectMembers] at isKnown
    exact .inl isKnown
  | first :: rest =>
    rw [collectMembers] at isKnown
    rw [Member.declaredIn]
    rcases mem_topLevel_collectMembers isKnown with before | ⟨type, member, same⟩
    · rcases mem_topLevel_collectMember before with before | ⟨type, member, same⟩
      · exact .inl before
      · exact .inr ⟨type, List.mem_append_left _ member, same⟩
    · exact .inr ⟨type, List.mem_append_right _ member, same⟩

end

end Collected

/-- Whether no class of a source text has a full name that begins with a name. -/
def CompilationUnit.Avoids (unit : CompilationUnit) (first : String) : Prop :=
  ∀ type ∈ unit.classes, type.fullName ≠ first ∧ beginsWith type.fullName (first ++ ".") = false

theorem beginsWith_intercalate (first : String) {rest : List String} (isSome : rest ≠ []) :
    beginsWith (String.intercalate "." (first :: rest)) (first ++ ".") = true := by
  obtain ⟨next, others, rfl⟩ := List.exists_cons_of_ne_nil isSome
  rw [beginsWith, String.toList_append, String.toList_intercalate, List.map_cons, List.map_cons,
    List.intercalate_cons_cons]
  exact List.isPrefixOf_iff_prefix.2 (List.prefix_append _ _)

theorem CompilationUnit.Avoids.environment {unit : CompilationUnit} {first : String} (avoids : unit.Avoids first)
    (libraries : LibrarySet) : ((Collected.ofUnit unit).environment libraries).Avoids first := by
  intro rest
  refine List.lookup_eq_none_iff.2 fun entry isKnown => bne_iff_ne.2 fun same => ?_
  rcases Collected.mem_topLevel_collectMembers isKnown with isNone | ⟨type, member, isName⟩
  · cases isNone
  · obtain ⟨differs, outside⟩ := avoids type member
    rw [isName, ← same] at differs outside
    by_cases isSome : rest = []
    · exact differs (by rw [isSome]; exact String.intercalate_singleton)
    · rw [beginsWith_intercalate first isSome] at outside
      cases outside

/-! ### Types in signatures -/

namespace Environment

variable {environment : Environment} {owner : Nat}

/-- A type without type arguments that is not one of functions only may be used everywhere. -/
theorem symbolType_of_findType? (environment : Environment) {definition : String} {type : HostType}
    (isType : environment.libraries.findType? definition = some type) (hasValues : type.kind ≠ .static)
    (notList : definition ≠ TypeNames.list) (use : StaticTypeUse) (span : Span) :
    ∃ resolved, environment.symbolType use span (.host definition []) = .ok resolved ∧
      resolved.fullName = definition := by
  have isName := fullName_ofDefinition_nil notList
  rw [symbolType]
  split
  · next name isData =>
    rw [isData] at isName
    have isName : name = definition := isName
    refine ⟨.data name, ?_, isName⟩
    rw [isName, isType, Option.any_some, beq_eq_false_iff_ne.2 hasValues]
    rfl
  · exact ⟨_, rfl, isName⟩

end Environment

theorem HostType.fullName?_desc (type : HostType) (origin : Option String) :
    { type.desc with origin }.fullName? = some type.fullName := rfl

/-- A type name that is that of a type without type arguments has the names of its full name as parts. -/
theorem HostType.reads_desc {type : HostType} {origin : Option String} {written : TypeName}
    (reads : { type.desc with origin }.Reads written) :
    ∃ span, written = .named span (type.desc.names.map (.mk · [])) := by
  obtain ⟨noArguments, -⟩ := reads
  cases List.length_eq_zero_iff.1 noArguments
  refine ⟨_, congrArg (TypeName.named _) ?_⟩
  rw [TypeDesc.names, List.map_append]
  rfl

/-- Types of libraries can be named. A library describes each of its types under its full name, and this name, written
in a class of a source text, means the type of the libraries that has it. The source text is to have no class whose full
name begins with the first name, and nothing around the class is to have this name. The types and namespaces on the way
to the type are to be such that they can be passed. -/
theorem CompilationUnit.resolves_fullName {libraries : LibrarySet} {library : Library}
    (inSet : library ∈ libraries.libraries) {type : HostType} (inLibrary : library.find? type.fullName = some type)
    (isFound : libraries.findType? type.fullName = some type) (hasValues : type.kind ≠ .static)
    (identifiers : ∀ name ∈ type.desc.names, isIdentifier name = true) (reachable : type.IsReachable libraries)
    {unit : CompilationUnit} {owner : Nat}
    (avoids : ∀ first ∈ type.desc.names.head?, unit.Avoids first)
    (free : ∀ first ∈ type.desc.names.head?, ((Collected.ofUnit unit).environment libraries).IsFree owner first) :
    ∃ desc, library.typeDesc? type.fullName = some desc ∧ desc.fullName? = some type.fullName ∧
      ∀ written, desc.Reads written →
        ((Collected.ofUnit unit).environment libraries).resolveSymbol owner written = .ok (.host type.fullName []) ∧
        ∀ use, ∃ resolved, ((Collected.ofUnit unit).environment libraries).resolveType owner use written = .ok resolved ∧
          resolved.fullName = type.fullName := by
  refine ⟨{ type.desc with origin := some library.name }, by rw [Library.typeDesc?, inLibrary]; rfl,
    type.fullName?_desc _, fun written reads => ?_⟩
  obtain ⟨span, rfl⟩ := HostType.reads_desc reads
  have passable := reachable.isPassable inSet (List.mem_of_find?_eq_some inLibrary)
  have isName := type.intercalate_names
  have notList : type.fullName ≠ TypeNames.list := by
    rw [← isName]
    refine passable.notList _ (List.concat_ne_nil _ _) List.prefix_rfl ?_
    rw [isName, isFound]
    rfl
  obtain ⟨first, rest, areNames⟩ := List.exists_cons_of_ne_nil (show type.desc.names ≠ [] from List.concat_ne_nil _ _)
  rw [areNames] at identifiers avoids free passable isName ⊢
  have isType : (libraries.findType? (String.intercalate "." (first :: rest))).isSome := by
    rw [isName, isFound]
    rfl
  have isSymbol := Environment.resolveSymbol_eq_host ((avoids first rfl).environment libraries)
    (identifiers first List.mem_cons_self) (free first rfl) span passable isType
  rw [isName] at isSymbol
  refine ⟨isSymbol, fun use => ?_⟩
  obtain ⟨resolved, isResolved, sameName⟩ :=
    Environment.symbolType_of_findType? ((Collected.ofUnit unit).environment libraries)
      isFound hasValues notList use span
  refine ⟨resolved, ?_, sameName⟩
  rw [Environment.resolveType, isSymbol]
  exact isResolved

/-- A library with a type inside another one. -/
def Library.orders : Library :=
  ⟨"Shop", [.bare "Shop.Model" [] "Order" .data, .bare "Shop.Model" ["Order"] "Line" .data]⟩

/-- The source text of a generated class, without its method. -/
def CompilationUnit.executer : CompilationUnit :=
  ⟨[], [.space ⟨0, 0⟩ "DynamicCompilation" [] [.type (.mk ⟨0, 0⟩ "Executer" .none [] [])]]⟩

/-- A type inside another one is named in the generated class. -/
theorem CompilationUnit.resolves_fullName_orders : ∃ desc, Library.orders.typeDesc? "Shop.Model.Order.Line" = some desc ∧
    ∀ written, desc.Reads written →
      ((Collected.ofUnit executer).environment ⟨[.orders]⟩).resolveSymbol 0 written =
        .ok (.host "Shop.Model.Order.Line" []) := by
  have reachable : (HostType.bare "Shop.Model" ["Order"] "Line" .data).IsReachable ⟨[.orders]⟩ := by decide
  have isFree : ((Collected.ofUnit executer).environment ⟨[.orders]⟩).IsFree 0 "Shop" := by
    refine ⟨by decide, fun info isClass => ?_⟩
    have spaces : ∀ space ∈ spaceChain "DynamicCompilation", space ≠ "" →
        (((Collected.ofUnit executer).environment ⟨[.orders]⟩).meaning? (qualify space "Shop")).isNone := by
      decide +kernel
    have isSpace : info.space = "DynamicCompilation" := by
      have found : (((Collected.ofUnit executer).environment ⟨[.orders]⟩).class? 0).map (·.space) =
          some "DynamicCompilation" := rfl
      rw [isClass] at found
      exact Option.some.inj found
    rw [isSpace]
    exact fun space inChain notGlobal => Option.isNone_iff_eq_none.1 (spaces space inChain notGlobal)
  have inLibrary : Library.orders.find? "Shop.Model.Order.Line" = some (.bare "Shop.Model" ["Order"] "Line" .data) := by
    with_unfolding_all rfl
  have isFound : LibrarySet.findType? ⟨[.orders]⟩ "Shop.Model.Order.Line" =
      some (.bare "Shop.Model" ["Order"] "Line" .data) := by
    with_unfolding_all rfl
  have isFirst : (HostType.bare "Shop.Model" ["Order"] "Line" .data).desc.names.head? = some "Shop" := rfl
  obtain ⟨desc, isDesc, -, resolves⟩ := @CompilationUnit.resolves_fullName ⟨[.orders]⟩ .orders List.mem_cons_self
    (.bare "Shop.Model" ["Order"] "Line" .data) inLibrary isFound (by decide) (by decide) reachable
    executer 0 (by unfold CompilationUnit.Avoids; decide) (by rw [isFirst]; rintro _ ⟨⟩; exact isFree)
  exact ⟨desc, isDesc, fun written reads => (resolves written reads).1⟩

/-- The problems of a source text that is compiled against some types. -/
def problemsAgainst (types : List HostType) (source : String) : List String :=
  (emit source ⟨[⟨"Shop", types⟩]⟩ .default moduleName).diagnostics.map (·.text)

/-- A type that is in the way hides a namespace, what is called like the first name in a namespace around the class comes
before the global namespace, a type inside one that is missing is not found, and neither is one inside the generic list,
whose name does not stand alone. -/
theorem not_resolves_fullName :
    problemsAgainst [.bare "" [] "Shop" .data, .bare "Shop.Model" [] "Item" .data]
        "class C \x7b static void M(Shop.Model.Item item) \x7b \x7d \x7d" =
      ["CS0426: The type name 'Model' does not exist in the type 'Shop'"] ∧
    problemsAgainst [.bare "Shop" [] "Item" .data, .bare "Office.Shop" [] "Till" .data]
        "namespace Office \x7b class C \x7b static void M(Shop.Item item) \x7b \x7d \x7d \x7d" =
      ["CS0234: The type or namespace name 'Item' does not exist in the namespace 'Office.Shop' (are you missing an assembly reference?)"] ∧
    problemsAgainst [.bare "Shop" ["Order"] "Line" .data]
        "class C \x7b static void M(Shop.Order.Line line) \x7b \x7d \x7d" =
      ["CS0234: The type or namespace name 'Order' does not exist in the namespace 'Shop' (are you missing an assembly reference?)"] ∧
    problemsAgainst [.bare "System.Collections.Generic" [] "List" .list,
        .bare "System.Collections.Generic" ["List"] "Node" .data]
        "class C \x7b static void M(System.Collections.Generic.List.Node node) \x7b \x7d \x7d" =
      ["CS0305: Using the generic type 'List<T>' requires 1 type arguments"] := by
  simp only [problemsAgainst]
  decide +kernel

end Snippet
