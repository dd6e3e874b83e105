import Snippet.Proofs.Grammar.PlainNames
import Snippet.Proofs.Typing.Collection

/-!
The classes that a source text declares, with their full names in the order of the text. Main statements: what is
collected lists exactly these classes unless one of them is reported, and no two collected classes have one full name.
-/

namespace Snippet

/-- A class that a source text declares, with its full name. -/
structure DeclaredClass where
  fullName : String
  decl : ClassDecl

mutual

/-- A class of a full name with the classes in it. -/
def ClassDecl.declared (fullName : String) : ClassDecl → List DeclaredClass
  | .mk span name modifiers methods nested =>
    ⟨fullName, .mk span name modifiers methods nested⟩ :: ClassDecl.declaredIn fullName nested

/-- Classes in a class of a full name. -/
def ClassDecl.declaredIn (outer : String) : List ClassDecl → List DeclaredClass
  | [] => []
  | first :: rest => first.declared (outer ++ "+" ++ first.name) ++ ClassDecl.declaredIn outer rest

end

mutual

/-- The classes of a member of a namespace. -/
def Member.declared (space : String) : Member → List DeclaredClass
  | .space _ name _ members => Member.declaredIn (qualify space name) members
  | .type decl => decl.declared (qualify space decl.name)

/-- The classes of members of a namespace. -/
def Member.declaredIn (space : String) : List Member → List DeclaredClass
  | [] => []
  | first :: rest => first.declared space ++ Member.declaredIn space rest

end

/-- The classes of a source text. -/
def CompilationUnit.classes (unit : CompilationUnit) : List DeclaredClass := Member.declaredIn "" unit.members

namespace Collected

/-! ### Lists of classes and methods -/

/-- Whether one collection lists some classes with their methods behind those of another one. -/
structure Lists (before after : Collected) (declared : List DeclaredClass) : Prop where
  names : after.classes.toList.map (·.fullName) =
    before.classes.toList.map (·.fullName) ++ declared.map (·.fullName)
  methods : after.methods.toList = before.methods.toList ++ declared.map (·.decl.methods)

variable {first second third collected : Collected}

theorem Lists.refl (collected : Collected) : collected.Lists collected [] := ⟨by simp, by simp⟩

theorem Lists.trans {declared others : List DeclaredClass} (head : first.Lists second declared)
    (tail : second.Lists third others) : first.Lists third (declared ++ others) := by
  refine ⟨?_, ?_⟩
  · rw [tail.names, head.names, List.map_append, List.append_assoc]
  · rw [tail.methods, head.methods, List.map_append, List.append_assoc]

/-- A collected class keeps its full name. -/
theorem Grows.fullName {index : Nat} {name : String} (grows : first.Grows second)
    (isName : first.classes[index]?.map (·.fullName) = some name) :
    second.classes[index]?.map (·.fullName) = some name := by
  have heads (collected : Collected) : collected.classes[index]?.map (·.fullName) =
      (collected.classes.toList.map ClassInfo.head)[index]?.map (·.fullName) := by
    rw [List.getElem?_map, Array.getElem?_toList, Option.map_map]
    rfl
  obtain ⟨added, classes, -⟩ := grows
  rw [heads] at isName ⊢
  obtain ⟨info, found, rfl⟩ := Option.map_eq_some_iff.1 isName
  have inside := (List.getElem?_eq_some_iff.1 found).1
  rw [classes, List.getElem?_append_left inside, found]
  rfl

theorem Grows.size_le (grows : first.Grows second) : first.classes.size ≤ second.classes.size := by
  obtain ⟨added, classes, -⟩ := grows
  have sizes := congrArg List.length classes
  simp only [List.length_map, List.length_append, Array.length_toList] at sizes
  omega

theorem getElem?_addClass (collected : Collected) (info : ClassInfo) (methods : List MethodDecl) (index : Nat) :
    (collected.addClass info methods).classes[index]? =
      if index = collected.classes.size then some info
      else collected.classes[index]?.map fun outer =>
        if info.parent = some index then
          { outer with nested := outer.nested ++ [(info.name, collected.classes.size)] }
        else outer := by
  unfold addClass
  cases info.parent with
  | none =>
    dsimp only
    rw [Array.getElem?_push]
    simp
  | some parent =>
    dsimp only
    rw [Array.getElem?_push, Array.size_modify, Array.getElem?_modify]
    by_cases same : parent = index
    · simp [same]
    · simp [same]

theorem addClass_lists (collected : Collected) (info : ClassInfo) {declared : DeclaredClass}
    (isName : info.fullName = declared.fullName) :
    collected.Lists (collected.addClass info declared.decl.methods) [declared] := by
  obtain ⟨added, classes, methods⟩ := addClass_grows collected info declared.decl.methods
  refine ⟨List.ext_getElem? fun index => ?_, Array.toList_push⟩
  rw [List.getElem?_map, Array.getElem?_toList, getElem?_addClass, List.map_singleton, ← isName,
    List.getElem?_append, List.length_map, Array.length_toList, List.getElem?_map, Array.getElem?_toList]
  by_cases isNew : index = collected.classes.size
  · rw [if_pos isNew, isNew, if_neg (Nat.lt_irrefl _), Nat.sub_self]
    rfl
  rw [if_neg isNew]
  by_cases inside : index < collected.classes.size
  · rw [if_pos inside, Array.getElem?_eq_getElem inside]
    dsimp only [Option.map_some]
    split <;> rfl
  · have outside : 1 ≤ index - collected.classes.size := by omega
    rw [if_neg inside, Array.getElem?_eq_none (Nat.not_lt.1 inside), List.getElem?_eq_none outside]
    rfl

/-! ### Findings -/

/-- Whether nothing that was found is an error. -/
def IsClean (collected : Collected) : Prop := ∀ finding ∈ collected.findings, finding.isError = false

theorem isWarning_of_duplicate? {parent : Option Nat} {space fullName name : String} {problem : Problem}
    (isDuplicate : collected.duplicate? parent space fullName name = some problem) : problem.isWarning = false := by
  unfold duplicate? at isDuplicate
  split at isDuplicate
  · obtain ⟨outer, -, rfl⟩ := Option.map_eq_some_iff.1 isDuplicate
    rfl
  · split at isDuplicate <;> cases isDuplicate
    rfl

/-- Nothing that was found is forgotten. -/
theorem IsClean.of_steps {usings : List String} (clean : second.IsClean)
    (steps : Relation.ReflTransGen (Step usings) first second) : first.IsClean := by
  induction steps using Relation.ReflTransGen.head_induction_on with
  | refl => exact clean
  | head step _ ih =>
    cases step with
    | addClass | enter => exact ih
    | report => exact fun finding member => ih finding (List.mem_append_left _ member)

mutual

/-- A class whose collection is without errors is listed with the classes in it. -/
theorem collectClass_lists (collected : Collected) (space : String) (usings : List String) (parent : Option Nat)
    (decl : ClassDecl) (noError : (collected.collectClass space usings parent decl).IsClean) :
    collected.Lists (collected.collectClass space usings parent decl)
      (decl.declared (collected.fullNameIn parent space decl.name)) := by
  match decl with
  | .mk span name modifiers methods nested =>
    rw [collectClass] at noError ⊢
    dsimp only at noError ⊢
    split at noError
    · next problem isDuplicate =>
      have isError := noError ⟨problem, span⟩ (List.mem_append_right _ List.mem_cons_self)
      rw [Finding.isError, isWarning_of_duplicate? isDuplicate] at isError
      cases isError
    · next isFree =>
      let info : ClassInfo :=
        ⟨name, modifiers, collected.fullNameIn parent space name, space, parent, usings, []⟩
      let declared : DeclaredClass := ⟨info.fullName, .mk span name modifiers methods nested⟩
      have isOuter : (collected.addClass info methods).classes[collected.classes.size]?.map (·.fullName) =
          some info.fullName := by
        rw [getElem?_addClass, if_pos rfl]
        rfl
      exact (addClass_lists collected info (show info.fullName = declared.fullName from rfl)).trans
        (collectClasses_lists _ space usings _ isOuter nested noError)

theorem collectClasses_lists (collected : Collected) (space : String) (usings : List String) (index : Nat)
    {outer : String} (isOuter : collected.classes[index]?.map (·.fullName) = some outer) (decls : List ClassDecl)
    (noError : (collected.collectClasses space usings (some index) decls).IsClean) :
    collected.Lists (collected.collectClasses space usings (some index) decls) (ClassDecl.declaredIn outer decls) := by
  match decls with
  | [] =>
    rw [collectClasses]
    exact .refl collected
  | first :: rest =>
    rw [collectClasses] at noError ⊢
    have noEarlier := noError.of_steps (collectClasses_steps _ space (List.Subset.refl usings) (some index) rest)
    have isName : collected.fullNameIn (some index) space first.name = outer ++ "+" ++ first.name := by
      obtain ⟨info, found, rfl⟩ := Option.map_eq_some_iff.1 isOuter
      rw [fullNameIn, Option.bind_some, found]
    have head := collectClass_lists collected space usings (some index) first noEarlier
    rw [isName] at head
    have grown := collectClass_grows collected space usings (some index) first
    exact head.trans (collectClasses_lists _ space usings index (grown.fullName isOuter) rest noError)

end

mutual

theorem collectMember_lists (collected : Collected) (space : String) (usings : List String) (member : Member)
    (noError : (collected.collectMember space usings member).IsClean) :
    collected.Lists (collected.collectMember space usings member) (member.declared space) := by
  match member with
  | .space _ name directives members =>
    rw [collectMember] at noError ⊢
    rw [Member.declared]
    obtain ⟨names, methods⟩ :=
      collectMembers_lists { collected.addSpace (qualify space name) with directives := _ } _ _ members noError
    exact ⟨names, methods⟩
  | .type decl =>
    rw [collectMember] at noError ⊢
    rw [Member.declared]
    exact collectClass_lists collected space usings none decl noError

theorem collectMembers_lists (collected : Collected) (space : String) (usings : List String) (members : List Member)
    (noError : (collected.collectMembers space usings members).IsClean) :
    collected.Lists (collected.collectMembers space usings members) (Member.declaredIn space members) := by
  match members with
  | [] =>
    rw [collectMembers]
    exact .refl collected
  | first :: rest =>
    rw [collectMembers] at noError ⊢
    have noEarlier := noError.of_steps (collectMembers_steps _ space (List.Subset.refl usings) rest)
    exact (collectMember_lists collected space usings first noEarlier).trans
      (collectMembers_lists _ space usings rest noError)

end

/-- Unless there is an error, the classes of a source text are collected in order, each with its methods. -/
theorem ofUnit_lists {unit : CompilationUnit} (noError : (ofUnit unit).IsClean) :
    (ofUnit unit).classes.toList.map (·.fullName) = unit.classes.map (·.fullName) ∧
      (ofUnit unit).methods.toList = unit.classes.map (·.decl.methods) := by
  obtain ⟨names, methods⟩ := collectMembers_lists _ "" _ unit.members noError
  exact ⟨names, methods⟩

/-! ### Full names -/

/-- Whether no two classes of a collection have one full name, by what is known of every class: one outside others has
a plain name and is known to its namespace, and one in another class is known to it. -/
structure Distinct (collected : Collected) : Prop where
  outside : ∀ {index : Nat} {info : ClassInfo}, collected.classes[index]? = some info → info.parent = none →
    IsPlainName info.fullName ∧ (collected.topLevel.lookup info.fullName).isSome
  inside : ∀ {index parent : Nat} {info : ClassInfo}, collected.classes[index]? = some info →
    info.parent = some parent → IsPlainName info.name ∧ ∃ outer, collected.classes[parent]? = some outer ∧
      info.fullName = outer.fullName ++ "+" ++ info.name ∧ (outer.nested.lookup info.name).isSome
  unique : ∀ {first second : Nat} {info other : ClassInfo}, collected.classes[first]? = some info →
    collected.classes[second]? = some other → info.fullName = other.fullName → first = second

end Collected

/-- Only the last plus sign stands in front of a plain name. -/
theorem append_plus_inj {first second name other : String} (isPlain : IsPlainName name) (isPlain' : IsPlainName other)
    (same : first ++ "+" ++ name = second ++ "+" ++ other) : first = second ∧ name = other := by
  have last (front : String) {name : String} (isPlain : IsPlainName name) :
      (front ++ "+" ++ name).toList.reverse.takeWhile (· != '+') = name.toList.reverse := by
    have reversed : (front ++ "+" ++ name).toList.reverse = name.toList.reverse ++ '+' :: front.toList.reverse := by
      simp
    have noPlus : ∀ character ∈ name.toList.reverse, (character != '+') = true := by
      intro character member
      rw [List.mem_reverse] at member
      exact bne_iff_ne.2 fun isPlus => isPlain (isPlus ▸ member)
    rw [reversed, List.takeWhile_append_of_pos noPlus]
    simp
  have sameName : name = other := by
    have reversed := last first isPlain
    rw [same, last second isPlain'] at reversed
    exact String.toList_inj.1 (List.reverse_inj.1 reversed.symm)
  refine ⟨?_, sameName⟩
  rw [sameName] at same
  have cut := congrArg String.toList same
  simp only [String.toList_append] at cut
  exact String.toList_inj.1 (List.append_cancel_right (List.append_cancel_right cut))

theorem not_isPlainName_plus (outer name : String) : ¬ IsPlainName (outer ++ "+" ++ name) := by
  intro isPlain
  exact isPlain (by simp)

namespace Collected

variable {collected : Collected} {info : ClassInfo} {methods : List MethodDecl}

/-- Whether the entry of a class still says what it said, and may name more classes in it. -/
structure Keeps (old found : ClassInfo) : Prop where
  name : found.name = old.name
  fullName : found.fullName = old.fullName
  parent : found.parent = old.parent
  nested : ∀ {name : String}, (old.nested.lookup name).isSome → (found.nested.lookup name).isSome

theorem isSome_lookup_append {β : Type} {entries : List (String × β)} {name : String}
    (isSome : (entries.lookup name).isSome) (others : List (String × β)) :
    ((entries ++ others).lookup name).isSome := by
  rw [List.lookup_append, Option.isSome_or, isSome, Bool.true_or]

theorem isSome_lookup_concat {β : Type} (entries : List (String × β)) (name : String) (entry : β) :
    ((entries ++ [(name, entry)]).lookup name).isSome := by
  rw [List.lookup_append, Option.isSome_or]
  simp

/-- Every class that was collected is kept; the class around the new one names it. -/
theorem exists_addClass (info : ClassInfo) (methods : List MethodDecl) {index : Nat} {old : ClassInfo}
    (isOld : collected.classes[index]? = some old) :
    ∃ found, (collected.addClass info methods).classes[index]? = some found ∧ Keeps old found ∧
      (info.parent = some index → (found.nested.lookup info.name).isSome) := by
  have inside : index ≠ collected.classes.size := Nat.ne_of_lt (Array.getElem?_eq_some_iff.1 isOld).1
  rw [getElem?_addClass, if_neg inside, isOld]
  by_cases isOuter : info.parent = some index
  · exact ⟨_, congrArg some (if_pos isOuter), ⟨rfl, rfl, rfl, fun isSome => isSome_lookup_append isSome _⟩,
      fun _ => isSome_lookup_concat _ _ _⟩
  · exact ⟨old, congrArg some (if_neg isOuter), ⟨rfl, rfl, rfl, id⟩, fun isOuter' => absurd isOuter' isOuter⟩

/-- A collected class is the new one or was there. -/
theorem of_addClass {index : Nat} {found : ClassInfo}
    (isFound : (collected.addClass info methods).classes[index]? = some found) :
    (index = collected.classes.size ∧ found = info) ∨
      ∃ old, collected.classes[index]? = some old ∧ Keeps old found := by
  by_cases isNew : index = collected.classes.size
  · rw [getElem?_addClass, if_pos isNew] at isFound
    exact .inl ⟨isNew, (Option.some.inj isFound).symm⟩
  · have isFound' := isFound
    rw [getElem?_addClass, if_neg isNew] at isFound'
    obtain ⟨old, isOld, -⟩ := Option.map_eq_some_iff.1 isFound'
    obtain ⟨same, isSame, keeps, -⟩ := exists_addClass info methods isOld
    cases isFound.symm.trans isSame
    exact .inr ⟨old, isOld, keeps⟩

/-- Whether the full name of a class is that of its place. -/
def Placed (collected : Collected) (info : ClassInfo) : Prop :=
  match info.parent with
  | none => IsPlainName info.fullName
  | some parent => IsPlainName info.name ∧ ∃ outer, collected.classes[parent]? = some outer ∧
      info.fullName = outer.fullName ++ "+" ++ info.name

/-- A class that is no duplicate has a full name of its own. -/
theorem Distinct.fresh (distinct : collected.Distinct) (placed : collected.Placed info)
    (free : collected.duplicate? info.parent info.space info.fullName info.name = none) {index : Nat} {old : ClassInfo}
    (isOld : collected.classes[index]? = some old) : old.fullName ≠ info.fullName := by
  intro same
  unfold Placed at placed
  cases isParent : info.parent with
  | none =>
    rw [isParent] at placed free
    cases isOldParent : old.parent with
    | none =>
      have known := (distinct.outside isOld isOldParent).2
      rw [same] at known
      rw [duplicate?, if_pos known] at free
      cases free
    | some outer =>
      obtain ⟨-, outer, -, isName, -⟩ := distinct.inside isOld isOldParent
      rw [same] at isName
      exact not_isPlainName_plus _ _ (isName ▸ placed)
  | some parent =>
    rw [isParent] at placed free
    obtain ⟨isPlain, outer, isOuter, isName⟩ := placed
    cases isOldParent : old.parent with
    | none =>
      have isPlain := (distinct.outside isOld isOldParent).1
      rw [same, isName] at isPlain
      exact not_isPlainName_plus _ _ isPlain
    | some oldParent =>
      obtain ⟨isOldPlain, oldOuter, isOldOuter, isOldName, known⟩ := distinct.inside isOld isOldParent
      rw [isName, isOldName] at same
      obtain ⟨sameOuter, sameName⟩ := append_plus_inj isOldPlain isPlain same
      cases distinct.unique isOldOuter isOuter sameOuter
      cases isOldOuter.symm.trans isOuter
      rw [sameName] at known
      have taken : collected.nestedIn? (some parent) info.name = some outer.shown := by
        show (collected.classes[parent]?).bind _ = _
        rw [isOuter]
        exact if_pos known
      rw [duplicate?, taken] at free
      cases free

theorem Distinct.addClass (distinct : collected.Distinct) (placed : collected.Placed info)
    (free : collected.duplicate? info.parent info.space info.fullName info.name = none) :
    (collected.addClass info methods).Distinct where
  outside {index found} isFound isOutside := by
    rcases of_addClass isFound with ⟨-, rfl⟩ | ⟨old, isOld, keeps⟩
    · unfold Placed at placed
      rw [isOutside] at placed
      refine ⟨placed, ?_⟩
      rw [Collected.addClass, isOutside]
      exact isSome_lookup_concat _ _ _
    · obtain ⟨isPlain, known⟩ := distinct.outside isOld (keeps.parent.symm.trans isOutside)
      rw [keeps.fullName]
      refine ⟨isPlain, ?_⟩
      rw [Collected.addClass]
      cases info.parent with
      | none => exact isSome_lookup_append known _
      | some parent => exact known
  inside {index parent found} isFound isInside := by
    rcases of_addClass isFound with ⟨-, rfl⟩ | ⟨old, isOld, keeps⟩
    · unfold Placed at placed
      rw [isInside] at placed
      obtain ⟨isPlain, outer, isOuter, isName⟩ := placed
      obtain ⟨outer', isOuter', keeps, known⟩ := exists_addClass found methods isOuter
      exact ⟨isPlain, outer', isOuter', keeps.fullName ▸ isName, known isInside⟩
    · obtain ⟨isPlain, outer, isOuter, isName, known⟩ := distinct.inside isOld (keeps.parent.symm.trans isInside)
      obtain ⟨outer', isOuter', keepsOuter, -⟩ := exists_addClass info methods isOuter
      rw [keeps.name, keeps.fullName]
      exact ⟨isPlain, outer', isOuter', keepsOuter.fullName ▸ isName, keepsOuter.nested known⟩
  unique {first second found other} isFound isOther same := by
    rcases of_addClass isFound with ⟨isFirst, rfl⟩ | ⟨old, isOld, keeps⟩
    · rcases of_addClass isOther with ⟨isSecond, -⟩ | ⟨old, isOld, keeps⟩
      · rw [isFirst, isSecond]
      · exact absurd (keeps.fullName.symm.trans same.symm) (distinct.fresh placed free isOld)
    · rcases of_addClass isOther with ⟨-, rfl⟩ | ⟨other', isOther', keeps'⟩
      · exact absurd (keeps.fullName.symm.trans same) (distinct.fresh placed free isOld)
      · exact distinct.unique isOld isOther' (keeps.fullName.symm.trans (same.trans keeps'.fullName))

theorem isPlainName_qualify {space name : String} (isSpace : IsPlainName space) (isName : IsPlainName name) :
    IsPlainName (qualify space name) := by
  have isDot : IsPlainName "." := by decide
  unfold qualify
  split
  · exact isName
  · exact (isSpace.append isDot).append isName

mutual

/-- Collecting a class keeps full names distinct. -/
theorem Distinct.collectClass {collected : Collected} (distinct : collected.Distinct) {space : String}
    (isSpace : IsPlainName space) (usings : List String) {parent : Option Nat}
    (isParent : ∀ index ∈ parent, index < collected.classes.size) (decl : ClassDecl) (isPlain : decl.IsPlain) :
    (collected.collectClass space usings parent decl).Distinct := by
  match decl with
  | .mk span name modifiers methods nested =>
    obtain ⟨isName, areNested⟩ := isPlain
    rw [Collected.collectClass]
    dsimp only
    split
    · exact ⟨distinct.outside, distinct.inside, distinct.unique⟩
    · next free =>
      let info : ClassInfo :=
        ⟨name, modifiers, collected.fullNameIn parent space name, space, parent, usings, []⟩
      have placed : collected.Placed info := by
        unfold Placed
        cases parent with
        | none => exact isPlainName_qualify isSpace isName
        | some index =>
          have isOuter := Array.getElem?_eq_getElem (isParent index rfl)
          refine ⟨isName, _, isOuter, ?_⟩
          show collected.fullNameIn (some index) space name = _
          rw [fullNameIn, Option.bind_some, isOuter]
      have inside : ∀ index ∈ some collected.classes.size, index < (collected.addClass info methods).classes.size := by
        intro index isIndex
        cases isIndex
        exact (Array.getElem?_eq_some_iff.1 ((getElem?_addClass collected info methods _).trans (if_pos rfl))).1
      exact Distinct.collectClasses (distinct.addClass placed free) isSpace usings inside nested areNested

theorem Distinct.collectClasses {collected : Collected} (distinct : collected.Distinct) {space : String}
    (isSpace : IsPlainName space) (usings : List String) {parent : Option Nat}
    (isParent : ∀ index ∈ parent, index < collected.classes.size) (decls : List ClassDecl)
    (arePlain : ClassDecl.AllPlain decls) : (collected.collectClasses space usings parent decls).Distinct := by
  match decls with
  | [] =>
    rw [Collected.collectClasses]
    exact distinct
  | first :: rest =>
    rw [Collected.collectClasses]
    have larger := (collectClass_grows collected space usings parent first).size_le
    exact Distinct.collectClasses (distinct.collectClass isSpace usings isParent first arePlain.1) isSpace usings
      (fun index isIndex => Nat.lt_of_lt_of_le (isParent index isIndex) larger) rest arePlain.2

end

mutual

theorem Distinct.collectMember {collected : Collected} (distinct : collected.Distinct) {space : String}
    (isSpace : IsPlainName space) (usings : List String) (member : Member) (isPlain : member.IsPlain) :
    (collected.collectMember space usings member).Distinct := by
  match member with
  | .space _ name directives members =>
    rw [Collected.collectMember]
    have entered :
        { collected.addSpace (qualify space name) with directives := collected.directives ++ [directives] }.Distinct :=
      ⟨distinct.outside, distinct.inside, distinct.unique⟩
    exact entered.collectMembers (isPlainName_qualify isSpace isPlain.1) _ members isPlain.2
  | .type decl =>
    rw [Collected.collectMember]
    exact distinct.collectClass isSpace usings (fun _ isParent => absurd isParent (Option.not_mem_none _)) decl isPlain

theorem Distinct.collectMembers {collected : Collected} (distinct : collected.Distinct) {space : String}
    (isSpace : IsPlainName space) (usings : List String) (members : List Member) (arePlain : Member.AllPlain members) :
    (collected.collectMembers space usings members).Distinct := by
  match members with
  | [] =>
    rw [Collected.collectMembers]
    exact distinct
  | first :: rest =>
    rw [Collected.collectMembers]
    exact (distinct.collectMember isSpace usings first arePlain.1).collectMembers isSpace usings rest arePlain.2

end

/-- No two classes of a source text with plain names have one full name. -/
theorem ofUnit_distinct {unit : CompilationUnit} (arePlain : Member.AllPlain unit.members) :
    (ofUnit unit).Distinct := by
  have start : ({ empty with directives := [unit.usings] } : Collected).Distinct := ⟨nofun, nofun, nofun⟩
  exact start.collectMembers (show IsPlainName "" by decide) _ unit.members arePlain

/-- Unless there is an error, the classes of a source text have distinct full names. -/
theorem nodup_fullNames {unit : CompilationUnit} (arePlain : Member.AllPlain unit.members)
    (noError : (ofUnit unit).IsClean) : (unit.classes.map (·.fullName)).Nodup := by
  rw [← (ofUnit_lists noError).1, List.Nodup, List.pairwise_iff_getElem]
  intro first second isFirst isSecond before same
  rw [List.length_map, Array.length_toList] at isFirst isSecond
  rw [List.getElem_map, List.getElem_map] at same
  exact Nat.ne_of_lt before ((ofUnit_distinct arePlain).unique (Array.getElem?_eq_getElem isFirst)
    (Array.getElem?_eq_getElem isSecond) same)

end Collected

end Snippet
