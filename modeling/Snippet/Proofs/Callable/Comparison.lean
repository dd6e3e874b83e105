import Snippet.Proofs.Shape.EntryPoint
import Snippet.Proofs.Shape.Nameable
import Snippet.Proofs.Typing.FullName

/-!
Types are compared by their full names: by a slot with the values for it, by a cast, when an entry point is bound and
when an import is connected. None of these comparisons takes an instance of a generic type for another one, since a full
name tells the definition and the arguments apart. Main statement: `TypeDesc.IsPlain.fullName?_eq_iff`.
-/

namespace Snippet

namespace TypeDesc

variable {type type' : TypeDesc} {types types' : List TypeDesc}

/-! ### Full names -/

/-- Whether two types have one definition name, and so have their arguments, one by one. -/
inductive Agrees : TypeDesc → TypeDesc → Prop
  | intro {type type' : TypeDesc} (definition : type.definitionName? = type'.definitionName?)
      (sameLength : type.arguments.length = type'.arguments.length)
      (arguments : ∀ pair ∈ type.arguments.zip type'.arguments, Agrees pair.1 pair.2) : Agrees type type'

/-- Types that have their names together have them one by one. -/
theorem map_fullName?_of_namesOrOpen {names : List String} (named : namesOrOpen types = .ok names) :
    types.map (·.fullName?) = names.map some := by
  induction types generalizing names with
  | nil =>
    cases named
    rfl
  | cons type rest ih =>
    obtain ⟨first, others, isFirst, areOthers, rfl⟩ := namesOrOpen_cons_eq_ok named
    rw [List.map_cons, List.map_cons, ih areOthers, fullName?, isFirst]
    rfl

/-- A full name is made up of the name of the definition and the full names of the arguments. -/
theorem exists_names {full : String} (named : type.fullName? = some full) :
    ∃ definition names, type.definitionName? = some definition ∧
      type.arguments.map (·.fullName?) = names.map some ∧ full.toList = definition.toList ++ argumentText names := by
  obtain ⟨space, enclosing, name, arguments, origin⟩ := type
  cases space with
  | none => cases named
  | some space =>
    obtain ⟨names, areNames, isFull⟩ := nameOrOpen_eq_ok (nameOrOpen_of_fullName? named)
    exact ⟨_, names, rfl, map_fullName?_of_namesOrOpen areNames, isFull⟩

/-- The arguments of a type with a full name have full names. -/
theorem isSome_fullName?_of_mem (named : type.fullName?.isSome) {argument : TypeDesc}
    (member : argument ∈ type.arguments) : argument.fullName?.isSome := by
  obtain ⟨full, isFull⟩ := Option.isSome_iff_exists.1 named
  obtain ⟨-, names, -, areNames, -⟩ := exists_names isFull
  have isName : argument.fullName? ∈ names.map some := areNames ▸ List.mem_map_of_mem member
  obtain ⟨name, -, isName⟩ := List.mem_map.1 isName
  rw [← isName]
  rfl

/-- Definition and arguments determine the full name. -/
theorem fullName?_eq_of_parts (named : type.fullName?.isSome) (named' : type'.fullName?.isSome)
    (definition : type.definitionName? = type'.definitionName?)
    (arguments : type.arguments.map (·.fullName?) = type'.arguments.map (·.fullName?)) :
    type.fullName? = type'.fullName? := by
  obtain ⟨full, isFull⟩ := Option.isSome_iff_exists.1 named
  obtain ⟨full', isFull'⟩ := Option.isSome_iff_exists.1 named'
  obtain ⟨name, names, isName, areNames, written⟩ := exists_names isFull
  obtain ⟨name', names', isName', areNames', written'⟩ := exists_names isFull'
  cases isName.symm.trans (definition.trans isName')
  have sameNames : names = names' :=
    List.map_injective_iff.2 (fun _ _ => Option.some.inj) (areNames.symm.trans (arguments.trans areNames'))
  rw [isFull, isFull', Option.some_inj, ← String.toList_inj, written, written', sameNames]

/-- The full name determines definition and arguments. -/
theorem IsPlain.parts_eq (plain : type.IsPlain) (plain' : type'.IsPlain) (named : type.fullName?.isSome)
    (same : type.fullName? = type'.fullName?) :
    type.definitionName? = type'.definitionName? ∧
      type.arguments.map (·.fullName?) = type'.arguments.map (·.fullName?) := by
  obtain ⟨full, isFull⟩ := Option.isSome_iff_exists.1 named
  have isNamed := nameOrOpen_of_fullName? isFull
  have isNamed' := nameOrOpen_of_fullName? (same.symm.trans isFull)
  obtain ⟨space, enclosing, name, arguments, origin⟩ := type
  obtain ⟨space', enclosing', name', arguments', origin'⟩ := type'
  cases space with
  | none => cases isNamed
  | some space =>
    cases space' with
    | none => cases isNamed'
    | some space' =>
      obtain ⟨definitions, names, areNames, areNames'⟩ := plain.eq_of_nameOrOpen_eq plain' isNamed isNamed'
      refine ⟨congrArg some definitions, ?_⟩
      exact (map_fullName?_of_namesOrOpen areNames).trans (map_fullName?_of_namesOrOpen areNames').symm

/-- Lists have the same image if their elements have, one by one. -/
theorem map_eq_map_iff {α β : Type} (f : α → β) (first second : List α) :
    first.map f = second.map f ↔ first.length = second.length ∧ ∀ pair ∈ first.zip second, f pair.1 = f pair.2 := by
  rw [← List.forall₂_eq_eq_eq, List.forall₂_map_left_iff, List.forall₂_map_right_iff, List.forall₂_iff_zip]
  simp

/-- Types agree exactly if they have one full name. -/
theorem IsPlain.agrees_iff (plain : type.IsPlain) (plain' : type'.IsPlain) (named : type.fullName?.isSome)
    (named' : type'.fullName?.isSome) : type.Agrees type' ↔ type.fullName? = type'.fullName? := by
  -- By induction on the first type, for every second one: an argument is compared with whatever stands in its place.
  induction plain generalizing type' with
  | @intro type names areArguments ih =>
    have isPlain : type.IsPlain := .intro names areArguments
    obtain ⟨names', areArguments'⟩ := plain'
    have each (pair : TypeDesc × TypeDesc) (member : pair ∈ type.arguments.zip type'.arguments) :
        pair.1.Agrees pair.2 ↔ pair.1.fullName? = pair.2.fullName? := by
      obtain ⟨isFirst, isSecond⟩ := List.of_mem_zip member
      exact ih _ isFirst (areArguments' _ isSecond) (isSome_fullName?_of_mem named isFirst)
        (isSome_fullName?_of_mem named' isSecond)
    constructor
    · rintro ⟨definition, sameLength, agree⟩
      refine fullName?_eq_of_parts named named' definition
        ((map_eq_map_iff _ _ _).2 ⟨sameLength, fun pair member => ?_⟩)
      exact (each pair member).1 (agree pair member)
    · intro same
      obtain ⟨definition, sameArguments⟩ := isPlain.parts_eq (.intro names' areArguments') named same
      obtain ⟨sameLength, sameNames⟩ := (map_eq_map_iff _ _ _).1 sameArguments
      exact .intro definition sameLength fun pair member => (each pair member).2 (sameNames pair member)

end TypeDesc

/-! ### Binding and linking -/

theorem TypeDesc.nameOrOpen_of_requireName {type : TypeDesc} {name : String} (required : type.requireName = .ok name) :
    type.nameOrOpen = .ok name := by
  rw [requireName] at required
  split at required
  · next isName =>
    cases required
    exact isName
  · cases required

namespace EntryPoint

variable {entry : EntryPoint} {shape : CallableShape}

theorem forall₂_of_bindParameters {label : String} {position : Nat} {parameters : List SignatureParameter}
    {wanted : List ShapeParameter} (sameLength : parameters.length = wanted.length)
    (binds : bindParameters label position parameters wanted = .ok ⟨⟩) :
    List.Forall₂ (fun found wanted => found.mode = wanted.mode ∧ wanted.type.nameOrOpen = .ok found.typeName)
      parameters wanted := by
  induction parameters generalizing position wanted with
  | nil =>
    cases List.length_eq_zero_iff.1 sameLength.symm
    exact .nil
  | cons parameter parameters ih =>
    obtain ⟨first, others, rfl⟩ := List.exists_cons_of_length_eq_add_one sameLength.symm
    rw [bindParameters] at binds
    obtain ⟨requested, isRequested, binds⟩ := of_bind_eq_ok binds
    split at binds
    · cases binds
    · next same =>
      simp only [Bool.or_eq_true, bne_iff_ne, not_or, not_not] at same
      obtain ⟨sameMode, sameName⟩ := same
      refine .cons ⟨sameMode, ?_⟩ (ih (Nat.succ.inj sameLength) binds)
      rw [sameName]
      exact TypeDesc.nameOrOpen_of_requireName isRequested

/-- Only an entry point with the signature of a shape is bound to the shape. -/
theorem eq_of_bind {bound : BoundCallable} (binds : entry.bind shape = .ok bound) :
    bound = ⟨entry, shape⟩ ∧ entry.signature.IsOf shape := by
  rw [bind] at binds
  dsimp only at binds
  split at binds
  · cases binds
  next sameCount =>
  obtain ⟨⟨⟩, bindsParameters, binds⟩ := of_bind_eq_ok binds
  obtain ⟨requested, isRequested, binds⟩ := of_bind_eq_ok binds
  split at binds
  · cases binds
  next sameResult =>
  rw [bne_iff_ne, not_not] at sameCount sameResult
  refine ⟨(Except.ok.inj binds).symm, forall₂_of_bindParameters sameCount bindsParameters, ?_⟩
  rw [requestedResult] at isRequested
  cases wanted : shape.result with
  | none =>
    rw [wanted] at isRequested
    cases isRequested
    exact sameResult
  | some type =>
    rw [wanted] at isRequested
    dsimp only at isRequested
    cases required : type.requireName with
    | error failure =>
      rw [required] at isRequested
      cases isRequested
    | ok name =>
      rw [required] at isRequested
      cases isRequested
      exact ⟨name, sameResult, TypeDesc.nameOrOpen_of_requireName required⟩

end EntryPoint

namespace TypeDesc

variable {type type' : TypeDesc}

/-- What the comparisons of full names say about a type and the type of what it is compared with: they hold only if the
types agree, but for slots and casts of the type of every value. -/
structure ComparesWith (type type' : TypeDesc) : Prop where
  /-- A slot of the type and a value of the other one. -/
  accepts : ∀ value : Value, value.typeName? = type'.fullName? →
    (type.accepts value = true ↔ type.fullName? = some TypeNames.object ∨ type.Agrees type')
  /-- A cast to a static type of this name and a value of the other type. -/
  casts : ∀ (target : Ty) (value : Value), some target.fullName = type.fullName? → value.typeName? = type'.fullName? →
    (value.castTo target.fullName = .ok value ↔ target.fullName = TypeNames.object ∨ type.Agrees type')
  /-- A parameter of a shape and the one of an entry point. -/
  bindsParameter : ∀ (entry : EntryPoint) (shape : CallableShape) (bound : BoundCallable) (index : Nat),
    entry.bind shape = .ok bound → (shape.parameters[index]?).map (·.type) = some type →
    (entry.signature.parameters[index]?).map (·.typeName) = type'.fullName? → type.Agrees type'
  /-- The result of a shape and the one of an entry point. -/
  bindsResult : ∀ (entry : EntryPoint) (shape : CallableShape) (bound : BoundCallable),
    entry.bind shape = .ok bound → shape.result = some type → entry.signature.result = type'.fullName? →
    type.Agrees type'
  /-- A parameter of a host function and the one of an import. -/
  linksParameter : ∀ (function : HostFunction) (wanted : FunctionImport) (index : Nat),
    function.fits wanted = true → function.parameters[index]? = some type →
    wanted.parameters[index]? = type'.fullName? → type.Agrees type'
  /-- The result of a host function and the one of an import. -/
  linksResult : ∀ (function : HostFunction) (wanted : FunctionImport),
    function.fits wanted = true → function.result = some type → wanted.result = type'.fullName? → type.Agrees type'
  /-- A type of a library and an import. -/
  links : ∀ (libraries : LibrarySet) (name : String) (found : HostType) (origin : Option String),
    libraries.findType? name = some found → { found.desc with origin } = type → some name = type'.fullName? →
    type.Agrees type'

/-- Types with one full name are told from others by every comparison. -/
theorem comparesWith (agrees : type.Agrees type' ↔ type.fullName? = type'.fullName?) (named : type.fullName?.isSome)
    (named' : type'.fullName?.isSome) : type.ComparesWith type' := by
  obtain ⟨full, isFull⟩ := Option.isSome_iff_exists.1 named
  obtain ⟨full', isFull'⟩ := Option.isSome_iff_exists.1 named'
  rw [isFull, isFull', Option.some_inj] at agrees
  refine ⟨?accepts, ?casts, ?bindsParameter, ?bindsResult, ?linksParameter, ?linksResult, ?links⟩
  case accepts =>
    intro value isValue
    rw [TypeDesc.accepts, isFull, isValue, isFull', agrees]
    dsimp only
    split
    · next isObject => simp [beq_iff_eq.1 isObject]
    · next notObject =>
      rw [beq_iff_eq] at notObject ⊢
      simp [notObject, eq_comm]
  case casts =>
    intro target value isTarget isValue
    rw [isFull, Option.some_inj] at isTarget
    rw [Value.castTo, isTarget, isValue, isFull', agrees]
    dsimp only
    split
    · next isObject => simp [beq_iff_eq.1 isObject]
    · next notObject =>
      rw [beq_iff_eq] at notObject
      by_cases same : full' = full
      · simp [same]
      · simp [same, notObject, Ne.symm same]
  case bindsParameter =>
    intro entry shape bound index binds isWanted isFound
    obtain ⟨wanted, isParameter, rfl⟩ := Option.map_eq_some_iff.1 isWanted
    obtain ⟨found, isSignature, isName⟩ := Option.map_eq_some_iff.1 (isFound.trans isFull')
    obtain ⟨inSignature, rfl⟩ := List.getElem?_eq_some_iff.1 isSignature
    obtain ⟨inShape, rfl⟩ := List.getElem?_eq_some_iff.1 isParameter
    have requested := ((EntryPoint.eq_of_bind binds).2.parameters.get inSignature inShape).2
    rw [List.get_eq_getElem, List.get_eq_getElem, nameOrOpen_of_fullName? isFull] at requested
    exact agrees.2 ((Except.ok.inj requested).trans isName)
  case bindsResult =>
    intro entry shape bound binds isWanted isFound
    obtain ⟨name, isResult, isName⟩ : ∃ name, entry.signature.result = some name ∧ type.nameOrOpen = .ok name := by
      simpa [isWanted] using (EntryPoint.eq_of_bind binds).2.result
    rw [fullName?, isName] at isFull
    cases isFull
    exact agrees.2 (Option.some_inj.1 (isResult.symm.trans (isFound.trans isFull')))
  case linksParameter =>
    intro function wanted index fits isWanted isFound
    have areNames := beq_iff_eq.1 (Bool.and_eq_true_iff.1 fits).1
    have names := congrArg (·[index]?) (map_fullName?_of_namesOrOpen (namesOrOpen_of_mapM_fullName? areNames))
    simp only [List.getElem?_map, isWanted, isFound, isFull', Option.map_some, Option.some_inj] at names
    exact agrees.2 (Option.some_inj.1 (isFull.symm.trans names))
  case linksResult =>
    intro function wanted fits isWanted isFound
    have result := (Bool.and_eq_true_iff.1 fits).2
    rw [isWanted] at result
    have isSame := beq_iff_eq.1 (Bool.and_eq_true_iff.1 result).2
    exact agrees.2 (Option.some_inj.1 (isFull.symm.trans (isSame.trans (isFound.trans isFull'))))
  case links =>
    rintro libraries name found origin isFound rfl isName
    have isType : found.fullName = full := Option.some_inj.1 isFull
    rw [agrees, ← isType, LibrarySet.fullName_of_findType? isFound]
    exact Option.some_inj.1 (isName.trans isFull')

/-- Full names are unambiguous. Types of which no name has a bracket or a comma have one full name exactly if their
definitions have one name and their arguments have the same full names, and so exactly if they agree down to the last
argument. So no comparison of full names takes a type for another one. -/
theorem IsPlain.fullName?_eq_iff (plain : type.IsPlain) (plain' : type'.IsPlain) (named : type.fullName?.isSome)
    (named' : type'.fullName?.isSome) :
    (type.fullName? = type'.fullName? ↔ type.definitionName? = type'.definitionName? ∧
      type.arguments.map (·.fullName?) = type'.arguments.map (·.fullName?)) ∧
    (type.fullName? = type'.fullName? ↔ type.Agrees type') ∧ type.ComparesWith type' := by
  have agrees := plain.agrees_iff plain' named named'
  refine ⟨⟨plain.parts_eq plain' named, ?_⟩, agrees.symm, comparesWith agrees named named'⟩
  rintro ⟨definition, arguments⟩
  exact fullName?_eq_of_parts named named' definition arguments

theorem IsPlain.list {element : TypeDesc} (isPlain : element.IsPlain) : element.list.IsPlain :=
  .of_all (by show ["System.Collections.Generic", "List"].all _ = true; decide) (List.forall_mem_singleton.2 isPlain)

/-- Lists of lists of numbers. -/
def numberLists : TypeDesc := list (list int)

/-- Lists of lists of texts. -/
def textLists : TypeDesc := list (list string)

theorem isPlain_numberLists : numberLists.IsPlain := (IsPlain.of_all (by decide) (List.forall_mem_nil _)).list.list

theorem isPlain_textLists : textLists.IsPlain := (IsPlain.of_all (by decide) (List.forall_mem_nil _)).list.list

theorem fullName?_eq_iff_nested :
    (numberLists.IsPlain ∧ textLists.IsPlain ∧ numberLists.fullName?.isSome ∧ textLists.fullName?.isSome) ∧
      (numberLists.fullName? = textLists.fullName? ↔ numberLists.definitionName? = textLists.definitionName? ∧
        numberLists.arguments.map (·.fullName?) = textLists.arguments.map (·.fullName?)) ∧
      (numberLists.fullName? = textLists.fullName? ↔ numberLists.Agrees textLists) ∧
      numberLists.ComparesWith textLists :=
  ⟨⟨isPlain_numberLists, isPlain_textLists, rfl, rfl⟩,
    isPlain_numberLists.fullName?_eq_iff isPlain_textLists rfl rfl⟩

end TypeDesc
end Snippet
