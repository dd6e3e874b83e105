import Snippet.Proofs.Typing.Call
import Snippet.Proofs.Typing.Operator

/-!
What names denote: variables, members of types and values, and the candidates of calls. All of them
are described by the methods of the program, the libraries or the type of the value.
-/

namespace Snippet

/-- Whether bodies that are checked in the context are described by the typing. -/
structure BodyContext.Describes (context : BodyContext) (typing : Typing) : Prop where
  libraries : typing.libraries = context.environment.libraries
  methods : typing.methods = context.methods.toList.map fun header => ⟨header.parameters, header.result⟩
  result : typing.result = context.result
  parameters : ∀ header ∈ context.methods.toList, ∀ parameter ∈ header.parameters,
    parameter.type.Stores typing
  results : ∀ header ∈ context.methods.toList, header.result = .void ∨ header.result.Stores typing
  gives : context.result = .void ∨ context.result.Stores typing

/-- Whether a value that is meant is checked. -/
def Referent.Good (typing : Typing) : Referent → Prop
  | .value denoted => denoted.Checked typing
  | _ => True

/-! ### Built-in members -/

namespace Ty

theorem slot_eq_void_iff {receiver : Ty} (holds : receiver.holdsValues = true) (slot : MemberSlot) :
    receiver.slot slot = .void ↔ slot = .void := by
  cases slot with
  | element =>
    cases receiver with
    | list element => exact iff_of_false (ne_void_of_holdsValues holds) nofun
    | _ => exact iff_of_false nofun nofun
  | void => exact iff_of_true rfl rfl
  | _ => exact iff_of_false nofun nofun

theorem slot_stores {typing : Typing} {receiver : Ty} (stores : receiver.Stores typing) {slot : MemberSlot}
    (hasValue : slot ≠ .void) : (receiver.slot slot).Stores typing := by
  cases slot with
  | element =>
    cases receiver with
    | list element => exact ⟨stores.holds, stores.defined⟩
    | _ => exact .of_isBasic rfl
  | void => exact absurd rfl hasValue
  | _ => exact .of_isBasic rfl

end Ty

namespace BuiltinMember

theorem parameter_ne_void {member : BuiltinMember} {slot : MemberSlot}
    (inMember : slot ∈ member.signature.parameters) : slot ≠ .void := by
  rintro rfl
  cases member <;> simp [signature] at inMember

/-- A member that is looked up for a type belongs to it. -/
theorem named_belongsTo {typing : Typing} {owner : Ty} {member : BuiltinMember} {name : String}
    {isProperty : Bool} (inNamed : member ∈ named owner.owner? name isProperty)
    (defined : owner.Defined typing.libraries) : member.BelongsTo typing.libraries owner := by
  simp only [named, List.mem_filter, Bool.and_eq_true, Bool.or_eq_true, beq_iff_eq] at inNamed
  obtain ⟨-, -, owners⟩ := inNamed
  unfold BelongsTo
  rcases owners with isAny | isOwner
  · rw [isAny]
    exact defined
  · cases owner with
    | string =>
      rw [← Option.some.inj isOwner]
    | list element =>
      rw [← Option.some.inj isOwner]
      exact ⟨element, rfl, defined⟩
    | _ => cases isOwner

/-- A property has no parameters. -/
theorem named_property {owner : Option MemberOwner} {member : BuiltinMember} {name : String}
    (inNamed : member ∈ named owner name true) : member.signature.parameters = [] := by
  simp only [named, List.mem_filter, Bool.and_eq_true, beq_iff_eq] at inNamed
  obtain ⟨-, ⟨-, isProperty⟩, -⟩ := inNamed
  cases member <;> first | rfl | cases isProperty

theorem hasResult_eq_false_iff (member : BuiltinMember) :
    member.hasResult = false ↔ member.signature.result = .void := by
  cases member <;> decide

end BuiltinMember

/-- A function that fits an import has the types that it names. -/
theorem HostFunction.fits_iff {function : HostFunction} {wanted : FunctionImport} : function.fits wanted = true ↔
    function.parameters.mapM (·.fullName?) = some wanted.parameters ∧
      function.result.map (·.fullName?) = wanted.result.map some := by
  rw [fits, Bool.and_eq_true, beq_iff_eq]
  refine and_congr_right fun _ => ?_
  cases function.result with
  | none => cases wanted.result <;> simp
  | some type =>
    cases wanted.result with
    | none => simp [Option.isSome_iff_ne_none]
    | some full => simpa using fun isFull => Option.isSome_of_mem isFull

/-! ### Candidates -/

namespace Candidate

variable {typing : Typing}

/-- The candidate of a member that is looked up for the type of a checked value. -/
theorem ofMember_meets {object : TypedExpr} (checked : object.Checked typing)
    (stores : object.type.Stores typing) {member : BuiltinMember} {name : String} {isProperty : Bool}
    (inNamed : member ∈ BuiltinMember.named object.type.owner? name isProperty) :
    (ofMember object.type member).Meets typing (some object) := by
  have isVoid := Ty.slot_eq_void_iff stores.holds member.signature.result
  refine ⟨fun parameter inParameters => ?_, ?_, object, rfl, checked, rfl, rfl, ?_, fun strict => ?_⟩
  · obtain ⟨type, inTypes, rfl⟩ := List.mem_map.1 inParameters
    obtain ⟨slot, inSignature, rfl⟩ := List.mem_map.1 inTypes
    exact Ty.slot_stores stores (BuiltinMember.parameter_ne_void inSignature)
  · by_cases hasValue : member.signature.result = .void
    · exact .inl (isVoid.2 hasValue)
    · exact .inr (Ty.slot_stores stores hasValue)
  · exact isVoid.trans member.hasResult_eq_false_iff.symm
  · exact BuiltinMember.named_belongsTo inNamed (stores.defined strict)

theorem length_of_mapM_fullName? {types : List TypeDesc} {names : List String}
    (named : types.mapM (·.fullName?) = some names) : types.length = names.length := by
  induction types generalizing names with
  | nil =>
      cases named
      rfl
  | cons type types ih =>
      rw [List.mapM_cons] at named
      obtain ⟨first, -, named⟩ := Option.bind_eq_some_iff.1 named
      obtain ⟨rest, isRest, named⟩ := Option.bind_eq_some_iff.1 named
      cases named
      exact congrArg (· + 1) (ih isRest)

/-- Known types have the names of their static types. -/
theorem names_of_knows {libraries : LibrarySet} {types : List TypeDesc} {names : List String}
    (knows : ∀ type ∈ types, libraries.Knows type) (named : types.mapM (·.fullName?) = some names) :
    (types.map Ty.ofDesc).map Ty.fullName = names := by
  induction types generalizing names with
  | nil =>
      cases named
      rfl
  | cons type types ih =>
      rw [List.mapM_cons] at named
      obtain ⟨first, isFirst, named⟩ := Option.bind_eq_some_iff.1 named
      obtain ⟨rest, isRest, named⟩ := Option.bind_eq_some_iff.1 named
      cases named
      have isName : some (Ty.ofDesc type).fullName = some first :=
        (knows type (List.mem_cons_self ..)).2.symm.trans isFirst
      rw [List.map_cons, List.map_cons, Option.some.inj isName,
        ih (fun other member => knows other (List.mem_cons_of_mem _ member)) isRest]

theorem ofHost?_eq_some {owner : HostType} {shown : String} {function : HostFunction} {candidate : Candidate}
    (isCandidate : ofHost? owner shown function = some candidate) :
    ∃ names result, function.parameters.mapM (·.fullName?) = some names ∧
      function.result.map (·.fullName?) = result.map some ∧
      candidate.parameters = (function.parameters.map Ty.ofDesc).map (PassMode.value, ·) ∧
      candidate.result = (function.result.map Ty.ofDesc).getD .void ∧
      candidate.target = .host ⟨owner.fullName, function.name, names, result⟩ := by
  unfold ofHost? at isCandidate
  obtain ⟨names, areNames, isCandidate⟩ := Option.bind_eq_some_iff.1 isCandidate
  dsimp only at isCandidate
  split at isCandidate
  · next hasNone =>
    cases isCandidate
    exact ⟨names, none, areNames, by rw [hasNone]; rfl, rfl, rfl, rfl⟩
  · next type hasResult =>
    obtain ⟨result, isResult, isCandidate⟩ := Option.bind_eq_some_iff.1 isCandidate
    obtain ⟨name, isName, rfl⟩ := Option.map_eq_some_iff.1 isResult
    cases isCandidate
    refine ⟨names, some name, areNames, ?_, rfl, rfl, rfl⟩
    rw [hasResult, Option.map_some, Option.map_some, isName]

/-- A function of a library whose types have full names is found by them. -/
theorem links_of_found {libraries : LibrarySet} {owner : HostType} {definition name : String}
    {function : HostFunction} {names : List String} {result : Option String}
    (found : libraries.findType? definition = some owner) (inOverloads : function ∈ owner.overloads name)
    (areNames : function.parameters.mapM (·.fullName?) = some names)
    (isResult : function.result.map (·.fullName?) = result.map some) :
    FunctionImport.Links ⟨owner.fullName, function.name, names, result⟩ libraries := by
  have isName : function.name = name := by simpa using (List.mem_filter.1 inOverloads).2
  have fits : function.fits ⟨owner.fullName, function.name, names, result⟩ = true :=
    HostFunction.fits_iff.2 ⟨areNames, isResult⟩
  obtain ⟨chosen, isChosen⟩ : ∃ chosen, (owner.overloads function.name).find?
      (·.fits ⟨owner.fullName, function.name, names, result⟩) = some chosen := by
    rw [← Option.isSome_iff_exists, List.find?_isSome]
    exact ⟨function, isName ▸ inOverloads, fits⟩
  have isOwner : libraries.findType? owner.fullName = some owner := by
    rw [LibrarySet.fullName_of_findType? found, found]
  refine ⟨.function chosen.run chosen.parameters.length chosen.result.isSome, ?_⟩
  simp only [FunctionImport.link, isOwner, Option.bind_some, isChosen]

/-- The candidate of a function of a library. -/
theorem ofHost?_meets {owner : HostType} {shown definition : String} {function : HostFunction}
    {candidate : Candidate} (found : typing.libraries.findType? definition = some owner) {name : String}
    (inOverloads : function ∈ owner.overloads name) (isCandidate : ofHost? owner shown function = some candidate) :
    candidate.Meets typing none := by
  obtain ⟨names, result, areNames, isResult, areParameters, hasResult, isTarget⟩ := ofHost?_eq_some isCandidate
  have inOwner : function ∈ owner.functions := (List.mem_filter.1 inOverloads).1
  have closed (strict : typing.Strict) := (strict.types definition owner found).functions function inOwner
  have stores (type : TypeDesc) (knows : typing.Strict → typing.libraries.Knows type) :
      (Ty.ofDesc type).Stores typing := ⟨Ty.ofDesc_holdsValues type, fun strict => (knows strict).1⟩
  refine ⟨fun parameter inParameters => ?_, ?_, ?_⟩
  · rw [areParameters] at inParameters
    obtain ⟨type, inTypes, rfl⟩ := List.mem_map.1 inParameters
    obtain ⟨described, inFunction, rfl⟩ := List.mem_map.1 inTypes
    exact stores described fun strict => (closed strict).1 described inFunction
  · rw [hasResult]
    cases isSome : function.result with
    | none => exact .inl rfl
    | some described => exact .inr (stores described fun strict => (closed strict).2 described isSome)
  · rw [isTarget]
    refine ⟨_, areParameters, ?_, ?_, links_of_found found inOverloads areNames isResult,
      fun strict => ⟨⟨fun parameter inParameters => ?_, ?_⟩, ?_⟩⟩
    · rw [List.length_map]
      exact length_of_mapM_fullName? areNames
    · rw [hasResult]
      cases isSome : function.result with
      | none =>
        rw [isSome] at isResult
        exact iff_of_true rfl (Option.map_eq_none_iff.1 isResult.symm)
      | some described =>
        rw [isSome] at isResult
        refine iff_of_false (Ty.ne_void_of_holdsValues (Ty.ofDesc_holdsValues described)) ?_
        rintro rfl
        cases isResult
    · obtain ⟨described, inFunction, rfl⟩ := List.mem_map.1 inParameters
      exact ((closed strict).1 described inFunction).1
    · exact names_of_knows (closed strict).1 areNames
    · rw [hasResult]
      intro hasValue
      cases isSome : function.result with
      | none =>
        rw [isSome] at hasValue
        exact absurd rfl hasValue
      | some described =>
        rw [isSome] at isResult
        obtain ⟨defined, named⟩ := (closed strict).2 described isSome
        refine ⟨defined, ?_⟩
        cases result with
        | none => cases isResult
        | some name => exact congrArg some (Option.some.inj ((Option.some.inj isResult).symm.trans named))

/-- The candidates of methods of the program. -/
theorem compiledCandidates_meet {context : BodyContext} (describes : context.Describes typing)
    {methods : List (Nat × MethodHeader)}
    (inContext : ∀ method ∈ methods, context.methods.toList[method.1]? = some method.2) :
    ∀ candidate ∈ Check.compiledCandidates methods, candidate.Meets typing none := by
  intro candidate inCandidates
  obtain ⟨⟨index, header⟩, inMethods, rfl⟩ := List.mem_map.1 inCandidates
  have found : context.methods.toList[index]? = some header := inContext _ inMethods
  have member : header ∈ context.methods.toList := List.mem_of_getElem? found
  refine ⟨fun parameter inParameters => ?_, describes.results header member, ⟨header.parameters, header.result⟩,
    ?_, rfl, rfl⟩
  · obtain ⟨typed, inHeader, rfl⟩ := List.mem_map.1 inParameters
    exact describes.parameters header member typed inHeader
  · rw [describes.methods, List.getElem?_map, found]
    rfl

end Candidate

end Snippet
