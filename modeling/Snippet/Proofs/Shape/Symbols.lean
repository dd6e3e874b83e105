import Snippet.Proofs.Emit.Characters
import Snippet.Proofs.Image.Codec
import Snippet.Proofs.Shape.Compilation
import Snippet.Proofs.Typing.Declared

/-!
The entry points of a source text. Main statement: what is found in a loaded image under the names of a namespace, a
class and a method is the first public static method that the text declares under them.
-/

namespace Snippet

/-! ### Declared methods -/

/-- The methods of classes with the positions of their classes, counted from a number on. -/
def ownedMethods (start : Nat) : List (List MethodDecl) → List (Nat × MethodDecl)
  | [] => []
  | first :: rest => first.map (start, ·) ++ ownedMethods (start + 1) rest

/-- The methods of a source text in order, each with the position of its class. -/
def CompilationUnit.methods (unit : CompilationUnit) : List (Nat × MethodDecl) :=
  ownedMethods 0 (unit.classes.map (·.decl.methods))

/-- Whether a method is declared as a public static one of a name. -/
def MethodDecl.isEntry (name : String) (decl : MethodDecl) : Bool :=
  decl.name == name && decl.modifiers.isPublic && decl.modifiers.isStatic

theorem MethodDecl.isEntry_iff {name : String} {decl : MethodDecl} : decl.isEntry name = true ↔
    decl.name = name ∧ decl.modifiers.isPublic = true ∧ decl.modifiers.isStatic = true := by
  rw [isEntry, Bool.and_eq_true, Bool.and_eq_true, beq_iff_eq, and_assoc]

/-! ### Headers -/

/-- Whether a header repeats the declaration of a method of a class: its names, its modifiers, and the types as they are
written there. -/
structure MethodHeader.Repeats (header : MethodHeader) (environment : Environment) (owner : Nat) (decl : MethodDecl) :
    Prop where
  declares : header.Declares owner decl
  isStatic : decl.modifiers.isStatic = true
  parameters : List.Forall₂ (fun (found : TypedParameter) (written : Parameter) => found.name = written.name ∧
    found.mode = written.mode ∧ environment.resolveType owner .parameter written.type = .ok found.type)
    header.parameters decl.parameters
  result : match decl.result with
    | none => header.result = .void
    | some written => environment.resolveType owner .result written = .ok header.result ∧ header.result ≠ .void

namespace Environment

variable {environment : Environment} {owner : Nat} {earlier : Array MethodHeader} {decl : MethodDecl}
  {header : MethodHeader}

theorem parameters_repeat {written : List Parameter} {seen : List String} {found : List TypedParameter}
    (isFound : environment.parameters owner seen written = .ok found) :
    List.Forall₂ (fun (found : TypedParameter) (written : Parameter) => found.name = written.name ∧
      found.mode = written.mode ∧ environment.resolveType owner .parameter written.type = .ok found.type)
      found written := by
  induction written generalizing seen found with
  | nil =>
      cases isFound
      exact .nil
  | cons first rest ih =>
      rw [parameters] at isFound
      split_ifs at isFound
      · cases isFound
      · obtain ⟨type, isType, isFound⟩ := of_bind_eq_ok isFound
        obtain ⟨others, areOthers, isFound⟩ := of_bind_eq_ok isFound
        cases isFound
        exact .cons ⟨rfl, rfl, isType⟩ (ih areOthers)

/-- A header repeats the declaration that it is made of. -/
theorem header_repeats (isHeader : environment.header owner earlier decl = .ok header) :
    header.Repeats environment owner decl := by
  unfold Environment.header at isHeader
  dsimp only at isHeader
  split at isHeader
  · cases isHeader
  · next isStatic =>
    split at isHeader
    · cases isHeader
    · have isStatic : decl.modifiers.isStatic = true := by simpa using isStatic
      split at isHeader
      · next written isWritten =>
        obtain ⟨result, isResult, isHeader⟩ := of_bind_eq_ok isHeader
        obtain ⟨declares, sameResult, areParameters⟩ := headerWith_ok isHeader
        refine ⟨declares, isStatic, parameters_repeat areParameters, ?_⟩
        have resolves := resolveType_named (show (Typing.mk environment.libraries [] [] .void).libraries = _ from rfl)
          owner .result written
        rw [isResult] at resolves
        rw [isWritten, sameResult]
        exact ⟨isResult, Ty.ne_void_of_holdsValues resolves.holds⟩
      · next isVoid =>
        obtain ⟨declares, sameResult, areParameters⟩ := headerWith_ok isHeader
        refine ⟨declares, isStatic, parameters_repeat areParameters, ?_⟩
        rw [isVoid]
        exact sameResult

theorem header_isError {finding : Finding} (isError : environment.header owner earlier decl = .error finding) :
    finding.isError = true := by
  let typing : Typing := ⟨environment.libraries, [], [], .void⟩
  have resolves := environment.header_resolves (show typing.libraries = environment.libraries from rfl) owner earlier
    decl
  rw [isError] at resolves
  exact resolves

/-- Unless there is an error, every method of a class has a header behind the earlier ones. -/
theorem classHeaders_repeat (methods : List MethodDecl) (state : Array MethodHeader × List Finding)
    (noError : ∀ finding ∈ (environment.classHeaders owner state methods).2, finding.isError = false) :
    ∃ added, (environment.classHeaders owner state methods).1.toList = state.1.toList ++ added ∧
      List.Forall₂ (fun (header : MethodHeader) decl => header.Repeats environment owner decl) added methods := by
  induction methods generalizing state with
  | nil => exact ⟨[], (List.append_nil _).symm, .nil⟩
  | cons decl rest ih =>
      have step : environment.classHeaders owner state (decl :: rest) =
          environment.classHeaders owner (environment.classHeaders owner state [decl]) rest := rfl
      rw [step] at noError ⊢
      cases isHeader : environment.header owner state.1 decl with
      | error finding =>
        have first : environment.classHeaders owner state [decl] = (state.1, state.2 ++ [finding]) := by
          simp only [classHeaders, List.foldl_cons, List.foldl_nil, isHeader]
        have isError := noError finding ((classHeaders_extends owner _ rest).2.subset (by simp [first]))
        rw [header_isError isHeader] at isError
        cases isError
      | ok header =>
        have first : environment.classHeaders owner state [decl] = (state.1.push header, state.2) := by
          simp only [classHeaders, List.foldl_cons, List.foldl_nil, isHeader]
        rw [first] at noError ⊢
        obtain ⟨added, areAdded, addedRepeat⟩ := ih _ noError
        refine ⟨header :: added, ?_, .cons (header_repeats isHeader) addedRepeat⟩
        rw [areAdded, Array.toList_push, List.append_assoc]
        rfl

/-- Unless there is an error, every method has a header, class by class. -/
theorem headers_repeat (methods : List (List MethodDecl))
    (noError : ∀ finding ∈ (environment.headers methods).2, finding.isError = false) :
    List.Forall₂ (fun (header : MethodHeader) (entry : Nat × MethodDecl) => header.Repeats environment entry.1 entry.2)
      (environment.headers methods).1.toList (ownedMethods 0 methods) := by
  let go (entries : List (List MethodDecl × Nat)) (state : Array MethodHeader × List Finding) :=
    entries.foldl (fun state entry => environment.classHeaders entry.2 state entry.1) state
  have behind (methods : List (List MethodDecl)) (start : Nat) (state : Array MethodHeader × List Finding)
      (noError : ∀ finding ∈ (go (methods.zipIdx start) state).2, finding.isError = false) :
      ∃ added, (go (methods.zipIdx start) state).1.toList = state.1.toList ++ added ∧
        List.Forall₂ (fun (header : MethodHeader) (entry : Nat × MethodDecl) =>
          header.Repeats environment entry.1 entry.2) added (ownedMethods start methods) := by
    induction methods generalizing start state with
    | nil => exact ⟨[], (List.append_nil _).symm, .nil⟩
    | cons first rest ih =>
        have step : go ((first :: rest).zipIdx start) state =
            go (rest.zipIdx (start + 1)) (environment.classHeaders start state first) := rfl
        rw [step] at noError ⊢
        have grown : Extends (environment.classHeaders start state first)
            (go (rest.zipIdx (start + 1)) (environment.classHeaders start state first)) :=
          List.foldlRecOn (motive := Extends _) _ _ (.refl _) fun middle grown entry _ =>
            grown.trans (classHeaders_extends entry.2 middle entry.1)
        obtain ⟨added, areAdded, addedRepeat⟩ :=
          classHeaders_repeat first state fun finding member => noError finding (grown.2.subset member)
        obtain ⟨others, areOthers, othersRepeat⟩ := ih (start + 1) _ noError
        refine ⟨added ++ others, by rw [areOthers, areAdded, List.append_assoc], ?_⟩
        have ownedRepeat : List.Forall₂ (fun (header : MethodHeader) (entry : Nat × MethodDecl) =>
            header.Repeats environment entry.1 entry.2) added (first.map (start, ·)) :=
          List.forall₂_map_right_iff.2 addedRepeat
        exact List.rel_append ownedRepeat othersRepeat
  obtain ⟨added, areAdded, addedRepeat⟩ := behind methods 0 (#[], []) noError
  rw [show (environment.headers methods).1.toList = added from areAdded]
  exact addedRepeat

end Environment

/-! ### Tables -/

/-- Whether a signature repeats the declaration of a method of a class: the names and the modes of the parameters, and
the full names of the types that are written there. -/
structure MethodSignature.Repeats (signature : MethodSignature) (environment : Environment) (owner : Nat)
    (decl : MethodDecl) : Prop where
  parameters : List.Forall₂ (fun (found : SignatureParameter) (written : Parameter) => found.name = written.name ∧
    found.mode = written.mode ∧ ∃ type, environment.resolveType owner .parameter written.type = .ok type ∧
      found.typeName = type.fullName) signature.parameters decl.parameters
  result : match decl.result with
    | none => signature.result = none
    | some written => ∃ type, environment.resolveType owner .result written = .ok type ∧
        signature.result = some type.fullName

/-- Whether a method of an image repeats the declaration of a method of the class at a position. -/
structure MethodImage.Repeats (method : MethodImage) (environment : Environment) (position : Nat) (decl : MethodDecl) :
    Prop where
  name : method.name = decl.name
  owner : method.owner = .ofNat position
  isPublic : method.isPublic = decl.modifiers.isPublic
  isStatic : method.isStatic = decl.modifiers.isStatic
  signature : method.signature.Repeats environment position decl

/-- The method of a header repeats its declaration. -/
theorem MethodHeader.Repeats.toImage {header : MethodHeader} {environment : Environment} {position : Nat}
    {decl : MethodDecl} (repeats : header.Repeats environment position decl) {methods : Array MethodHeader}
    {compiled : MethodImage} (heads : (header.check environment methods).1.Heads compiled) :
    compiled.Repeats environment position decl where
  name := heads.name.trans repeats.declares.name
  owner := heads.owner.trans (congrArg UInt32.ofNat repeats.declares.owner)
  isPublic := heads.isPublic.trans (congrArg Modifiers.isPublic repeats.declares.modifiers)
  isStatic := heads.isStatic.trans repeats.isStatic.symm
  signature := by
    have sameResult : (header.check environment methods).1.result = header.result := rfl
    rw [heads.signature]
    refine ⟨?_, ?_⟩
    · show List.Forall₂ _ (header.parameters.map _) decl.parameters
      refine List.forall₂_map_left_iff.2 (repeats.parameters.imp fun found written same => ?_)
      exact ⟨same.1, same.2.1, found.type, same.2.2, rfl⟩
    · have result := repeats.result
      unfold TypedMethod.signature
      rw [sameResult]
      cases isWritten : decl.result with
      | none =>
        rw [isWritten] at result
        rw [show header.result = .void from result]
      | some written =>
        rw [isWritten] at result
        refine ⟨header.result, result.1, ?_⟩
        dsimp only
        split
        · next isVoid => exact absurd isVoid result.2
        · rfl

/-- Whether the tables of an image are those of a source text: they list its classes in order, and each class with the
methods that the text declares in it. -/
structure Image.Lists (image : Image) (environment : Environment) (unit : CompilationUnit) : Prop where
  classes : image.classes.map (·.fullName) = unit.classes.map (·.fullName)
  methods : List.Forall₂ (fun (method : MethodImage) (entry : Nat × MethodDecl) =>
    method.Repeats environment entry.1 entry.2) image.methods unit.methods
  listed : ∀ {position : Nat} {type : ClassImage}, image.classes[position]? = some type →
    type.methods = ((unit.methods.zipIdx.filter (·.1.1 == position)).map (·.2)).map .ofNat
  small : image.methods.length ≤ UInt32.size

/-- Entries that are related pick the same positions. -/
theorem map_filter_zipIdx_of_forall₂ {α β : Type} {related : α → β → Prop} {first : List α} {second : List β}
    (both : List.Forall₂ related first second) {choose : α → Bool} {choose' : β → Bool}
    (same : ∀ {entry other}, related entry other → choose entry = choose' other) (start : Nat) :
    ((first.zipIdx start).filter (choose ·.1)).map (·.2) = ((second.zipIdx start).filter (choose' ·.1)).map (·.2) := by
  induction both generalizing start with
  | nil => rfl
  | cons head _ ih =>
      rw [List.zipIdx_cons, List.zipIdx_cons, List.filter_cons, List.filter_cons, same head]
      dsimp only
      split
      · rw [List.map_cons, List.map_cons, ih]
      · exact ih _

/-- Entries that are related to the same ones are related to each other. -/
theorem forall₂_of_common {α β γ : Type} {left : α → β → Prop} {right : α → γ → Prop} {both : β → γ → Prop}
    (meets : ∀ {shared entry other}, left shared entry → right shared other → both entry other) {shared : List α}
    {first : List β} {second : List γ} (lefts : List.Forall₂ left shared first)
    (rights : List.Forall₂ right shared second) : List.Forall₂ both first second := by
  induction lefts generalizing second with
  | nil =>
      cases rights
      exact .nil
  | cons head _ ih =>
      cases rights with
      | cons head' tail' => exact .cons (meets head head') (ih tail')

/-- The image of a source text without errors has the tables of the text. -/
theorem CompilationUnit.toImage_lists {unit : CompilationUnit} {libraries : LibrarySet}
    (noError : ∀ finding ∈ (unit.check libraries).findings, finding.isError = false) {moduleName : String}
    {image : Image} (done : (unit.check libraries).program.toImage moduleName = .ok image) :
    image.Lists ((Collected.ofUnit unit).environment libraries) unit := by
  let collected := Collected.ofUnit unit
  let environment := collected.environment libraries
  let headers := environment.headers collected.methods.toList
  have isFound {finding : Finding} (member : finding ∈ collected.findings ∨ finding ∈ headers.2) :
      finding.isError = false := by
    refine noError finding ((List.mergeSort_perm _ _).mem_iff.2 (List.mem_append_left _ ?_))
    rcases member with member | member
    · exact List.mem_append_left _ (List.mem_append_left _ member)
    · exact List.mem_append_right _ member
  obtain ⟨classes, methods⟩ := Collected.ofUnit_lists fun finding member => isFound (.inl member)
  have headersRepeat : List.Forall₂ (fun (header : MethodHeader) (entry : Nat × MethodDecl) =>
      header.Repeats environment entry.1 entry.2) headers.1.toList unit.methods := by
    rw [CompilationUnit.methods, ← methods]
    exact environment.headers_repeat _ fun finding member => isFound (.inr member)
  have compiles := compilesTo noError done
  obtain ⟨-, isClasses, heads, -⟩ := TypedProgram.toImage_imports compiles.fits done
  have isProgram : (unit.check libraries).program.methods =
      headers.1.toList.map fun header => (header.check environment headers.1).1 := List.map_map ..
  have typed : (unit.check libraries).program.classes =
      collected.classes.toList.zipIdx.map fun entry => entry.1.typed entry.2 headers.1 := rfl
  refine ⟨?_, ?_, ?_, ?_⟩
  · have names (entries : List (ClassInfo × Nat)) :
        ((entries.map fun entry => entry.1.typed entry.2 headers.1).map TypedClass.toImage).map (·.fullName) =
          (entries.map (·.1)).map (·.fullName) := by
      rw [List.map_map, List.map_map, List.map_map]
      rfl
    rw [isClasses, typed, names, List.zipIdx_map_fst]
    exact classes
  · rw [isProgram, List.forall₂_map_left_iff] at heads
    refine forall₂_of_common ?_ heads headersRepeat
    exact fun heads repeats => repeats.toImage heads
  · intro position type isType
    rw [isClasses, typed, List.map_map, List.getElem?_map, List.getElem?_zipIdx] at isType
    obtain ⟨⟨info, index⟩, isInfo, rfl⟩ := Option.map_eq_some_iff.1 isType
    obtain ⟨info', -, isEntry⟩ := Option.map_eq_some_iff.1 isInfo
    obtain rfl : position = index := (Nat.zero_add position).symm.trans (congrArg Prod.snd isEntry)
    refine congrArg (List.map UInt32.ofNat) ?_
    exact map_filter_zipIdx_of_forall₂ headersRepeat
      (fun repeats => congrArg (· == position) repeats.declares.owner) 0
  · rw [compiles.length_methods]
    exact compiles.count

/-! ### Methods of a class -/

/-- The number of methods of the classes before a position. -/
def CompilationUnit.methodsBefore (unit : CompilationUnit) (position : Nat) : Nat :=
  ((unit.classes.take position).map (·.decl.methods)).flatten.length

/-- The methods of a class stand together, behind those of the classes before it. -/
theorem ownedMethods_split {methods : List (List MethodDecl)} {position : Nat} {decls : List MethodDecl}
    (isClass : methods[position]? = some decls) (start : Nat) :
    ∃ before after, ownedMethods start methods = before ++ (decls.map (start + position, ·) ++ after) ∧
      before.length = (methods.take position).flatten.length ∧
      (∀ entry ∈ before, entry.1 ≠ start + position) ∧ ∀ entry ∈ after, entry.1 ≠ start + position := by
  have later (methods : List (List MethodDecl)) (start : Nat) {entry : Nat × MethodDecl}
      (member : entry ∈ ownedMethods start methods) : start ≤ entry.1 := by
    induction methods generalizing start with
    | nil => cases member
    | cons first rest ih =>
        rcases List.mem_append.1 member with member | member
        · obtain ⟨decl, -, rfl⟩ := List.mem_map.1 member
          exact Nat.le_refl start
        · exact Nat.le_of_succ_le (ih (start + 1) member)
  induction methods generalizing position start with
  | nil => cases isClass
  | cons first rest ih =>
      cases position with
      | zero =>
        obtain rfl : first = decls := Option.some.inj isClass
        refine ⟨[], ownedMethods (start + 1) rest, rfl, rfl, nofun, fun entry member => ?_⟩
        exact Nat.ne_of_gt (later rest (start + 1) member)
      | succ position =>
        obtain ⟨before, after, split, length, others, others'⟩ := ih isClass (start + 1)
        have same : start + 1 + position = start + (position + 1) := Nat.succ_add_eq_add_succ start position
        rw [same] at split others others'
        refine ⟨first.map (start, ·) ++ before, after, ?_, ?_, fun entry member => ?_, others'⟩
        · rw [ownedMethods, split, List.append_assoc]
        · rw [List.length_append, List.length_map, length, List.take_succ_cons, List.flatten_cons, List.length_append]
        · rcases List.mem_append.1 member with member | member
          · obtain ⟨decl, -, rfl⟩ := List.mem_map.1 member
            dsimp only
            omega
          · exact others entry member

/-- The positions of the methods of a class follow each other. -/
theorem CompilationUnit.positions_eq {unit : CompilationUnit} {position : Nat} {type : DeclaredClass}
    (isClass : unit.classes[position]? = some type) :
    (unit.methods.zipIdx.filter (·.1.1 == position)).map (·.2) =
        List.range' (unit.methodsBefore position) type.decl.methods.length ∧
      ∀ {index : Nat} {decl : MethodDecl}, type.decl.methods[index]? = some decl →
        unit.methods[unit.methodsBefore position + index]? = some (position, decl) := by
  have areMethods : (unit.classes.map (·.decl.methods))[position]? = some type.decl.methods := by
    rw [List.getElem?_map, isClass, Option.map_some]
  obtain ⟨before, after, split, length, others, others'⟩ := ownedMethods_split areMethods 0
  rw [Nat.zero_add] at split others others'
  have length : before.length = unit.methodsBefore position := by
    rw [length, ← List.map_take]
    rfl
  have none (entries : List (Nat × MethodDecl)) (others : ∀ entry ∈ entries, entry.1 ≠ position) (start : Nat) :
      (entries.zipIdx start).filter (·.1.1 == position) = [] := by
    refine List.filter_eq_nil_iff.2 fun entry member isOwn => ?_
    exact others entry.1 (List.fst_mem_of_mem_zipIdx member) (beq_iff_eq.1 isOwn)
  have all : ((type.decl.methods.map (position, ·)).zipIdx before.length).filter (·.1.1 == position) =
      (type.decl.methods.map (position, ·)).zipIdx before.length := by
    refine List.filter_eq_self.2 fun entry member => ?_
    obtain ⟨decl, -, isEntry⟩ := List.mem_map.1 (List.fst_mem_of_mem_zipIdx member)
    exact beq_iff_eq.2 (congrArg Prod.fst isEntry).symm
  constructor
  · rw [methods, split, List.zipIdx_append, List.zipIdx_append, List.filter_append, List.filter_append,
      none before others, none after others', Nat.zero_add, all, List.nil_append, List.append_nil, List.zipIdx_map_snd,
      List.length_map, length]
  · intro index decl isDecl
    rw [methods, split, ← length, List.getElem?_append_right (Nat.le_add_right _ _), Nat.add_sub_cancel_left,
      List.getElem?_append_left, List.getElem?_map, isDecl, Option.map_some]
    rw [List.length_map]
    exact (List.getElem?_eq_some_iff.1 isDecl).1

/-- Every method is one of a class. -/
theorem exists_class_of_mem_ownedMethods {methods : List (List MethodDecl)} {start : Nat} {entry : Nat × MethodDecl}
    (member : entry ∈ ownedMethods start methods) :
    ∃ position decls, entry.1 = start + position ∧ methods[position]? = some decls ∧ entry.2 ∈ decls := by
  induction methods generalizing start with
  | nil => cases member
  | cons first rest ih =>
      rcases List.mem_append.1 member with member | member
      · obtain ⟨decl, inFirst, rfl⟩ := List.mem_map.1 member
        exact ⟨0, first, rfl, rfl, inFirst⟩
      · obtain ⟨position, decls, isPosition, isClass, isDecl⟩ := ih member
        exact ⟨position + 1, decls, isPosition.trans (Nat.succ_add_eq_add_succ start position), isClass, isDecl⟩

/-! ### Searching -/

/-- The first position with a property, among the numbers that follow a start. -/
theorem find?_range' {α : Type} {entries : List α} {start : Nat} {choose : Nat → Bool} (wanted : α → Bool)
    (same : ∀ (index : Nat) (entry : α), entries[index]? = some entry → choose (start + index) = wanted entry) :
    (List.range' start entries.length).find? choose = (entries.findIdx? wanted).map (start + ·) := by
  induction entries generalizing start with
  | nil => rfl
  | cons first rest ih =>
      have isFirst : choose start = wanted first := same 0 first rfl
      rw [List.length_cons, List.range'_succ, List.find?_cons, List.findIdx?_cons, isFirst]
      cases wanted first with
      | true => rfl
      | false =>
        have others (index : Nat) (entry : α) (isEntry : rest[index]? = some entry) :
            choose (start + 1 + index) = wanted entry := by
          rw [Nat.succ_add_eq_add_succ]
          exact same (index + 1) entry isEntry
        rw [ih others, if_neg Bool.false_ne_true, Option.map_map]
        exact congrArg (Option.map · _) (funext fun index => Nat.succ_add_eq_add_succ start index)

namespace Image.Lists

variable {image : Image} {environment : Environment} {unit : CompilationUnit}

/-- The number of a method is told apart from those of the other ones. -/
theorem toNat_ofNat (lists : image.Lists environment unit) {index : Nat} {entry : Nat × MethodDecl}
    (isEntry : unit.methods[index]? = some entry) : (UInt32.ofNat index).toNat = index := by
  have inside := (List.getElem?_eq_some_iff.1 isEntry).1
  rw [← lists.methods.length_eq] at inside
  exact Nat.mod_eq_of_lt (Nat.lt_of_lt_of_le inside lists.small)

/-- A method of an image repeats the one at its position in the text. -/
theorem method_repeats (lists : image.Lists environment unit) {index : Nat} {entry : Nat × MethodDecl}
    (isEntry : unit.methods[index]? = some entry) :
    ∃ method, image.methods[index]? = some method ∧ method.Repeats environment entry.1 entry.2 := by
  obtain ⟨inside, isEntry⟩ := List.getElem?_eq_some_iff.1 isEntry
  have inside' := inside
  rw [← lists.methods.length_eq] at inside'
  refine ⟨_, List.getElem?_eq_getElem inside', ?_⟩
  have repeats := lists.methods.get inside' inside
  rw [List.get_eq_getElem, List.get_eq_getElem, isEntry] at repeats
  exact repeats

/-- A class of an image has the full name of the one at its position in the text. -/
theorem class_fullName (lists : image.Lists environment unit) {position : Nat} {type : DeclaredClass}
    (isClass : unit.classes[position]? = some type) :
    ∃ found, image.classes[position]? = some found ∧ found.fullName = type.fullName := by
  have sameName : (image.classes.map (·.fullName))[position]? = some type.fullName := by
    rw [lists.classes, List.getElem?_map, isClass, Option.map_some]
  rw [List.getElem?_map] at sameName
  exact Option.map_eq_some_iff.1 sameName

/-- The class of a full name is the one that is declared under it. -/
theorem findClass?_eq (lists : image.Lists environment unit) (distinct : (unit.classes.map (·.fullName)).Nodup)
    {module : Module} (isImage : module.image = image) {position : Nat} {type : DeclaredClass}
    (isClass : unit.classes[position]? = some type) :
    ∃ found, module.findClass? type.fullName = some found ∧ image.classes[position]? = some found := by
  obtain ⟨found, isFound, sameName⟩ := lists.class_fullName isClass
  refine ⟨found, ?_, isFound⟩
  rw [← lists.classes] at distinct
  obtain ⟨inside, isFound⟩ := List.getElem?_eq_some_iff.1 isFound
  rw [Module.findClass?, isImage, List.find?_eq_some_iff_getElem]
  refine ⟨beq_iff_eq.2 sameName, position, inside, isFound, fun earlier before => ?_⟩
  have inside' : earlier < image.classes.length := Nat.lt_trans before inside
  have differ := List.pairwise_iff_getElem.1 (List.pairwise_map.1 distinct) earlier position inside' inside before
  rw [isFound, sameName] at differ
  rw [beq_eq_false_iff_ne.2 differ]
  rfl

/-- No class of an image has a full name under which none is declared. -/
theorem findClass?_eq_none (lists : image.Lists environment unit) {module : Module} (isImage : module.image = image)
    {fullName : String} (undeclared : ∀ type ∈ unit.classes, type.fullName ≠ fullName) :
    module.findClass? fullName = none := by
  rw [Module.findClass?, isImage, List.find?_eq_none]
  intro found member isNamed
  have inNames : found.fullName ∈ image.classes.map (·.fullName) := List.mem_map_of_mem member
  rw [lists.classes] at inNames
  obtain ⟨type, inClasses, sameName⟩ := List.mem_map.1 inNames
  exact undeclared type inClasses (sameName.trans (beq_iff_eq.1 isNamed))

/-- The first public static method of a name in a class is the first one that is declared as such. -/
theorem findMethod?_eq (lists : image.Lists environment unit) {module : Module} (isImage : module.image = image)
    {position : Nat} {type : DeclaredClass} (isClass : unit.classes[position]? = some type) {found : ClassImage}
    (isFound : image.classes[position]? = some found) (name : String) :
    module.findMethod? found name = (type.decl.methods.findIdx? (·.isEntry name)).map fun index =>
      .ofNat (unit.methodsBefore position + index) := by
  obtain ⟨positions, areOwn⟩ := CompilationUnit.positions_eq isClass
  rw [Module.findMethod?, lists.listed isFound, positions, List.find?_map, find?_range' (·.isEntry name),
    Option.map_map]
  · rfl
  · intro index decl isDecl
    obtain ⟨method, isMethod, repeats⟩ := lists.method_repeats (areOwn isDecl)
    show (module.method? (.ofNat (unit.methodsBefore position + index))).any _ = _
    rw [Module.method?, isImage, lists.toNat_ofNat (areOwn isDecl), isMethod, Option.any_some, repeats.name,
      repeats.isPublic, repeats.isStatic]
    rfl

end Image.Lists

/-! ### Entry points -/

/-- Whether every method of an image repeats one that a source text declares, and is listed once, by the class in which
it is declared. -/
def Image.ListsOnce (image : Image) (environment : Environment) (unit : CompilationUnit) : Prop :=
  ∀ {index : Nat} {method : MethodImage}, image.methods[index]? = some method →
    ∃ (owner : Nat) (type : DeclaredClass) (decl : MethodDecl), unit.classes[owner]? = some type ∧
      decl ∈ type.decl.methods ∧ method.Repeats environment owner decl ∧
      ∀ {position : Nat} {found : ClassImage}, image.classes[position]? = some found →
        found.methods.count (.ofNat index) = if position = owner then 1 else 0

/-- What a module with the tables of a source text finds under the names of a namespace, a class and a method: the first
public static method of the name that the text declares in the class of the full name. -/
structure Module.Resolves (module : Module) (environment : Environment) (unit : CompilationUnit)
    (space className methodName : String) : Prop where
  /-- There is an entry point exactly if the text declares one. -/
  iff : (∃ entry, module.resolve space className methodName = .ok entry) ↔
    ∃ type ∈ unit.classes, type.fullName = classFullName space className ∧
      ∃ decl ∈ type.decl.methods, decl.name = methodName ∧ decl.modifiers.isPublic = true ∧
        decl.modifiers.isStatic = true
  noClass : (∀ type ∈ unit.classes, type.fullName ≠ classFullName space className) →
    module.resolve space className methodName = .error (.classNotFound className (classFullName space className))
  inClass : ∀ {position : Nat} {type : DeclaredClass}, unit.classes[position]? = some type →
    type.fullName = classFullName space className →
    match type.decl.methods.findIdx? (·.isEntry methodName) with
    | none => module.resolve space className methodName = .error (.methodNotFound methodName className)
    | some first => ∃ decl signature, type.decl.methods[first]? = some decl ∧
        signature.Repeats environment position decl ∧
        module.resolve space className methodName = .ok
          ⟨space, className, methodName, module, .ofNat (unit.methodsBefore position + first), signature⟩

namespace Image.Lists

variable {image : Image} {environment : Environment} {unit : CompilationUnit}

/-- Every method is listed once, by the class in which it is declared. -/
theorem listsOnce (lists : image.Lists environment unit) : image.ListsOnce environment unit := by
  intro index method isMethod
  obtain ⟨inside, isMethod⟩ := List.getElem?_eq_some_iff.1 isMethod
  have inside' := inside
  rw [lists.methods.length_eq] at inside'
  have repeats := lists.methods.get inside inside'
  rw [List.get_eq_getElem, List.get_eq_getElem, isMethod] at repeats
  have isEntry := List.getElem?_eq_getElem inside'
  obtain ⟨owner, decls, isOwner, isClass, isDecl⟩ := exists_class_of_mem_ownedMethods (List.getElem_mem inside')
  rw [Nat.zero_add] at isOwner
  rw [List.getElem?_map] at isClass
  obtain ⟨type, isType, rfl⟩ := Option.map_eq_some_iff.1 isClass
  refine ⟨owner, type, _, isType, isDecl, isOwner ▸ repeats, fun {position found} isFound => ?_⟩
  let positions := (unit.methods.zipIdx.filter (·.1.1 == position)).map (·.2)
  have isListed {other : Nat} : other ∈ positions ↔
      ∃ entry, unit.methods[other]? = some entry ∧ entry.1 = position := by
    constructor
    · intro member
      obtain ⟨⟨entry, _⟩, isChosen, rfl⟩ := List.mem_map.1 member
      obtain ⟨inZip, isOwn⟩ := List.mem_filter.1 isChosen
      exact ⟨entry, List.mem_zipIdx_iff_getElem?.1 inZip, beq_iff_eq.1 isOwn⟩
    · rintro ⟨entry, isEntry, isOwn⟩
      refine List.mem_map.2 ⟨(entry, other), List.mem_filter.2 ⟨?_, beq_iff_eq.2 isOwn⟩, rfl⟩
      exact List.mem_zipIdx_iff_getElem?.2 isEntry
  have differ {other other' : Nat} (member : other ∈ positions) (member' : other' ∈ positions)
      (distinct : other ≠ other') : UInt32.ofNat other ≠ UInt32.ofNat other' := by
    obtain ⟨_, isEntry, -⟩ := isListed.1 member
    obtain ⟨_, isEntry', -⟩ := isListed.1 member'
    intro same
    have same := congrArg UInt32.toNat same
    rw [lists.toNat_ofNat isEntry, lists.toNat_ofNat isEntry'] at same
    exact distinct same
  have nodup : positions.Nodup := by
    refine List.Nodup.sublist (List.filter_sublist.map _) ?_
    rw [List.zipIdx_map_snd]
    exact List.nodup_range' 1
  rw [lists.listed isFound, List.Nodup.count (List.pairwise_map.2 (nodup.imp_of_mem differ))]
  refine if_congr ?_ rfl rfl
  constructor
  · intro member
    obtain ⟨other, isOther, same⟩ := List.mem_map.1 member
    obtain ⟨entry, isEntry', isOwn⟩ := isListed.1 isOther
    have same := congrArg UInt32.toNat same
    rw [lists.toNat_ofNat isEntry', lists.toNat_ofNat isEntry] at same
    rw [same, isEntry] at isEntry'
    rw [← isOwn, ← isOwner, Option.some.inj isEntry']
  · rintro rfl
    exact List.mem_map_of_mem (isListed.2 ⟨_, isEntry, isOwner⟩)

/-- What is found under names is what the text declares under them. -/
theorem resolves (lists : image.Lists environment unit) (distinct : (unit.classes.map (·.fullName)).Nodup)
    {module : Module} (isImage : module.image = image) (space className methodName : String) :
    module.Resolves environment unit space className methodName := by
  have noClass (undeclared : ∀ type ∈ unit.classes, type.fullName ≠ classFullName space className) :
      module.resolve space className methodName =
        .error (.classNotFound className (classFullName space className)) := by
    rw [Module.resolve]
    dsimp only
    rw [lists.findClass?_eq_none isImage undeclared]
  have inClass {position : Nat} {type : DeclaredClass} (isClass : unit.classes[position]? = some type)
      (isNamed : type.fullName = classFullName space className) :
      match type.decl.methods.findIdx? (·.isEntry methodName) with
      | none => module.resolve space className methodName = .error (.methodNotFound methodName className)
      | some first => ∃ decl signature, type.decl.methods[first]? = some decl ∧
          signature.Repeats environment position decl ∧
          module.resolve space className methodName = .ok
            ⟨space, className, methodName, module, .ofNat (unit.methodsBefore position + first), signature⟩ := by
    obtain ⟨found, isFound, inImage⟩ := lists.findClass?_eq distinct isImage isClass
    rw [Module.resolve]
    dsimp only
    rw [← isNamed, isFound]
    dsimp only
    rw [lists.findMethod?_eq isImage isClass inImage]
    cases isFirst : type.decl.methods.findIdx? (·.isEntry methodName) with
    | none => rfl
    | some first =>
      obtain ⟨inside, -, -⟩ := List.findIdx?_eq_some_iff_getElem.1 isFirst
      have isDecl := List.getElem?_eq_getElem inside
      have isEntry := (CompilationUnit.positions_eq isClass).2 isDecl
      obtain ⟨method, isMethod, repeats⟩ := lists.method_repeats isEntry
      refine ⟨_, method.signature, isDecl, repeats.signature, ?_⟩
      have isFoundMethod : module.method? (.ofNat (unit.methodsBefore position + first)) = some method := by
        rw [Module.method?, isImage, lists.toNat_ofNat isEntry, isMethod]
      simp only [Option.map_some, Option.bind_eq_bind, Option.bind_some, isFoundMethod, Option.pure_def]
  refine ⟨⟨?_, ?_⟩, noClass, inClass⟩
  · rintro ⟨entry, isEntry⟩
    by_cases declared : ∃ type ∈ unit.classes, type.fullName = classFullName space className
    · obtain ⟨type, member, isNamed⟩ := declared
      obtain ⟨position, isClass⟩ := List.mem_iff_getElem?.1 member
      have found := inClass isClass isNamed
      split at found
      · cases found.symm.trans isEntry
      · next first isFirst =>
        obtain ⟨inside, isWanted, -⟩ := List.findIdx?_eq_some_iff_getElem.1 isFirst
        exact ⟨type, member, isNamed, _, List.getElem_mem inside, MethodDecl.isEntry_iff.1 isWanted⟩
    · have undeclared := noClass fun type member isNamed => declared ⟨type, member, isNamed⟩
      cases undeclared.symm.trans isEntry
  · rintro ⟨type, member, isNamed, decl, inType, isWanted⟩
    obtain ⟨position, isClass⟩ := List.mem_iff_getElem?.1 member
    have found := inClass isClass isNamed
    split at found
    · next isNone =>
      have isOther := List.findIdx?_eq_none_iff.1 isNone decl inType
      rw [MethodDecl.isEntry_iff.2 isWanted] at isOther
      cases isOther
    · obtain ⟨_, _, -, -, isFound⟩ := found
      exact ⟨_, isFound⟩

end Image.Lists

/-- A product that is loaded has been decoded. -/
theorem loadProduct_ok {diagnostics : List Diagnostic} {decoded : Except ImageFault Image} {libraries : LibrarySet}
    {maxDepth : Nat} {module : Module}
    (loaded : loadProduct diagnostics (some decoded) libraries maxDepth = .ok module) :
    ∃ image, decoded = .ok image ∧ Module.load image libraries maxDepth = .ok module := by
  unfold loadProduct at loaded
  split at loaded
  · split at loaded
    · next absent => cases absent
    · cases loaded
    · next image isImage =>
      cases isImage
      cases isModule : Module.load image libraries maxDepth with
      | error fault =>
        rw [isModule] at loaded
        cases loaded
      | ok found =>
        rw [isModule] at loaded
        cases loaded
        exact ⟨image, rfl, isModule⟩
  · cases loaded

/-- Whatever image is emitted for a source text, written and loaded again, its classes are those that the text declares,
with distinct full names; each method is listed once, by the class in which it is declared; and what is found under the
names of a namespace, a class and a method is what the text declares under them. -/
theorem emit_resolves {source moduleName : String} {libraries others : LibrarySet} {policy : WarningPolicy}
    {image : Image} (emitted : (emit source libraries policy moduleName).image = some image)
    {diagnostics : List Diagnostic} {maxDepth : Nat} {module : Module}
    (loaded : loadProduct diagnostics (some (Image.decodeText image.encode)) others maxDepth = .ok module) :
    ∃ unit environment, CompilationUnit.ofSource source = .ok unit ∧
      environment = (Collected.ofUnit unit).environment libraries ∧
      module.image.classes.map (·.fullName) = unit.classes.map (·.fullName) ∧
      (module.image.classes.map (·.fullName)).Nodup ∧
      module.image.ListsOnce environment unit ∧
      ∀ space className methodName, module.Resolves environment unit space className methodName := by
  obtain ⟨unit, isUnit, noError, -, done⟩ := exists_unit_of_emit emitted
  obtain ⟨current, -⟩ := TypedProgram.toImage_imports (CompilationUnit.compilesTo noError done).fits done
  obtain ⟨read, isRead, loaded⟩ := loadProduct_ok loaded
  rw [Image.decodeText_encode, if_pos current] at isRead
  cases isRead
  have isImage := Module.load_image loaded
  have lists := CompilationUnit.toImage_lists noError done
  have distinct : (unit.classes.map (·.fullName)).Nodup := by
    refine Collected.nodup_fullNames (CompilationUnit.isPlain_of_ofSource isUnit) fun finding member => ?_
    refine noError finding ((List.mergeSort_perm _ _).mem_iff.2 ?_)
    exact List.mem_append_left _ (List.mem_append_left _ (List.mem_append_left _ member))
  refine ⟨unit, _, isUnit, rfl, ?_⟩
  rw [isImage, lists.classes]
  exact ⟨rfl, distinct, lists.listsOnce, lists.resolves distinct isImage⟩

/-- A source text with a class in a class, which has two methods of one name. -/
def hidingMethod : String :=
  "namespace N { class A { class B { static void M() { } public static int M(int x) { return x; } } } }"

/-- The image of the text with a class in a class. -/
def Image.hidingMethod : Image :=
  ⟨Image.currentVersion, "snippet", [], [], [], [⟨"N.A", false, false, []⟩, ⟨"N.A+B", false, false, [0, 1]⟩],
    [⟨"M", 1, false, true, ⟨[], none⟩, 0, [.giveBackNothing]⟩,
      ⟨"M", 1, true, true, ⟨[⟨"x", .value, TypeNames.int⟩], some TypeNames.int⟩, 1, [.load 0, .giveBack]⟩]⟩

/-- The public method of the class in a class is found, although one that is not public comes first. -/
theorem emit_resolves_hidingMethod :
    (Module.resolve ⟨.hidingMethod, [], 256⟩ "N" "A+B" "M").toOption.map (·.index) = some 1 ∧
    ∃ unit, CompilationUnit.ofSource hidingMethod = .ok unit ∧
      Module.Resolves ⟨.hidingMethod, [], 256⟩ ((Collected.ofUnit unit).environment .empty) unit "N" "A+B" "M" := by
  have emitted : (emit hidingMethod .empty .default "snippet").image = some .hidingMethod := by
    rw [hidingMethod, emit_ofList]
    decide +kernel
  have loaded : loadProduct [] (some (Image.decodeText Image.hidingMethod.encode)) .empty 256 =
      .ok ⟨.hidingMethod, [], 256⟩ := by
    rw [Image.decodeText_encode]
    rfl
  obtain ⟨unit, _, isUnit, rfl, -, -, -, resolves⟩ := emit_resolves emitted loaded
  exact ⟨rfl, unit, isUnit, resolves "N" "A+B" "M"⟩

end Snippet
