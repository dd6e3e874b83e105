import Snippet.Emit.Basic
import Snippet.Proofs.Emit.Characters
import Snippet.Proofs.Image.Codec
import Snippet.Proofs.Machine.Moves
import Snippet.Proofs.Typing.Collection

/-!
Linking: an image is loaded again with the libraries that its source text was checked against, unless
the program makes an object of a type that has none. Main statement: `emit_loads_iff`.
-/

namespace Snippet

/-! ### What a compiled program imports -/

/-- Whether the libraries have what an import names. A type that is found need not be one of objects. -/
def Import.Known (libraries : LibrarySet) : Import → Prop
  | .function wanted => wanted.Links libraries
  | .type name => libraries.Creates name

theorem Pool.mem_intern {α : Type} [DecidableEq α] {pool : Pool α} {entry other : α}
    (member : other ∈ (pool.intern entry).2.entries) : other ∈ pool.entries ∨ other = entry := by
  unfold intern at member
  split at member
  · exact .inl member
  · exact Array.mem_push.1 member

/-- Whether every import that has been needed is known to the libraries. -/
def EmitState.ImportsKnown (libraries : LibrarySet) (state : EmitState) : Prop :=
  ∀ entry ∈ state.imports.entries, entry.Known libraries

namespace Emit

/-- Whether a step of the compiler needs only imports that the libraries know. -/
def Imports {α : Type} (libraries : LibrarySet) (action : Emit α) : Prop :=
  ∀ before : EmitState, before.ImportsKnown libraries → (action.run before).2.ImportsKnown libraries

variable {libraries : LibrarySet}

theorem Imports.pure {α : Type} {value : α} : Imports libraries (pure value) := fun _ known => known

theorem Imports.bind {α β : Type} {first : Emit α} {next : α → Emit β} (head : Imports libraries first)
    (tail : ∀ value : α, Imports libraries (next value)) : Imports libraries (first >>= next) :=
  fun before known => tail (first.run before).1 _ (head before known)

theorem constant_imports (value : Constant) : Imports libraries (constant value) := fun _ known => known

theorem string_imports (value : String) : Imports libraries (string value) := fun _ known => known

theorem temporary_imports : Imports libraries temporary := fun _ known => known

theorem imported_imports {value : Import} (isKnown : value.Known libraries) :
    Imports libraries (imported value) := by
  intro before known entry member
  rcases Pool.mem_intern member with old | rfl
  · exact known entry old
  · exact isKnown

mutual

/-- An expression that keeps its promises needs only known imports. -/
theorem expression_imports {typing : Typing} (value : TypedExpr) (fits : value.Fits typing) (start : Nat) :
    Imports typing.libraries (expression start value) := by
  match value with
  | .mk content type _ =>
    rw [expression]
    exact node_imports content fits start

theorem node_imports {typing : Typing} {type : Ty} (content : TypedNode) (fits : content.Fits typing type)
    (start : Nat) : Imports typing.libraries (node start type content) := by
  match content with
  | .const value =>
    rw [node]
    exact .bind (constant_imports value) fun _ => .pure
  | .slot index =>
    rw [node]
    exact .pure
  | .field object name =>
    rw [node]
    exact .bind (expression_imports object fits.2.1 start) fun _ => .bind (string_imports name) fun _ => .pure
  | .assign (.slot index) value =>
    rw [node]
    exact .bind (expression_imports value fits.2.1 start) fun _ => .pure
  | .assign (.field object name) value =>
    obtain ⟨-, valueFits, -, ⟨objectFits, -⟩, -⟩ := fits
    rw [node]
    exact .bind (expression_imports object objectFits start) fun _ =>
      .bind (expression_imports value valueFits _) fun _ => .bind (string_imports name) fun _ => .pure
  | .update (.slot index) operation value =>
    rw [node]
    exact .bind (expression_imports value fits.2.1 _) fun _ => .pure
  | .update (.field object name) operation value =>
    obtain ⟨-, valueFits, -, ⟨objectFits, -⟩, -⟩ := fits
    rw [node]
    exact .bind (string_imports name) fun _ => .bind (expression_imports object objectFits start) fun _ =>
      .bind (expression_imports value valueFits _) fun _ => .pure
  | .step (.slot index) isIncrement isFront =>
    rw [node]
    exact .bind (constant_imports type.one) fun _ => .pure
  | .step (.field object name) isIncrement isFront =>
    obtain ⟨-, -, ⟨objectFits, -⟩, -⟩ := fits
    rw [node]
    refine .bind (string_imports name) fun _ => .bind (expression_imports object objectFits start) fun _ => ?_
    dsimp only
    split
    · exact .bind (constant_imports type.one) fun _ => .pure
    · exact .bind temporary_imports fun _ => .bind (constant_imports type.one) fun _ => .pure
  | .binary operation left right | .logical isAnd left right =>
    obtain ⟨-, leftFits, rightFits, -⟩ := fits
    rw [node]
    exact .bind (expression_imports left leftFits start) fun _ =>
      .bind (expression_imports right rightFits _) fun _ => .pure
  | .not operand | .negate operand | .convert (.numeric conversion) operand =>
    rw [node]
    exact .bind (expression_imports operand fits.2.1 start) fun _ => .pure
  | .conditional condition thenValue elseValue =>
    obtain ⟨-, testFits, thenFits, elseFits, -⟩ := fits
    rw [node]
    exact .bind (expression_imports condition testFits start) fun _ =>
      .bind (expression_imports thenValue thenFits _) fun _ =>
      .bind (expression_imports elseValue elseFits _) fun _ => .pure
  | .convert (.cast target) operand =>
    rw [node]
    exact .bind (expression_imports operand fits.2.1 start) fun _ => .bind (string_imports target) fun _ => .pure
  | .call method passed =>
    obtain ⟨signature, -, -, passedFit, -⟩ := fits
    rw [node]
    exact .bind (arguments_imports passed passedFit start) fun _ => .pure
  | .hostCall function passed =>
    obtain ⟨-, -, passedFit, links, -⟩ := fits
    rw [node]
    exact .bind (expressions_imports passed passedFit start) fun _ => .bind (imported_imports links) fun _ => .pure
  | .builtin member receiver passed =>
    obtain ⟨receiverFits, -, -, passedFit, -⟩ := fits
    rw [node]
    exact .bind (expression_imports receiver receiverFits start) fun _ =>
      .bind (expressions_imports passed passedFit _) fun _ => .pure
  | .newList element =>
    rw [node]
    exact .bind (string_imports element) fun _ => .pure
  | .newObject name =>
    rw [node]
    exact .bind (imported_imports fits.2.1) fun _ => .pure

theorem expressions_imports {typing : Typing} (values : List TypedExpr) (fits : TypedExpr.AllFit typing values)
    (start : Nat) : Imports typing.libraries (expressions start values) := by
  match values with
  | [] =>
    rw [expressions]
    exact .pure
  | first :: rest =>
    rw [expressions]
    exact .bind (expression_imports first fits.1 start) fun _ =>
      .bind (expressions_imports rest fits.2 _) fun _ => .pure

theorem arguments_imports {typing : Typing} {parameters : List TypedParameter} (passed : List TypedArgument)
    (fits : TypedArgument.AllFit typing parameters passed) (start : Nat) :
    Imports typing.libraries (arguments start passed) := by
  match passed, parameters with
  | [], _ =>
    rw [arguments]
    exact .pure
  | .mk mode value :: rest, [] => cases fits
  | .mk mode value :: rest, parameter :: parameters =>
    obtain ⟨-, valueFits, -, -, others⟩ := fits
    unfold arguments
    split
    · next isEmpty => cases isEmpty
    · next isArgument =>
      cases isArgument
      exact .bind (constant_imports _) fun _ => .bind (arguments_imports rest others _) fun _ => .pure
    · next isArgument =>
      cases isArgument
      exact .bind (expression_imports value valueFits start) fun _ =>
        .bind (arguments_imports rest others _) fun _ => .pure

end

section

variable {typing : Typing}

theorem effect_imports (value : TypedExpr) (fits : value.Fits typing) (start : Nat) :
    Imports typing.libraries (effect start value) := by
  unfold effect
  split
  · next assigned _ _ => exact .bind (expression_imports assigned fits.2.1 start) fun _ => .pure
  · next changed _ _ => exact .bind (expression_imports changed fits.2.1 _) fun _ => .pure
  · exact .bind (constant_imports _) fun _ => .pure
  · exact .bind (expression_imports value fits start) fun _ => .pure

theorem effects_imports (values : List TypedExpr) (fits : TypedExpr.AllFit typing values) (start : Nat) :
    Imports typing.libraries (effects start values) := by
  induction values generalizing start with
  | nil => exact .pure
  | cons first rest ih =>
      exact .bind (effect_imports first fits.1 start) fun _ => .bind (ih fits.2 _) fun _ => .pure

theorem optionalTest_imports (condition : Option TypedExpr) (fits : ∀ test ∈ condition, test.Fits typing)
    (start : Nat) : Imports typing.libraries (optionalTest start condition) := by
  cases condition with
  | none => exact .pure
  | some test => exact .bind (expression_imports test (fits test rfl) start) fun _ => .pure

end

mutual

/-- A statement that keeps its promises needs only known imports. -/
theorem statement_imports {typing : Typing} {isNested : Bool} (source : TypedStmt)
    (fits : source.Fits typing isNested) (start : Nat) :
    Imports typing.libraries (statement start source) := by
  match source with
  | .block body =>
    rw [statement]
    exact statements_imports body fits start
  | .evaluate value =>
    rw [statement]
    exact .bind (effect_imports value fits start) fun _ => .pure
  | .giveBack _ none | .leaveLoop | .nextRound =>
    rw [statement]
    exact .pure
  | .giveBack _ (some value) =>
    rw [statement]
    exact .bind (expression_imports value fits.2.1 start) fun _ => .pure
  | .branch condition thenBranch none =>
    rw [statement]
    exact .bind (expression_imports condition fits.1 start) fun _ =>
      .bind (statement_imports thenBranch fits.2.2 _) fun _ => .pure
  | .branch condition thenBranch (some elseBranch) =>
    obtain ⟨testFits, -, thenFits, elseFits⟩ := fits
    rw [statement]
    exact .bind (expression_imports condition testFits start) fun _ =>
      .bind (statement_imports thenBranch thenFits _) fun _ =>
      .bind (statement_imports elseBranch elseFits _) fun _ => .pure
  | .whileLoop condition body =>
    rw [statement]
    exact .bind (expression_imports condition fits.1 start) fun _ =>
      .bind (statement_imports body fits.2.2 _) fun _ => .pure
  | .forLoop first condition steps body =>
    obtain ⟨firstFits, testFits, stepsFit, bodyFits⟩ := fits
    rw [statement]
    exact .bind (statements_imports first firstFits start) fun _ =>
      .bind (optionalTest_imports condition (fun test isTest => (testFits test isTest).1) _) fun _ =>
      .bind (statement_imports body bodyFits _) fun _ => .bind (effects_imports steps stepsFit _) fun _ => .pure

theorem statements_imports {typing : Typing} {isNested : Bool} (sources : List TypedStmt)
    (fits : TypedStmt.AllFit typing isNested sources) (start : Nat) :
    Imports typing.libraries (statements start sources) := by
  match sources with
  | [] =>
    rw [statements]
    exact .pure
  | first :: rest =>
    rw [statements]
    exact .bind (statement_imports first fits.1 start) fun _ =>
      .bind (statements_imports rest fits.2 _) fun _ => .pure

end

end Emit

/-- Whether the head of a compiled method is that of its source. -/
structure TypedMethod.Heads (method : TypedMethod) (compiled : MethodImage) : Prop where
  name : compiled.name = method.name
  owner : compiled.owner = .ofNat method.owner
  isPublic : compiled.isPublic = method.isPublic
  isStatic : compiled.isStatic = true
  signature : compiled.signature = method.signature

namespace TypedMethod

/-- A compiled method has the head of its source. -/
theorem toImage_imports {program : TypedProgram} {libraries : LibrarySet} {method : TypedMethod}
    (fits : program.MethodFits libraries method) {state after : EmitState} {compiled : MethodImage}
    (done : method.toImage.run state = .ok (compiled, after)) :
    method.Heads compiled ∧ (state.ImportsKnown libraries → after.ImportsKnown libraries) := by
  simp only [toImage_run] at done
  split at done
  · cases done
  · cases done
    refine ⟨⟨rfl, rfl, rfl, rfl, rfl⟩, fun known => ?_⟩
    exact Emit.Imports.bind (Emit.statements_imports method.body fits.body 0) (fun _ => Emit.Imports.pure)
      { state with slots := method.slots.length } known

theorem mapM_toImage_imports {program : TypedProgram} {libraries : LibrarySet} {methods : List TypedMethod}
    (fits : ∀ method ∈ methods, program.MethodFits libraries method) {state after : EmitState}
    {compiled : List MethodImage} (done : (methods.mapM toImage).run state = .ok (compiled, after)) :
    List.Forall₂ Heads methods compiled ∧ (state.ImportsKnown libraries → after.ImportsKnown libraries) := by
  induction methods generalizing state compiled with
  | nil =>
      cases done
      exact ⟨.nil, id⟩
  | cons first rest ih =>
      rw [List.forall_mem_cons] at fits
      obtain ⟨one, middle, others, firstDone, restDone, rfl⟩ := mapM_toImage_cons done
      obtain ⟨firstHead, firstKnown⟩ := toImage_imports fits.1 firstDone
      obtain ⟨otherHeads, restKnown⟩ := ih fits.2 restDone
      exact ⟨.cons firstHead otherHeads, restKnown ∘ firstKnown⟩

end TypedMethod

/-! ### Tables of a compiled program -/

namespace Environment

variable {environment : Environment}

/-- Every header belongs to one of the classes. -/
theorem headers_owner (methods : List (List MethodDecl)) :
    ∀ header ∈ (environment.headers methods).1.toList, header.owner < methods.length := by
  intro header member
  obtain ⟨owner, earlier, decl, inside, isHeader⟩ := exists_of_mem_headers member
  rw [header_owner isHeader]
  exact inside

end Environment

/-- Whether methods belong to classes of the program, and classes list methods of it. -/
structure TypedProgram.IsTabled (program : TypedProgram) : Prop where
  owners : ∀ method ∈ program.methods, method.owner < program.classes.length
  methods : ∀ type ∈ program.classes, ∀ index ∈ type.methods, index < program.methods.length

theorem CompilationUnit.check_isTabled (unit : CompilationUnit) (libraries : LibrarySet) :
    (unit.check libraries).program.IsTabled := by
  let collected := Collected.ofUnit unit
  let environment := collected.environment libraries
  let headers := environment.headers collected.methods.toList
  have methods : (unit.check libraries).program.methods =
      headers.1.toList.map fun header => (header.check environment headers.1).1 := List.map_map ..
  have classes : (unit.check libraries).program.classes.length = collected.classes.size := by
    show (List.map _ collected.classes.toList.zipIdx).length = _
    rw [List.length_map, List.length_zipIdx, Array.length_toList]
  refine ⟨fun method member => ?_, fun type member index listed => ?_⟩
  · rw [methods] at member
    obtain ⟨header, inHeaders, rfl⟩ := List.mem_map.1 member
    rw [classes, ← Collected.size_ofUnit unit]
    exact Environment.headers_owner _ header inHeaders
  · obtain ⟨⟨info, owner⟩, -, rfl⟩ := List.mem_map.1 member
    obtain ⟨⟨header, found⟩, inHeaders, rfl⟩ := List.mem_map.1 listed
    have inZip := (List.mem_filter.1 inHeaders).1
    rw [methods, List.length_map]
    exact (List.getElem?_eq_some_iff.1 (List.mem_zipIdx_iff_getElem?.1 inZip)).1

/-! ### Loading -/

namespace TypedProgram

variable {program : TypedProgram} {libraries : LibrarySet} {image : Image} {moduleName : String}

/-- The tables of a compiled program are those of its source, and its imports are known. -/
theorem toImage_imports (fits : ∀ method ∈ program.methods, program.MethodFits libraries method)
    (done : program.toImage moduleName = .ok image) :
    image.formatVersion = Image.currentVersion ∧ image.classes = program.classes.map TypedClass.toImage ∧
      List.Forall₂ TypedMethod.Heads program.methods image.methods ∧
      ∀ entry ∈ image.imports, entry.Known libraries := by
  unfold toImage at done
  cases compiled : (program.methods.mapM TypedMethod.toImage).run .empty with
  | error finding =>
      rw [compiled] at done
      cases done
  | ok result =>
      rw [compiled] at done
      cases done
      obtain ⟨heads, known⟩ := TypedMethod.mapM_toImage_imports fits compiled
      refine ⟨rfl, rfl, heads, fun entry member => ?_⟩
      exact known (fun other absent => absurd absent (Array.not_mem_empty other)) entry (Array.mem_toList_iff.1 member)

/-- The tables of a compiled program have no fault. -/
theorem fault?_eq_none (compiles : program.CompilesTo libraries image) (tabled : program.IsTabled)
    (classes : image.classes = program.classes.map TypedClass.toImage)
    (heads : List.Forall₂ TypedMethod.Heads program.methods image.methods) : image.fault? = none := by
  have small (index limit : Nat) (inside : index < limit) : (UInt32.ofNat index).toNat < limit :=
    Nat.lt_of_le_of_lt (Nat.mod_le index UInt32.size) inside
  have listed : image.classFault? = none := by
    refine List.findSome?_eq_none_iff.2 fun type member => Option.map_eq_none_iff.2 ?_
    rw [classes] at member
    obtain ⟨source, inProgram, rfl⟩ := List.mem_map.1 member
    refine List.find?_eq_none.2 fun index isListed => ?_
    obtain ⟨number, inSource, rfl⟩ := List.mem_map.1 isListed
    have inside := small number image.methods.length
      (compiles.length_methods ▸ tabled.methods source inProgram number inSource)
    simpa using inside
  have headed : image.methods.findSome? image.methodFault? = none := by
    refine List.findSome?_eq_none_iff.2 fun compiled member => ?_
    obtain ⟨index, found⟩ := List.mem_iff_getElem?.1 member
    obtain ⟨method, isMethod, fits, code⟩ := compiles.compiled_at found
    have owner : compiled.owner = .ofNat method.owner := by
      obtain ⟨inside, rfl⟩ := List.getElem?_eq_some_iff.1 found
      obtain ⟨inside', rfl⟩ := List.getElem?_eq_some_iff.1 isMethod
      exact ((List.forall₂_iff_get.1 heads).2 index inside' inside).owner
    have known : compiled.owner.toNat < image.classes.length := by
      rw [owner, classes, List.length_map]
      exact small _ _ (tabled.owners method (List.mem_of_getElem? isMethod))
    have parameters : compiled.signature.parameters.length ≤ compiled.slotCount.toNat := by
      have taken := congrArg List.length fits.parameters
      rw [List.length_map, List.length_map, List.length_take] at taken
      rw [code.signature, code.slotCount, TypedMethod.signature, List.length_map]
      omega
    unfold Image.methodFault?
    rw [if_neg (Nat.not_le.2 known), if_neg (Nat.not_lt.2 parameters)]
  unfold Image.fault?
  rw [listed, headed]
  rfl

end TypedProgram

/-- Whether every type of which an image makes objects has objects. -/
def Image.MakesObjects (image : Image) (libraries : LibrarySet) : Prop :=
  ∀ name, Import.type name ∈ image.imports → ∃ type, libraries.findType? name = some type ∧ type.kind = .data

namespace Import

variable {libraries : LibrarySet}

/-- A known import is connected unless it is a type without objects. -/
theorem link_iff {entry : Import} (known : entry.Known libraries) :
    (∃ linked, entry.link libraries = .ok linked) ↔
      ∀ name, entry = .type name → ∃ type, libraries.findType? name = some type ∧ type.kind = .data := by
  cases entry with
  | function wanted => exact ⟨fun _ name same => (nomatch same), fun _ => known⟩
  | type name =>
      obtain ⟨type, found, -⟩ := known
      show (∃ linked, linkType name libraries = .ok linked) ↔ _
      unfold linkType
      rw [found]
      dsimp only
      constructor
      · rintro ⟨linked, isLinked⟩ _ ⟨rfl⟩
        split_ifs at isLinked with isData
        exact ⟨type, found, beq_iff_eq.1 isData⟩
      · intro objects
        obtain ⟨same, isFound, isData⟩ := objects name rfl
        cases found.symm.trans isFound
        rw [if_pos (beq_iff_eq.2 isData)]
        exact ⟨_, rfl⟩

/-- Imports are connected together exactly if each one is by itself. -/
theorem mapM_link_iff (entries : List Import) :
    (∃ linked, entries.mapM (·.link libraries) = .ok linked) ↔
      ∀ entry ∈ entries, ∃ linked, entry.link libraries = .ok linked := by
  induction entries with
  | nil => exact iff_of_true ⟨[], rfl⟩ nofun
  | cons first rest ih =>
      rw [List.forall_mem_cons, ← ih, List.mapM_cons]
      cases first.link libraries with
      | error fault => exact ⟨fun ⟨_, linked⟩ => (nomatch linked), fun ⟨⟨_, linked⟩, _⟩ => nomatch linked⟩
      | ok linked =>
        cases rest.mapM (·.link libraries) with
        | error fault => exact ⟨fun ⟨_, linked⟩ => (nomatch linked), fun ⟨_, _, others⟩ => nomatch others⟩
        | ok others => exact ⟨fun _ => ⟨⟨linked, rfl⟩, others, rfl⟩, fun _ => ⟨linked :: others, rfl⟩⟩

end Import

/-- The image of a source text is read again as it was written. It is loaded with the libraries that
the text was checked against exactly if every type of which it makes objects has objects. -/
theorem emit_loads_iff {source moduleName : String} {libraries : LibrarySet} {policy : WarningPolicy}
    {image : Image} (emitted : (emit source libraries policy moduleName).image = some image) (maxDepth : Nat) :
    Image.decode image.toJson = .ok image ∧
      ((∃ module, Module.load image libraries maxDepth = .ok module) ↔ image.MakesObjects libraries) := by
  obtain ⟨unit, -, noError, -, done⟩ := exists_unit_of_emit emitted
  have compiles := CompilationUnit.compilesTo noError done
  obtain ⟨current, classes, heads, known⟩ := TypedProgram.toImage_imports compiles.fits done
  have sound := TypedProgram.fault?_eq_none compiles (unit.check_isTabled libraries) classes heads
  refine ⟨Image.decode_toJson current, ?_⟩
  have linking : image.MakesObjects libraries ↔
      ∃ linked, image.imports.mapM (·.link libraries) = .ok linked := by
    rw [Import.mapM_link_iff]
    constructor
    · intro objects entry member
      exact (Import.link_iff (known entry member)).2 fun name isType => objects name (isType ▸ member)
    · intro links name member
      exact (Import.link_iff (known _ member)).1 (links _ member) name rfl
  rw [linking, Module.load, sound]
  cases image.imports.mapM (·.link libraries) with
  | error fault => exact ⟨fun ⟨_, loaded⟩ => (nomatch loaded), fun ⟨_, linked⟩ => nomatch linked⟩
  | ok linked => exact ⟨fun _ => ⟨linked, rfl⟩, fun _ => ⟨_, rfl⟩⟩

/-- A source text that makes an object of a library's type. -/
def makingMoney : String := "class C { static void M() { Shop.Money money = new Shop.Money(); } }"

/-- A library whose only type is of a kind. -/
def LibrarySet.shop (kind : HostKind) : LibrarySet := ⟨[⟨"Shop", [.bare "Shop" [] "Money" kind]⟩]⟩

/-- The image of the text that makes an object of a library's type. -/
def Image.makingMoney : Image :=
  ⟨Image.currentVersion, "snippet", [], [], [.type "Shop.Money"], [⟨"C", false, false, [0]⟩],
    [⟨"M", 0, false, true, ⟨[], none⟩, 1, [.newObject 0, .store 0, .giveBackNothing]⟩]⟩

/-- The type of the library is found. -/
theorem LibrarySet.findType?_shop (kind : HostKind) :
    (shop kind).findType? "Shop.Money" = some (.bare "Shop" [] "Money" kind) := by
  with_unfolding_all rfl

/-- An image that makes an object of a type of objects is loaded. -/
theorem emit_loads_iff_makingMoney : ∃ module, Module.load .makingMoney (.shop .data) 256 = .ok module := by
  have emitted : (emit makingMoney (.shop .data) .default "snippet").image = some .makingMoney := by
    rw [makingMoney, emit_ofList]
    decide +kernel
  refine (emit_loads_iff emitted 256).2.2 fun name member => ?_
  cases List.mem_singleton.1 member
  exact ⟨_, LibrarySet.findType?_shop .data, rfl⟩

/-- An image that makes an object of a basic type of a library is emitted and not loaded. -/
theorem emit_not_loads_makingMoney :
    (emit makingMoney (.shop .primitive) .default "snippet").image = some .makingMoney ∧
      Module.load .makingMoney (.shop .primitive) 256 = .error (.missingType "Shop.Money") := by
  have emitted : (emit makingMoney (.shop .primitive) .default "snippet").image = some .makingMoney := by
    rw [makingMoney, emit_ofList]
    decide +kernel
  refine ⟨emitted, ?_⟩
  have unlinked : linkType "Shop.Money" (.shop .primitive) = .error (.missingType "Shop.Money") := by
    rw [linkType, LibrarySet.findType?_shop]
    rfl
  have sound : Image.makingMoney.fault? = none := rfl
  have imports : Image.makingMoney.imports.mapM (·.link (.shop .primitive)) = .error (.missingType "Shop.Money") := by
    show [Import.type "Shop.Money"].mapM (·.link (.shop .primitive)) = _
    rw [List.mapM_cons, Import.link, unlinked]
    rfl
  rw [Module.load, sound, imports]
  rfl

end Snippet
