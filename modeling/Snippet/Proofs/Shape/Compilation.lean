import Snippet.Proofs.Shape.EntryPoint

/-!
A shape survives its way through a source text. Main statement: whatever the body is, what is compiled for
a shape is found again, has the signature of the shape and is the method that was generated for it.
-/

namespace Snippet

/-! ### Failures on the way -/

/-- A module has the image from which it has been loaded. -/
theorem Module.load_image {image : Image} {libraries : LibrarySet} {maxDepth : Nat} {module : Module}
    (loaded : load image libraries maxDepth = .ok module) : module.image = image := by
  unfold load at loaded
  split at loaded
  · cases loaded
  · obtain ⟨imports, -, loaded⟩ := of_bind_eq_ok loaded
    cases loaded
    rfl

namespace Compiler

variable {compiler : Compiler} {catalog : LibrarySet}

theorem argumentNames_fails {names : Option (List String)} {count : Nat} {failure : Failure}
    (fails : argumentNames names count = .error failure) : failure.code = "InvalidInput" := by
  unfold argumentNames at fails
  split at fails
  · split_ifs at fails
    cases fails
    rfl
  · split at fails <;> cases fails
    rfl

/-- A source text becomes a module with its image, unless it has errors or its image is not loaded. -/
theorem compileSource_cases (isCatalog : compiler.catalog = .ok catalog) (source : String)
    (references : List Library) (policy : WarningPolicy) :
    (∃ failure : Failure, compiler.compileSource source references policy = .error failure ∧
      (failure.code = "CompilationFailed" ∨ failure.code = "LoadFailed")) ∨
    ∃ module, compiler.compileSource source references policy = .ok module ∧
      (emit source (catalog.extend references) policy moduleName).image = some module.image := by
  unfold compileSource
  rw [isCatalog, ok_bind]
  dsimp only
  unfold loadProduct
  split
  · cases isImage : (emit source (catalog.extend references) policy moduleName).image with
    | none => exact .inl ⟨_, rfl, .inr rfl⟩
    | some image =>
      rw [Option.map_some]
      dsimp only
      cases loaded : Module.load image (catalog.extend references) compiler.maxDepth with
      | error fault => exact .inl ⟨_, rfl, .inr rfl⟩
      | ok module => exact .inr ⟨module, rfl, by rw [Module.load_image loaded]⟩
  · exact .inl ⟨_, rfl, .inl rfl⟩

end Compiler

/-! ### Compiled shapes -/

/-- Whether an entry point runs a method of a source text that was checked against libraries. -/
structure EntryPoint.Runs (entry : EntryPoint) (unit : CompilationUnit) (libraries : LibrarySet)
    (decl : MethodDecl) : Prop where
  compiled : (unit.check libraries).program.toImage moduleName = .ok entry.module.image
  named : entry.space = "DynamicCompilation" ∧ entry.className = "Executer" ∧ entry.methodName = "Execute"
  method : ∃ method, (unit.check libraries).program.methods[entry.index.toNat]? = some method ∧
    method.span = decl.span

namespace Compiler

variable {compiler : Compiler} {shape : CallableShape} {body : String} {given : Option (List String)}
  {references : List Library} {policy : WarningPolicy} {catalog : LibrarySet}

/-- Compiling a shape whose types are named comes to compiling its source text. -/
theorem compileShape_eq (compiler : Compiler) (named : shape.IsNamed) (body : String) (given : Option (List String))
    (references : List Library) (policy : WarningPolicy) :
    compiler.compileShape shape body (.plain given references policy) = (do
      let names ← argumentNames given shape.arity
      let module ← compiler.compileSource (shape.sourceText names body) (references ++ compiler.originsOf shape) policy
      let entry ← module.resolve "DynamicCompilation" "Executer" "Execute"
      entry.bind shape) := by
  unfold compileShape
  rw [named.shapeSource_eq]
  cases argumentNames given shape.arity with
  | error failure => rfl
  | ok names => rfl

/-- Compiling a shape from the characters of its source text. A fixed shape is rewritten with this before it is
compiled. -/
theorem compileShape_eq_lexemes (compiler : Compiler) (named : shape.IsNamed) (body : String)
    (given : Option (List String)) (references : List Library) (policy : WarningPolicy) :
    compiler.compileShape shape body (.plain given references policy) = (do
      let names ← argumentNames given shape.arity
      let libraries := (← compiler.catalog).extend (references ++ compiler.originsOf shape)
      let characters := Piece.texts (shape.heading shape.missingSpaces names) ++
        ((addReturn body shape.resultText).toList ++ skeletonEnd)
      let compiled := compileLexemes (Lexer.lexemes ⟨characters, 0⟩) libraries moduleName
      let diagnostics := policy.apply (compiled.1.map (·.toDiagnostic (.ofList characters)))
      let image := if diagnostics.any (·.isBlocking) then none else compiled.2
      let module ← loadProduct diagnostics (image.map .ok) libraries compiler.maxDepth
      let entry ← module.resolve "DynamicCompilation" "Executer" "Execute"
      entry.bind shape) := by
  rw [compileShape_eq compiler named]
  simp only [compileSource, CallableShape.sourceText, emit_ofList, bind_assoc]

/-- What is compiled from the source text for a body is found again as the method of the shape. -/
theorem resolve_sourceText (named : shape.IsNamed) {names : List String} (sameLength : names.length = shape.arity)
    (identifiers : ∀ name ∈ names, isIdentifier name = true) {libraries : LibrarySet} (foreign : libraries.IsForeign)
    (rooted : ∀ type ∈ shape.types, type.IsRooted libraries) {module : Module}
    (emitted : (emit (shape.sourceText names body) libraries policy moduleName).image = some module.image) :
    ∃ (entry : EntryPoint) (unit : CompilationUnit) (decl : MethodDecl),
      module.resolve "DynamicCompilation" "Executer" "Execute" = .ok entry ∧ entry.signature.IsOf shape ∧
        CompilationUnit.ofSource (shape.sourceText names body) = .ok unit ∧ unit.firstMethod? = some decl ∧
        shape.Reads decl ∧ entry.Runs unit libraries decl := by
  obtain ⟨unit, isUnit, noError, -, done⟩ := exists_unit_of_emit emitted
  obtain ⟨first, others, members, readsSpace⟩ := named.reads sameLength identifiers isUnit
  obtain ⟨decl, isFirst, reads, leads⟩ := CompilationUnit.check_leads noError named foreign rooted members readsSpace
  have fits := (CompilationUnit.compilesTo noError done).fits
  obtain ⟨-, classes, heads, -⟩ := TypedProgram.toImage_imports fits done
  obtain ⟨method, isMethod, span, isOf, resolved⟩ := leads.resolve classes heads
  exact ⟨_, unit, decl, resolved, isOf, isUnit, isFirst, reads, done, ⟨rfl, rfl, rfl⟩, method, isMethod, span⟩

/-- The method that is compiled for a shape is found and bound to the shape, if a module is compiled at all:
it is the one that was generated, and its signature is that of the shape. -/
theorem compileShape_keeps (isCatalog : compiler.catalog = .ok catalog) (named : shape.IsNamed)
    (identifiers : ∀ names, given = some names → ∀ name ∈ names, isIdentifier name = true)
    (foreign : (catalog.extend (references ++ compiler.originsOf shape)).IsForeign)
    (defined : ∀ type ∈ shape.types, type.IsDefined (catalog.extend (references ++ compiler.originsOf shape))) :
    (∀ failure, compiler.compileShape shape body (.plain given references policy) = .error failure →
      failure.code ∉ ["TypeNotFound", "MethodNotFound", "BindingMismatch"]) ∧
    ∀ callable, compiler.compileShape shape body (.plain given references policy) = .ok callable →
      callable.shape = shape ∧ callable.entry.signature.IsOf shape ∧
        ∃ (source : String) (unit : CompilationUnit) (decl : MethodDecl),
          shapeSource shape body (.plain given references policy) = .ok source ∧
          CompilationUnit.ofSource source = .ok unit ∧ unit.firstMethod? = some decl ∧ shape.Reads decl ∧
          callable.entry.Runs unit (catalog.extend (references ++ compiler.originsOf shape)) decl := by
  rw [compileShape_eq compiler named, named.shapeSource_eq]
  cases areNames : argumentNames given shape.arity with
  | error failure =>
    refine ⟨fun _ fails => ?_, nofun⟩
    cases fails
    rw [argumentNames_fails areNames]
    decide
  | ok names =>
    rw [ok_bind]
    rcases compileSource_cases isCatalog (shape.sourceText names body) (references ++ compiler.originsOf shape) policy
      with ⟨failure, isFailure, code⟩ | ⟨module, isModule, emitted⟩
    · rw [isFailure]
      refine ⟨fun _ fails => ?_, nofun⟩
      cases fails
      rcases code with code | code <;> rw [code] <;> decide
    · obtain ⟨entry, unit, decl, resolved, isOf, isUnit, isFirst, reads, runs⟩ :=
        resolve_sourceText named (length_argumentNames areNames) (isIdentifier_argumentNames identifiers areNames)
          foreign (fun type isType => (defined type isType).isRooted) emitted
      rw [isModule, ok_bind, resolved, ok_bind, EntryPoint.bind_eq_ok isOf]
      refine ⟨nofun, fun _ compiled => ?_⟩
      cases compiled
      exact ⟨rfl, isOf, _, unit, decl, rfl, isUnit, isFirst, reads, runs⟩

end Compiler

/-! ### Types that lie inside others -/

/-- A type inside another one in the global namespace. -/
def HostType.inner : HostType := .bare "" ["Outer"] "Inner" .data

/-- A library with the type inside another one, with types of the same names in `System`, and with more types. -/
def Library.nesting (more : List HostType) : Library :=
  ⟨"Shop", [.inner, .bare "System" [] "Outer" .data, .bare "System" ["Outer"] "Inner" .data] ++ more⟩

/-- A type of the global namespace. -/
def HostType.console : HostType := .bare "" [] "Console" .data

/-- A library in which names lead to other types: the type around one is missing, and a type is called like
the namespace of generated classes. -/
def Library.shadowing : Library := .nesting [.console, .bare "" ["DynamicCompilation"] "Console" .data]

/-- A compiler for one library. -/
def Compiler.ofLibrary (library : Library) : Compiler := ⟨.ok ⟨[library]⟩, [], Module.defaultMaxDepth⟩

/-- A shape without result whose only parameter has a type. -/
def CallableShape.taking (mode : PassMode) (type : HostType) : CallableShape := ⟨[⟨mode, type.desc⟩], none⟩

theorem exists_ok {ε α : Type} {result : Except ε α} (isOk : result.toBool = true) : ∃ value, result = .ok value := by
  cases result with
  | error fault => cases isOk
  | ok value => exact ⟨value, rfl⟩

theorem CallableShape.taking_isNamed {mode : PassMode} {type : HostType}
    (identifiers : ∀ name ∈ type.desc.names, isIdentifier name = true) : (taking mode type).IsNamed := by
  intro other member
  obtain rfl : other = type.desc := List.mem_singleton.1 member
  exact ⟨rfl, identifiers, nofun⟩

namespace Compiler

/-- A body that closes the braces around it and opens others does not change the method of its shape. -/
theorem compileShape_keeps_closingBraces : ∃ callable,
    (ofLibrary (.nesting [.bare "" [] "Outer" .data])).compileShape (.taking .ref .inner)
      "\x7d static void Other() \x7b" (.plain (some ["item"]) [] .default) = .ok callable ∧
    callable.entry.signature.IsOf (.taking .ref .inner) := by
  have named : (CallableShape.taking .ref .inner).IsNamed := CallableShape.taking_isNamed (by decide)
  have identifiers : ∀ names, some ["item"] = some names → ∀ name ∈ names, isIdentifier name = true := by
    rintro _ ⟨⟩
    decide
  have foreign : LibrarySet.IsForeign ⟨[.nesting [.bare "" [] "Outer" .data]]⟩ := by
    unfold LibrarySet.IsForeign
    decide
  have defined : ∀ type ∈ (CallableShape.taking .ref .inner).types,
      type.IsDefined ⟨[.nesting [.bare "" [] "Outer" .data]]⟩ := by
    intro type member
    obtain rfl : type = HostType.inner.desc := List.mem_singleton.1 member
    refine ⟨⟨_, List.mem_cons_self, .inner, List.mem_cons_self, rfl, rfl, rfl⟩, fun _ name isFirst => .inl ?_, nofun⟩
    obtain rfl : "Outer" = name := Option.some.inj isFirst
    rfl
  have compiles : ((ofLibrary (.nesting [.bare "" [] "Outer" .data])).compileShape (.taking .ref .inner)
      "\x7d static void Other() \x7b" (.plain (some ["item"]) [] .default)).toBool = true := by
    rw [compileShape_eq_lexemes _ named]
    decide +kernel
  obtain ⟨callable, isCallable⟩ := exists_ok compiles
  have isCatalog : (ofLibrary (.nesting [.bare "" [] "Outer" .data])).catalog =
    .ok ⟨[.nesting [.bare "" [] "Outer" .data]]⟩ := rfl
  obtain ⟨-, keeps⟩ := @compileShape_keeps _ _ "\x7d static void Other() \x7b" _ [] .default _ isCatalog named
    identifiers foreign defined
  exact ⟨callable, isCallable, (keeps callable isCallable).2.1⟩

/-- A type inside another one that is missing is taken for one of the namespace `System`, and a type for one
inside a type that is called like the namespace of generated classes. -/
theorem compileShape_not_keeps :
    (∀ type ∈ Library.shadowing.types, type.space ≠ "DynamicCompilation" ∧
      Text.beginsWith type.space "DynamicCompilation." = false) ∧
    ((ofLibrary .shadowing).compileShape (.taking .value .inner) "" (.plain (some ["item"]) [] .default)).map
      (fun _ => ()) = .error (.binding (.parameter 1 "Executer.Execute" "System.Outer.Inner" "Outer.Inner")) ∧
    ((ofLibrary .shadowing).compileShape (.taking .value .console) "" (.plain (some ["item"]) [] .default)).map
      (fun _ => ()) = .error (.binding (.parameter 1 "Executer.Execute" "DynamicCompilation.Console" "Console")) := by
  have inner : (CallableShape.taking .value .inner).IsNamed := CallableShape.taking_isNamed (by decide)
  have console : (CallableShape.taking .value .console).IsNamed := CallableShape.taking_isNamed (by decide)
  refine ⟨by decide, ?_, ?_⟩
  · rw [compileShape_eq_lexemes _ inner]
    decide +kernel
  · rw [compileShape_eq_lexemes _ console]
    decide +kernel

end Compiler

end Snippet
