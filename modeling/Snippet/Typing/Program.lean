import Snippet.Typing.Statement

/-!
The checking of a whole source text: its classes and namespaces are collected, its using directives
and method headers checked, and then the bodies.
-/

namespace Snippet

/-! ### Classes and namespaces -/

/-- What has been collected from a source text. -/
structure Collected where
  classes : Array ClassInfo
  topLevel : List (String × Nat)
  namespaces : List String
  /-- The methods of every class, by class index. -/
  methods : Array (List MethodDecl)
  /-- The using directives of the text and of every namespace. -/
  directives : List (List UsingDirective)
  findings : List Finding

namespace Collected

/-- Nothing collected. -/
def empty : Collected := ⟨#[], [], [], #[], [], []⟩

/-- The collection with one more finding. -/
def report (collected : Collected) (problem : Problem) (span : Span) : Collected :=
  { collected with findings := collected.findings ++ [⟨problem, span⟩] }

/-- The collection with a namespace and all namespaces around it. -/
def addSpace (collected : Collected) (space : String) : Collected :=
  { collected with namespaces := collected.namespaces ++ (spaceChain space).filter (· != "") }

/-- The class around another one, with its name as diagnostics show it. -/
def nestedIn? (collected : Collected) (parent : Option Nat) (name : String) : Option String := do
  let info ← collected.classes[← parent]?
  if (info.nested.lookup name).isSome then info.shown else none

/-- The problem of a class whose name is taken. -/
def duplicate? (collected : Collected) (parent : Option Nat) (space fullName name : String) :
    Option Problem :=
  match parent with
  | some index => (collected.nestedIn? (some index) name).map (.duplicateNestedClass · name)
  | none =>
    if (collected.topLevel.lookup fullName).isSome then
      some (.duplicateClass (if space.isEmpty then "<global namespace>" else space) name)
    else none

/-- The full name of a class in its namespace and the class around it. -/
def fullNameIn (collected : Collected) (parent : Option Nat) (space name : String) : String :=
  match parent.bind fun index => collected.classes[index]? with
  | some outer => outer.fullName ++ "+" ++ name
  | none => qualify space name

/-- The collection with one more class, known to the class around it or to its namespace. -/
def addClass (collected : Collected) (info : ClassInfo) (methods : List MethodDecl) : Collected :=
  let index := collected.classes.size
  let classes := match info.parent with
    | some parent =>
      collected.classes.modify parent fun outer =>
        { outer with nested := outer.nested ++ [(info.name, index)] }
    | none => collected.classes
  { collected with
    classes := classes.push info
    methods := collected.methods.push methods
    topLevel := match info.parent with
      | some _ => collected.topLevel
      | none => collected.topLevel ++ [(info.fullName, index)] }

mutual

/-- Collects a class and the classes in it; one whose name is taken is reported and left out. -/
def collectClass (collected : Collected) (space : String) (usings : List String)
    (parent : Option Nat) : ClassDecl → Collected
  | .mk span name modifiers methods nested =>
    let fullName := collected.fullNameIn parent space name
    match collected.duplicate? parent space fullName name with
    | some problem => collected.report problem span
    | none =>
      let index := collected.classes.size
      let info : ClassInfo := ⟨name, modifiers, fullName, space, parent, usings, []⟩
      collectClasses (collected.addClass info methods) space usings (some index) nested

/-- Collects classes in order. -/
def collectClasses (collected : Collected) (space : String) (usings : List String)
    (parent : Option Nat) : List ClassDecl → Collected
  | [] => collected
  | first :: rest =>
    collectClasses (collectClass collected space usings parent first) space usings parent rest

end

mutual

/-- Collects a member of a namespace. -/
def collectMember (collected : Collected) (space : String) (usings : List String) :
    Member → Collected
  | .space _ name directives members =>
    let full := qualify space name
    let entered := collected.addSpace full
    collectMembers { entered with directives := entered.directives ++ [directives] } full
      (usings ++ directives.map (·.name)) members
  | .type decl => collected.collectClass space usings none decl

/-- Collects the members of a namespace in order. -/
def collectMembers (collected : Collected) (space : String) (usings : List String) :
    List Member → Collected
  | [] => collected
  | first :: rest => collectMembers (collectMember collected space usings first) space usings rest

end

/-- Everything in a source text. -/
def ofUnit (unit : CompilationUnit) : Collected :=
  { empty with directives := [unit.usings] : Collected }.collectMembers "" (unit.usings.map (·.name)) unit.members

/-- The names that the bodies of the program are checked against. -/
def environment (collected : Collected) (libraries : LibrarySet) : Environment :=
  ⟨libraries, collected.classes, collected.topLevel, collected.namespaces⟩

end Collected

/-! ### Using directives -/

namespace Environment

/-- The first part of a dotted name that is no namespace: alone or inside the namespace before. -/
def missingPart? (environment : Environment) (space : String) : List String → Option Problem
  | [] => none
  | part :: rest =>
    let next := qualify space part
    if environment.hasNamespace next then environment.missingPart? next rest
    else some (if space.isEmpty then .missingType part else .missingInNamespace part space)

/-- What is wrong with a using directive whose name occurs for the first time in its list. -/
def usingProblem? (environment : Environment) (name : String) : Option Problem :=
  if environment.hasNamespace name then none
  else if (environment.typeNamed? name).isSome then some (.usingOfType name)
  else environment.missingPart? "" (nameParts name)

/-- What is wrong with a list of using directives behind some names. -/
def usingFindings (environment : Environment) (seen : List String) : List UsingDirective → List Finding
  | [] => []
  | directive :: rest =>
    if seen.contains directive.name then
      ⟨.duplicateUsing directive.name, directive.span⟩ :: environment.usingFindings seen rest
    else
      ((environment.usingProblem? directive.name).map (Finding.mk · directive.span)).toList ++
        environment.usingFindings (directive.name :: seen) rest

/-! ### Method headers -/

/-- The typed parameters of a method; their names differ. -/
def parameters (environment : Environment) (owner : Nat) (seen : List String) :
    List Parameter → Except Finding (List TypedParameter)
  | [] => .ok []
  | parameter :: rest => do
    if seen.contains parameter.name then throw ⟨.duplicateParameter parameter.name, parameter.span⟩
    let type ← environment.resolveType owner .parameter parameter.type
    let others ← environment.parameters owner (parameter.name :: seen) rest
    return ⟨parameter.name, parameter.mode, type⟩ :: others

/-- The passing mode as overloads tell it apart: `out` and `ref` count as one. -/
def byReference : PassMode → PassMode
  | .out => .ref
  | mode => mode

/-- The passing modes of parameters as overloads tell them apart. -/
def modes (parameters : List TypedParameter) : List PassMode :=
  parameters.map fun parameter => byReference parameter.mode

/-- Why a method may not stand beside an earlier one of its class. -/
def overloadProblem? (shown name : String) (parameters : List TypedParameter)
    (other : MethodHeader) : Option Problem :=
  if other.name != name || other.parameters.map (·.type) != parameters.map (·.type) then none
  else if other.parameters.map (·.mode) == parameters.map (·.mode) then
    some (.duplicateMethod shown name)
  else if modes other.parameters == modes parameters then some (.overloadByOutAndRef shown)
  else none

/-- The header of a static method with a result, beside the earlier headers. -/
def headerWith (environment : Environment) (owner : Nat) (earlier : Array MethodHeader)
    (decl : MethodDecl) (result : Ty) : Except Finding MethodHeader := do
  let shown := environment.classShown owner
  let parameters ← environment.parameters owner [] decl.parameters
  let siblings := earlier.toList.filter (·.owner == owner)
  match siblings.findSome? (overloadProblem? shown decl.name parameters) with
  | some problem => throw ⟨problem, decl.span⟩
  | none => pure ()
  if UInt32.size ≤ earlier.size then throw (.unsupported "more than 4294967295 methods" decl.span)
  let types := parameters.map fun parameter => parameter.mode.label parameter.type.shown
  let label := shown ++ "." ++ decl.name ++ "(" ++ String.intercalate ", " types ++ ")"
  return ⟨decl.name, label, owner, decl.modifiers, parameters, result, decl⟩

/-- The header of a method, beside the earlier headers. -/
def header (environment : Environment) (owner : Nat) (earlier : Array MethodHeader)
    (decl : MethodDecl) : Except Finding MethodHeader := do
  if !decl.modifiers.isStatic then throw (.unsupported "instance method" decl.span)
  if (environment.class? owner).any (·.name == decl.name) then
    throw ⟨.memberNamedAsClass decl.name, decl.span⟩
  let result ← match decl.result with
    | some type => environment.resolveType owner .result type
    | none => pure .void
  environment.headerWith owner earlier decl result

/-- The headers of methods of one class behind earlier headers, and what is wrong with others. -/
def classHeaders (environment : Environment) (owner : Nat)
    (state : Array MethodHeader × List Finding) (methods : List MethodDecl) :
    Array MethodHeader × List Finding :=
  methods.foldl (fun (headers, findings) decl =>
    match environment.header owner headers decl with
    | .ok header => (headers.push header, findings)
    | .error finding => (headers, findings ++ [finding])) state

/-- The headers of all methods, class by class, and what is wrong with others. -/
def headers (environment : Environment) (methods : List (List MethodDecl)) :
    Array MethodHeader × List Finding :=
  methods.zipIdx.foldl (fun state (decls, owner) => environment.classHeaders owner state decls)
    (#[], [])

end Environment

/-! ### Bodies -/

namespace MethodHeader

/-- The state at the start of a body: the parameters are in scope, under numbers of 16 bits, and count as used. -/
def startState (header : MethodHeader) : BodyState where
  slots := (header.parameters.zip header.decl.parameters).toArray.map fun (parameter, source) =>
    ⟨parameter.name, parameter.type, source.span, some parameter.mode⟩
  usage := header.parameters.toArray.map fun _ => ⟨true, true, true⟩
  scopes := [[], header.parameters.zipIdx.map fun (parameter, index) => (parameter.name, index % 65536)]
  loopDepth := 0
  findings := #[]

/-- The warning about a variable that is never read, unless it is assigned something computed. -/
def usageFinding? (slot : Slot) (usage : Usage) : Option Finding :=
  if slot.mode.isSome || usage.isRead then none
  else if !usage.isWritten then some ⟨.unusedVariable slot.name, slot.span⟩
  else if !usage.isComputed then some ⟨.unreadVariable slot.name, slot.span⟩
  else none

/-- The typed method of a header, with everything found in its body. -/
def check (header : MethodHeader) (environment : Environment) (methods : Array MethodHeader) :
    TypedMethod × List Finding :=
  let context : BodyContext := ⟨environment, methods, header.owner, header.label, header.result⟩
  let (outcome, state) := (Check.statements header.decl.body).run context |>.run.run header.startState
  let (body, stopped) := match outcome with
    | .ok body => (body, [])
    | .error finding => ([], [finding])
  let unused := (state.slots.zip state.usage).toList.filterMap fun (slot, usage) =>
    usageFinding? slot usage
  (⟨header.name, header.label, header.owner, header.modifiers.isPublic, header.parameters,
    header.result, state.slots.toList, body, header.decl.span⟩,
    state.findings.toList ++ stopped ++ unused)

end MethodHeader

/-- A typed program with everything found in its text, in the order of the text. The program means
something only if no finding is an error. -/
structure CheckedProgram where
  program : TypedProgram
  findings : List Finding

/-- The class of a typed program, with the indices of its methods. -/
def ClassInfo.typed (info : ClassInfo) (index : Nat) (headers : Array MethodHeader) : TypedClass where
  fullName := info.fullName
  isPublic := info.modifiers.isPublic
  isStatic := info.modifiers.isStatic
  methods := (headers.toList.zipIdx.filter fun (header, _) => header.owner == index).map (·.2)

/-- Checks a source text against libraries. -/
def CompilationUnit.check (unit : CompilationUnit) (libraries : LibrarySet) : CheckedProgram :=
  let collected := Collected.ofUnit unit
  let environment := collected.environment libraries
  let usingFindings := collected.directives.flatMap (environment.usingFindings [])
  let (headers, headerFindings) := environment.headers collected.methods.toList
  let checked := headers.toList.map fun header => header.check environment headers
  let classes := collected.classes.toList.zipIdx.map fun (info, index) => info.typed index headers
  { program := ⟨classes, checked.map (·.1)⟩
    findings := Finding.sorted
      (collected.findings ++ usingFindings ++ headerFindings ++ checked.flatMap (·.2)) }

end Snippet
