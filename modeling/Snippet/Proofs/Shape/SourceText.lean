import Mathlib.Data.List.Forall2
import Snippet.Compiler.Basic
import Snippet.Proofs.Shape.TypeText
import Snippet.Proofs.Skeleton.Rendering

/-!
The source text for a body of a shape. Main statement: it begins with pieces that are read by themselves,
up to the body.
-/

namespace Snippet

open Text

theorem ok_bind {ε α β : Type} (value : α) (rest : α → Except ε β) : Except.ok value >>= rest = rest value := rfl

/-- A sequence of two results is one if both are. -/
theorem of_bind_eq_ok {ε α β : Type} {first : Except ε α} {rest : α → Except ε β} {result : β}
    (isResult : first >>= rest = .ok result) : ∃ value, first = .ok value ∧ rest value = .ok result := by
  cases first with
  | error fault => cases isResult
  | ok value => exact ⟨value, rfl, isResult⟩

/-! ### Skeletons -/

/-- The pieces of which the default skeleton is written. -/
def SkeletonPiece.default : List SkeletonPiece :=
  [.chunk "\nusing System;\n", .marker .usings false, .chunk "\n\nnamespace ", .marker .space false,
    .chunk "\n\x7b\n    public static class ", .marker .className false,
    .chunk "\n    \x7b\n        public static ", .marker .returnType false, .chunk " ", .marker .methodName false,
    .chunk "(", .marker .parameters false, .chunk ")\n        \x7b\n            ", .marker .body false,
    .chunk "\n        \x7d\n    \x7d\n\x7d"]

theorem SkeletonPiece.write_default : write default = defaultSkeleton := by
  decide +kernel

/-- The end of the default skeleton. -/
def skeletonEnd : List Char := "\n        \x7d\n    \x7d\n\x7d".toList

/-- The default skeleton with its slots filled. -/
theorem renderSkeleton_default (fill : SkeletonSlot → String) :
    renderSkeleton defaultSkeleton fill = String.ofList ("\nusing System;\n".toList ++ (fill .usings).toList ++
      "\n\nnamespace ".toList ++ (fill .space).toList ++ "\n\x7b\n    public static class ".toList ++
      (fill .className).toList ++ "\n    \x7b\n        public static ".toList ++ (fill .returnType).toList ++
      " ".toList ++ (fill .methodName).toList ++ "(".toList ++ (fill .parameters).toList ++
      ")\n        \x7b\n            ".toList ++ (fill .body).toList ++ skeletonEnd) := by
  rw [← SkeletonPiece.write_default, renderSkeleton_written, ← String.toList_inj, String.toList_ofList,
    SkeletonPiece.fillAll, String.toList_join]
  simp only [SkeletonPiece.default, SkeletonPiece.filled, List.map_cons, List.map_nil, List.flatMap_cons,
    List.flatMap_nil, List.append_assoc, List.append_nil]
  rfl

/-! ### Lines -/

theorem linesFrom_append {line : List Char} (oneLine : '\n' ∉ line) (started rest : List Char) :
    linesFrom started (line ++ rest) = linesFrom (line.reverse ++ started) rest := by
  induction line generalizing started with
  | nil => rfl
  | cons character others ih =>
      rw [List.mem_cons, not_or] at oneLine
      rw [List.cons_append, linesFrom, ih oneLine.2, List.reverse_cons, List.append_assoc]
      · rfl
      · exact fun isNewline => oneLine.1 isNewline.symm

/-- Lines that are joined are the lines of what they are joined to. -/
theorem linesFrom_intercalate {lines : List (List Char)}
    (areLines : ∀ line ∈ lines, line ≠ [] ∧ '\n' ∉ line ∧ line.getLast? ≠ some '\r') :
    linesFrom [] (['\n'].intercalate lines) = lines := by
  induction lines with
  | nil => rfl
  | cons first rest ih =>
      rw [List.forall_mem_cons] at areLines
      obtain ⟨⟨isSome, oneLine, noReturn⟩, areLines⟩ := areLines
      cases rest with
      | nil =>
        have last := linesFrom_append oneLine [] []
        rw [List.append_nil, List.append_nil] at last
        rw [List.intercalate_singleton, last, linesFrom, List.reverse_reverse]
        simp [isSome]
      | cons second others =>
        rw [List.intercalate_cons_cons, List.append_assoc, linesFrom_append oneLine, List.append_nil,
          List.singleton_append, linesFrom, List.reverse_reverse, ih areLines, withoutReturn]
        simp [noReturn]

theorem lines_intercalate {lines : List String}
    (areLines : ∀ line ∈ lines, line.toList ≠ [] ∧ '\n' ∉ line.toList ∧ line.toList.getLast? ≠ some '\r') :
    Text.lines (String.intercalate "\n" lines) = lines := by
  have same : String.ofList ∘ String.toList = id := funext fun _ => String.ofList_toList
  have joined : (String.intercalate "\n" lines).toList = ['\n'].intercalate (lines.map String.toList) :=
    String.toList_intercalate
  have areLines : ∀ line ∈ lines.map String.toList, line ≠ [] ∧ '\n' ∉ line ∧ line.getLast? ≠ some '\r' := by
    intro line member
    obtain ⟨text, isLine, rfl⟩ := List.mem_map.1 member
    exact areLines text isLine
  rw [Text.lines, joined, linesFrom_intercalate areLines, List.map_map, same, List.map_id]

/-! ### Using directives -/

/-- Whether all names in a namespace are identifiers. -/
def IsDotted (space : String) : Prop := ∀ name ∈ splitAt '.' space, isIdentifier name = true

theorem isDotted_of_all {space : String} (all : (splitAt '.' space).all isIdentifier = true) : IsDotted space :=
  List.all_eq_true.1 all

theorem isDotted_system : IsDotted "System" := isDotted_of_all rfl

/-- The line of a using directive. -/
def usingLine (space : String) : String := "using " ++ space ++ ";"

/-- The pieces of a using directive. -/
def Piece.directive (space : String) : List Piece :=
  [.word "using", .blank ' '] ++ dotted (splitAt '.' space) ++ [.mark .semicolon]

theorem Piece.texts_directive (space : String) : texts (directive space) = (usingLine space).toList := by
  rw [directive, texts_append, texts_append, texts_dotted_splitAt]
  simp only [usingLine, String.toList_append]
  rfl

theorem Piece.allStand_directive {space : String} (isDotted : IsDotted space) (next : Option Char) :
    allStand (directive space) next = true := by
  have ends : allStand [.mark .semicolon] next = true := Bool.and_eq_true_iff.2 ⟨stands_semicolon _, rfl⟩
  have names : allStand (dotted (splitAt '.' space)) (some ';') = true :=
    allStand_dotted (fun name isName => isWord_of_isIdentifier (isDotted name isName)) rfl
  rw [directive, List.append_assoc, allStand_append, allStand_append]
  exact Bool.and_eq_true_iff.2 ⟨rfl, Bool.and_eq_true_iff.2 ⟨names, ends⟩⟩

/-- Directives on lines of their own consist of their pieces with a line end between each two. -/
theorem Piece.texts_directives (spaces : List String) :
    texts ([.blank '\n'].intercalate (spaces.map directive)) =
      (String.intercalate "\n" (spaces.map usingLine)).toList := by
  rw [texts_intercalate, String.toList_intercalate, List.map_map, List.map_map]
  congr 2
  exact funext texts_directive

theorem Piece.allStand_directives {spaces : List String} (areDotted : ∀ space ∈ spaces, IsDotted space)
    (next : Option Char) : allStand ([.blank '\n'].intercalate (spaces.map directive)) next = true := by
  refine allStand_intercalate rfl (fun _ => rfl) fun part member => ?_
  obtain ⟨space, isSpace, rfl⟩ := List.mem_map.1 member
  exact ⟨allStand_directive (areDotted space isSpace) _, allStand_directive (areDotted space isSpace) _⟩

theorem continuesName_of_isWord {word : String} (isWord : isWord word = true) :
    ∀ character ∈ word.toList, continuesName character = true := by
  unfold Snippet.isWord at isWord
  split at isWord
  · cases isWord
  · next first rest spelled =>
    obtain ⟨starts, goesOn⟩ := Bool.and_eq_true_iff.1 isWord
    rw [spelled]
    refine List.forall_mem_cons.2 ⟨?_, List.all_eq_true.1 goesOn⟩
    rw [continuesName, starts, Bool.true_or, Bool.true_or]

/-- A using directive of identifiers is one line. -/
theorem usingLine_isLine {space : String} (dotted : IsDotted space) : (usingLine space).toList ≠ [] ∧
    '\n' ∉ (usingLine space).toList ∧ (usingLine space).toList.getLast? ≠ some '\r' := by
  have oneLine : '\n' ∉ space.toList := by
    intro member
    rw [← intercalate_splitCharacters '.' space.toList] at member
    rcases mem_of_mem_intercalate member with isDot | ⟨part, isPart, inPart⟩
    · exact absurd isDot (by decide)
    · have identifier := dotted (String.ofList part) (List.mem_map_of_mem isPart)
      have goesOn := continuesName_of_isWord (isWord_of_isIdentifier identifier) '\n'
      rw [String.toList_ofList] at goesOn
      exact absurd (goesOn inPart) (by decide)
  have spelled : (usingLine space).toList = "using ".toList ++ space.toList ++ [';'] := by
    simp only [usingLine, String.toList_append]
    rfl
  rw [spelled, List.getLast?_concat]
  refine ⟨by simp, ?_, by decide⟩
  simp only [List.mem_append, oneLine, or_false]
  decide

/-- Whether the directive of a namespace is a line that a skeleton lacks. -/
def lacksDirective (skeleton space : String) : Bool :=
  Text.trim (usingLine space) != "" && !hasLine skeleton (usingLine space) && !hasLine "" (usingLine space)

/-- The directives of a declaration, without those that the skeleton has. -/
theorem joinUsings_eq (skeleton : String) {spaces : List String} (areDotted : ∀ space ∈ spaces, IsDotted space) :
    joinUsings skeleton "" (String.intercalate "\n" (spaces.map usingLine)) =
      String.intercalate "\n" ((spaces.filter (lacksDirective skeleton)).map usingLine) := by
  have areLines : ∀ line ∈ spaces.map usingLine, line.toList ≠ [] ∧ '\n' ∉ line.toList ∧
      line.toList.getLast? ≠ some '\r' := by
    intro line member
    obtain ⟨space, isSpace, rfl⟩ := List.mem_map.1 member
    exact usingLine_isLine (areDotted space isSpace)
  unfold joinUsings
  rw [lines_intercalate areLines, List.filter_map]
  rfl

/-! ### Declarations -/

/-- The keyword of a passing mode with the blank behind it. -/
def PassMode.pieces (mode : PassMode) : List Piece :=
  mode.keyword?.elim [] fun keyword => [.word keyword, .blank ' ']

/-- The pieces of a parameter with a name. -/
def ShapeParameter.pieces (parameter : ShapeParameter) (name : String) : List Piece :=
  parameter.mode.pieces ++ parameter.type.pieces ++ [.blank ' ', .word name]

theorem TypeDesc.IsNamed.requireName {type : TypeDesc} (named : type.IsNamed) :
    ∃ name, type.requireName = .ok name ∧ type.Spells name := by
  obtain ⟨name, isName, spelled⟩ := named.spells
  refine ⟨name, ?_, isName, spelled⟩
  rw [TypeDesc.requireName, isName]

/-- Whether a declaration is that of a parameter. -/
def ShapeParameter.Declares (parameter : ShapeParameter) (declared : ParameterDeclaration) : Prop :=
  declared.mode = parameter.mode ∧ parameter.type.Spells declared.typeName

theorem ShapeParameter.mapM_declare {parameters : List ShapeParameter}
    (named : ∀ parameter ∈ parameters, parameter.type.IsNamed) :
    ∃ declared, parameters.mapM (·.declare) = .ok declared ∧
      List.Forall₂ ShapeParameter.Declares parameters declared := by
  induction parameters with
  | nil => exact ⟨[], rfl, .nil⟩
  | cons first rest ih =>
      rw [List.forall_mem_cons] at named
      obtain ⟨name, isName, spells⟩ := named.1.requireName
      obtain ⟨declared, areDeclared, declare⟩ := ih named.2
      refine ⟨⟨first.mode, name⟩ :: declared, ?_, .cons ⟨rfl, spells⟩ declare⟩
      rw [List.mapM_cons, areDeclared, ShapeParameter.declare, isName]
      rfl

theorem ShapeParameter.Declares.texts {parameter : ShapeParameter} {declared : ParameterDeclaration}
    (declares : parameter.Declares declared) (name : String) :
    (declared.mode.label declared.typeName ++ " " ++ name).toList = Piece.texts (parameter.pieces name) := by
  obtain ⟨mode, -, spelled⟩ := declares
  have label : (declared.mode.label declared.typeName).toList =
      Piece.texts (parameter.mode.pieces ++ parameter.type.pieces) := by
    rw [mode, Piece.texts_append, ← spelled]
    cases parameter.mode <;> first | rfl | exact String.toList_append
  rw [String.toList_append, String.toList_append, label, ShapeParameter.pieces, Piece.texts_append, List.append_assoc]
  simp [Piece.text]

/-- The parameter list of a declaration consists of the pieces of the parameters. -/
theorem ShapeParameter.parameterList_eq {parameters : List ShapeParameter} {declared : List ParameterDeclaration}
    (declare : List.Forall₂ ShapeParameter.Declares parameters declared) {names : List String}
    (sameLength : names.length = parameters.length) : parameterList declared names =
      .ok (String.ofList (Piece.texts (Piece.listed (List.zipWith ShapeParameter.pieces parameters names)))) := by
  rw [parameterList, if_pos (declare.length_eq.symm.trans sameLength.symm)]
  have entries : ((declared.zip names).map fun entry =>
      (entry.1.mode.label entry.1.typeName ++ " " ++ entry.2).toList) =
      (List.zipWith ShapeParameter.pieces parameters names).map Piece.texts := by
    clear sameLength
    induction declare generalizing names with
    | nil => rfl
    | cons declares _ ih =>
        cases names with
        | nil => rfl
        | cons name names => exact congrArg₂ List.cons (declares.texts name) ih
  rw [Piece.listed, Piece.texts_intercalate, ← entries]
  refine congrArg _ (String.toList_inj.1 ?_)
  rw [String.toList_ofList, String.toList_intercalate, List.map_map]
  rfl

theorem length_argumentNames {given : Option (List String)} {count : Nat} {names : List String}
    (areNames : argumentNames given count = .ok names) : names.length = count := by
  unfold argumentNames at areNames
  split at areNames
  · split at areNames
    · next sameLength =>
      cases areNames
      exact sameLength
    · cases areNames
  · split at areNames <;> cases areNames <;> rfl

/-- Names of parameters are identifiers if the given ones are. -/
theorem isIdentifier_argumentNames {given : Option (List String)}
    (identifiers : ∀ names, given = some names → ∀ name ∈ names, isIdentifier name = true) {count : Nat}
    {names : List String} (areNames : argumentNames given count = .ok names) :
    ∀ name ∈ names, isIdentifier name = true := by
  unfold argumentNames at areNames
  split at areNames
  · split at areNames
    · cases areNames
      exact identifiers _ rfl
    · cases areNames
  · split at areNames
    · cases areNames
      exact fun _ member => absurd member List.not_mem_nil
    · cases areNames
      intro name member
      rw [List.mem_singleton.1 member]
      rfl
    · cases areNames

/-! ### Headings -/

/-- The pieces of a result type or of the word for none. -/
def CallableShape.resultPieces (shape : CallableShape) : List Piece :=
  shape.result.elim [.word noResult] TypeDesc.pieces

/-- The full name of the result type or the word for none. -/
def CallableShape.resultText (shape : CallableShape) : String := String.ofList (Piece.texts shape.resultPieces)

/-- The namespaces of a shape's types whose directives the default skeleton lacks. -/
def CallableShape.missingSpaces (shape : CallableShape) : List String :=
  (Declaration.spacesOf shape.types).filter (lacksDirective defaultSkeleton)

/-- The pieces that open the namespace and the class of a body. -/
def Piece.opening : List Piece :=
  [.blank '\n', .blank '\n', .word "namespace", .blank ' ', .word "DynamicCompilation", .blank '\n',
    .mark .leftBrace, .blank '\n', .blank ' ', .blank ' ', .blank ' ', .blank ' ', .word "public", .blank ' ',
    .word "static", .blank ' ', .word "class", .blank ' ', .word "Executer", .blank '\n', .blank ' ', .blank ' ',
    .blank ' ', .blank ' ', .mark .leftBrace, .blank '\n', .blank ' ', .blank ' ', .blank ' ', .blank ' ',
    .blank ' ', .blank ' ', .blank ' ', .blank ' ', .word "public", .blank ' ', .word "static", .blank ' ']

/-- The pieces that end the parameters and open a body. -/
def Piece.bodyOpening : List Piece :=
  [.mark .rightParen, .blank '\n', .blank ' ', .blank ' ', .blank ' ', .blank ' ', .blank ' ', .blank ' ',
    .blank ' ', .blank ' ', .mark .leftBrace, .blank '\n', .blank ' ', .blank ' ', .blank ' ', .blank ' ',
    .blank ' ', .blank ' ', .blank ' ', .blank ' ', .blank ' ', .blank ' ', .blank ' ', .blank ' ']

/-- The pieces of a source text in front of the body. -/
def CallableShape.heading (shape : CallableShape) (spaces names : List String) : List Piece :=
  [.blank '\n'] ++ Piece.directive "System" ++ [.blank '\n'] ++
    [.blank '\n'].intercalate (spaces.map Piece.directive) ++ Piece.opening ++ shape.resultPieces ++
    [.blank ' ', .word "Execute", .mark .leftParen] ++
    Piece.listed (List.zipWith ShapeParameter.pieces shape.parameters names) ++ Piece.bodyOpening

/-- Whether all names in the full names of a shape's types are identifiers. -/
def CallableShape.IsNamed (shape : CallableShape) : Prop := ∀ type ∈ shape.types, type.IsNamed

/-- The options in which a caller chooses only the names of the parameters, libraries and warnings. -/
def CompileOptions.plain (names : Option (List String)) (references : List Library) (policy : WarningPolicy) :
    CompileOptions :=
  { CompileOptions.default with argumentNames := names, references, policy }

namespace CallableShape

variable {shape : CallableShape}

theorem IsNamed.parameters (named : shape.IsNamed) : ∀ parameter ∈ shape.parameters, parameter.type.IsNamed :=
  fun _ member => named _ (List.mem_append_left _ (List.mem_map_of_mem member))

theorem IsNamed.result (named : shape.IsNamed) {type : TypeDesc} (isResult : shape.result = some type) :
    type.IsNamed := by
  refine named type (List.mem_append_right _ ?_)
  rw [isResult]
  exact List.mem_singleton.2 rfl

theorem mem_distinct {texts : List String} {text : String} (member : text ∈ Declaration.distinct texts) :
    text ∈ texts := by
  let add (seen : List String) (next : String) : List String := if seen.contains next then seen else next :: seen
  have known (others seen : List String) (found : text ∈ others.foldl add seen) : text ∈ seen ∨ text ∈ others := by
    induction others generalizing seen with
    | nil => exact .inl found
    | cons first rest ih =>
        rcases ih (add seen first) found with inSeen | inRest
        · unfold add at inSeen
          split at inSeen
          · exact .inl inSeen
          · exact (List.mem_cons.1 inSeen).symm.imp id fun same => List.mem_cons.2 (.inl same)
        · exact .inr (List.mem_cons_of_mem first inRest)
  exact (known texts [] (List.mem_reverse.1 member)).resolve_left List.not_mem_nil

theorem IsNamed.dotted (named : shape.IsNamed) : ∀ space ∈ Declaration.spacesOf shape.types, IsDotted space := by
  intro space member name isName
  obtain ⟨type, isType, isSpace⟩ := List.mem_filterMap.1 (mem_distinct member)
  obtain ⟨hasSpace, notEmpty⟩ := Option.filter_eq_some_iff.1 isSpace
  obtain ⟨-, identifiers, -⟩ := named type isType
  refine identifiers name (List.mem_append_left _ (List.mem_append_left _ ?_))
  have isSome : ¬space.isEmpty = true := by simpa using notEmpty
  rwa [hasSpace, Option.elim_some, if_neg isSome]

/-- A shape whose types are named has a declaration. -/
theorem IsNamed.declare (named : shape.IsNamed) : ∃ declared : List ParameterDeclaration,
    shape.declare = .ok ⟨declared, shape.resultText, Declaration.spacesOf shape.types⟩ ∧
      List.Forall₂ ShapeParameter.Declares shape.parameters declared := by
  obtain ⟨declared, areDeclared, declare⟩ := ShapeParameter.mapM_declare named.parameters
  refine ⟨declared, ?_, declare⟩
  unfold CallableShape.declare resultText resultPieces
  rw [areDeclared]
  cases hasResult : shape.result with
  | none => rfl
  | some type =>
    obtain ⟨name, isName, -, spelled⟩ := (named.result hasResult).requireName
    show (Except.ok declared >>= fun parameters => type.requireName >>= fun result => _) = _
    rw [isName, Option.elim_some, ← spelled, String.ofList_toList]
    rfl

/-- The source text for a body: the heading, the body and the end of the skeleton. -/
def sourceText (shape : CallableShape) (names : List String) (body : String) : String :=
  String.ofList (Piece.texts (shape.heading shape.missingSpaces names) ++
    ((addReturn body shape.resultText).toList ++ skeletonEnd))

/-- The text that is generated for a declaration with the names of its parameters. -/
theorem generate_eq (named : shape.IsNamed) (names : List String) (body : String) (given : Option (List String))
    (references : List Library) (policy : WarningPolicy) : (CompileOptions.plain given references policy).generate body
      (String.ofList (Piece.texts (Piece.listed (List.zipWith ShapeParameter.pieces shape.parameters names))))
      shape.resultText (joinUsings defaultSkeleton "" (String.intercalate "\n"
        ((Declaration.spacesOf shape.types).map usingLine))) = .ok (shape.sourceText names body) := by
  have usings : joinUsings defaultSkeleton "" (String.intercalate "\n"
      ((Declaration.spacesOf shape.types).map usingLine)) =
        String.intercalate "\n" (shape.missingSpaces.map usingLine) := joinUsings_eq defaultSkeleton named.dotted
  have first : Piece.texts ([.blank '\n'] ++ Piece.directive "System" ++ [.blank '\n']) =
      "\nusing System;\n".toList := by
    rw [Piece.texts_append, Piece.texts_append, Piece.texts_directive]
    rfl
  have opening : Piece.texts Piece.opening = "\n\nnamespace ".toList ++ "DynamicCompilation".toList ++
      "\n\x7b\n    public static class ".toList ++ "Executer".toList ++
      "\n    \x7b\n        public static ".toList := by
    rfl
  have name : Piece.texts [.blank ' ', .word "Execute", .mark .leftParen] =
      " ".toList ++ "Execute".toList ++ "(".toList := by
    rfl
  have bodyOpening : Piece.texts Piece.bodyOpening = ")\n        \x7b\n            ".toList := rfl
  refine congrArg Except.ok ((renderSkeleton_default _).trans ?_)
  rw [sourceText, heading]
  simp only [Piece.texts_append] at first ⊢
  simp only [GenerationRequest.fill, usings, ← Piece.texts_directives, resultText, String.toList_ofList, first,
    opening, name, bodyOpening, List.append_assoc]
  rfl

/-- The names of the parameters decide whether a shape has a source text, which is then known. -/
theorem IsNamed.shapeSource_eq (named : shape.IsNamed) (body : String) (given : Option (List String))
    (references : List Library) (policy : WarningPolicy) :
    Compiler.shapeSource shape body (.plain given references policy) =
      (shape.sourceText · body) <$> argumentNames given shape.arity := by
  obtain ⟨declared, isDeclaration, declare⟩ := named.declare
  unfold Compiler.shapeSource
  rw [isDeclaration, ok_bind, show (CompileOptions.plain given references policy).argumentNames = given from rfl]
  cases areNames : argumentNames given shape.arity with
  | error failure => rfl
  | ok names =>
    rw [ok_bind, ShapeParameter.parameterList_eq declare (length_argumentNames areNames), ok_bind]
    exact generate_eq named names body given references policy

/-- A parameter is read by itself in front of a comma or a parenthesis. -/
theorem allStand_parameters (named : shape.IsNamed) {names : List String}
    (identifiers : ∀ name ∈ names, isIdentifier name = true) {next : Option Char}
    (stops : next.any continuesName = false) :
    ∀ part ∈ List.zipWith ShapeParameter.pieces shape.parameters names, Piece.allStand part next = true := by
  intro part member
  rw [← List.map_uncurry_zip_eq_zipWith] at member
  obtain ⟨⟨parameter, name⟩, inZip, rfl⟩ := List.mem_map.1 member
  obtain ⟨isParameter, isName⟩ := List.of_mem_zip inZip
  have mode (next : Option Char) : Piece.allStand parameter.mode.pieces next = true := by
    cases parameter.mode <;> rfl
  have type : Piece.allStand parameter.type.pieces (some ' ') = true :=
    (named.parameters parameter isParameter).allStand (.inl rfl)
  have last : Piece.allStand [.blank ' ', .word name] next = true :=
    Bool.and_eq_true_iff.2 ⟨rfl, Bool.and_eq_true_iff.2
      ⟨Piece.stands_word (isWord_of_isIdentifier (identifiers name isName)) stops, rfl⟩⟩
  show Piece.allStand (parameter.mode.pieces ++ parameter.type.pieces ++ [.blank ' ', .word name]) next = true
  rw [Piece.allStand_append, Piece.allStand_append, mode, last]
  exact Bool.and_eq_true_iff.2 ⟨type, rfl⟩

theorem IsNamed.allStand_result (named : shape.IsNamed) : Piece.allStand shape.resultPieces (some ' ') = true := by
  unfold resultPieces
  cases hasResult : shape.result with
  | none => rfl
  | some type => exact (named.result hasResult).allStand (.inl rfl)

/-- The heading is read by itself, whatever the body is. -/
theorem IsNamed.allStand_heading (named : shape.IsNamed) {spaces names : List String}
    (areDotted : ∀ space ∈ spaces, IsDotted space) (identifiers : ∀ name ∈ names, isIdentifier name = true)
    (next : Option Char) : Piece.allStand (shape.heading spaces names) next = true := by
  have newline (next : Option Char) : Piece.allStand [.blank '\n'] next = true := rfl
  have opening (next : Option Char) : Piece.allStand Piece.opening next = true := rfl
  have bodyOpening (next : Option Char) : Piece.allStand Piece.bodyOpening next = true := rfl
  have name (next : Option Char) :
      Piece.allStand [.blank ' ', .word "Execute", .mark .leftParen] next = true := by
    cases next <;> rfl
  have parameters : Piece.allStand (Piece.listed (List.zipWith ShapeParameter.pieces shape.parameters names))
      (some ')') = true :=
    Piece.allStand_listed fun part member => ⟨allStand_parameters named identifiers rfl part member,
      allStand_parameters named identifiers rfl part member⟩
  simp only [heading, Piece.allStand_append, newline, Piece.allStand_directive isDotted_system,
    Piece.allStand_directives areDotted, opening, name, bodyOpening, Bool.true_and, Bool.and_true]
  exact Bool.and_eq_true_iff.2 ⟨named.allStand_result, parameters⟩

end CallableShape

end Snippet
