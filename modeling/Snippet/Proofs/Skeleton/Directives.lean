import Snippet.Proofs.Emit.Characters
import Snippet.Proofs.Shape.Reading
import Snippet.Proofs.Typing.Declared
import Snippet.Proofs.Typing.ReorderingProgram

/-!
Using directives around a body. Main statement: which namespaces are in use in the source text for a body of a
shape, and when one of them is in use twice.
-/

namespace Snippet

open Text

/-! ### Texts of directives -/

/-- Texts that are read by themselves are read together. -/
theorem Piece.ReadAs.append {first second rest : List Char} {tokens tokens' : List Token}
    (reads : ReadAs first tokens (second ++ rest)) (reads' : ReadAs second tokens' rest) :
    ReadAs (first ++ second) (tokens ++ tokens') rest := by
  intro offset
  obtain ⟨placed, middle, rfl, isFront⟩ := reads offset
  obtain ⟨placed', behind, rfl, isBehind⟩ := reads' middle
  refine ⟨placed ++ placed', behind, List.map_append, ?_⟩
  rw [List.append_assoc, isFront, isBehind, List.map_append, List.append_assoc]

/-- Nothing is read as no token. -/
theorem Piece.ReadAs.eq_nil {rest : List Char} {tokens : List Token} (reads : ReadAs [] tokens rest) :
    tokens = [] := by
  -- the rest would have any number of lexemes
  have many (count offset : Nat) : count * tokens.length ≤ (Lexer.lexemes ⟨rest, offset⟩).length := by
    induction count generalizing offset with
    | zero => omega
    | succ count ih =>
      obtain ⟨placed, behind, rfl, isFront⟩ := reads offset
      have more := ih behind
      rw [List.nil_append] at isFront
      rw [isFront, List.length_append, List.length_map, Nat.succ_mul]
      rw [List.length_map] at more ⊢
      omega
  refine List.eq_nil_of_length_eq_zero (Nat.eq_zero_of_not_pos fun isSome => ?_)
  have tooMany := many ((Lexer.lexemes ⟨rest, 0⟩).length + 1) 0
  exact absurd (Nat.le_trans (Nat.le_mul_of_pos_right _ isSome) tooMany) (by omega)

/-- The tokens of the using directives of some namespaces. -/
def Token.directives (spaces : List String) : List Token :=
  spaces.flatMap fun space => Piece.tokens (Piece.directive space)

/-- Whether a text is read as the using directives of some namespaces when a rest stands behind it. How the
directives are laid out does not matter. -/
structure ReadsAsUsings (text : List Char) (spaces : List String) (rest : List Char) : Prop where
  areDotted : ∀ space ∈ spaces, IsDotted space
  reads : Piece.ReadAs text (Token.directives spaces) rest

namespace ReadsAsUsings

variable {first second rest : List Char} {spaces spaces' : List String}

theorem append (reads : ReadsAsUsings first spaces (second ++ rest)) (reads' : ReadsAsUsings second spaces' rest) :
    ReadsAsUsings (first ++ second) (spaces ++ spaces') rest where
  areDotted := List.forall_mem_append.2 ⟨reads.areDotted, reads'.areDotted⟩
  reads := by
    rw [Token.directives, List.flatMap_append]
    exact reads.reads.append reads'.reads

/-- No text stands for no directives. -/
theorem eq_nil (reads : ReadsAsUsings [] spaces rest) : spaces = [] := by
  cases spaces with
  | nil => rfl
  | cons space others =>
    obtain ⟨name, more, isDirective, -⟩ := Piece.tokens_directive (reads.areDotted space List.mem_cons_self)
    have isNone := reads.reads.eq_nil
    rw [Token.directives, List.flatMap_cons, isDirective] at isNone
    cases isNone

theorem none : ReadsAsUsings [] [] rest where
  areDotted := nofun
  reads offset := ⟨[], offset, rfl, rfl⟩

theorem blank {character : Char} (isBlank : isLayout character = true) : ReadsAsUsings [character] [] rest where
  areDotted := nofun
  reads := Piece.readAs_blank isBlank

/-- Directives on lines of their own. -/
theorem lines (areDotted : ∀ space ∈ spaces, IsDotted space) :
    ReadsAsUsings (String.intercalate "\n" (spaces.map usingLine)).toList spaces rest where
  areDotted := areDotted
  reads := by
    rw [← Piece.texts_directives, Token.directives, ← CallableShape.tokens_directives]
    exact Piece.readAs_texts (Piece.allStand_directives areDotted _)

/-- Directives on lines of their own behind a line end. -/
theorem newLines (areDotted : ∀ space ∈ spaces, IsDotted space) :
    ReadsAsUsings ('\n' :: (String.intercalate "\n" (spaces.map usingLine)).toList) spaces rest :=
  (blank rfl).append (lines areDotted)

end ReadsAsUsings

/-! ### Joined directives -/

/-- Whether the directive of a namespace is a line neither of a skeleton nor of a caller's text. -/
def lacksLine (skeleton caller space : String) : Bool :=
  !hasLine skeleton (usingLine space) && !hasLine caller (usingLine space)

theorem mem_trimFront {characters : List Char} {character : Char} (member : character ∈ characters)
    (solid : isWhiteSpace character = false) : character ∈ trimFront characters := by
  rw [← List.takeWhile_append_dropWhile (p := isWhiteSpace) (l := characters), List.mem_append] at member
  refine member.resolve_left fun isTaken => ?_
  rw [List.all_eq_true.1 List.all_takeWhile character isTaken] at solid
  cases solid

/-- Lines are compared by their characters. -/
theorem hasLine_eq (text line : String) : hasLine text line =
    (linesFrom [] text.toList).any fun existing => trimEnds existing == trimEnds line.toList := by
  rw [hasLine, lines, List.any_map]
  refine congrArg (List.any _) (funext fun existing => ?_)
  rw [Function.comp_apply, trim, trim, String.toList_ofList, Bool.eq_iff_iff, beq_iff_eq, beq_iff_eq, String.ofList_inj]

theorem lacksLine_eq (skeleton caller : String) : lacksLine skeleton caller = fun space =>
    !((linesFrom [] skeleton.toList).any fun existing => trimEnds existing == trimEnds (usingLine space).toList) &&
      !((linesFrom [] caller.toList).any fun existing => trimEnds existing == trimEnds (usingLine space).toList) := by
  funext space
  rw [lacksLine, hasLine_eq, hasLine_eq]

theorem trim_usingLine (space : String) : trim (usingLine space) ≠ "" := by
  intro isEmpty
  have spelled : (usingLine space).toList = 'u' :: ("sing " ++ space ++ ";").toList := by
    simp only [usingLine, String.toList_append]
    rfl
  have member : 'u' ∈ trimEnds (usingLine space).toList := by
    refine List.mem_reverse.2 (mem_trimFront (List.mem_reverse.2 (mem_trimFront ?_ (by decide))) (by decide))
    rw [spelled]
    exact List.mem_cons_self
  rw [trim, String.ofList_eq_empty_iff] at isEmpty
  rw [isEmpty] at member
  cases member

/-- The directives that are added to those of a caller are the ones that no line declares. -/
theorem joinUsings_lines (skeleton caller : String) {spaces : List String}
    (areDotted : ∀ space ∈ spaces, IsDotted space) :
    let missing := (spaces.filter (lacksLine skeleton caller)).map usingLine
    joinUsings skeleton caller (String.intercalate "\n" (spaces.map usingLine)) =
      if caller.isEmpty then String.intercalate "\n" missing
      else if missing.isEmpty then caller
      else caller ++ "\n" ++ String.intercalate "\n" missing := by
  have areLines : ∀ line ∈ spaces.map usingLine, line.toList ≠ [] ∧ '\n' ∉ line.toList ∧
      line.toList.getLast? ≠ some '\r' := by
    intro line member
    obtain ⟨space, isSpace, rfl⟩ := List.mem_map.1 member
    exact usingLine_isLine (areDotted space isSpace)
  have same : ((fun line => trim line != "" && !hasLine skeleton line && !hasLine caller line) ∘ usingLine) =
      lacksLine skeleton caller := by
    funext space
    rw [lacksLine, Function.comp_apply, bne_iff_ne.2 (trim_usingLine space), Bool.true_and]
  unfold joinUsings
  rw [lines_intercalate areLines, List.filter_map, same]

/-- The joined text is read as the caller's directives with the added ones behind them. -/
theorem ReadsAsUsings.joinUsings (skeleton : String) {caller : String} {spaces callers : List String} {rest : List Char}
    (areDotted : ∀ space ∈ spaces, IsDotted space)
    (reads : ∀ rest', rest' = rest ∨ rest'.head? = some '\n' → ReadsAsUsings caller.toList callers rest') :
    ReadsAsUsings (Snippet.joinUsings skeleton caller (String.intercalate "\n" (spaces.map usingLine))).toList
      (callers ++ spaces.filter (lacksLine skeleton caller)) rest := by
  have areMissing : ∀ space ∈ spaces.filter (lacksLine skeleton caller), IsDotted space :=
    fun space member => areDotted space (List.mem_filter.1 member).1
  rw [joinUsings_lines skeleton caller areDotted]
  split
  · next isEmpty =>
    -- the callers are none, as an empty text is read as no directives
    have noCaller := reads rest (.inl rfl)
    rw [String.isEmpty_iff.1 isEmpty] at noCaller
    rw [noCaller.eq_nil]
    exact lines areMissing
  split
  · next noMissing =>
    rw [List.map_eq_nil_iff.1 (List.isEmpty_iff.1 noMissing), List.append_nil]
    exact reads rest (.inl rfl)
  · rw [String.toList_append, String.toList_append, List.append_assoc]
    exact (reads _ (.inr rfl)).append (newLines areMissing)

/-! ### Directives of a unit -/

/-- Whether what a text is read as starts with no using directive. -/
def StartsNoUsing (text : List Char) : Prop := ∀ offset : Nat,
  ((Lexer.lexemes ⟨text, offset⟩).filterMap Lexeme.token?).head?.any (·.token.isKeyword .usingWord) = false

theorem Reader.compilationUnit_usings (fuel : Nat) {spaces : List String} (areDotted : ∀ space ∈ spaces, IsDotted space)
    {input : Input} {rest : List PlacedToken} (shows : input.Shows (Token.directives spaces) rest)
    (ends : rest.head?.any (·.token.isKeyword .usingWord) = false) :
    Ensures input (compilationUnit fuel) fun unit _ => unit.usings.map (·.name) = spaces := by
  have stops (next : Input) (behind : next.Shows [] rest) : next.token.isKeyword .usingWord = false := by
    rw [← behind.isRest] at ends
    unfold Input.token
    split
    · next placed others isRest =>
      rw [isRest] at ends
      exact ends
    · rfl
  rw [← List.append_nil (Token.directives spaces)] at shows
  rw [compilationUnit]
  refine (usings_shown fuel areDotted stops shows).bind fun directives next both => ?_
  refine (anything _).bind fun list next _ => .peek ?_
  split
  · exact .pure both.1
  · exact .failHere

/-- A unit has the directives at the front of its text. -/
theorem ReadsAsUsings.usings_ofSource {text tail : List Char} {spaces : List String}
    (reads : ReadsAsUsings text spaces tail) (ends : StartsNoUsing tail) {source : String}
    (isSource : source.toList = text ++ tail) {unit : CompilationUnit}
    (isUnit : CompilationUnit.ofSource source = .ok unit) : unit.usings.map (·.name) = spaces := by
  refine CompilationUnit.of_ofSource isUnit (fun unit => unit.usings.map (·.name) = spaces) fun placed isPlaced => ?_
  obtain ⟨front, middle, isFront, isRead⟩ := reads.reads 0
  obtain ⟨-, rfl⟩ := tokenize_eq_ok_iff.1 isPlaced
  -- the tail has a token at which the directives end, if only that of the end of the file
  obtain ⟨others, span, last⟩ := Lexer.lexemes_endOfFile ⟨tail, middle⟩
  have isSome : (Lexer.lexemes ⟨tail, middle⟩).filterMap Lexeme.token? ≠ [] := by
    rw [last, List.filterMap_append]
    exact List.append_ne_nil_of_right_ne_nil _ (List.cons_ne_nil _ _)
  have same : Lexeme.token? ∘ Lexeme.token = some := rfl
  rw [isSource, isRead, List.filterMap_append, List.filterMap_map, same, List.filterMap_some]
  exact Reader.compilationUnit_usings _ reads.areDotted ⟨isSome, front, rfl, isFront⟩ (ends middle)

/-! ### Duplicates -/

/-- Whether a directive that repeats an earlier one is reported. -/
def Finding.ReportDuplicateUsing (findings : List Finding) : Prop :=
  ∃ finding ∈ findings, ∃ name, finding.problem = .duplicateUsing name

/-- Exactly a name that stands twice or has been seen is reported as a duplicate. -/
theorem Environment.reportDuplicateUsing_iff (environment : Environment) (seen : List String)
    (directives : List UsingDirective) :
    Finding.ReportDuplicateUsing (environment.usingFindings seen directives) ↔
      ¬((directives.map (·.name)).Nodup ∧ ∀ directive ∈ directives, directive.name ∉ seen) := by
  induction directives generalizing seen with
  | nil => simp [Finding.ReportDuplicateUsing, usingFindings]
  | cons directive rest ih =>
    rw [usingFindings]
    split
    · next isSeen =>
      have isSeen : directive.name ∈ seen := by simpa using isSeen
      refine iff_of_true ⟨_, List.mem_cons_self, _, rfl⟩ fun distinct => ?_
      exact distinct.2 directive List.mem_cons_self isSeen
    · next notSeen =>
      have notSeen : directive.name ∉ seen := by simpa using notSeen
      have other : Finding.ReportDuplicateUsing
          (((environment.usingProblem? directive.name).map (Finding.mk · directive.span)).toList ++
            environment.usingFindings (directive.name :: seen) rest) ↔
          Finding.ReportDuplicateUsing (environment.usingFindings (directive.name :: seen) rest) := by
        constructor
        · rintro ⟨finding, member, name, isDuplicate⟩
          refine ⟨finding, (List.mem_append.1 member).resolve_left fun isFirst => ?_, name, isDuplicate⟩
          obtain ⟨problem, isProblem, rfl⟩ := Option.map_eq_some_iff.1 (Option.mem_toList.1 isFirst)
          have isError := usingProblem?_isError isProblem
          rw [show problem = .duplicateUsing name from isDuplicate] at isError
          cases isError
        · rintro ⟨finding, member, isDuplicate⟩
          exact ⟨finding, List.mem_append_right _ member, isDuplicate⟩
      rw [other, ih, List.map_cons, List.nodup_cons, List.forall_mem_cons]
      refine not_congr ⟨?_, ?_⟩
      · rintro ⟨distinct, fresh⟩
        refine ⟨⟨fun member => ?_, distinct⟩, notSeen, fun next isNext isSeen => ?_⟩
        · obtain ⟨next, isNext, same⟩ := List.mem_map.1 member
          exact fresh next isNext (same ▸ List.mem_cons_self)
        · exact fresh next isNext (List.mem_cons_of_mem _ isSeen)
      · rintro ⟨⟨notAgain, distinct⟩, -, fresh⟩
        refine ⟨distinct, fun next isNext isSeen => ?_⟩
        rcases List.mem_cons.1 isSeen with same | isSeen
        · exact notAgain (same ▸ List.mem_map_of_mem isNext)
        · exact fresh next isNext isSeen

/-! ### Namespaces in use -/

namespace Collected

variable {collected collected' : Collected} {spaces : List String}

/-- Whether some namespaces are in use in every class. -/
def UsesAll (collected : Collected) (spaces : List String) : Prop :=
  ∀ info ∈ collected.classes, ∀ space ∈ spaces, space ∈ info.usings

theorem UsesAll.addClass (uses : collected.UsesAll spaces) {info : ClassInfo} (inUse : spaces ⊆ info.usings)
    (methods : List MethodDecl) : (collected.addClass info methods).UsesAll spaces := by
  intro found member space isSpace
  obtain ⟨index, isFound⟩ := Array.mem_iff_getElem?.1 member
  rw [getElem?_addClass] at isFound
  split at isFound
  · cases isFound
    exact inUse isSpace
  · obtain ⟨old, isOld, rfl⟩ := Option.map_eq_some_iff.1 isFound
    have inOld := uses old (Array.mem_of_getElem? isOld) space isSpace
    split <;> exact inOld

theorem UsesAll.of_steps (steps : Relation.ReflTransGen (Step spaces) collected collected')
    (uses : collected.UsesAll spaces) : collected'.UsesAll spaces := by
  induction steps with
  | refl => exact uses
  | tail _ step ih =>
    cases step with
    | addClass info methods inUse => exact ih.addClass inUse methods
    | report | enter => exact ih

/-- The directives at the front of a source text are in effect in all its classes. -/
theorem usesAll_ofUnit (unit : CompilationUnit) : (ofUnit unit).UsesAll (unit.usings.map (·.name)) := by
  refine .of_steps (collectMembers_steps _ "" (List.Subset.refl _) unit.members) fun info member => ?_
  exact absurd member (Array.not_mem_empty info)

end Collected

/-! ### Source texts for a body -/

/-- The source text for a body as a method of a shape, with a given text in the place of the using directives. -/
def Compiler.shapeSourceWith (shape : CallableShape) (body : String) (options : CompileOptions) (usings : String) :
    Except Failure String := do
  let declaration ← shape.declare
  let names ← argumentNames options.argumentNames shape.arity
  let parameters ← parameterList declaration.parameters names
  options.generate body parameters declaration.result usings

theorem Compiler.shapeSource_eq (shape : CallableShape) (body : String) (options : CompileOptions) :
    shapeSource shape body options = shapeSourceWith shape body options (joinUsings options.skeleton options.usings
      (String.intercalate "\n" ((Declaration.spacesOf shape.types).map usingLine))) := by
  unfold shapeSource shapeSourceWith
  cases isDeclared : shape.declare with
  | error failure =>
    show Except.error failure = (Except.error failure : Except Failure String)
    rfl
  | ok declaration =>
    have spaces : declaration.spaces = Declaration.spacesOf shape.types := by
      unfold CallableShape.declare at isDeclared
      obtain ⟨parameters, -, isDeclared⟩ := of_bind_eq_ok isDeclared
      dsimp only at isDeclared
      split at isDeclared
      · obtain ⟨result, -, isDeclared⟩ := of_bind_eq_ok isDeclared
        cases isDeclared
        rfl
      · cases isDeclared
        rfl
    have lines : declaration.usings = String.intercalate "\n" (declaration.spaces.map usingLine) := rfl
    rw [ok_bind, ok_bind, lines, spaces]

/-- A place for using directives at the front of the source texts for a body: directives of the skeleton stand in front
of it and behind it, and then something else. -/
structure UsingsPlace (shape : CallableShape) (body : String) (options : CompileOptions) where
  front : String
  behind : String
  tail : String
  above : List String
  below : List String
  generates : ∀ usings, Compiler.shapeSourceWith shape body options usings = .ok (front ++ usings ++ behind ++ tail)
  readsAbove : ∀ rest, ReadsAsUsings front.toList above rest
  readsBelow : ReadsAsUsings behind.toList below tail.toList
  ends : StartsNoUsing tail.toList

namespace UsingsPlace

variable {shape : CallableShape} {body : String} {options : CompileOptions}

/-- Whether the text that a caller gives is read as using directives: where it stands, and in front of a new line. -/
def Takes (place : UsingsPlace shape body options) (callers : List String) : Prop :=
  ∀ rest, rest = place.behind.toList ++ place.tail.toList ∨ rest.head? = some '\n' →
    ReadsAsUsings options.usings.toList callers rest

/-- The namespaces whose directives the skeleton and the caller give. -/
def declared (place : UsingsPlace shape body options) (callers : List String) : List String :=
  place.above ++ callers ++ place.below

end UsingsPlace

/-! ### The default skeleton -/

theorem startsNoUsing_namespace (rest : List Char) : StartsNoUsing ("\n\nnamespace ".toList ++ rest) := by
  intro offset
  let pieces : List Piece := [.blank '\n', .blank '\n', .word "namespace", .blank ' ']
  have spelled : "\n\nnamespace ".toList = Piece.texts pieces := rfl
  have stand : Piece.allStand pieces rest.head? = true := rfl
  obtain ⟨placed, behind, isFront, isRead⟩ := Piece.readAs_texts stand offset
  obtain ⟨first, rfl, isNamespace⟩ := List.map_eq_singleton_iff.1 isFront
  rw [spelled, isRead]
  exact congrArg (Token.isKeyword · .usingWord) isNamespace

/-- What stands behind the place of the using directives in the default skeleton. -/
def CallableShape.behindUsings (shape : CallableShape) (body : String) (options : CompileOptions)
    (names : List String) : List Char :=
  options.space.toList ++ "\n\x7b\n    public static class ".toList ++ options.className.toList ++
    "\n    \x7b\n        public static ".toList ++ shape.resultText.toList ++ " ".toList ++
    options.methodName.toList ++ "(".toList ++
    Piece.texts (Piece.listed (List.zipWith ShapeParameter.pieces shape.parameters names)) ++
    ")\n        \x7b\n            ".toList ++ (addReturn body shape.resultText).toList ++ skeletonEnd

namespace CallableShape.IsNamed

variable {shape : CallableShape} (named : shape.IsNamed) (body : String) {options : CompileOptions}
  (isDefault : options.skeleton = defaultSkeleton) {names : List String}
  (areNames : argumentNames options.argumentNames shape.arity = .ok names)
include named isDefault areNames

theorem shapeSourceWith_eq (usings : String) : Compiler.shapeSourceWith shape body options usings =
    .ok (String.ofList ("\nusing System;\n".toList ++ usings.toList ++
      ("\n\nnamespace ".toList ++ shape.behindUsings body options names))) := by
  obtain ⟨declared, isDeclaration, declare⟩ := named.declare
  rw [Compiler.shapeSourceWith, isDeclaration, ok_bind, areNames, ok_bind,
    ShapeParameter.parameterList_eq declare (length_argumentNames areNames), ok_bind]
  refine congrArg Except.ok ?_
  show renderSkeleton options.skeleton _ = _
  rw [isDefault, renderSkeleton_default, behindUsings]
  simp only [String.toList_ofList, List.append_assoc, GenerationRequest.fill]

/-- In the default skeleton the directives stand behind the one for `System` and in front of the namespace. -/
def usingsPlace : UsingsPlace shape body options where
  front := "\nusing System;\n"
  behind := ""
  tail := String.ofList ("\n\nnamespace ".toList ++ shape.behindUsings body options names)
  above := ["System"]
  below := []
  generates usings := by
    refine (named.shapeSourceWith_eq body isDefault areNames usings).trans (congrArg Except.ok ?_)
    rw [← String.toList_inj]
    simp only [String.toList_append, String.toList_ofList, List.append_assoc, String.toList_empty, List.nil_append]
  readsAbove rest := (ReadsAsUsings.newLines (List.forall_mem_singleton.2 isDotted_system)).append (.blank rfl)
  readsBelow := .none
  ends := by
    rw [String.toList_ofList]
    exact startsNoUsing_namespace _

theorem declared_usingsPlace (callers : List String) :
    (named.usingsPlace body isDefault areNames).declared callers = "System" :: callers := List.append_nil _

/-- A source text for a body that is read and passes a test. -/
theorem exists_of_any_ofLexemes {joined : List Char} (isJoined : (joinUsings options.skeleton options.usings
      (String.intercalate "\n" ((Declaration.spacesOf shape.types).map usingLine))).toList = joined)
    (test : CompilationUnit → Bool) (passes : (CompilationUnit.ofLexemes (Lexer.lexemes ⟨"\nusing System;\n".toList ++
      joined ++ ("\n\nnamespace ".toList ++ shape.behindUsings body options names), 0⟩)).toOption.any test = true) :
    ∃ source unit, Compiler.shapeSource shape body options = .ok source ∧ CompilationUnit.ofSource source = .ok unit ∧
      test unit = true := by
  have isSource := (Compiler.shapeSource_eq shape body options).trans
    (named.shapeSourceWith_eq body isDefault areNames _)
  rw [isJoined] at isSource
  rw [← CompilationUnit.ofSource_ofList] at passes
  obtain ⟨unit, isUnit, passes⟩ := CompilationUnit.exists_of_any_ofSource passes
  exact ⟨_, unit, isSource, isUnit, passes⟩

end CallableShape.IsNamed

/-- The shape of a function of a list of integers. -/
def CallableShape.counting : CallableShape := .ofTypes [.list .int] (some .int)

theorem CallableShape.counting_isNamed : counting.IsNamed := by
  have int : TypeDesc.int.IsNamed := ⟨rfl, List.all_eq_true.1 rfl, nofun⟩
  have list : (TypeDesc.list .int).IsNamed := ⟨rfl, List.all_eq_true.1 rfl, List.forall_mem_singleton.2 int⟩
  exact List.forall_mem_cons.2 ⟨list, List.forall_mem_singleton.2 int⟩

/-- The options in which a caller chooses only the using directives. -/
def CompileOptions.giving (usings : String) : CompileOptions := { CompileOptions.default with usings }

/-! ### Added directives -/

/-- The namespaces of a shape's types whose directives are added to those of the skeleton and the caller. -/
def CallableShape.addedSpaces (shape : CallableShape) (options : CompileOptions) : List String :=
  (Declaration.spacesOf shape.types).filter (lacksLine options.skeleton options.usings)

theorem Declaration.nodup_spacesOf (types : List TypeDesc) : (spacesOf types).Nodup := by
  let add (seen : List String) (text : String) : List String := if seen.contains text then seen else text :: seen
  have kept (texts seen : List String) (distinct : seen.Nodup) : (texts.foldl add seen).Nodup := by
    induction texts generalizing seen with
    | nil => exact distinct
    | cons text others ih =>
      refine ih (add seen text) ?_
      unfold add
      split
      · exact distinct
      · next notSeen => exact List.nodup_cons.2 ⟨by simpa using notSeen, distinct⟩
  exact (List.reverse_perm _).nodup_iff.2 (kept _ [] List.nodup_nil)

section

variable {shape : CallableShape} {body : String} {options : CompileOptions} (place : UsingsPlace shape body options)
  {callers : List String}

/-- The added directives stand between those of the caller and the rest of the skeleton's. -/
theorem Compiler.usings_shapeSource (takes : place.Takes callers)
    (areDotted : ∀ space ∈ Declaration.spacesOf shape.types, IsDotted space) :
    ∃ source, shapeSource shape body options = .ok source ∧ ∀ unit, CompilationUnit.ofSource source = .ok unit →
      unit.usings.map (·.name) = place.above ++ (callers ++ shape.addedSpaces options ++ place.below) := by
  refine ⟨_, (shapeSource_eq shape body options).trans (place.generates _), fun unit isUnit => ?_⟩
  have joined := (ReadsAsUsings.joinUsings options.skeleton areDotted takes).append place.readsBelow
  refine ((place.readsAbove _).append joined).usings_ofSource place.ends ?_ isUnit
  simp only [String.toList_append, List.append_assoc]

theorem UsingsPlace.perm_declared : (place.above ++ (callers ++ shape.addedSpaces options ++ place.below)).Perm
    (place.declared callers ++ shape.addedSpaces options) := by
  rw [declared, List.append_assoc, List.append_assoc, List.append_assoc]
  exact .append_left _ (.append_left _ List.perm_append_comm)

/-- In the source text for a body a directive stands twice exactly if one is given twice, or if one that is given for a
namespace of the shape's types is no line of its own. A namespace of the shape's types is in use in every class if a
directive is given for it or no line looks like one. -/
theorem Compiler.shapeSource_duplicates (takes : place.Takes callers)
    (areDotted : ∀ space ∈ Declaration.spacesOf shape.types, IsDotted space) :
    ∃ source, shapeSource shape body options = .ok source ∧ ∀ unit, CompilationUnit.ofSource source = .ok unit →
      (∀ environment : Environment, Finding.ReportDuplicateUsing (environment.usingFindings [] unit.usings) ↔
        ¬(place.declared callers).Nodup ∨ ∃ space ∈ Declaration.spacesOf shape.types,
          space ∈ place.declared callers ∧ lacksLine options.skeleton options.usings space = true) ∧
      ∀ space ∈ Declaration.spacesOf shape.types,
        space ∈ place.declared callers ∨ lacksLine options.skeleton options.usings space = true →
          (Collected.ofUnit unit).UsesAll [space] := by
  obtain ⟨source, isSource, reads⟩ := usings_shapeSource place takes areDotted
  refine ⟨source, isSource, fun unit isUnit => ?_⟩
  have perm := @UsingsPlace.perm_declared _ _ _ place callers
  rw [← reads unit isUnit] at perm
  have distinctAdded : (shape.addedSpaces options).Nodup := (Declaration.nodup_spacesOf shape.types).filter _
  constructor
  · intro environment
    -- the added directives are distinct, so what stands twice is given twice, or given and added
    have apart : (∀ first ∈ place.declared callers, ∀ second ∈ shape.addedSpaces options, first ≠ second) ↔
        ¬∃ space ∈ Declaration.spacesOf shape.types,
          space ∈ place.declared callers ∧ lacksLine options.skeleton options.usings space = true := by
      constructor
      · rintro apart ⟨space, isSpace, isDeclared, lacks⟩
        exact apart space isDeclared space (List.mem_filter.2 ⟨isSpace, lacks⟩) rfl
      · rintro never space isDeclared _ isAdded rfl
        obtain ⟨isSpace, lacks⟩ := List.mem_filter.1 isAdded
        exact never ⟨space, isSpace, isDeclared, lacks⟩
    rw [environment.reportDuplicateUsing_iff, perm.nodup_iff, List.nodup_append, apart,
      and_iff_left fun _ _ => List.not_mem_nil, and_iff_right distinctAdded, not_and_or, not_not]
  · intro space isSpace inUse info member _ isSame
    rw [List.mem_singleton.1 isSame]
    refine Collected.usesAll_ofUnit unit info member space (perm.mem_iff.2 (List.mem_append.2 ?_))
    exact inUse.imp_right fun lacks => List.mem_filter.2 ⟨isSpace, lacks⟩

end

/-- A directive that a caller gives on a line of its own for a namespace of the shape's types is not added again. -/
theorem Compiler.shapeSource_duplicates_counting : ∃ source unit,
    shapeSource .counting "it.Count" (.giving "using Shop;\nusing System.Collections.Generic;") = .ok source ∧
      CompilationUnit.ofSource source = .ok unit ∧
      (∀ environment : Environment, ¬Finding.ReportDuplicateUsing (environment.usingFindings [] unit.usings)) ∧
      (Collected.ofUnit unit).UsesAll ["System.Collections.Generic"] := by
  let options : CompileOptions := .giving "using Shop;\nusing System.Collections.Generic;"
  have isDefault : options.skeleton = defaultSkeleton := rfl
  have areNames : argumentNames options.argumentNames CallableShape.counting.arity = .ok ["it"] := rfl
  have callers : ∀ space ∈ ["Shop", "System.Collections.Generic"], IsDotted space :=
    List.forall_mem_cons.2 ⟨isDotted_of_all rfl, List.forall_mem_singleton.2 (isDotted_of_all rfl)⟩
  have missing : CallableShape.counting.addedSpaces options = [] := by
    rw [CallableShape.addedSpaces, lacksLine_eq]
    decide +kernel
  have isJoined : (joinUsings options.skeleton options.usings (String.intercalate "\n"
      ((Declaration.spacesOf CallableShape.counting.types).map usingLine))).toList = options.usings.toList := by
    rw [joinUsings_lines _ _ CallableShape.counting_isNamed.dotted]
    have noLines : ((Declaration.spacesOf CallableShape.counting.types).filter
        (lacksLine options.skeleton options.usings)).map usingLine = [] := congrArg (List.map usingLine) missing
    rw [noLines]
    rfl
  obtain ⟨source', unit, isSource', isUnit, -⟩ := CallableShape.counting_isNamed.exists_of_any_ofLexemes
    "it.Count" isDefault areNames isJoined (fun _ => true) (by decide +kernel)
  let place := CallableShape.counting_isNamed.usingsPlace "it.Count" isDefault areNames
  have areDeclared : ∀ callers, place.declared callers = "System" :: callers :=
    CallableShape.counting_isNamed.declared_usingsPlace "it.Count" isDefault areNames
  have takes : place.Takes ["Shop", "System.Collections.Generic"] := fun rest _ => .lines callers
  obtain ⟨source, isSource, duplicates⟩ := shapeSource_duplicates place takes CallableShape.counting_isNamed.dotted
  obtain rfl : source' = source := Except.ok.inj (isSource'.symm.trans isSource)
  obtain ⟨reports, inUse⟩ := duplicates unit isUnit
  rw [areDeclared] at reports inUse
  refine ⟨source', unit, isSource, isUnit, fun environment isReported => ?_, ?_⟩
  · rcases (reports environment).1 isReported with isTwice | ⟨space, isSpace, -, lacks⟩
    · exact isTwice (by decide)
    · have isMissing : space ∈ CallableShape.counting.addedSpaces options := List.mem_filter.2 ⟨isSpace, lacks⟩
      rw [missing] at isMissing
      cases isMissing
  · exact inUse "System.Collections.Generic" (List.contains_iff_mem.1 rfl) (.inl (by decide))

/-- A directive that shares its line with another one is added again. -/
theorem Compiler.not_shapeSource_duplicates : ¬∀ (shape : CallableShape) (body : String) (options : CompileOptions)
    (place : UsingsPlace shape body options) (callers : List String), place.Takes callers →
      (∀ space ∈ Declaration.spacesOf shape.types, IsDotted space) →
      ∀ source unit, shapeSource shape body options = .ok source → CompilationUnit.ofSource source = .ok unit →
      ∀ environment : Environment, Finding.ReportDuplicateUsing (environment.usingFindings [] unit.usings) →
        ¬(place.declared callers).Nodup := by
  intro never
  let options : CompileOptions := .giving "using System.Collections; using System.Collections.Generic;"
  have isDefault : options.skeleton = defaultSkeleton := rfl
  have areNames : argumentNames options.argumentNames CallableShape.counting.arity = .ok ["it"] := rfl
  have first : ∀ space ∈ ["System.Collections"], IsDotted space :=
    List.forall_mem_singleton.2 (isDotted_of_all rfl)
  have second : ∀ space ∈ ["System.Collections.Generic"], IsDotted space :=
    List.forall_mem_singleton.2 (isDotted_of_all rfl)
  have missing : CallableShape.counting.addedSpaces options = ["System.Collections.Generic"] := by
    rw [CallableShape.addedSpaces, lacksLine_eq]
    decide +kernel
  have isJoined : (joinUsings options.skeleton options.usings (String.intercalate "\n"
      ((Declaration.spacesOf CallableShape.counting.types).map usingLine))).toList =
        options.usings.toList ++ "\nusing System.Collections.Generic;".toList := by
    rw [joinUsings_lines _ _ CallableShape.counting_isNamed.dotted]
    have oneLine : ((Declaration.spacesOf CallableShape.counting.types).filter
        (lacksLine options.skeleton options.usings)).map usingLine = ["using System.Collections.Generic;"] :=
      congrArg (List.map usingLine) missing
    rw [oneLine]
    decide
  obtain ⟨source, unit, isSource, isUnit, isTwice⟩ := CallableShape.counting_isNamed.exists_of_any_ofLexemes
    "it.Count" isDefault areNames isJoined (fun unit => decide ¬(unit.usings.map UsingDirective.name).Nodup)
    (by decide +kernel)
  have spelled : options.usings.toList = (String.intercalate "\n" (["System.Collections"].map usingLine)).toList ++
      ([' '] ++ (String.intercalate "\n" (["System.Collections.Generic"].map usingLine)).toList) := by
    decide
  let place := CallableShape.counting_isNamed.usingsPlace "it.Count" isDefault areNames
  have takes : place.Takes ["System.Collections", "System.Collections.Generic"] := by
    intro rest _
    rw [spelled]
    exact (ReadsAsUsings.lines first).append ((ReadsAsUsings.blank rfl).append (.lines second))
  refine never _ _ _ place _ takes CallableShape.counting_isNamed.dotted source unit isSource isUnit
    ((Collected.ofUnit unit).environment .empty) ?_ ?_
  · refine (Environment.reportDuplicateUsing_iff _ _ _).2 fun distinct => ?_
    exact of_decide_eq_true isTwice distinct.1
  · rw [CallableShape.IsNamed.declared_usingsPlace]
    decide

end Snippet
