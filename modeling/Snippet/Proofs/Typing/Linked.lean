import Snippet.Proofs.Typing.HostCall
import Snippet.Proofs.Typing.Statement
import Snippet.Typing.Program

/-!
The functions that the calls of a program are linked to: what its calls of host functions run is what resolution
chose. Main statement: `CompilationUnit.linksChosen`.
-/

namespace Snippet

variable {libraries : LibrarySet}

/-- Whether every call of a host function in some statements is one of the chosen overload. -/
def TypedStmt.AllCallChosen (libraries : LibrarySet) (statements : List TypedStmt) : Prop :=
  EveryOfAll (TypedExpr.CallsChosen libraries) (TypedExpr.CallsChosen libraries) statements

namespace Check

variable {context : BodyContext}

/-- What the steps of the checker give, whatever has been found or declared. -/
def Gives.logic (context : BodyContext) : Logic context where
  World := Unit
  Judges _ _ known step good := Gives context step fun value => known () → good () value
  Stops _ := True
  Doomed _ := True
  Leaves _ := True
  stops _ := trivial
  pure holds := .pure (holds ())
  throw _ := .throw
  bind head tail := head.bind fun value isGood => (tail value).mono fun _ isGoal known => isGoal ⟨known, isGood known⟩
  attempt head tail := head.attempt_bind fun result isGood => (tail result fun _ _ => trivial).mono
    fun _ isGoal known => isGoal ⟨known, fun value isOk => isGood value isOk known⟩
  report _ := (Gives.anything _).mono fun _ _ _ => trivial
  read tail := .read_bind tail
  noteWrite _ _ := (Gives.anything _).mono fun _ _ _ => trivial
  inScope inner := inner.inScope
  inLoop inner := inner.inLoop
  unlessOutside _ holds := .bind_any fun _ => .refuse fun _ => .pure (holds trivial ())

/-- Expressions whose calls of host functions are of the chosen overloads. Of variables nothing is asked. -/
def callsChosenLogic (same : context.environment.libraries = libraries) : ExpressionLogic context where
  toLogic := Gives.logic context
  Value _ value := value.CallsChosen libraries
  Test _ test := test.CallsChosen libraries
  Used _ _ used := used.CallsChosen libraries
  Stores _ _ := True
  Declared _ _ _ := True
  expression source := (expression_callsChosen same source).mono fun _ chosen _ => chosen
  condition source := (condition_callsChosen same source).mono fun _ chosen _ => chosen
  coerce value type := (value.coerce_callsChosen type).mono fun _ coerces _ chosen _ => coerces chosen
  resolve type := (context.environment.resolveType_whole context.owner .variable type).mono fun _ _ _ => trivial
  result _ _ := trivial
  stores _ _ _ := trivial
  doomed _ := trivial
  declare _ := (Gives.anything _).mono fun _ _ _ => trivial
  declareDoomed reports holds := .bind_any fun result => by
    obtain ⟨finding, -, isNext⟩ := reports result fun _ _ => trivial
    rw [isNext]
    exact .bind_any fun _ => .pure fun _ => holds () trivial

/-- Every call of a host function in statements is one of the chosen overload. -/
theorem statements_callChosen (same : context.environment.libraries = libraries) (sources : List Stmt) :
    Gives context (statements sources) (TypedStmt.AllCallChosen libraries) := by
  have assigned (slot : Slot) (index : Nat) (used : TypedExpr) (chosen : used.CallsChosen libraries) :
      (TypedExpr.mk (.assign (.slot index) used) slot.type slot.span).CallsChosen libraries :=
    TypedExpr.callsChosen_mk nofun ⟨trivial, chosen⟩
  let logic := (callsChosenLogic same).everywhere (fun _ _ => id) (fun _ _ _ => id) fun _ slot index used _ _ =>
    assigned slot index used
  intro before body isOk
  exact TypedStmt.everyOfAll_iff.2 (logic.statements_judged false (fun _ => True) sources before body isOk trivial)

end Check

/-- Every call of a host function in a checked body is one of the chosen overload. -/
theorem MethodHeader.check_callChosen (header : MethodHeader) (environment : Environment)
    (methods : Array MethodHeader) :
    TypedStmt.AllCallChosen environment.libraries (header.check environment methods).1.body := by
  let context : BodyContext := ⟨environment, methods, header.owner, header.label, header.result⟩
  have gives : Check.Gives context (Check.statements header.decl.body)
      (TypedStmt.AllCallChosen environment.libraries) := Check.statements_callChosen rfl header.decl.body
  unfold check
  dsimp only
  split
  next outcome state isRun =>
  cases outcome with
  | error finding => trivial
  | ok body => exact gives header.startState body (congrArg Prod.fst isRun)

/-- Whether a node, if it calls a host function, is linked to the chosen overload, with as many parameters as the
overload has, and with a result if the node has a value. -/
def TypedNode.LinksChosen (libraries : LibrarySet) (node : TypedNode) (type : Ty) : Prop :=
  ∀ function passed, node = .hostCall function passed →
    ∃ overload, libraries.Calls function passed overload ∧
      function.link libraries = .ok (.function overload.run overload.parameters.length (decide (type ≠ .void)))

/-- Whether every node of an expression that calls a host function is linked to the chosen overload. -/
def TypedExpr.LinksChosen (libraries : LibrarySet) (value : TypedExpr) : Prop :=
  value.Every (TypedNode.LinksChosen libraries)

theorem TypedNode.CallsChosen.links (plain : libraries.HasPlainNames) {node : TypedNode} {type : Ty}
    (chosen : node.CallsChosen libraries type) : node.LinksChosen libraries type := by
  intro function passed isCall
  obtain ⟨overload, calls, hasResult⟩ := chosen function passed isCall
  refine ⟨overload, calls, ?_⟩
  obtain ⟨found, chooses, isTarget, -, -⟩ := calls
  rw [chooses.link_eq plain found isTarget, Bool.eq_iff_iff.2 (hasResult.trans (decide_eq_true_iff ..).symm)]

theorem TypedExpr.CallsChosen.links (plain : libraries.HasPlainNames) (value : TypedExpr)
    (chosen : value.CallsChosen libraries) : value.LinksChosen libraries :=
  TypedExpr.Every.combine (fun _ _ one _ => one.links plain) value chosen chosen

/-- If the names of types are plain, every call of a host function in a checked program is linked to the overload
that resolution chose for it. -/
theorem CompilationUnit.linksChosen (unit : CompilationUnit) (plain : libraries.HasPlainNames) :
    ∀ method ∈ (unit.check libraries).program.methods,
      TypedStmt.EveryOfAll (TypedExpr.LinksChosen libraries) (TypedExpr.LinksChosen libraries) method.body := by
  intro method member
  obtain ⟨entry, inChecked, rfl⟩ := List.mem_map.1 member
  obtain ⟨header, -, rfl⟩ := List.mem_map.1 inChecked
  have chosen := header.check_callChosen ((Collected.ofUnit unit).environment libraries)
    (((Collected.ofUnit unit).environment libraries).headers (Collected.ofUnit unit).methods.toList).1
  have links (value : TypedExpr) (one _ : value.CallsChosen libraries) := one.links plain
  exact TypedStmt.everyOfAll_combine links links _ chosen chosen

/-! ### A call of one of two overloads -/

/-- A library that writes any value, and numbers in a way of their own. -/
def LibrarySet.writing : LibrarySet :=
  ⟨[⟨"Log", [⟨"", [], "Log", .static,
    [⟨"Write", [.object], none, fun _ => pure .null⟩, ⟨"Write", [.int], none, fun _ => pure .null⟩], [], []⟩]⟩]⟩

/-- A class with one method, which writes a number. -/
def CompilationUnit.writingNumber : CompilationUnit :=
  ⟨[], [.type (.mk ⟨0, 0⟩ "C" .none
    [⟨"M", { Modifiers.none with isStatic := true }, none, [],
      [.evaluate ⟨0, 0⟩ (.call ⟨0, 0⟩ (.member ⟨0, 0⟩ (.name ⟨0, 0⟩ "Log") "Write")
        [.mk ⟨0, 0⟩ .value (.int ⟨0, 0⟩ 1)])], ⟨0, 0⟩⟩] [])]⟩

theorem CompilationUnit.body_writingNumber :
    (writingNumber.check .writing).program.methods.map (·.body) =
      [[.evaluate (.mk (.hostCall ⟨"Log", "Write", ["System.Int32"], none⟩
        [.mk (.const (.int 1)) .int ⟨0, 0⟩]) .void ⟨0, 0⟩)]] := by
  with_unfolding_all rfl

theorem LibrarySet.hasPlainNames_writing : writing.HasPlainNames := by
  intro name type found function inType parameter inFunction
  obtain ⟨library, inSet, isFound⟩ := List.exists_of_findSome?_eq_some found
  obtain rfl := List.mem_singleton.1 inSet
  obtain rfl := List.mem_singleton.1 (List.mem_of_find?_eq_some isFound)
  have isBasic : parameter = .object ∨ parameter = .int := by
    rcases List.mem_pair.1 inType with rfl | rfl
    · exact .inl (List.mem_singleton.1 inFunction)
    · exact .inr (List.mem_singleton.1 inFunction)
  rcases isBasic with rfl | rfl <;> exact .of_all rfl nofun

/-- The overload for numbers is linked, although the one for any value stands in front of it. -/
theorem CompilationUnit.linksChosen_writingNumber :
    ∃ overload, LibrarySet.writing.Calls ⟨"Log", "Write", ["System.Int32"], none⟩
        [.mk (.const (.int 1)) .int ⟨0, 0⟩] overload ∧
      FunctionImport.link ⟨"Log", "Write", ["System.Int32"], none⟩ .writing =
        .ok (.function overload.run overload.parameters.length false) := by
  have links := linksChosen writingNumber LibrarySet.hasPlainNames_writing
  obtain ⟨method, isProgram, isBody⟩ := List.map_eq_singleton_iff.1 body_writingNumber
  have inMethod := links method (isProgram ▸ List.mem_singleton_self method)
  rw [isBody] at inMethod
  exact inMethod.1.1 _ _ rfl

end Snippet
