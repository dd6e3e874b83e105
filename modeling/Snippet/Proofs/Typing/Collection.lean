import Mathlib.Logic.Relation
import Snippet.Proofs.Typing.Program

/-!
What is collected from a source text stays where it was put. Main statements: classes and lists of methods
are only added, and so are method headers.
-/

namespace Snippet

/-- A class without the classes in it, which are added to it later. -/
def ClassInfo.head (info : ClassInfo) : ClassInfo := { info with nested := [] }

namespace Collected

/-- Whether one collection has the classes of another one with their methods, and further ones behind them. -/
def Grows (before after : Collected) : Prop :=
  ∃ added : List (ClassInfo × List MethodDecl),
    after.classes.toList.map ClassInfo.head = before.classes.toList.map ClassInfo.head ++ added.map (·.1) ∧
      after.methods.toList = before.methods.toList ++ added.map (·.2)

namespace Grows

variable {first second third : Collected}

theorem refl (collected : Collected) : collected.Grows collected := ⟨[], by simp, by simp⟩

theorem trans (head : first.Grows second) (tail : second.Grows third) : first.Grows third := by
  obtain ⟨added, classes, methods⟩ := head
  obtain ⟨added', classes', methods'⟩ := tail
  refine ⟨added ++ added', ?_, ?_⟩
  · rw [classes', classes, List.map_append, List.append_assoc]
  · rw [methods', methods, List.map_append, List.append_assoc]

end Grows

theorem addClass_grows (collected : Collected) (info : ClassInfo) (methods : List MethodDecl) :
    collected.Grows (collected.addClass info methods) := by
  have kept (classes : List ClassInfo) (index entry : Nat) (name : String) :
      (classes.modify index fun outer => { outer with nested := outer.nested ++ [(name, entry)] }).map
        ClassInfo.head = classes.map ClassInfo.head := by
    induction classes generalizing index with
    | nil => simp
    | cons first rest ih =>
      cases index with
      | zero => simp [ClassInfo.head]
      | succ index => simp [ih]
  refine ⟨[(info.head, methods)], ?_, Array.toList_push⟩
  unfold addClass
  cases info.parent with
  | none =>
    simp
  | some parent =>
    simp [kept]

/-- What collecting does in one step while some namespaces are in use: it adds a class, reports a name that is taken or
enters a namespace. -/
inductive Step (usings : List String) (collected : Collected) : Collected → Prop where
  | addClass (info : ClassInfo) (methods : List MethodDecl) (inUse : usings ⊆ info.usings) :
      Step usings collected (collected.addClass info methods)
  | report (problem : Problem) (span : Span) : Step usings collected (collected.report problem span)
  | enter (space : String) (directives : List (List UsingDirective)) :
      Step usings collected { collected.addSpace space with directives }

section

variable {usings usings' : List String}

mutual

theorem collectClass_steps (collected : Collected) (space : String) (inUse : usings ⊆ usings') (parent : Option Nat)
    (decl : ClassDecl) :
    Relation.ReflTransGen (Step usings) collected (collected.collectClass space usings' parent decl) := by
  match decl with
  | .mk span name modifiers methods nested =>
    rw [collectClass]
    dsimp only
    split
    · next problem _ => exact .single (.report problem span)
    · exact .head (.addClass _ methods inUse) (collectClasses_steps _ space inUse _ nested)

theorem collectClasses_steps (collected : Collected) (space : String) (inUse : usings ⊆ usings') (parent : Option Nat)
    (decls : List ClassDecl) :
    Relation.ReflTransGen (Step usings) collected (collected.collectClasses space usings' parent decls) := by
  match decls with
  | [] =>
    rw [collectClasses]
  | first :: rest =>
    rw [collectClasses]
    exact (collectClass_steps collected space inUse parent first).trans (collectClasses_steps _ space inUse parent rest)

end

mutual

theorem collectMember_steps (collected : Collected) (space : String) {usings' : List String} (inUse : usings ⊆ usings')
    (member : Member) :
    Relation.ReflTransGen (Step usings) collected (collected.collectMember space usings' member) := by
  match member with
  | .space _ name directives members =>
    rw [collectMember]
    have inScope := List.subset_append_of_subset_left (directives.map (·.name)) inUse
    exact .head (.enter (qualify space name) _) (collectMembers_steps _ _ inScope members)
  | .type decl =>
    rw [collectMember]
    exact collectClass_steps collected space inUse none decl

theorem collectMembers_steps (collected : Collected) (space : String) {usings' : List String} (inUse : usings ⊆ usings')
    (members : List Member) :
    Relation.ReflTransGen (Step usings) collected (collected.collectMembers space usings' members) := by
  match members with
  | [] =>
    rw [collectMembers]
  | first :: rest =>
    rw [collectMembers]
    exact (collectMember_steps collected space inUse first).trans (collectMembers_steps _ space inUse rest)

end

end

theorem Grows.of_steps {usings : List String} {before after : Collected}
    (steps : Relation.ReflTransGen (Step usings) before after) : before.Grows after := by
  induction steps with
  | refl => exact .refl before
  | tail _ step ih =>
    refine ih.trans ?_
    cases step with
    | addClass info methods _ => exact addClass_grows _ info methods
    | report | enter => exact .refl _

theorem collectClass_grows (collected : Collected) (space : String) (usings : List String) (parent : Option Nat)
    (decl : ClassDecl) : collected.Grows (collected.collectClass space usings parent decl) :=
  .of_steps (collectClass_steps collected space (List.Subset.refl usings) parent decl)

theorem collectClasses_grows (collected : Collected) (space : String) (usings : List String) (parent : Option Nat)
    (decls : List ClassDecl) : collected.Grows (collected.collectClasses space usings parent decls) :=
  .of_steps (collectClasses_steps collected space (List.Subset.refl usings) parent decls)

theorem collectMembers_grows (collected : Collected) (space : String) (usings : List String)
    (members : List Member) : collected.Grows (collected.collectMembers space usings members) :=
  .of_steps (collectMembers_steps collected space (List.Subset.refl usings) members)

/-- As many lists of methods as classes have been collected. -/
theorem size_ofUnit (unit : CompilationUnit) : (ofUnit unit).methods.size = (ofUnit unit).classes.size := by
  let start : Collected := ⟨#[], [], [], #[], [unit.usings], []⟩
  obtain ⟨added, classes, methods⟩ := collectMembers_grows start "" (unit.usings.map (·.name)) unit.members
  have classCount := congrArg List.length classes
  have methodCount := congrArg List.length methods
  simp only [List.length_map, List.length_append, Array.length_toList] at classCount methodCount
  exact methodCount.trans classCount.symm

end Collected

/-! ### Method headers -/

namespace Environment

variable {environment : Environment}

/-- Whether headers and findings stand in front of further ones. -/
def Extends (before after : Array MethodHeader × List Finding) : Prop :=
  before.1.toList <+: after.1.toList ∧ before.2 <+: after.2

theorem Extends.refl (state : Array MethodHeader × List Finding) : Extends state state :=
  ⟨List.prefix_rfl, List.prefix_rfl⟩

theorem Extends.trans {first second third : Array MethodHeader × List Finding} (head : Extends first second)
    (tail : Extends second third) : Extends first third :=
  ⟨head.1.trans tail.1, head.2.trans tail.2⟩

theorem classHeaders_extends (owner : Nat) (state : Array MethodHeader × List Finding) (methods : List MethodDecl) :
    Extends state (environment.classHeaders owner state methods) := by
  unfold classHeaders
  refine List.foldlRecOn (motive := Extends state) methods _ (.refl state) fun middle grown decl _ => ?_
  refine grown.trans ?_
  cases result : environment.header owner middle.1 decl with
  | error finding =>
    simp only [result]
    exact ⟨List.prefix_rfl, List.prefix_append _ _⟩
  | ok header =>
    simp only [result]
    exact ⟨by rw [Array.toList_push]; exact List.prefix_append _ _, List.prefix_rfl⟩

/-- The first method of the first class has the first header, or it is reported. -/
theorem headers_first (decl : MethodDecl) (rest : List MethodDecl) (others : List (List MethodDecl)) :
    (∃ header, environment.header 0 #[] decl = .ok header ∧
      (environment.headers ((decl :: rest) :: others)).1.toList.head? = some header) ∨
    ∃ finding ∈ (environment.headers ((decl :: rest) :: others)).2, environment.header 0 #[] decl = .error finding := by
  have split : environment.headers ((decl :: rest) :: others) =
      (others.zipIdx 1).foldl (fun state entry => environment.classHeaders entry.2 state entry.1)
        (environment.classHeaders 0 (environment.classHeaders 0 (#[], []) [decl]) rest) := rfl
  have later (state : Array MethodHeader × List Finding) : Extends (environment.classHeaders 0 state [decl])
      ((others.zipIdx 1).foldl (fun state entry => environment.classHeaders entry.2 state entry.1)
        (environment.classHeaders 0 (environment.classHeaders 0 state [decl]) rest)) :=
    List.foldlRecOn (motive := Extends _) _ _ (classHeaders_extends 0 _ rest) fun middle grown entry _ =>
      grown.trans (classHeaders_extends entry.2 middle entry.1)
  obtain ⟨headers, findings⟩ := later (#[], [])
  rw [split]
  cases result : environment.header 0 #[] decl with
  | ok header =>
    have first : environment.classHeaders 0 (#[], []) [decl] = (#[header], []) := by
      simp only [classHeaders, List.foldl_cons, List.foldl_nil, result]
      rfl
    rw [first] at headers ⊢
    obtain ⟨behind, added⟩ := headers
    exact .inl ⟨header, rfl, by rw [← added]; rfl⟩
  | error finding =>
    have first : environment.classHeaders 0 (#[], []) [decl] = (#[], [finding]) := by
      simp only [classHeaders, List.foldl_cons, List.foldl_nil, result]
      rfl
    rw [first] at findings ⊢
    exact .inr ⟨finding, findings.subset List.mem_cons_self, rfl⟩

end Environment

end Snippet
