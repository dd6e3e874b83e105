import Snippet.Host.Native
import Snippet.Proofs.Callable.Comparison
import Snippet.Proofs.Callable.Rejection
import Snippet.Proofs.Shape.Compilation
import Snippet.Proofs.Skeleton.Directives

/-!
Values of the host come back as they were, and slots of their types take them. So a call with values of the host is
never rejected for its arguments. Main statement: `NativeValue.crosses`.
-/

namespace Snippet

/-! ### Conversions into the store -/

/-- Whether every list of a store has the same items in another one. -/
structure Store.KeptIn (store later : Store) : Prop where
  size : store.lists.size ≤ later.lists.size
  items : ∀ reference < store.lists.size, later.items reference = store.items reference

namespace Store.KeptIn

variable {store middle later : Store}

theorem refl (store : Store) : store.KeptIn store := ⟨Nat.le_refl _, fun _ _ => rfl⟩

theorem trans (first : store.KeptIn middle) (second : middle.KeptIn later) : store.KeptIn later where
  size := Nat.le_trans first.size second.size
  items reference valid :=
    (second.items reference (Nat.lt_of_lt_of_le valid first.size)).trans (first.items reference valid)

theorem newList (store : Store) (element : String) (items : Array Value) :
    store.KeptIn (store.newList element items).2 where
  size := by simp [Store.newList]
  items reference valid := by simp [Store.newList, Store.items, Array.getElem?_push_lt valid, valid]

end Store.KeptIn

/-- Conversions one after the other keep the lists that are there. What is true of each one behind it stays true if
other stores that keep the lists do not change it. -/
theorem forall₂_of_mapM {α : Type} {convert : α → StateM World Value} (good : Store → α → Value → Prop)
    (stable : ∀ {store later item value}, store.KeptIn later → good store item value → good later item value)
    (each : ∀ item world, world.store.KeptIn ((convert item).run world).2.store ∧
      good ((convert item).run world).2.store item ((convert item).run world).1) (items : List α) (world : World) :
    world.store.KeptIn ((items.mapM convert).run world).2.store ∧
      List.Forall₂ (good ((items.mapM convert).run world).2.store) items ((items.mapM convert).run world).1 := by
  induction items generalizing world with
  | nil => exact ⟨.refl _, .nil⟩
  | cons item rest ih =>
    obtain ⟨kept, isGood⟩ := each item world
    obtain ⟨keptBehind, areGood⟩ := ih ((convert item).run world).2
    rw [List.mapM_cons]
    exact ⟨kept.trans keptBehind, .cons (stable keptBehind isGood) areGood⟩

theorem mapM_eq_ok_of_forall₂ {α β ε : Type} {read : β → Except ε α} {items : List α} {values : List β}
    (reads : List.Forall₂ (fun item value => read value = .ok item) items values) : values.mapM read = .ok items := by
  induction reads with
  | nil => rfl
  | cons first _ ih => rw [List.mapM_cons, first, ih]; rfl

theorem TypeDesc.fullName?_list {element : TypeDesc} {name : String} (named : element.fullName? = some name) :
    element.list.fullName? = some (TypeNames.listOf name) := by
  have isName := nameOrOpen_of_fullName? named
  rw [fullName?, list, plain, nameOrOpen, namesOrOpen, isName]
  rfl

namespace NativeType

theorem exists_fullName?_desc (type : NativeType) : ∃ name, type.desc.fullName? = some name := by
  induction type with
  | list element ih =>
    obtain ⟨name, named⟩ := ih
    exact ⟨_, TypeDesc.fullName?_list named⟩
  | _ => exact ⟨_, rfl⟩

/-- The elements of a list carry the full name of their type. -/
theorem fullName?_desc (type : NativeType) : type.desc.fullName? = some type.elementName := by
  obtain ⟨name, named⟩ := type.exists_fullName?_desc
  rw [elementName, named]
  rfl

theorem elementName_list (element : NativeType) :
    (list element).elementName = TypeNames.listOf element.elementName := by
  rw [elementName, desc, TypeDesc.fullName?_list element.fullName?_desc]
  rfl

theorem accepts_of_typeName? {type : NativeType} {value : Value} (isType : value.typeName? = some type.elementName) :
    type.desc.accepts value = true := by
  simp [TypeDesc.accepts, type.fullName?_desc, isType]

/-- What a value that is made for one of the host promises: slots of its type take it, and it is read back as long as
the lists that have been made stay as they are. -/
structure Crosses (type : NativeType) (store : Store) (value : type.Carrier) (made : Value) : Prop where
  accepted : type.desc.accepts made = true
  reads : ∀ later, store.KeptIn later → ofValue later type made = .ok value

theorem Crosses.keep {type : NativeType} {store later : Store} {value : type.Carrier} {made : Value}
    (crosses : type.Crosses store value made) (kept : store.KeptIn later) : type.Crosses later value made :=
  ⟨crosses.accepted, fun _ keptBehind => crosses.reads _ (kept.trans keptBehind)⟩

/-- Values that need no list are made without the store. -/
theorem crosses_of_typeName? {type : NativeType} {value : type.Carrier} {made : Value} (store : Store)
    (isType : made.typeName? = some type.elementName) (reads : ∀ later, ofValue later type made = .ok value) :
    type.Crosses store value made :=
  ⟨accepts_of_typeName? isType, fun later _ => reads later⟩

/-- Every value of the host is made one of the program that promises so. Lists are made behind their items. -/
theorem toValue_crosses (type : NativeType) (value : type.Carrier) (world : World) :
    world.store.KeptIn ((toValue type value).run world).2.store ∧
      type.Crosses ((toValue type value).run world).2.store value ((toValue type value).run world).1 := by
  match type, value with
  | int, _ | long, _ | double, _ | bool, _ | text, _ =>
    exact ⟨.refl _, crosses_of_typeName? _ rfl fun _ => rfl⟩
  | any, _ => exact ⟨.refl _, rfl, fun _ _ => rfl⟩
  | list element, items =>
    obtain ⟨kept, areGood⟩ := forall₂_of_mapM element.Crosses (fun kept crosses => crosses.keep kept)
      (toValue_crosses element) items world
    let made := (items.mapM (toValue element)).run world
    have listed := Store.KeptIn.newList made.2.store element.elementName made.1.toArray
    -- The items are made before the list, so they are read back behind it: making the list keeps theirs.
    refine ⟨kept.trans listed, accepts_of_typeName? ?_, fun later keptBehind => ?_⟩
    · rw [elementName_list]
      rfl
    · have isNew : made.2.store.lists.size <
          (made.2.store.newList element.elementName made.1.toArray).2.lists.size := by simp [Store.newList]
      have found : later.items made.2.store.lists.size = made.1.toArray :=
        (keptBehind.items _ isNew).trans (Store.items_newList _ element.elementName _)
      show (later.items made.2.store.lists.size).toList.mapM (ofValue later element) = .ok items
      rw [found]
      exact mapM_eq_ok_of_forall₂ (areGood.imp fun _ _ crosses => crosses.reads _ (listed.trans keptBehind))

end NativeType

/-! ### Calls -/

namespace BoundCallable

theorem fillSlots_of_accepted {parameters : List ShapeParameter} {arguments : List Value}
    (accepted : List.Forall₂ (fun parameter argument => parameter.mode = .value ∧
      parameter.type.accepts argument = true) parameters arguments) (position : Nat) :
    fillSlots position parameters arguments = (arguments, none) := by
  induction accepted generalizing position with
  | nil => rfl
  | @cons parameter argument parameters arguments first _ ih =>
    obtain ⟨isValue, accepts⟩ := first
    have passes : parameter.passes argument = true := by rw [ShapeParameter.passes, accepts, Bool.or_true]
    rw [fillSlots_passes passes, ih, ShapeParameter.passedSlot, isValue]
    rfl

/-- The outcome of a run as that of a checked call. -/
def invocation (callable : BoundCallable) (outcome : CallOutcome) : Invocation :=
  match outcome.result with
  | .ok value => ⟨.ok (callable.shape.result.map fun _ => value), outcome.arguments⟩
  | .error exception => ⟨.error (.raised exception), outcome.arguments⟩

/-- A call with accepted arguments is one of the entry point. -/
theorem invoke_of_accepted {callable : BoundCallable} {arguments : List Value}
    (accepted : List.Forall₂ (fun parameter argument => parameter.mode = .value ∧
      parameter.type.accepts argument = true) callable.shape.parameters arguments) (steps : Nat) :
    callable.invoke steps arguments =
      (do return (← callable.entry.invoke steps arguments).map callable.invocation) := by
  have fits : ¬(arguments.length != callable.shape.arity) = true := by
    rw [bne_iff_ne, not_not]
    exact accepted.length_eq.symm
  rw [invoke, if_neg fits, fillSlots_of_accepted accepted]
  rfl

end BoundCallable

namespace NativeValue

/-- A value of the host is read back from the one that is made for it, and a slot of its type takes it. -/
theorem toValue_crosses (native : NativeValue) (world : World) :
    world.store.KeptIn (native.toValue.run world).2.store ∧
      native.type.Crosses (native.toValue.run world).2.store native.value (native.toValue.run world).1 :=
  native.type.toValue_crosses native.value world

end NativeValue

/-- Whether a callable has the types of a signature. -/
structure NativeCallable.IsOf (callable : NativeCallable) (signature : NativeSignature) : Prop where
  shape : callable.bound.shape = signature.shape
  result : callable.result = signature.result

/-- A body is compiled to a callable with the types that were asked for. -/
theorem Compiler.isOf_of_compileNative {compiler : Compiler} {signature : NativeSignature} {body : String}
    {options : CompileOptions} {callable : NativeCallable}
    (compiles : compiler.compileNative signature body options = .ok callable) : callable.IsOf signature := by
  obtain ⟨bound, isBound, isCallable⟩ := of_bind_eq_ok compiles
  cases isCallable
  rw [compileShape] at isBound
  obtain ⟨source, -, isBound⟩ := of_bind_eq_ok isBound
  obtain ⟨module, -, isBound⟩ := of_bind_eq_ok isBound
  obtain ⟨entry, -, binds⟩ := of_bind_eq_ok isBound
  obtain ⟨rfl, -⟩ := EntryPoint.eq_of_bind binds
  exact ⟨rfl, rfl⟩

namespace NativeCallable

variable {callable : NativeCallable} {signature : NativeSignature} {arguments : List NativeValue}

/-- The parameters of a callable accept the values that are made for arguments of its types. -/
theorem IsOf.accepted (isOf : callable.IsOf signature) (typed : arguments.map (·.type) = signature.parameters)
    (world : World) :
    List.Forall₂ (fun parameter argument => parameter.mode = .value ∧ parameter.type.accepts argument = true)
      callable.bound.shape.parameters ((arguments.mapM NativeValue.toValue).run world).1 := by
  obtain ⟨-, areGood⟩ := forall₂_of_mapM (fun store native made => native.type.Crosses store native.value made)
    (fun kept crosses => crosses.keep kept) NativeValue.toValue_crosses arguments world
  have parameters : callable.bound.shape.parameters = arguments.map fun native => ⟨.value, native.type.desc⟩ := by
    rw [isOf.shape, NativeSignature.shape, CallableShape.ofTypes, ← typed, List.map_map, List.map_map]
    rfl
  rw [parameters, List.forall₂_map_left_iff]
  exact areGood.imp fun _ _ crosses => ⟨rfl, crosses.accepted⟩

/-- What a call gives for the outcome of a run: the result as a value of the host. -/
def answer (callable : NativeCallable) (store : Store) (outcome : CallOutcome) : Except Failure (Option NativeValue) :=
  match outcome.result with
  | .error exception => .error (.raised exception)
  | .ok value =>
    match callable.result with
    | none => .ok none
    | some type => (NativeValue.ofValue store type value).map some

/-- The result of a checked call is converted to what the outcome of the run gives. -/
theorem IsOf.convertResult_invocation (isOf : callable.IsOf signature) (store : Store) (outcome : CallOutcome) :
    callable.convertResult store (callable.bound.invocation outcome).result = callable.answer store outcome := by
  obtain ⟨result, slots⟩ := outcome
  cases result with
  | error exception => rfl
  | ok value =>
    have given : callable.bound.shape.result = signature.result.map (·.desc) := by
      rw [isOf.shape]
      rfl
    rw [BoundCallable.invocation, answer, isOf.result]
    dsimp only
    rw [given, convertResult, isOf.result]
    cases signature.result with
    | none => rfl
    | some type =>
      show (NativeValue.ofValue store type value >>= fun native => Except.ok (some native)) =
        (NativeValue.ofValue store type value).map some
      cases NativeValue.ofValue store type value <;> rfl

/-- A call with values of the host is one of the entry point with the values that are made for them. -/
theorem IsOf.invoke_run (isOf : callable.IsOf signature) (typed : arguments.map (·.type) = signature.parameters)
    (steps : Nat) (world : World) :
    (callable.invoke steps arguments).run world =
      let made := (arguments.mapM NativeValue.toValue).run world
      let called := (callable.bound.entry.invoke steps made.1).run made.2
      (called.1.map (callable.answer called.2.store), called.2) := by
  rw [invoke, StateT.run_bind]
  show ((callable.bound.invoke steps ((arguments.mapM NativeValue.toValue).run world).1 >>= _).run _ : Id _) = _
  rw [BoundCallable.invoke_of_accepted (isOf.accepted typed world)]
  generalize (arguments.mapM NativeValue.toValue).run world = made
  dsimp only
  rcases isCall : (callable.bound.entry.invoke steps made.1).run made.2 with ⟨outcome, after⟩
  rw [StateT.run_bind, StateT.run_bind, isCall]
  cases outcome with
  | none => rfl
  | some outcome =>
    show (some (callable.convertResult after.store (callable.bound.invocation outcome).result), after) = _
    rw [isOf.convertResult_invocation]
    rfl

/-- An answer is a fault of an argument only if the result of the run is no value of the result type. -/
theorem answer_eq_argument_iff {store : Store} {outcome : CallOutcome} {fault : ArgumentFault} :
    callable.answer store outcome = .error (.argument fault) ↔ ∃ value type, outcome.result = .ok value ∧
      callable.result = some type ∧ NativeValue.ofValue store type value = .error (.argument fault) := by
  rw [answer]
  cases outcome.result with
  | error exception => simp
  | ok value =>
    cases callable.result with
    | none => simp
    | some type => cases converted : NativeValue.ofValue store type value <;> simp [Except.map, converted]

/-- A call is refused as one with wrong arguments only for its result. -/
theorem IsOf.refused_iff (isOf : callable.IsOf signature)
    (typed : arguments.map (·.type) = signature.parameters) (steps : Nat) (world after : World)
    (fault : ArgumentFault) :
    (callable.invoke steps arguments).run world = (some (.error (.argument fault)), after) ↔
      ∃ outcome value type,
        (callable.bound.entry.invoke steps ((arguments.mapM NativeValue.toValue).run world).1).run
          ((arguments.mapM NativeValue.toValue).run world).2 = (some outcome, after) ∧
        outcome.result = .ok value ∧ signature.result = some type ∧
        NativeValue.ofValue after.store type value = .error (.argument fault) := by
  rw [isOf.invoke_run typed]
  dsimp only
  generalize (arguments.mapM NativeValue.toValue).run world = made
  rcases (callable.bound.entry.invoke steps made.1).run made.2 with ⟨outcome, behind⟩
  constructor
  · intro refused
    obtain ⟨isRefused, rfl⟩ := Prod.mk.inj refused
    obtain ⟨outcome, rfl, isRefused⟩ := Option.map_eq_some_iff.1 isRefused
    obtain ⟨value, type, isValue, isType, fails⟩ := answer_eq_argument_iff.1 isRefused
    exact ⟨outcome, value, type, rfl, isValue, isOf.result.symm.trans isType, fails⟩
  · rintro ⟨outcome, value, type, same, isValue, isType, fails⟩
    cases same
    refine congrArg (·, after) (congrArg some ?_)
    exact answer_eq_argument_iff.2 ⟨value, type, isValue, isOf.result.trans isType, fails⟩

end NativeCallable

/-- Values of the host cross into compiled code and back as they are. The value that is made for one of them is read
back as it was, and a slot of its type takes it. So a compiled call with values of its parameters' types is never refused
for them: a fault of an argument is one of the result, which is no value of the result type. -/
theorem NativeValue.crosses :
    (∀ (native : NativeValue) (world : World),
      ofValue (native.toValue.run world).2.store native.type (native.toValue.run world).1 = .ok native ∧
        native.type.desc.accepts (native.toValue.run world).1 = true) ∧
    ∀ (compiler : Compiler) (signature : NativeSignature) (body : String) (options : CompileOptions)
      (callable : NativeCallable), compiler.compileNative signature body options = .ok callable →
      ∀ arguments : List NativeValue, arguments.map (·.type) = signature.parameters →
        ∀ (steps : Nat) (world after : World) (fault : ArgumentFault),
          (callable.invoke steps arguments).run world = (some (.error (.argument fault)), after) ↔
            ∃ outcome value type,
              (callable.bound.entry.invoke steps ((arguments.mapM toValue).run world).1).run
                ((arguments.mapM toValue).run world).2 = (some outcome, after) ∧
              outcome.result = .ok value ∧ signature.result = some type ∧
              ofValue after.store type value = .error (.argument fault) := by
  refine ⟨fun native world => ?_, fun compiler signature body options callable compiles arguments typed => ?_⟩
  · have crosses := (native.toValue_crosses world).2
    refine ⟨?_, crosses.accepted⟩
    rw [ofValue, crosses.reads _ (.refl _)]
    rfl
  · exact (Compiler.isOf_of_compileNative compiles).refused_iff typed

/-- A library with the types of which compiled code counts the items. -/
def Library.counted : Library :=
  ⟨"Core", [.bare "System" [] "Int32" .primitive, .bare "System.Collections.Generic" [] "List" .list]⟩

/-- Counting the items of a list. -/
def NativeSignature.counting : NativeSignature := ⟨[.list .int], some .int⟩

theorem NativeValue.crosses_counting :
    ∃ callable, (Compiler.ofLibrary .counted).compileNative .counting "return it.Count;" (.plain none [] .default) =
        .ok callable ∧
      ∀ (world after : World) (fault : ArgumentFault),
        (callable.invoke 3 [⟨.list .int, ([3, 4] : List Int32)⟩]).run world =
            (some (.error (.argument fault)), after) ↔
          ∃ outcome value type,
            (callable.bound.entry.invoke 3 (([⟨.list .int, ([3, 4] : List Int32)⟩].mapM toValue).run world).1).run
              (([⟨.list .int, ([3, 4] : List Int32)⟩].mapM toValue).run world).2 = (some outcome, after) ∧
            outcome.result = .ok value ∧ NativeSignature.counting.result = some type ∧
            ofValue after.store type value = .error (.argument fault) := by
  have compiles : ((Compiler.ofLibrary .counted).compileShape .counting "return it.Count;"
      (.plain none [] .default)).toBool = true := by
    rw [Compiler.compileShape_eq_lexemes _ CallableShape.counting_isNamed]
    decide +kernel
  obtain ⟨bound, isBound⟩ := exists_ok compiles
  have isCallable : (Compiler.ofLibrary .counted).compileNative .counting "return it.Count;" (.plain none [] .default) =
      .ok ⟨bound, some .int⟩ := by
    rw [Compiler.compileNative, show NativeSignature.counting.shape = CallableShape.counting from rfl, isBound]
    rfl
  exact ⟨_, isCallable, crosses.2 _ _ _ _ _ isCallable [⟨.list .int, ([3, 4] : List Int32)⟩] rfl 3⟩

end Snippet
