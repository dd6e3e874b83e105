import Snippet.Flow.Assignment

/-!
What is known at points and how it compares: joins know what both ways know, and assignments only add
knowledge. Then what steps of the flow analysis promise: something in every case, and more if nothing is found.
Every finding of the analysis is an error.
-/

namespace Snippet.Reached

/-- Whether what is known concerns the given number of slots. -/
def Sized (count : Nat) (reached : Reached) : Prop := ∀ assigned ∈ reached, assigned.size = count

/-- Whether every way to the first point may be one to the second point. -/
def Entails (first second : Reached) : Prop :=
  first.isSome → second.isSome ∧ ∀ slot : Nat, first.lacks slot = true → second.lacks slot = true

theorem sized_none (count : Nat) : Sized count none := nofun

theorem sized_entry (slots : List Slot) : (entry slots).Sized slots.length := by
  intro assigned isEntry
  cases isEntry
  simp

theorem lacks_none (slot : Nat) : lacks none slot = false := rfl

theorem lacks_some (assigned : Array Bool) (slot : Nat) :
    lacks (some assigned) slot = !assigned.getD slot true := rfl

/-- A slot of no variable is never lacked. -/
theorem Sized.lacks_eq_false {count : Nat} {reached : Reached} (sized : reached.Sized count) {slot : Nat}
    (outside : count ≤ slot) : reached.lacks slot = false := by
  cases reached with
  | none => rfl
  | some assigned =>
      have size := sized assigned rfl
      rw [lacks_some, Array.getD_eq_getD_getElem?, Array.getElem?_eq_none (by omega)]
      rfl

namespace Entails

variable {first second third : Reached}

theorem refl (reached : Reached) : reached.Entails reached := fun known => ⟨known, fun _ => id⟩

theorem trans (head : first.Entails second) (tail : second.Entails third) : first.Entails third := by
  intro known
  obtain ⟨known', lacks⟩ := head known
  obtain ⟨known'', lacks'⟩ := tail known'
  exact ⟨known'', fun slot lack => lacks' slot (lacks slot lack)⟩

theorem of_none (reached : Reached) : Entails none reached := nofun

end Entails

section

variable {count : Nat} {first second third reached : Reached}

/-! ### Joins -/

theorem Sized.join (one : first.Sized count) (other : second.Sized count) :
    (first.join second).Sized count := by
  cases first with
  | none => exact other
  | some left =>
      cases second with
      | none => exact one
      | some right =>
        intro assigned isJoin
        cases isJoin
        rw [Array.size_zipWith, one left rfl, other right rfl, Nat.min_self]

theorem isSome_join : (first.join second).isSome = (first.isSome || second.isSome) := by
  cases first <;> cases second <;> rfl

/-- A slot is lacked where two ways meet if it is on one of them. -/
theorem lacks_join (one : first.Sized count) (other : second.Sized count) (slot : Nat) :
    (first.join second).lacks slot = (first.lacks slot || second.lacks slot) := by
  cases first with
  | none => rfl
  | some left =>
      cases second with
      | none => simp [join, lacks_none]
      | some right =>
        have left_size := one left rfl
        have right_size := other right rfl
        rw [show join (some left) (some right) = some (left.zipWith and right) from rfl]
        simp only [lacks_some, Array.getD_eq_getD_getElem?]
        by_cases inside : slot < count
        · simp [inside, left_size, right_size, Bool.not_and]
        · simp [inside, left_size, right_size]

theorem entails_join_left (one : first.Sized count) (other : second.Sized count) :
    first.Entails (first.join second) := by
  intro known
  refine ⟨by rw [isSome_join, known, Bool.true_or], fun slot lack => ?_⟩
  rw [lacks_join one other, lack, Bool.true_or]

theorem entails_join_right (one : first.Sized count) (other : second.Sized count) :
    second.Entails (first.join second) := by
  intro known
  refine ⟨by rw [isSome_join, known, Bool.or_true], fun slot lack => ?_⟩
  rw [lacks_join one other, lack, Bool.or_true]

theorem Entails.join (one : first.Sized count) (other : second.Sized count) (left : first.Entails third)
    (right : second.Entails third) : (first.join second).Entails third := by
  intro known
  refine ⟨?_, fun slot lack => ?_⟩
  · rw [isSome_join, Bool.or_eq_true] at known
    exact known.elim (fun known => (left known).1) fun known => (right known).1
  · rw [lacks_join one other, Bool.or_eq_true] at lack
    rcases lack with lack | lack
    · exact (left (by cases first <;> first | rfl | cases lack)).2 slot lack
    · exact (right (by cases second <;> first | rfl | cases lack)).2 slot lack

/-! ### Assignments -/

theorem Sized.assign (sized : reached.Sized count) (slot : Nat) : (reached.assign slot).Sized count := by
  cases reached with
  | none => exact sized
  | some assigned =>
      intro after isAfter
      cases isAfter
      rw [Array.size_setIfInBounds]
      exact sized assigned rfl

theorem isSome_assign (reached : Reached) (slot : Nat) : (reached.assign slot).isSome = reached.isSome :=
  Option.isSome_map

/-- Behind an assignment only the other slots may be lacked. -/
theorem lacks_assign (reached : Reached) (slot other : Nat) :
    (reached.assign slot).lacks other = (reached.lacks other && decide (slot ≠ other)) := by
  cases reached with
  | none => rfl
  | some assigned =>
      rw [show assign (some assigned) slot = some (assigned.setIfInBounds slot true) from rfl]
      simp only [lacks_some, Array.getD_eq_getD_getElem?, Array.getElem?_setIfInBounds]
      by_cases same : slot = other
      · subst same
        by_cases inside : slot < assigned.size <;> simp [inside]
      · simp [same]

theorem assign_entails (reached : Reached) (slot : Nat) : (reached.assign slot).Entails reached := by
  intro known
  rw [isSome_assign] at known
  refine ⟨known, fun other lack => ?_⟩
  rw [lacks_assign, Bool.and_eq_true] at lack
  exact lack.1

theorem Sized.assignAll (sized : reached.Sized count) (slots : List Nat) :
    (reached.assignAll slots).Sized count := by
  induction slots generalizing reached with
  | nil => exact sized
  | cons first rest ih => exact ih (sized.assign first)

theorem assignAll_entails (reached : Reached) (slots : List Nat) :
    (reached.assignAll slots).Entails reached := by
  induction slots generalizing reached with
  | nil => exact .refl reached
  | cons first rest ih => exact (ih (reached.assign first)).trans (assign_entails reached first)

theorem isSome_assignAll (reached : Reached) (slots : List Nat) :
    (reached.assignAll slots).isSome = reached.isSome := by
  induction slots generalizing reached with
  | nil => rfl
  | cons first rest ih => exact (ih (reached.assign first)).trans (isSome_assign reached first)

/-- Behind assignments only slots that are not assigned may be lacked. -/
theorem lacks_assignAll (reached : Reached) (slots : List Nat) (other : Nat) :
    (reached.assignAll slots).lacks other = (reached.lacks other && decide (other ∉ slots)) := by
  induction slots generalizing reached with
  | nil => simp [assignAll]
  | cons first rest ih =>
      refine (ih (reached.assign first)).trans ?_
      rw [lacks_assign]
      by_cases same : first = other
      · simp [same]
      · simp [same, Ne.symm same]

/-- Assignments in another order and of more slots know at least as much. -/
theorem assignAll_entails_of_subset (reached : Reached) {fewer more : List Nat} (subset : fewer ⊆ more) :
    (reached.assignAll more).Entails (reached.assignAll fewer) := by
  intro known
  rw [isSome_assignAll] at known
  refine ⟨(isSome_assignAll reached fewer).trans known, fun other lack => ?_⟩
  rw [lacks_assignAll, Bool.and_eq_true, decide_eq_true_eq] at lack ⊢
  exact ⟨lack.1, fun member => lack.2 (subset member)⟩

end

end Snippet.Reached

namespace Snippet

/-- Whether the findings are errors and nothing is reported without a finding. -/
structure FlowReport.Fair (state : FlowReport) : Prop where
  errors : ∀ finding ∈ state.findings, finding.isError = true
  reported : state.findings = [] → state.reported = []

/-- Whether every `out` parameter is assigned on every way to a point. -/
def Reached.AssignsOut (reached : Reached) (slots : List Slot) : Prop :=
  ∀ (index : Nat) (slot : Slot), slots[index]? = some slot → slot.mode = some .out →
    reached.lacks index = false

theorem Reached.assignsOut_none (slots : List Slot) : Reached.AssignsOut none slots := fun _ _ _ _ => rfl

namespace Flow

variable {α β : Type} {slots : List Slot}

/-- The state behind a step. -/
def after (slots : List Slot) (step : Flow α) (state : FlowReport) : FlowReport :=
  ((step.run slots).run state).2

/-- The result of a step. -/
def result (slots : List Slot) (step : Flow α) (state : FlowReport) : α :=
  ((step.run slots).run state).1

/-- Whether the result of a step has the first property, and also the second one if nothing is found
up to its end. -/
structure Yields (slots : List Slot) (step : Flow α) (always clean : α → Prop) : Prop where
  fair : ∀ state : FlowReport, state.Fair → (after slots step state).Fair
  always : ∀ state : FlowReport, state.Fair → always (result slots step state)
  before : ∀ state : FlowReport, state.Fair → (after slots step state).findings = [] → state.findings = []
  clean : ∀ state : FlowReport, state.Fair → (after slots step state).findings = [] →
    clean (result slots step state)

namespace Yields

variable {step : Flow α} {always clean : α → Prop}

theorem pure {value : α} (holds : always value) (holdsClean : clean value) :
    Yields slots (pure value) always clean where
  fair _ fair := fair
  always _ _ := holds
  before _ _ := id
  clean _ _ _ := holdsClean

/-- What follows a step may rely on what the step promises. -/
theorem bind {next : α → Flow β} {always' clean' : β → Prop} (head : Yields slots step always clean)
    (tail : ∀ value : α, always value → Yields slots (next value) always' fun last => clean value → clean' last) :
    Yields slots (step >>= next) always' clean' where
  fair state fair := (tail _ (head.always state fair)).fair _ (head.fair state fair)
  always state fair := (tail _ (head.always state fair)).always _ (head.fair state fair)
  before state fair none :=
    head.before state fair ((tail _ (head.always state fair)).before _ (head.fair state fair) none)
  clean state fair none := by
    have rest := tail _ (head.always state fair)
    have middle := rest.before _ (head.fair state fair) none
    exact rest.clean _ (head.fair state fair) none (head.clean state fair middle)

theorem weaken {always' clean' : α → Prop} (holds : Yields slots step always clean)
    (weaker : ∀ value : α, always value → always' value)
    (weakerClean : ∀ value : α, always value → clean value → clean' value) :
    Yields slots step always' clean' where
  fair := holds.fair
  always state fair := weaker _ (holds.always state fair)
  before := holds.before
  clean state fair none := weakerClean _ (holds.always state fair) (holds.clean state fair none)

/-- The slots of the method are known to its steps. -/
theorem read_bind {next : List Slot → Flow α} (tail : Yields slots (next slots) always clean) :
    Yields slots (do next (← read)) always clean where
  fair := tail.fair
  always := tail.always
  before := tail.before
  clean := tail.clean

end Yields

/-- Only the report of no finding leaves a report without one. -/
theorem yields_report {findings : List Finding} {clean : Prop}
    (errors : ∀ finding ∈ findings, finding.isError = true) (none : findings = [] → clean) :
    Yields slots (report findings) (fun _ => True) fun _ => clean where
  fair state fair := by
    refine ⟨fun finding member => ?_, fun isEmpty => ?_⟩
    · exact (List.mem_append.1 member).elim (fair.errors finding) (errors finding)
    · exact fair.reported (List.append_eq_nil_iff.1 isEmpty).1
  always _ _ := trivial
  before _ _ isEmpty := (List.append_eq_nil_iff.1 isEmpty).1
  clean _ _ isEmpty := none (List.append_eq_nil_iff.1 isEmpty).2

theorem isError_readProblem (slot : Slot) (span : Span) : (Finding.mk (readProblem slot) span).isError = true := by
  unfold readProblem
  split <;> rfl

/-- The state behind reading a slot that may not be assigned. -/
theorem after_readSlot {reached : Reached} {index : Nat} {slot : Slot} (found : slots[index]? = some slot)
    (lack : reached.lacks index = true) (span : Span) (state : FlowReport) :
    after slots (readSlot index reached span) state =
      if state.reported.contains index then state
      else ⟨state.findings ++ [⟨readProblem slot, span⟩], index :: state.reported⟩ := by
  show after slots (if reached.lacks index && !state.reported.contains index then do
      modify fun state => { state with reported := index :: state.reported }
      report ((slots[index]?.map fun slot => ⟨readProblem slot, span⟩).toList)
    else pure ()) state = _
  rw [lack, found]
  cases state.reported.contains index <;> rfl

/-- A slot that is read is assigned on every way if nothing is found. -/
theorem yields_readSlot {reached : Reached} (sized : reached.Sized slots.length) (index : Nat) (span : Span) :
    Yields slots (readSlot index reached span) (fun _ => True) fun _ => reached.lacks index = false := by
  cases lack : reached.lacks index with
  | false =>
      unfold readSlot
      simp only [lack, Bool.false_and]
      exact .pure trivial trivial
  | true =>
      have inside : index < slots.length := Nat.lt_of_not_le fun outside => by
        rw [sized.lacks_eq_false outside] at lack
        cases lack
      have isAfter := after_readSlot (List.getElem?_eq_getElem inside) lack span
      have found (state : FlowReport) (fair : state.Fair) :
          (after slots (readSlot index reached span) state).findings ≠ [] := by
        intro isEmpty
        rw [isAfter] at isEmpty
        split at isEmpty
        · next isReported =>
          rw [fair.reported isEmpty] at isReported
          cases isReported
        · simp at isEmpty
      refine ⟨fun state fair => ⟨?_, fun isEmpty => absurd isEmpty (found state fair)⟩, fun _ _ => trivial,
        fun state fair isEmpty => absurd isEmpty (found state fair),
        fun state fair isEmpty => absurd isEmpty (found state fair)⟩
      rw [isAfter]
      split
      · exact fair.errors
      · intro finding member
        rcases List.mem_append.1 member with earlier | isNew
        · exact fair.errors finding earlier
        · rw [List.mem_singleton.1 isNew]
          exact isError_readProblem _ span

/-- Every `out` parameter is assigned where a method ends if nothing is found there. -/
theorem yields_checkOut (reached : Reached) (span : Span) :
    Yields slots (checkOut reached span) (fun _ => True) fun _ => reached.AssignsOut slots := by
  unfold checkOut
  refine .read_bind (yields_report (fun finding member => ?_) fun isEmpty index slot found isOut => ?_)
  · obtain ⟨entry, -, rfl⟩ := List.mem_map.1 member
    rfl
  · cases lack : reached.lacks index with
    | false => rfl
    | true =>
      refine absurd ?_ (List.filter_eq_nil_iff.1 (List.map_eq_nil_iff.1 isEmpty) (slot, index)
        (List.mem_zipIdx_iff_getElem?.2 found))
      show (slot.mode == some .out && reached.lacks index) = true
      rw [isOut, lack]
      rfl

end Flow

end Snippet
