import Snippet.Proofs.Block.Basic

/-!
Plans: what is known at every position of laid out code. An analysis says how commands and tests
change what is known; what it derives for a block gives a plan that all the block's instructions
follow, jumps included.
-/

namespace Snippet

/-- A way to know something at the points of a block. -/
structure Analysis (Point : Type) where
  /-- Whether everything that may happen at a point may happen at another one. -/
  Entails : Point → Point → Prop
  /-- What may be known behind a command. -/
  After : Point → Command → Point → Prop
  /-- What may be known behind a test that found the given truth value. -/
  Test : Point → Bool → Point → Prop
  /-- Whether a part of the source may begin and end with this knowledge. -/
  Spans : Extent → Point → Point → Prop
  refl : ∀ point : Point, Entails point point
  trans : ∀ {first second third : Point}, Entails first second → Entails second third →
    Entails first third
  spans_mono : ∀ {extent : Extent} {first second first' second' : Point},
    Spans extent first second → Entails first first' → Entails second second' →
      Spans extent first' second'

namespace Analysis

variable {Point : Type} (analysis : Analysis Point)

/-- What is known in front of a block and behind it, in a loop with the given knowledge at its end
and at its next round. -/
inductive Derives : Point → Point → Point → Block → Point → Prop where
  | empty {done round point : Point} : Derives done round point .empty point
  | command {done round before after : Point} {single : Command}
      (changes : analysis.After before single after) :
    Derives done round before (.command single) after
  | append {done round before middle after : Point} {first second : Block}
      (head : Derives done round before first middle)
      (tail : Derives done round middle second after) :
    Derives done round before (.append first second) after
  | guard {done round before inside after : Point} {truth : Bool} {body : Block}
      (passes : analysis.Test before truth inside) (skips : analysis.Test before (!truth) after)
      (inner : Derives done round inside body after) :
    Derives done round before (.guard truth body) after
  | choose {done round before onTrue onFalse after : Point} {thenBlock elseBlock : Block}
      (passes : analysis.Test before true onTrue) (skips : analysis.Test before false onFalse)
      (first : Derives done round onTrue thenBlock after)
      (second : Derives done round onFalse elseBlock after) :
    Derives done round before (.choose thenBlock elseBlock) after
  | loop {done round start tested inside next after : Point} {isGuarded isDirect : Bool}
      {test body advance : Block} (enters : Derives done round start test tested)
      (guarded : isGuarded = true → analysis.Test tested true inside ∧ analysis.Test tested false after)
      (unguarded : isGuarded = false → analysis.Entails tested inside)
      (rounds : Derives after (if isDirect then start else next) inside body next)
      (advances : Derives done round next advance start) :
    Derives done round start (.loop isGuarded isDirect test body advance) after
  | leaveLoop {done round after : Point} : Derives done round done .leaveLoop after
  | nextRound {done round after : Point} : Derives done round round .nextRound after
  | scope {done round before after : Point} {extent : Extent} {body : Block}
      (spans : analysis.Spans extent before after) (inner : Derives done round before body after) :
    Derives done round before (.scope extent body) after
  | weaken {done round before before' after after' : Point} {block : Block}
      (weaker : analysis.Entails before before') (inner : Derives done round before' block after')
      (weaker' : analysis.Entails after' after) :
    Derives done round before block after

/-- Whether the instruction at a position leads from the plan at it to the plan at the positions
behind it. -/
def Follows (plan : Nat → Point) (position : Nat) : Assembly → Prop
  | .command single => ∃ after, analysis.After (plan position) single after ∧
      analysis.Entails after (plan (position + 1))
  | .jump target => analysis.Entails (plan position) (plan target)
  | .jumpIf truth target =>
    (∃ jumped, analysis.Test (plan position) truth jumped ∧ analysis.Entails jumped (plan target)) ∧
      ∃ passed, analysis.Test (plan position) (!truth) passed ∧
        analysis.Entails passed (plan (position + 1))

end Analysis

/-- Whether each entry of a list has a property at its position, counted from a start. -/
def EachAt {α : Type} (property : Nat → α → Prop) (start : Nat) : List α → Prop
  | [] => True
  | first :: rest => property start first ∧ EachAt property (start + 1) rest

namespace EachAt

variable {α : Type} {property : Nat → α → Prop}

theorem append {start : Nat} {first second : List α} :
    EachAt property start (first ++ second) ↔
      EachAt property start first ∧ EachAt property (start + first.length) second := by
  induction first generalizing start with
  | nil => simp [EachAt]
  | cons head tail ih =>
      rw [List.cons_append, EachAt, EachAt, ih, List.length_cons, and_assoc, Nat.add_assoc,
        Nat.add_comm 1]

/-- An entry of the list has the property at its position. -/
theorem of_getElem? {start index : Nat} {entries : List α} {entry : α}
    (each : EachAt property start entries) (found : entries[index]? = some entry) :
    property (start + index) entry := by
  induction entries generalizing start index with
  | nil => simp at found
  | cons head tail ih =>
      cases index with
      | zero =>
        rw [List.getElem?_cons_zero, Option.some.injEq] at found
        exact found ▸ each.1
      | succ index =>
        have later := ih each.2 (by simpa using found)
        rwa [Nat.add_assoc, Nat.add_comm 1] at later

theorem of_forall {start : Nat} {entries : List α}
    (each : ∀ (index : Nat) (entry : α), entries[index]? = some entry → property (start + index) entry) :
    EachAt property start entries := by
  induction entries generalizing start with
  | nil => trivial
  | cons head tail ih =>
      refine ⟨each 0 head rfl, ih fun index entry found => ?_⟩
      have later := each (index + 1) entry (by simpa using found)
      rwa [Nat.add_comm index, ← Nat.add_assoc] at later

end EachAt

namespace Analysis

variable {Point : Type} {analysis : Analysis Point}

/-- Whether a plan has the given points from a start on. -/
def Has (plan : Nat → Point) (start : Nat) (points : List Point) : Prop :=
  EachAt (fun position point => plan position = point) start points

/-- Whether the instructions of a block that is placed at a start follow a plan, and the parts of
the source as well. -/
def Obeys (analysis : Analysis Point) (plan : Nat → Point) (start finish again : Nat) (block : Block) :
    Prop :=
  EachAt (analysis.Follows plan) start (block.layout start finish again) ∧
    ∀ part ∈ block.extents start, analysis.Spans part.1 (plan part.2.1) (plan part.2.2)

/-- Points for the positions of a block. A plan that has them and knows enough at the exits knows
enough at the entry, and the block obeys it. -/
structure Planned (analysis : Analysis Point) (done round before : Point) (block : Block)
    (after : Point) (points : List Point) : Prop where
  length : points.length = block.length
  enters : ∀ {plan : Nat → Point} {start : Nat}, Has plan start points →
    analysis.Entails after (plan (start + block.length)) → analysis.Entails before (plan start)
  obeys : ∀ {plan : Nat → Point} {start finish again : Nat}, Has plan start points →
    analysis.Entails after (plan (start + block.length)) → analysis.Entails done (plan finish) →
    analysis.Entails round (plan again) → analysis.Obeys plan start finish again block

namespace Planned

variable {done round before middle after inside other : Point} {points others : List Point}
  {first second body : Block}

theorem empty : Planned analysis done round before .empty before [] where
  length := rfl
  enters _ leaves := leaves
  obeys _ _ _ _ := ⟨trivial, fun _ member => absurd member List.not_mem_nil⟩

theorem command {single : Command} (changes : analysis.After before single after) :
    Planned analysis done round before (.command single) after [before] where
  length := rfl
  enters has _ := has.1 ▸ analysis.refl _
  obeys has leaves _ _ :=
    ⟨⟨⟨after, has.1.symm ▸ changes, leaves⟩, trivial⟩, fun _ member => absurd member List.not_mem_nil⟩

theorem leaveLoop : Planned analysis done round done .leaveLoop after [done] where
  length := rfl
  enters has _ := has.1 ▸ analysis.refl _
  obeys has _ ends _ := by
    refine ⟨⟨?_, trivial⟩, fun _ member => absurd member List.not_mem_nil⟩
    rw [Follows, has.1]
    exact ends

theorem nextRound : Planned analysis done round round .nextRound after [round] where
  length := rfl
  enters has _ := has.1 ▸ analysis.refl _
  obeys has _ _ continues := by
    refine ⟨⟨?_, trivial⟩, fun _ member => absurd member List.not_mem_nil⟩
    rw [Follows, has.1]
    exact continues

theorem append (head : Planned analysis done round before first middle points)
    (tail : Planned analysis done round middle second after others) :
    Planned analysis done round before (.append first second) after (points ++ others) where
  length := by rw [List.length_append, head.length, tail.length, Block.length]
  enters has leaves := by
    rw [Has, EachAt.append, head.length] at has
    rw [Block.length, ← Nat.add_assoc] at leaves
    exact head.enters has.1 (tail.enters has.2 leaves)
  obeys has leaves ends continues := by
    rw [Has, EachAt.append, head.length] at has
    rw [Block.length, ← Nat.add_assoc] at leaves
    have firstObeys := head.obeys has.1 (tail.enters has.2 leaves) ends continues
    have secondObeys := tail.obeys has.2 leaves ends continues
    refine ⟨EachAt.append.2 ⟨firstObeys.1, ?_⟩, fun part member => ?_⟩
    · rw [Block.length_layout]
      exact secondObeys.1
    · exact (List.mem_append.1 member).elim (firstObeys.2 part) (secondObeys.2 part)

theorem guard {truth : Bool} (passes : analysis.Test before truth inside)
    (skips : analysis.Test before (!truth) after)
    (inner : Planned analysis done round inside body after points) :
    Planned analysis done round before (.guard truth body) after (before :: points) where
  length := by rw [List.length_cons, inner.length, Block.length, Nat.add_comm]
  enters has _ := has.1 ▸ analysis.refl _
  obeys has leaves ends continues := by
    rw [Block.length, ← Nat.add_assoc] at leaves
    obtain ⟨codes, parts⟩ := inner.obeys has.2 leaves ends continues
    refine ⟨⟨⟨⟨after, ?_, leaves⟩, inside, ?_, inner.enters has.2 leaves⟩, codes⟩, parts⟩
    · rw [has.1]
      exact skips
    · rw [has.1, Bool.not_not]
      exact passes

theorem choose (passes : analysis.Test before true inside) (skips : analysis.Test before false other)
    (thenPlan : Planned analysis done round inside first after points)
    (elsePlan : Planned analysis done round other second after others) :
    Planned analysis done round before (.choose first second) after
      (before :: points ++ after :: others) where
  length := by
    simp only [List.length_append, List.length_cons, thenPlan.length, elsePlan.length, Block.length]
    omega
  enters has _ := has.1 ▸ analysis.refl _
  obeys {plan start finish again} has leaves ends continues := by
    rw [Has, EachAt.append, List.length_cons, thenPlan.length] at has
    obtain ⟨⟨atTest, hasThen⟩, atExit, hasElse⟩ := has
    have elseStart : start + (first.length + 1) + 1 = start + 1 + first.length + 1 := by omega
    have stop : start + (Block.choose first second).length =
        start + 1 + first.length + 1 + second.length := by simp only [Block.length]; omega
    rw [elseStart] at hasElse
    rw [stop] at leaves
    have exits : start + (first.length + 1) = start + 1 + first.length := by omega
    rw [exits] at atExit
    have thenObeys := thenPlan.obeys hasThen (atExit.symm ▸ analysis.refl _) ends continues
    have elseObeys := elsePlan.obeys hasElse leaves ends continues
    refine ⟨?_, fun part member => ?_⟩
    · refine EachAt.append.2 ⟨⟨⟨⟨other, ?_, elsePlan.enters hasElse leaves⟩, inside, ?_,
        thenPlan.enters hasThen (atExit.symm ▸ analysis.refl _)⟩, thenObeys.1⟩, ?_, ?_⟩
      · rw [atTest]
        exact skips
      · rw [atTest]
        exact passes
      · rw [List.length_cons, Block.length_layout, exits, Follows, atExit]
        exact leaves
      · rw [List.length_cons, Block.length_layout, elseStart]
        exact elseObeys.1
    · exact (List.mem_append.1 member).elim (thenObeys.2 part) (elseObeys.2 part)

section

variable {start tested next : Point} {isGuarded isDirect : Bool} {test advance : Block}
  {testPoints bodyPoints advancePoints : List Point}

/-- The points of a loop: those of its parts, with one for each jump between them. -/
def loopPoints (isGuarded : Bool) (start tested : Point)
    (testPoints bodyPoints advancePoints : List Point) : List Point :=
  testPoints ++ (if isGuarded then [tested] else []) ++ bodyPoints ++ advancePoints ++ [start]

/-- A plan that has the points of a loop knows enough where each part of the loop begins. -/
theorem loop_entries (enters : Planned analysis done round start test tested testPoints)
    (unguarded : isGuarded = false → analysis.Entails tested inside)
    (rounds : Planned analysis after (if isDirect then start else next) inside body next bodyPoints)
    (advances : Planned analysis done round next advance start advancePoints)
    {plan : Nat → Point} {place bodyPlace nextPlace : Nat}
    (bodyAt : bodyPlace = place + test.length + (if isGuarded then 1 else 0))
    (nextAt : nextPlace = bodyPlace + body.length)
    (has : Has plan place (loopPoints isGuarded start tested testPoints bodyPoints advancePoints)) :
    Has plan place testPoints ∧ (isGuarded = true → plan (place + test.length) = tested) ∧
      Has plan bodyPlace bodyPoints ∧ Has plan nextPlace advancePoints ∧
      plan (nextPlace + advance.length) = start ∧ analysis.Entails next (plan nextPlace) ∧
      analysis.Entails inside (plan bodyPlace) ∧ analysis.Entails tested (plan (place + test.length)) ∧
      analysis.Entails start (plan place) := by
  simp only [Has, loopPoints, EachAt.append, List.length_append, enters.length, rounds.length,
    advances.length] at has
  obtain ⟨⟨⟨⟨hasTest, hasGuard⟩, hasBody⟩, hasAdvance⟩, atJump, -⟩ := has
  have guardLength : (if isGuarded then [tested] else []).length = if isGuarded then 1 else 0 := by
    cases isGuarded <;> rfl
  rw [guardLength, ← Nat.add_assoc, ← bodyAt] at hasBody
  rw [guardLength, ← Nat.add_assoc, ← Nat.add_assoc, ← bodyAt, ← nextAt] at hasAdvance
  rw [guardLength, ← Nat.add_assoc, ← Nat.add_assoc, ← Nat.add_assoc, ← bodyAt, ← nextAt] at atJump
  have nextEnters := advances.enters hasAdvance (atJump.symm ▸ analysis.refl _)
  have bodyEnters := rounds.enters hasBody (nextAt ▸ nextEnters)
  have atGuard : isGuarded = true → plan (place + test.length) = tested := by
    intro isTrue
    rw [isTrue] at hasGuard
    exact hasGuard.1
  have testedEnters : analysis.Entails tested (plan (place + test.length)) := by
    cases isGuarded with
    | true => exact (atGuard rfl).symm ▸ analysis.refl _
    | false => exact analysis.trans (unguarded rfl) (bodyAt ▸ bodyEnters)
  exact ⟨hasTest, atGuard, hasBody, hasAdvance, atJump, nextEnters, bodyEnters, testedEnters,
    enters.enters hasTest testedEnters⟩

theorem loop (enters : Planned analysis done round start test tested testPoints)
    (guarded : isGuarded = true → analysis.Test tested true inside ∧ analysis.Test tested false after)
    (unguarded : isGuarded = false → analysis.Entails tested inside)
    (rounds : Planned analysis after (if isDirect then start else next) inside body next bodyPoints)
    (advances : Planned analysis done round next advance start advancePoints) :
    Planned analysis done round start (.loop isGuarded isDirect test body advance) after
      (loopPoints isGuarded start tested testPoints bodyPoints advancePoints) where
  length := by
    simp only [loopPoints, List.length_append, List.length_singleton, enters.length, rounds.length,
      advances.length, Block.length]
    cases isGuarded <;> rfl
  enters has _ := by
    obtain ⟨-, -, -, -, -, -, -, -, startEnters⟩ := loop_entries enters unguarded rounds advances rfl rfl has
    exact startEnters
  obeys {plan place finish again} has leaves ends continues := by
    obtain ⟨hasTest, atGuard, hasBody, hasAdvance, atJump, nextEnters, bodyEnters, testedEnters,
      startEnters⟩ := loop_entries enters unguarded rounds advances rfl rfl has
    have stop : place + (Block.loop isGuarded isDirect test body advance).length =
        place + test.length + (if isGuarded then 1 else 0) + body.length + advance.length + 1 := by
      simp only [Block.length]
      omega
    rw [stop] at leaves
    have again : analysis.Entails (if isDirect then start else next) (plan (if isDirect then place
        else place + test.length + (if isGuarded then 1 else 0) + body.length)) := by
      cases isDirect with
      | true => exact startEnters
      | false => exact nextEnters
    have testObeys := enters.obeys hasTest testedEnters ends continues
    have bodyObeys := rounds.obeys hasBody nextEnters leaves again
    have advanceObeys := advances.obeys hasAdvance (atJump.symm ▸ analysis.refl _) ends continues
    refine ⟨?_, fun part member => ?_⟩
    · have testLength (target : Nat) : (if isGuarded then [Assembly.jumpIf false target] else []).length =
          if isGuarded then 1 else 0 := by cases isGuarded <;> rfl
      simp only [Block.layout, EachAt.append, List.length_append, Block.length_layout, testLength,
        ← Nat.add_assoc]
      refine ⟨⟨⟨⟨testObeys.1, ?_⟩, bodyObeys.1⟩, advanceObeys.1⟩, ?_, trivial⟩
      · cases isGuarded with
        | true =>
          obtain ⟨passes, ends⟩ := guarded rfl
          refine ⟨⟨⟨after, ?_, leaves⟩, inside, ?_, bodyEnters⟩, trivial⟩
          · rw [atGuard rfl]
            exact ends
          · rw [atGuard rfl]
            exact passes
        | false => trivial
      · rw [Follows, atJump]
        exact startEnters
    · simp only [Block.extents, List.mem_append] at member
      rcases member with (inTest | inBody) | inAdvance
      · exact testObeys.2 part inTest
      · exact bodyObeys.2 part inBody
      · exact advanceObeys.2 part inAdvance

end

theorem scope {extent : Extent} (spans : analysis.Spans extent before after)
    (inner : Planned analysis done round before body after points) :
    Planned analysis done round before (.scope extent body) after points where
  length := inner.length
  enters := inner.enters
  obeys has leaves ends continues := by
    obtain ⟨codes, parts⟩ := inner.obeys has leaves ends continues
    refine ⟨codes, fun part member => ?_⟩
    rcases List.mem_cons.1 member with rfl | inBody
    · exact analysis.spans_mono spans (inner.enters has leaves) leaves
    · exact parts part inBody

theorem weaken {before' after' : Point} (weaker : analysis.Entails before before')
    (inner : Planned analysis done round before' body after' points)
    (weaker' : analysis.Entails after' after) :
    Planned analysis done round before body after points where
  length := inner.length
  enters has leaves := analysis.trans weaker (inner.enters has (analysis.trans weaker' leaves))
  obeys has leaves ends continues := inner.obeys has (analysis.trans weaker' leaves) ends continues

end Planned

/-- What is derived for a block can be planned. -/
theorem Derives.planned {done round before after : Point} {block : Block}
    (derived : analysis.Derives done round before block after) :
    ∃ points, Planned analysis done round before block after points := by
  induction derived with
  | empty => exact ⟨_, .empty⟩
  | command changes => exact ⟨_, .command changes⟩
  | append _ _ head tail =>
      obtain ⟨_, head⟩ := head
      obtain ⟨_, tail⟩ := tail
      exact ⟨_, .append head tail⟩
  | guard passes skips _ inner =>
      obtain ⟨_, inner⟩ := inner
      exact ⟨_, .guard passes skips inner⟩
  | choose passes skips _ _ first second =>
      obtain ⟨_, first⟩ := first
      obtain ⟨_, second⟩ := second
      exact ⟨_, .choose passes skips first second⟩
  | loop _ guarded unguarded _ _ enters rounds advances =>
      obtain ⟨_, enters⟩ := enters
      obtain ⟨_, rounds⟩ := rounds
      obtain ⟨_, advances⟩ := advances
      exact ⟨_, .loop enters guarded unguarded rounds advances⟩
  | leaveLoop => exact ⟨_, .leaveLoop⟩
  | nextRound => exact ⟨_, .nextRound⟩
  | scope spans _ inner =>
      obtain ⟨_, inner⟩ := inner
      exact ⟨_, .scope spans inner⟩
  | weaken weaker _ weaker' inner =>
      obtain ⟨_, inner⟩ := inner
      exact ⟨_, .weaken weaker inner weaker'⟩

/-- What is derived for a block that stands alone, and whose loose jumps may go to its start, gives
a plan of its positions. -/
theorem Derives.plan {done round before after : Point} {block : Block}
    (derived : analysis.Derives done round before block after)
    (ends : analysis.Entails done before) (continues : analysis.Entails round before) :
    ∃ plan : Nat → Point, analysis.Entails before (plan 0) ∧
      (∀ position : Nat, block.length ≤ position → plan position = after) ∧
      analysis.Obeys plan 0 0 0 block := by
  obtain ⟨points, planned⟩ := derived.planned
  let plan (position : Nat) : Point := points[position]?.getD after
  have has : Has plan 0 points := by
    refine EachAt.of_forall fun index point found => ?_
    simp [plan, found]
  have outside (position : Nat) (behind : block.length ≤ position) : plan position = after := by
    have beyond : points[position]? = none := List.getElem?_eq_none (by rw [planned.length]; exact behind)
    simp [plan, beyond]
  have leaves : analysis.Entails after (plan (0 + block.length)) :=
    (outside _ (Nat.le_add_left ..)).symm ▸ analysis.refl after
  have enters := planned.enters has leaves
  exact ⟨plan, enters, outside,
    planned.obeys has leaves (analysis.trans ends enters) (analysis.trans continues enters)⟩

end Analysis

end Snippet
