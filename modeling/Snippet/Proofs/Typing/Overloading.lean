import Mathlib.Data.List.Perm.Basic
import Snippet.Proofs.Typing.Call

/-!
Overload resolution. A candidate is called if all arguments fit it and it beats every other candidate
that they fit: no argument converts worse to its parameters, and one converts better. No two candidates
of one list can do that, so neither the choice nor the refusal depends on the order of the candidates.

Main statement: `resolveCall_irrespective_of_order`.
-/

namespace Snippet

/-! ### Better conversions -/

/-- Whether a value of the source type rather goes to the first type than to the second: because the
first is its own type, or because only the first converts to the other. -/
def Ty.ConvertsBetter (source first second : Ty) : Prop :=
  first ≠ second ∧ (source = first ∨ source ≠ second ∧
    (Coercion.implicit? first second).isSome = true ∧ (Coercion.implicit? second first).isSome = false)

namespace Candidate

theorem betterConversion?_eq_true {source first second : Ty} :
    betterConversion? source first second = some true ↔ source.ConvertsBetter first second := by
  unfold betterConversion? Ty.ConvertsBetter
  split_ifs with same isFirst isSecond
  · simp [same]
  · subst isFirst
    simp [same]
  · simp [isSecond, Ne.symm same]
  · cases (Coercion.implicit? first second).isSome <;> cases (Coercion.implicit? second first).isSome <;>
      simp [same, isFirst, isSecond]

theorem betterConversion?_eq_false {source first second : Ty} :
    betterConversion? source first second = some false ↔ source.ConvertsBetter second first := by
  unfold betterConversion? Ty.ConvertsBetter
  split_ifs with same isFirst isSecond
  · simp [same]
  · simp [isFirst, same]
  · simp [isSecond, Ne.symm same]
  · cases (Coercion.implicit? first second).isSome <;> cases (Coercion.implicit? second first).isSome <;>
      simp [Ne.symm same, isFirst, isSecond]

/-! ### Better candidates -/

/-- Whether there is one argument for each parameter, and each fits its parameter. -/
def Fits (candidate : Candidate) (arguments : List CheckedArgument) : Prop :=
  List.Forall₂ (fun argument parameter => argument.fits parameter.1 parameter.2 = true) arguments
    candidate.parameters

/-- Whether an argument converts better to its parameter of one candidate than to that of another. -/
def ConvertsBetterAt (candidate other : Candidate) (arguments : List CheckedArgument) (position : Nat) : Prop :=
  ∃ argument mine theirs, arguments[position]? = some argument ∧ candidate.parameters[position]? = some mine ∧
    other.parameters[position]? = some theirs ∧ argument.value.type.ConvertsBetter mine.2 theirs.2

/-- Whether no argument converts worse to a candidate than to another, and one converts better. -/
structure Beats (candidate other : Candidate) (arguments : List CheckedArgument) : Prop where
  noneWorse : ∀ position, ¬other.ConvertsBetterAt candidate arguments position
  oneBetter : ∃ position, candidate.ConvertsBetterAt other arguments position

/-- Whether the arguments fit the candidate at a position, and it beats all others that they fit. -/
def IsBestAt (candidates : List Candidate) (arguments : List CheckedArgument) (position : Nat) : Prop :=
  ∃ candidate, candidates[position]? = some candidate ∧ candidate.Fits arguments ∧
    ∀ place other, place ≠ position → candidates[place]? = some other → other.Fits arguments →
      candidate.Beats other arguments

variable {candidates reordered : List Candidate} {arguments : List CheckedArgument} {candidate other : Candidate}

theorem Beats.asymm (beats : candidate.Beats other arguments) : ¬other.Beats candidate arguments := by
  obtain ⟨position, better⟩ := beats.oneBetter
  exact fun beaten => beaten.noneWorse position better

theorem applies_iff : candidate.applies arguments = true ↔ candidate.Fits arguments := by
  unfold applies Fits
  rw [Bool.and_eq_true, beq_iff_eq, List.all_eq_true, List.forall₂_iff_zip, eq_comm]
  simp only [Prod.forall]

/-- The comparison of two candidates tells for each argument to which of them it converts better. -/
theorem mem_comparisons {verdict : Option Bool} :
    verdict ∈ comparisons candidate other arguments ↔
      ∃ (position : Nat) (argument : CheckedArgument) (mine theirs : PassMode × Ty),
        arguments[position]? = some argument ∧ candidate.parameters[position]? = some mine ∧
        other.parameters[position]? = some theirs ∧
        betterConversion? argument.value.type mine.2 theirs.2 = verdict := by
  unfold comparisons
  constructor
  · intro member
    obtain ⟨⟨argument, mine, theirs⟩, paired, isVerdict⟩ := List.mem_map.1 member
    obtain ⟨position, found⟩ := List.mem_iff_getElem?.1 paired
    obtain ⟨isArgument, bothParameters⟩ := List.getElem?_zip_eq_some.1 found
    obtain ⟨isMine, isTheirs⟩ := List.getElem?_zip_eq_some.1 bothParameters
    exact ⟨position, argument, mine, theirs, isArgument, isMine, isTheirs, isVerdict⟩
  · rintro ⟨position, argument, mine, theirs, isArgument, isMine, isTheirs, isVerdict⟩
    refine List.mem_map.2 ⟨(argument, mine, theirs), List.mem_iff_getElem?.2 ⟨position, ?_⟩, isVerdict⟩
    exact List.getElem?_zip_eq_some.2 ⟨isArgument, List.getElem?_zip_eq_some.2 ⟨isMine, isTheirs⟩⟩

theorem isBetter_iff : candidate.isBetter other arguments = true ↔ candidate.Beats other arguments := by
  have better : some true ∈ comparisons candidate other arguments ↔
      ∃ position, candidate.ConvertsBetterAt other arguments position := by
    simp only [mem_comparisons, betterConversion?_eq_true, ConvertsBetterAt]
  have worse : some false ∈ comparisons candidate other arguments ↔
      ∃ position, other.ConvertsBetterAt candidate arguments position := by
    simp only [mem_comparisons, betterConversion?_eq_false, ConvertsBetterAt]
    refine exists_congr fun position => exists_congr fun argument => ?_
    rw [exists_comm]
    refine exists_congr fun theirs => exists_congr fun mine => ?_
    tauto
  unfold isBetter
  simp only [Bool.and_eq_true, Bool.not_eq_true', ← Bool.not_eq_true, List.contains_iff_mem, better, worse]
  exact ⟨fun ⟨noneWorse, oneBetter⟩ => ⟨not_exists.1 noneWorse, oneBetter⟩,
    fun ⟨noneWorse, oneBetter⟩ => ⟨not_exists.2 noneWorse, oneBetter⟩⟩

end Candidate

/-- One entry of a list against all others, by its position and by what is left without it. -/
theorem List.exists_apart_iff {α : Type} {entries : List α} {entry : α} {good : α → Prop} :
    (∃ position : Nat, entries[position]? = some entry ∧
        ∀ (place : Nat) (other : α), place ≠ position → entries[place]? = some other → good other) ↔
      ∃ others, entries.Perm (entry :: others) ∧ ∀ other ∈ others, good other := by
  constructor
  · rintro ⟨position, found, apart⟩
    obtain ⟨inside, rfl⟩ := List.getElem?_eq_some_iff.1 found
    refine ⟨entries.eraseIdx position, (List.getElem_cons_eraseIdx_perm inside).symm, fun other member => ?_⟩
    obtain ⟨place, different, isOther⟩ := List.mem_eraseIdx_iff_getElem?.1 member
    exact apart place other different isOther
  · rintro ⟨others, perm, apart⟩
    obtain ⟨position, inside, rfl⟩ := List.getElem_of_mem (perm.mem_iff.2 (List.mem_cons_self ..))
    have same : others.Perm (entries.eraseIdx position) :=
      (perm.symm.trans (List.getElem_cons_eraseIdx_perm inside).symm).cons_inv
    refine ⟨position, List.getElem?_eq_getElem inside, fun place other different isOther => apart other ?_⟩
    exact same.mem_iff.2 (List.mem_eraseIdx_iff_getElem?.2 ⟨place, different, isOther⟩)

namespace Candidate

variable {candidates reordered : List Candidate} {arguments : List CheckedArgument} {candidate other : Candidate}

/-! ### The best candidate -/

/-- Whether a candidate that the arguments fit beats the others that they fit, wherever it stands. -/
def Leads (candidates : List Candidate) (arguments : List CheckedArgument) (candidate : Candidate) : Prop :=
  candidate.Fits arguments ∧ ∃ others, candidates.Perm (candidate :: others) ∧
    ∀ other ∈ others, other.Fits arguments → candidate.Beats other arguments

/-- The leading candidate is the one at the best position. -/
theorem leads_iff : Leads candidates arguments candidate ↔
    ∃ position : Nat, candidates[position]? = some candidate ∧ IsBestAt candidates arguments position := by
  unfold Leads
  rw [← List.exists_apart_iff]
  constructor
  · rintro ⟨fits, position, found, beats⟩
    exact ⟨position, found, candidate, found, fits, beats⟩
  · rintro ⟨position, found, same, isSame, fits, beats⟩
    cases found.symm.trans isSame
    exact ⟨fits, position, found, beats⟩

theorem Leads.of_perm (perm : reordered.Perm candidates) (leads : Leads candidates arguments candidate) :
    Leads reordered arguments candidate := by
  obtain ⟨fits, others, parted, beats⟩ := leads
  exact ⟨fits, others, perm.trans parted, beats⟩

/-- Candidates that the arguments do not fit do not matter. -/
theorem leads_filter : Leads (candidates.filter (·.applies arguments)) arguments candidate ↔
    Leads candidates arguments candidate := by
  refine and_congr_right fun fits => ?_
  have applies := applies_iff.2 fits
  constructor
  · rintro ⟨others, perm, beats⟩
    have member : candidate ∈ candidates := (List.mem_filter.1 (perm.mem_iff.2 (List.mem_cons_self ..))).1
    obtain ⟨front, back, rfl⟩ := List.append_of_mem member
    have parted : (front ++ candidate :: back).Perm (candidate :: (front ++ back)) := List.perm_middle
    have filtered : ((front ++ candidate :: back).filter (·.applies arguments)).Perm
        (candidate :: (front ++ back).filter (·.applies arguments)) := by
      simpa only [List.filter_cons, applies, if_true] using parted.filter (·.applies arguments)
    refine ⟨front ++ back, parted, fun other isOther otherFits => beats other ?_ otherFits⟩
    exact (perm.symm.trans filtered).cons_inv.mem_iff.2 (List.mem_filter.2 ⟨isOther, applies_iff.2 otherFits⟩)
  · rintro ⟨others, perm, beats⟩
    refine ⟨others.filter (·.applies arguments), ?_, fun other member => beats other (List.mem_filter.1 member).1⟩
    simpa only [List.filter_cons, applies, if_true] using perm.filter (·.applies arguments)

/-- At most one position holds a best candidate: of two, each would beat the other. -/
theorem IsBestAt.unique {position place : Nat} (isBest : IsBestAt candidates arguments position)
    (alsoBest : IsBestAt candidates arguments place) : place = position := by
  obtain ⟨candidate, found, fits, beats⟩ := isBest
  obtain ⟨other, isOther, otherFits, otherBeats⟩ := alsoBest
  by_contra different
  exact (beats place other different isOther otherFits).asymm
    (otherBeats position candidate (Ne.symm different) found fits)

theorem Leads.unique (leads : Leads candidates arguments candidate) (rivals : Leads candidates arguments other) :
    other = candidate := by
  obtain ⟨position, found, isBest⟩ := leads_iff.1 leads
  obtain ⟨place, isOther, alsoBest⟩ := leads_iff.1 rivals
  cases isBest.unique alsoBest
  exact Option.some.inj (isOther.symm.trans found)

/-- What the search among candidates that all fit finds leads them. -/
theorem leads_of_best? {fitting : List Candidate} (allFit : ∀ candidate ∈ fitting, candidate.Fits arguments)
    (isBest : best? fitting arguments = some candidate) : Leads fitting arguments candidate := by
  obtain ⟨entry, found, rfl⟩ := Option.map_eq_some_iff.1 isBest
  have isEntry := List.mem_zipIdx_iff_getElem?.1 (List.mem_of_find?_eq_some found)
  have beatsAll := List.find?_some found
  simp only [List.all_eq_true, Bool.or_eq_true, beq_iff_eq, isBetter_iff] at beatsAll
  refine leads_iff.2 ⟨entry.2, isEntry, entry.1, isEntry, allFit _ (List.mem_of_getElem? isEntry), ?_⟩
  intro place other different isOther _
  exact (beatsAll (other, place) (List.mem_zipIdx_iff_getElem?.2 isOther)).resolve_left (Ne.symm different)

/-- The search among candidates that all fit finds the leading one. -/
theorem best?_eq_some_iff {fitting : List Candidate} (allFit : ∀ candidate ∈ fitting, candidate.Fits arguments) :
    best? fitting arguments = some candidate ↔ Leads fitting arguments candidate := by
  refine ⟨leads_of_best? allFit, fun leads => ?_⟩
  cases found : best? fitting arguments with
  | some other => exact congrArg some (leads.unique (leads_of_best? allFit found))
  | none =>
    obtain ⟨position, isCandidate, same, isSame, fits, beats⟩ := leads_iff.1 leads
    cases isCandidate.symm.trans isSame
    have missed := List.find?_eq_none.1 (Option.map_eq_none_iff.1 found) (candidate, position)
      (List.mem_zipIdx_iff_getElem?.2 isCandidate)
    refine absurd (List.all_eq_true.2 fun entry member => ?_) missed
    have isEntry := List.mem_zipIdx_iff_getElem?.1 member
    by_cases same : position = entry.2
    · simp [same]
    · have wins := beats entry.2 entry.1 (Ne.symm same) isEntry (allFit _ (List.mem_of_getElem? isEntry))
      simp [isBetter_iff.2 wins]

end Candidate

/-! ### The outcome of a call -/

/-- What overload resolution finds. -/
inductive Resolution where
  | noneFits
  | ambiguous
  | selected (candidate : Candidate)

/-- Whether candidates and arguments resolve to an outcome. -/
def Resolution.Holds (candidates : List Candidate) (arguments : List CheckedArgument) : Resolution → Prop
  | noneFits => ∀ candidate ∈ candidates, ¬candidate.Fits arguments
  | ambiguous => (∃ candidate ∈ candidates, candidate.Fits arguments) ∧
      ∀ position, ¬Candidate.IsBestAt candidates arguments position
  | selected candidate => ∃ position : Nat, candidates[position]? = some candidate ∧
      Candidate.IsBestAt candidates arguments position

/-- Whether a candidate may be called from the class around the body. -/
def Candidate.isAccessible (context : BodyContext) (candidate : Candidate) : Bool :=
  match candidate.target with
  | .compiled method => Check.accessible context method
  | .host _ | .builtin _ => true

/-- The call of a candidate with converted arguments. -/
def Candidate.node (candidate : Candidate) (receiver : Option TypedExpr) (converted : List TypedArgument)
    (span : Span) : TypedNode :=
  match candidate.target with
  | .compiled method => .call method converted
  | .host function => .hostCall function (Check.argumentValues converted)
  | .builtin member => .builtin member (receiver.getD (.wrong span)) (Check.argumentValues converted)

/-- Whether the check of a call ends as an outcome says: with the error that no candidate fits, with the
error that two that fit are ambiguous, or with the candidate called, unless it is inaccessible. -/
def Callee.EndsWith (callee : Callee) (arguments : List CheckedArgument) (span : Span) : Resolution → Prop
  | .noneFits => Check.resolveCall callee arguments span =
      throw (Candidate.mismatch callee.candidates arguments callee.name span)
  | .ambiguous => ∃ first second rest,
      callee.candidates.filter (·.applies arguments) = first :: second :: rest ∧
      Check.resolveCall callee arguments span = Check.fail (.ambiguousCall first.label second.label) span
  | .selected candidate => ∃ converted,
      Check.coerceArguments arguments candidate.parameters = .ok converted ∧
      Check.resolveCall callee arguments span = do
        let context ← read
        if candidate.isAccessible context then
          return .mk (candidate.node callee.receiver converted span) candidate.result span
        else Check.fail (.inaccessible candidate.label) span

/-- An argument that fits a parameter is converted to it. -/
theorem CheckedArgument.exists_converted {argument : CheckedArgument} {mode : PassMode} {type : Ty}
    (fits : argument.fits mode type = true) :
    ∃ converted : TypedArgument, (do
      let value ← if mode.writesBack then pure argument.value else argument.value.coerce type
      return TypedArgument.mk mode value : Except Finding TypedArgument) = .ok converted := by
  have coerces (converts : (Coercion.implicit? argument.value.type type).isSome = true) :
      ∃ value, argument.value.coerce type = .ok value := by
    obtain ⟨coercion, implicit⟩ := Option.isSome_iff_exists.1 converts
    refine ⟨argument.value.coerced coercion type, ?_⟩
    rw [TypedExpr.coerce, implicit]
  have identity (same : sameType argument.value.type type = true) :
      (Coercion.implicit? argument.value.type type).isSome = true := by
    simp only [sameType, Bool.or_eq_true, beq_iff_eq, or_assoc] at same
    simp [Coercion.implicit?, same]
  cases mode with
  | ref | out => exact ⟨_, rfl⟩
  | value =>
    simp only [CheckedArgument.fits, Bool.and_eq_true] at fits
    obtain ⟨value, isValue⟩ := coerces fits.2
    exact ⟨.mk .value value, by simp [PassMode.writesBack, isValue]⟩
  | input =>
    have converts : (Coercion.implicit? argument.value.type type).isSome = true := by
      cases passed : argument.mode <;> simp [CheckedArgument.fits, passed] at fits
      · exact fits
      · exact identity fits
    obtain ⟨value, isValue⟩ := coerces converts
    exact ⟨.mk .input value, by simp [PassMode.writesBack, isValue]⟩

/-- The arguments of a candidate that they fit are converted to its parameters. -/
theorem Candidate.Fits.exists_converted {candidate : Candidate} {arguments : List CheckedArgument}
    (fits : candidate.Fits arguments) :
    ∃ converted, Check.coerceArguments arguments candidate.parameters = .ok converted := by
  unfold Fits at fits
  generalize candidate.parameters = parameters at fits
  induction fits with
  | nil => exact ⟨[], rfl⟩
  | cons first _ ih =>
    obtain ⟨converted, isConverted⟩ := CheckedArgument.exists_converted first
    obtain ⟨others, areOthers⟩ := ih
    refine ⟨converted :: others, ?_⟩
    unfold Check.coerceArguments at areOthers ⊢
    rw [List.zip_cons_cons, List.mapM_cons]
    dsimp only
    rw [isConverted, areOthers]
    rfl

/-! ### Irrespective of the order -/

/-- The rules say the same of candidates in another order. -/
theorem Resolution.Holds.of_perm {candidates reordered : List Candidate} {arguments : List CheckedArgument}
    {outcome : Resolution} (perm : reordered.Perm candidates) (holds : outcome.Holds candidates arguments) :
    outcome.Holds reordered arguments := by
  cases outcome with
  | noneFits => exact fun candidate member => holds candidate (perm.mem_iff.1 member)
  | ambiguous =>
    obtain ⟨⟨candidate, member, fits⟩, noBest⟩ := holds
    refine ⟨⟨candidate, perm.mem_iff.2 member, fits⟩, fun position isBest => ?_⟩
    obtain ⟨leader, found, -⟩ := id isBest
    have leads := (Candidate.leads_iff.2 ⟨position, found, isBest⟩).of_perm perm.symm
    obtain ⟨place, -, alsoBest⟩ := Candidate.leads_iff.1 leads
    exact noBest place alsoBest
  | selected candidate =>
    exact Candidate.leads_iff.1 ((Candidate.leads_iff.2 holds).of_perm perm)

/-- The rules admit one outcome. -/
theorem Resolution.Holds.unique {candidates : List Candidate} {arguments : List CheckedArgument}
    {outcome other : Resolution} (holds : outcome.Holds candidates arguments)
    (alsoHolds : other.Holds candidates arguments) : outcome = other := by
  have fitsSome {candidate : Candidate} (selected : (Resolution.selected candidate).Holds candidates arguments) :
      ∃ candidate ∈ candidates, candidate.Fits arguments := by
    obtain ⟨position, found, same, isSame, fits, -⟩ := selected
    exact ⟨same, List.mem_of_getElem? isSame, fits⟩
  cases outcome with
  | noneFits =>
    cases other with
    | noneFits => rfl
    | ambiguous =>
      obtain ⟨⟨candidate, member, fits⟩, -⟩ := alsoHolds
      exact absurd fits (holds candidate member)
    | selected _ =>
      obtain ⟨candidate, member, fits⟩ := fitsSome alsoHolds
      exact absurd fits (holds candidate member)
  | ambiguous =>
    cases other with
    | noneFits =>
      obtain ⟨⟨candidate, member, fits⟩, -⟩ := holds
      exact absurd fits (alsoHolds candidate member)
    | ambiguous => rfl
    | selected _ =>
      obtain ⟨position, -, isBest⟩ := alsoHolds
      exact absurd isBest (holds.2 position)
  | selected candidate =>
    cases other with
    | noneFits =>
      obtain ⟨candidate, member, fits⟩ := fitsSome holds
      exact absurd fits (alsoHolds candidate member)
    | ambiguous =>
      obtain ⟨position, -, isBest⟩ := holds
      exact absurd isBest (alsoHolds.2 position)
    | selected other =>
      exact congrArg _ ((Candidate.leads_iff.2 alsoHolds).unique (Candidate.leads_iff.2 holds))

/-- The best of the candidates that fit is called. -/
theorem Callee.endsWith_selected {callee : Callee} {arguments : List CheckedArgument} {first candidate : Candidate}
    {others : List Candidate} (isFitting : callee.candidates.filter (·.applies arguments) = first :: others)
    (found : Candidate.best? (first :: others) arguments = some candidate) (fits : candidate.Fits arguments)
    (span : Span) : callee.EndsWith arguments span (.selected candidate) := by
  obtain ⟨converted, isConverted⟩ := fits.exists_converted
  refine ⟨converted, isConverted, ?_⟩
  obtain ⟨parameters, result, target, label⟩ := candidate
  cases target with
  | compiled method =>
    simp only [Check.resolveCall, isFitting, found, isConverted, Candidate.node]
    refine congrArg (read >>= ·) (funext fun context => ?_)
    by_cases accessible : Check.accessible context method = true
    · rw [if_neg (by simp [accessible])]
      exact (if_pos accessible).symm
    · rw [if_pos (by simpa using accessible)]
      exact (if_neg accessible).symm
  | host function | builtin member =>
    simp only [Check.resolveCall, isFitting, found, isConverted, Candidate.node]
    rfl

/-- The check of a call ends with what the rules say. -/
theorem Callee.exists_outcome (callee : Callee) (arguments : List CheckedArgument) (span : Span) :
    ∃ outcome : Resolution, outcome.Holds callee.candidates arguments ∧ callee.EndsWith arguments span outcome := by
  have allFit : ∀ candidate ∈ callee.candidates.filter (·.applies arguments), candidate.Fits arguments :=
    fun candidate member => Candidate.applies_iff.1 (List.mem_filter.1 member).2
  have best {candidate : Candidate} :
      Candidate.best? (callee.candidates.filter (·.applies arguments)) arguments = some candidate ↔
        Candidate.Leads callee.candidates arguments candidate :=
    (Candidate.best?_eq_some_iff allFit).trans Candidate.leads_filter
  cases isFitting : callee.candidates.filter (·.applies arguments) with
  | nil =>
    refine ⟨.noneFits, fun candidate member fits => ?_, ?_⟩
    · have fitting : candidate ∈ callee.candidates.filter (·.applies arguments) :=
        List.mem_filter.2 ⟨member, Candidate.applies_iff.2 fits⟩
      rw [isFitting] at fitting
      cases fitting
    · simp only [EndsWith, Check.resolveCall, isFitting]
  | cons first others =>
    rw [isFitting] at best allFit
    cases found : Candidate.best? (first :: others) arguments with
    | none =>
      have noBest (position : Nat) : ¬Candidate.IsBestAt callee.candidates arguments position := by
        intro isBest
        obtain ⟨candidate, isCandidate, -⟩ := id isBest
        have isFound := best.2 (Candidate.leads_iff.2 ⟨position, isCandidate, isBest⟩)
        rw [found] at isFound
        cases isFound
      have member : first ∈ callee.candidates :=
        (List.mem_filter.1 (isFitting ▸ List.mem_cons_self ..)).1
      refine ⟨.ambiguous, ⟨⟨first, member, allFit first (List.mem_cons_self ..)⟩, noBest⟩, ?_⟩
      cases others with
      | nil => simp [Candidate.best?] at found
      | cons second rest =>
        refine ⟨first, second, rest, isFitting, ?_⟩
        simp only [Check.resolveCall, isFitting, found]
        rfl
    | some candidate =>
      have leads := best.1 found
      exact ⟨.selected candidate, Candidate.leads_iff.1 leads, endsWith_selected isFitting found leads.1 span⟩

/-- Overload resolution follows its rules whatever the order of the candidates. There is one outcome, for
the candidates and for every reordering of them: no candidate fits, or the call is ambiguous, or the
candidate is called that the arguments fit and that beats all others that they fit; and at most one
position holds such a candidate. -/
theorem resolveCall_irrespective_of_order {candidates reordered : List Candidate}
    (isReordering : reordered.Perm candidates) (receiver : Option TypedExpr) (name : String)
    (arguments : List CheckedArgument) (span : Span) :
    ∃ outcome : Resolution,
      outcome.Holds candidates arguments ∧ outcome.Holds reordered arguments ∧
      Callee.EndsWith ⟨candidates, receiver, name⟩ arguments span outcome ∧
      Callee.EndsWith ⟨reordered, receiver, name⟩ arguments span outcome ∧
      ∀ position place, Candidate.IsBestAt candidates arguments position →
        Candidate.IsBestAt candidates arguments place → place = position := by
  obtain ⟨outcome, holds, ends⟩ := Callee.exists_outcome ⟨candidates, receiver, name⟩ arguments span
  obtain ⟨other, otherHolds, otherEnds⟩ := Callee.exists_outcome ⟨reordered, receiver, name⟩ arguments span
  have same : other = outcome := otherHolds.unique (holds.of_perm isReordering)
  rw [same] at otherHolds otherEnds
  exact ⟨outcome, holds, otherHolds, ends, otherEnds, fun _ _ isBest alsoBest => isBest.unique alsoBest⟩

/-- The first method of a program, with one parameter of a type. -/
def Candidate.taking (type : Ty) : Candidate :=
  ⟨[(.value, type)], .void, .compiled 0, "C.M(" ++ type.shown ++ ")"⟩

/-- A number goes to the method that takes a number of its own type, whichever of two is declared first. -/
theorem resolveCall_irrespective_of_order_ofTwo :
    [Candidate.taking .double, .taking .int].Perm [.taking .int, .taking .double] ∧
      Callee.EndsWith ⟨[.taking .int, .taking .double], none, "M"⟩ [⟨.value, .constant (.int 1) ⟨0, 0⟩, ⟨0, 0⟩⟩] ⟨0, 0⟩
        (.selected (.taking .int)) ∧
      Callee.EndsWith ⟨[.taking .double, .taking .int], none, "M"⟩ [⟨.value, .constant (.int 1) ⟨0, 0⟩, ⟨0, 0⟩⟩] ⟨0, 0⟩
        (.selected (.taking .int)) := by
  have isReordering : [Candidate.taking .double, .taking .int].Perm [.taking .int, .taking .double] := .swap ..
  obtain ⟨outcome, holds, -, ends, otherEnds, -⟩ := resolveCall_irrespective_of_order isReordering none "M"
    [⟨.value, .constant (.int 1) ⟨0, 0⟩, ⟨0, 0⟩⟩] ⟨0, 0⟩
  have selects : (Resolution.selected (.taking .int)).Holds [.taking .int, .taking .double]
      [⟨.value, .constant (.int 1) ⟨0, 0⟩, ⟨0, 0⟩⟩] := by
    refine ⟨0, rfl, .taking .int, rfl, Candidate.applies_iff.1 (by decide), fun place other different found _ => ?_⟩
    match place with
    | 0 => exact absurd rfl different
    | 1 =>
      cases found
      exact Candidate.isBetter_iff.1 (by decide)
    | place + 2 => cases found
  cases holds.unique selects
  exact ⟨isReordering, ends, otherEnds⟩

end Snippet
