import Snippet.Machine.Module
import Snippet.Proofs.Typing.FullName
import Snippet.Proofs.Typing.Member

/-!
The overload of a host function that resolution chooses, and the one that is linked by its names: they are the
same. Main statement: `HostType.Chooses.link_eq`.
-/

namespace Snippet

/-- Whether no name of a type that a function of the libraries takes divides a full name. -/
def LibrarySet.HasPlainNames (libraries : LibrarySet) : Prop :=
  ∀ (name : String) (type : HostType), libraries.findType? name = some type →
    ∀ function ∈ type.functions, ∀ parameter ∈ function.parameters, parameter.IsPlain

namespace Candidate

variable {candidate rival : Candidate} {arguments : List CheckedArgument}

/-- A candidate is not better than one with the same parameters. -/
theorem isBetter_of_parameters_eq (same : rival.parameters = candidate.parameters) :
    candidate.isBetter rival arguments = false := by
  have equal : ∀ comparison ∈ comparisons candidate rival arguments, comparison = none := by
    intro comparison member
    obtain ⟨⟨argument, one, other⟩, inPairs, rfl⟩ := List.mem_map.1 member
    have inParameters := (List.of_mem_zip inPairs).2
    rw [same] at inParameters
    have sameEntry : one = other := by
      obtain ⟨index, found⟩ := List.mem_iff_getElem?.1 inParameters
      obtain ⟨isOne, isOther⟩ := List.getElem?_zip_eq_some.1 found
      exact Option.some.inj (isOne.symm.trans isOther)
    rw [sameEntry]
    exact if_pos rfl
  have notBetter : (comparisons candidate rival arguments).contains (some true) = false := by
    rw [List.contains_eq_mem, decide_eq_false_iff_not]
    exact fun member => nomatch equal _ member
  rw [isBetter, notBetter, Bool.and_false]

/-- The best candidate is better than every other one. -/
theorem best?_eq_some {candidates : List Candidate} (isBest : best? candidates arguments = some candidate) :
    ∃ front behind, candidates = front ++ candidate :: behind ∧
      ∀ rival ∈ front ++ behind, candidate.isBetter rival arguments = true := by
  unfold best? at isBest
  obtain ⟨⟨chosen, index⟩, found, rfl⟩ := Option.map_eq_some_iff.1 isBest
  have beats := List.find?_some found
  rw [List.all_eq_true] at beats
  have isChosen := List.mk_mem_zipIdx_iff_getElem?.1 (List.mem_of_find?_eq_some found)
  obtain ⟨inside, isChosen⟩ := List.getElem?_eq_some_iff.1 isChosen
  have better (position : Nat) (rival : Candidate) (isRival : candidates[position]? = some rival)
      (other : index ≠ position) : chosen.isBetter rival arguments = true := by
    have wins := beats (rival, position) (List.mk_mem_zipIdx_iff_getElem?.2 isRival)
    simpa [other] using wins
  refine ⟨candidates.take index, candidates.drop (index + 1), ?_, fun rival member => ?_⟩
  · rw [← isChosen, List.getElem_cons_drop inside, List.take_append_drop]
  · rcases List.mem_append.1 member with inFront | isBehind
    · obtain ⟨position, isRival⟩ := List.mem_iff_getElem?.1 inFront
      obtain ⟨isBefore, isRival⟩ : position < index ∧ candidates[position]? = some rival := by
        simpa [List.getElem?_take] using isRival
      exact better position rival isRival (Nat.ne_of_gt isBefore)
    · obtain ⟨position, isRival⟩ := List.mem_iff_getElem?.1 isBehind
      rw [List.getElem?_drop] at isRival
      exact better _ rival isRival (by omega)

end Candidate

namespace HostType

/-- Whether an overload is the one that resolution chooses for arguments: it fits them, and its candidate is better
than that of every other overload that fits them. -/
structure Chooses (owner : HostType) (shown name : String) (arguments : List CheckedArgument)
    (overload : HostFunction) (candidate : Candidate) : Prop where
  isCandidate : Candidate.ofHost? owner shown overload = some candidate
  applies : candidate.applies arguments = true
  wins : ∃ front behind, owner.overloads name = front ++ overload :: behind ∧
    ∀ other ∈ front ++ behind, ∀ rival, Candidate.ofHost? owner shown other = some rival →
      rival.applies arguments = true → candidate.isBetter rival arguments = true

variable {owner : HostType} {shown name : String} {arguments : List CheckedArgument} {candidate : Candidate}

/-- The best of the candidates that fit is that of a chosen overload. -/
theorem exists_chooses
    (isBest : Candidate.best? (((owner.overloads name).filterMap (Candidate.ofHost? owner shown)).filter
      (·.applies arguments)) arguments = some candidate) :
    ∃ overload, owner.Chooses shown name arguments overload candidate := by
  obtain ⟨front, behind, areCandidates, better⟩ := Candidate.best?_eq_some isBest
  rw [List.filter_filterMap] at areCandidates
  obtain ⟨before, rest, isOwner, areFront, areRest⟩ := List.filterMap_eq_append_iff.1 areCandidates
  obtain ⟨skipped, overload, after, rfl, areSkipped, isChosen, areBehind⟩ := List.filterMap_eq_cons_iff.1 areRest
  obtain ⟨isCandidate, applies⟩ := Option.filter_eq_some_iff.1 isChosen
  refine ⟨overload, isCandidate, applies, before ++ skipped, after, ?_, fun other member rival isRival fits => ?_⟩
  · rw [isOwner, List.append_assoc]
  have fitsToo : (Candidate.ofHost? owner shown other).filter (·.applies arguments) = some rival :=
    Option.filter_eq_some_iff.2 ⟨isRival, fits⟩
  rw [List.mem_append, List.mem_append] at member
  rcases member with (inFront | isSkipped) | isBehind
  · exact better rival (List.mem_append_left _ (areFront ▸ List.mem_filterMap.2 ⟨other, inFront, fitsToo⟩))
  · exact absurd (fitsToo.symm.trans (areSkipped other isSkipped)) nofun
  · exact better rival (List.mem_append_right _ (areBehind ▸ List.mem_filterMap.2 ⟨other, isBehind, fitsToo⟩))

end HostType

namespace HostFunction

variable {function : HostFunction} {wanted : FunctionImport}

/-- A function that fits an import can be called. -/
theorem exists_ofHost?_of_fits (owner : HostType) (shown : String) (fits : function.fits wanted = true) :
    ∃ candidate, Candidate.ofHost? owner shown function = some candidate := by
  obtain ⟨areNames, isResult⟩ := fits_iff.1 fits
  unfold Candidate.ofHost?
  rw [areNames]
  cases hasResult : function.result with
  | none => exact ⟨_, rfl⟩
  | some type =>
    rw [hasResult] at isResult
    obtain ⟨full, -, isFull⟩ := Option.map_eq_some_iff.1 isResult.symm
    have isFull : type.fullName? = some full := isFull.symm
    simp only [isFull]
    exact ⟨_, rfl⟩

end HostFunction

namespace HostType.Chooses

variable {owner : HostType} {shown name definition : String} {arguments : List CheckedArgument}
  {overload : HostFunction} {candidate : Candidate} {function : FunctionImport} {libraries : LibrarySet}

/-- The chosen overload is the function that is linked by its names: an earlier one with the same names would have
the same parameters, and the chosen one would not be better than it. -/
theorem link_eq (chooses : owner.Chooses shown name arguments overload candidate)
    (plain : libraries.HasPlainNames) (found : libraries.findType? definition = some owner)
    (isTarget : candidate.target = .host function) :
    function.link libraries = .ok (.function overload.run overload.parameters.length overload.result.isSome) := by
  obtain ⟨front, behind, areOverloads, better⟩ := chooses.wins
  obtain ⟨names, result, areNames, isResult, areParameters, -, isTarget'⟩ :=
    Candidate.ofHost?_eq_some chooses.isCandidate
  obtain rfl : function = ⟨owner.fullName, overload.name, names, result⟩ :=
    CallTarget.host.inj (isTarget.symm.trans isTarget')
  have inOwner {other : HostFunction} (member : other ∈ front ++ overload :: behind) :
      other ∈ owner.functions ∧ other.name = name := by
    rw [← areOverloads] at member
    simpa using List.mem_filter.1 member
  have arePlain {other : HostFunction} (member : other ∈ front ++ overload :: behind) :=
    plain definition owner found other (inOwner member).1
  have isOverload : overload ∈ front ++ overload :: behind := by simp
  have notBefore (other : HostFunction) (inFront : other ∈ front) :
      ¬other.fits ⟨owner.fullName, overload.name, names, result⟩ = true := by
    intro fits
    have inOverloads : other ∈ front ++ overload :: behind := List.mem_append_left _ inFront
    obtain ⟨rival, isRival⟩ := HostFunction.exists_ofHost?_of_fits owner shown fits
    have sameTypes : other.parameters.map Ty.ofDesc = overload.parameters.map Ty.ofDesc :=
      Ty.map_ofDesc_eq_of_mapM_fullName? (arePlain inOverloads) (arePlain isOverload)
        (HostFunction.fits_iff.1 fits).1 areNames
    obtain ⟨-, -, -, -, areRivals, -, -⟩ := Candidate.ofHost?_eq_some isRival
    have sameParameters : rival.parameters = candidate.parameters := by
      rw [areRivals, areParameters, sameTypes]
    have applies : rival.applies arguments = true := by
      rw [Candidate.applies, sameParameters]
      exact chooses.applies
    have wins := better other (List.mem_append_left _ inFront) rival isRival applies
    rw [Candidate.isBetter_of_parameters_eq sameParameters] at wins
    cases wins
  have fits : overload.fits ⟨owner.fullName, overload.name, names, result⟩ = true :=
    HostFunction.fits_iff.2 ⟨areNames, isResult⟩
  have isLinked : (owner.overloads overload.name).find?
      (·.fits ⟨owner.fullName, overload.name, names, result⟩) = some overload := by
    have areSame : owner.overloads overload.name = front ++ overload :: behind := by
      rw [← areOverloads, (inOwner isOverload).2]
    rw [areSame, List.find?_append, List.find?_eq_none.2 notBefore, Option.none_or, List.find?_cons, fits]
  have isOwner : libraries.findType? owner.fullName = some owner := by
    rw [LibrarySet.fullName_of_findType? found, found]
  simp only [FunctionImport.link, isOwner, Option.bind_some, isLinked]

end HostType.Chooses

end Snippet
