import Mathlib.Data.Finset.Sum
import Mathlib.Logic.Relation
import Snippet.Command.Run
import Snippet.Proofs.Emit.Characters

/-!
Which values can be written for other programs. Lists and objects are shared and change, so a value leads to others
along any graph. Main statement: a value has a written form exactly if it leads to no value that contains itself
(`Value.exists_written?_iff`), and then one form at every depth that suffices. A list can be added to itself, and what
a call gives back then has no written form.
-/

namespace Snippet

/-! ### Forms of several values -/

theorem exists_mapM_eq_some_iff {α β : Type} {form : α → Option β} {entries : List α} :
    (∃ forms, entries.mapM form = some forms) ↔ ∀ entry ∈ entries, ∃ result, form entry = some result := by
  induction entries with
  | nil => simp
  | cons entry entries inductionHypothesis =>
    rw [List.forall_mem_cons, ← inductionHypothesis]
    simp [List.mapM_cons, Option.bind_eq_some_iff]

theorem mapM_eq_some_of_imp {α β : Type} {form deeper : α → Option β} {entries : List α} {forms : List β}
    (agree : ∀ entry ∈ entries, ∀ result, form entry = some result → deeper entry = some result)
    (formed : entries.mapM form = some forms) : entries.mapM deeper = some forms := by
  induction entries generalizing forms with
  | nil => exact formed
  | cons entry entries inductionHypothesis =>
    simp only [List.mapM_cons, Option.pure_def, Option.bind_eq_bind, Option.bind_eq_some_iff] at formed ⊢
    obtain ⟨first, isFirst, others, areOthers, same⟩ := formed
    exact ⟨first, agree entry List.mem_cons_self first isFirst, others,
      inductionHypothesis (fun other member => agree other (List.mem_cons_of_mem _ member)) areOthers, same⟩

namespace Value

/-! ### What a value contains -/

/-- The values directly inside a value: the items of a list, the contents of the fields of an object. -/
def inside (store : Store) : Value → List Value
  | list _ reference => (store.items reference).toList
  | object _ reference => (store.fields reference).map (·.2)
  | _ => []

/-- Whether a value is directly inside another. -/
def Holds (store : Store) (outer inner : Value) : Prop := inner ∈ outer.inside store

/-- Whether a value is or leads to one that contains itself. -/
def IsCyclic (store : Store) (value : Value) : Prop :=
  ∃ inner, Relation.ReflTransGen (Holds store) value inner ∧ Relation.TransGen (Holds store) inner inner

variable {store : Store} {value inner : Value}

theorem inside_eq_of_place? {first second : Value} (same : first.place? = second.place?) :
    first.inside store = second.inside store := by
  cases first <;> cases second <;> simp_all [place?, inside]

/-- What holds a cyclic value is cyclic, and a cyclic value holds one. -/
theorem isCyclic_iff_exists_holds : value.IsCyclic store ↔ ∃ inner, Holds store value inner ∧ inner.IsCyclic store := by
  constructor
  · rintro ⟨last, leads, cycle⟩
    obtain same | ⟨next, holds, rest⟩ := leads.cases_head
    · subst same
      obtain ⟨next, holds, back⟩ := Relation.TransGen.head'_iff.1 cycle
      exact ⟨next, holds, next, .refl, .tail' back holds⟩
    · exact ⟨next, holds, last, rest, cycle⟩
  · rintro ⟨next, holds, last, leads, cycle⟩
    exact ⟨last, .head holds leads, cycle⟩

/-! ### The written form, level by level -/

/-- One level more suffices for a value exactly if the level suffices for each value inside. -/
theorem exists_writtenWithin?_succ_iff {depth : Nat} :
    (∃ json, writtenWithin? store (depth + 1) value = some json) ↔
      ∀ inner, Holds store value inner → ∃ json, writtenWithin? store depth inner = some json := by
  cases value with
  | list element reference =>
    calc
      _ ↔ ∃ forms, (store.items reference).toList.mapM (writtenWithin? store depth) = some forms := by
        simp [writtenWithin?, Option.bind_eq_some_iff]
      _ ↔ _ := exists_mapM_eq_some_iff
  | object type reference =>
    calc
      _ ↔ ∃ members, (store.fields reference).mapM (fun field =>
            (writtenWithin? store depth field.2).map (Prod.mk field.1)) = some members := by
        simp [writtenWithin?, Option.bind_eq_some_iff, Option.map_eq_bind]
      _ ↔ _ := by simpa [exists_mapM_eq_some_iff, Holds, inside] using forall_comm
  | _ => simp [writtenWithin?, Holds, inside]

theorem writtenWithin?_succ {depth : Nat} {json : Json} (written : writtenWithin? store depth value = some json) :
    writtenWithin? store (depth + 1) value = some json := by
  induction depth generalizing value json with
  | zero => cases value <;> simp_all [writtenWithin?]
  | succ depth inductionHypothesis =>
    cases value with
    | list element reference =>
      simp only [writtenWithin?, Option.pure_def, Option.bind_eq_bind, Option.bind_eq_some_iff] at written ⊢
      obtain ⟨forms, areForms, same⟩ := written
      exact ⟨forms, mapM_eq_some_of_imp (fun item _ _ => inductionHypothesis) areForms, same⟩
    | object type reference =>
      simp only [writtenWithin?, Option.pure_def, Option.bind_eq_bind, Option.bind_eq_some_iff] at written ⊢
      obtain ⟨members, areMembers, same⟩ := written
      refine ⟨members, mapM_eq_some_of_imp (fun field _ member formed => ?_) areMembers, same⟩
      simp only [Option.bind_eq_some_iff] at formed ⊢
      obtain ⟨form, isForm, named⟩ := formed
      exact ⟨form, inductionHypothesis isForm, named⟩
    | _ => exact written

theorem writtenWithin?_mono {depth deeper : Nat} {json : Json} (le : depth ≤ deeper)
    (written : writtenWithin? store depth value = some json) : writtenWithin? store deeper value = some json := by
  induction le with
  | refl => exact written
  | step _ inductionHypothesis => exact writtenWithin?_succ inductionHypothesis

/-- No depth suffices for a cyclic value. -/
theorem IsCyclic.writtenWithin?_eq_none (cyclic : value.IsCyclic store) (depth : Nat) :
    writtenWithin? store depth value = none := by
  induction depth generalizing value with
  | zero =>
    obtain ⟨inner, holds, -⟩ := isCyclic_iff_exists_holds.1 cyclic
    cases value with
    | list _ _ | object _ _ => rfl
    | _ => simp [Holds, inside] at holds
  | succ depth inductionHypothesis =>
    obtain ⟨inner, holds, within⟩ := isCyclic_iff_exists_holds.1 cyclic
    refine Option.eq_none_iff_forall_ne_some.2 fun json written => ?_
    obtain ⟨form, formed⟩ := exists_writtenWithin?_succ_iff.1 ⟨json, written⟩ inner holds
    rw [inductionHypothesis within] at formed
    cases formed

/-! ### How deep a value without cycles is -/

open Classical in
/-- The places of the lists and objects that a value is or leads to. -/
noncomputable def placesBelow (store : Store) (value : Value) : Finset Store.Place :=
  store.places.toFinset.filter fun place => ∃ inner, Relation.ReflTransGen (Holds store) value inner ∧ inner.place? = some place

theorem card_placesBelow_le : (value.placesBelow store).card ≤ store.lists.size + store.objects.size := by
  classical
  calc
    _ ≤ store.places.toFinset.card := Finset.card_filter_le _ _
    _ ≤ store.places.length := List.toFinset_card_le _
    _ = _ := store.length_places

/-- A value that holds another has a place in the store. -/
theorem exists_place?_of_holds (holds : Holds store value inner) :
    ∃ place ∈ store.places, value.place? = some place := by
  cases value with
  | list element reference =>
    refine ⟨.list reference, ?_, rfl⟩
    by_contra missing
    have empty : store.items reference = #[] := by simp_all [Store.places, Store.items]
    simp [Holds, inside, empty] at holds
  | object type reference =>
    refine ⟨.object reference, ?_, rfl⟩
    by_contra missing
    have empty : store.fields reference = [] := by simp_all [Store.places, Store.fields]
    simp [Holds, inside, empty] at holds
  | _ => simp [Holds, inside] at holds

/-- A value that leads back to its own place is cyclic. -/
theorem isCyclic_of_place?_eq {other : Value} (holds : Holds store value inner)
    (leads : Relation.ReflTransGen (Holds store) inner other) (same : other.place? = value.place?) :
    value.IsCyclic store := by
  have holdsToo : Holds store other inner := by
    rw [Holds, inside_eq_of_place? same]
    exact holds
  exact ⟨other, .head holds leads, .head' holdsToo leads⟩

/-- The places below what a value without cycles holds are fewer than those below the value. -/
theorem card_placesBelow_lt (acyclic : ¬ value.IsCyclic store) (holds : Holds store value inner) :
    (inner.placesBelow store).card < (value.placesBelow store).card := by
  obtain ⟨place, inStore, isPlace⟩ := exists_place?_of_holds holds
  refine Finset.card_lt_card (Finset.ssubset_iff_of_subset ?_ |>.2 ⟨place, ?_, ?_⟩)
  · intro other member
    simp only [placesBelow, Finset.mem_filter] at member ⊢
    obtain ⟨otherInStore, last, leads, isOther⟩ := member
    exact ⟨otherInStore, last, .head holds leads, isOther⟩
  · simp only [placesBelow, Finset.mem_filter]
    exact ⟨List.mem_toFinset.2 inStore, value, .refl, isPlace⟩
  · simp only [placesBelow, Finset.mem_filter]
    rintro ⟨-, last, leads, isLast⟩
    exact acyclic (isCyclic_of_place?_eq holds leads (isLast.trans isPlace.symm))

/-- As many levels as there are places below a value without cycles, and one more, suffice for it. -/
theorem exists_writtenWithin?_of_card_lt {depth : Nat} (acyclic : ¬ value.IsCyclic store)
    (deep : (value.placesBelow store).card < depth) : ∃ json, writtenWithin? store depth value = some json := by
  induction depth generalizing value with
  | zero => exact absurd deep (Nat.not_lt_zero _)
  | succ depth inductionHypothesis =>
    rw [exists_writtenWithin?_succ_iff]
    intro inner holds
    have fewer := card_placesBelow_lt acyclic holds
    exact inductionHypothesis (fun cyclic => acyclic (isCyclic_iff_exists_holds.2 ⟨inner, holds, cyclic⟩)) (by omega)

theorem written?_eq_none_iff : value.written? store = none ↔ value.IsCyclic store := by
  refine ⟨fun missing => ?_, fun cyclic => cyclic.writtenWithin?_eq_none _⟩
  by_contra acyclic
  obtain ⟨json, written⟩ := exists_writtenWithin?_of_card_lt acyclic
    (Nat.lt_succ_of_le card_placesBelow_le)
  rw [written?, written] at missing
  cases missing

/-- A form at any depth is the written form. -/
theorem written?_eq_some_of_writtenWithin? {depth : Nat} {json : Json}
    (written : writtenWithin? store depth value = some json) : value.written? store = some json := by
  have acyclic : ¬ value.IsCyclic store := fun cyclic => by
    rw [cyclic.writtenWithin?_eq_none] at written
    cases written
  obtain ⟨form, formed⟩ := Option.ne_none_iff_exists'.1 (mt written?_eq_none_iff.1 acyclic)
  rw [written?] at formed ⊢
  obtain deeper | deeper := Nat.le_total depth (store.lists.size + store.objects.size + 1)
  · exact writtenWithin?_mono deeper written
  · rw [formed, ← writtenWithin?_mono deeper formed, written]

/-- Exactly the values that lead to none that contains itself have a written form, with any sharing among lists and
objects, and it is the form at every depth that suffices. -/
theorem exists_written?_iff (store : Store) (value : Value) :
    ((∃ json, value.written? store = some json) ↔ ¬ value.IsCyclic store) ∧
      ∀ depth json, writtenWithin? store depth value = some json → value.written? store = some json := by
  refine ⟨?_, fun depth json => written?_eq_some_of_writtenWithin?⟩
  rw [← Option.ne_none_iff_exists', ne_eq, written?_eq_none_iff]

/-- A list that is twice in another one is written twice. -/
theorem exists_written?_iff_shared :
    let store : Store := ⟨#[#[.int 1], #[.list "System.Int32" 0, .list "System.Int32" 0]], #[]⟩
    let pair : Value := .list "System.Object" 1
    ¬ pair.IsCyclic store ∧ pair.written? store = some (.array [.array [.int 1], .array [.int 1]]) := by
  intro store pair
  obtain ⟨writable, forms⟩ := exists_written?_iff store pair
  have formed : writtenWithin? store 2 pair = some (.array [.array [.int 1], .array [.int 1]]) := rfl
  have written := forms 2 _ formed
  exact ⟨writable.1 ⟨_, written⟩, written⟩

end Value

/-- A call has a report for other programs exactly if nothing that it gives back or leaves is cyclic. -/
theorem EntryPoint.exists_reportJson_iff (entry : EntryPoint) (store : Store) (result : Value)
    (arguments : List Value) :
    (∃ report, entry.reportJson store result arguments = some report) ↔
      (entry.signature.result.isSome → ¬ result.IsCyclic store) ∧
        ∀ output ∈ entry.outputsOf arguments, ¬ output.2.IsCyclic store := by
  have outputs : (∃ forms, (entry.outputsOf arguments).mapM
        (fun output => (output.2.written? store).bind fun form => some (output.1, form)) = some forms) ↔
      ∀ output ∈ entry.outputsOf arguments, ¬ output.2.IsCyclic store := by
    rw [exists_mapM_eq_some_iff]
    refine forall₂_congr fun output _ => ?_
    rw [← Value.written?_eq_none_iff, ← ne_eq, Option.ne_none_iff_exists']
    simp [Option.bind_eq_some_iff]
  rw [← outputs, ← Value.written?_eq_none_iff, ← ne_eq, Option.ne_none_iff_exists']
  by_cases gives : entry.signature.result.isSome <;>
    simp [reportJson, gives, Option.bind_eq_some_iff, and_comm]

/-! ### A list in itself -/

/-- A class whose method gives back a list that it has added to itself. -/
def listInItself : String :=
  "using System.Collections.Generic;
  class C \x7b static List<object> M() \x7b List<object> xs = new List<object>(); xs.Add(xs); return xs; \x7d \x7d"

/-- The image of a class whose method gives back a list that it has added to itself. -/
def Image.listInItself : Image where
  formatVersion := 1
  moduleName := "snippet"
  constants := []
  strings := ["System.Object"]
  imports := []
  classes := [⟨"C", false, false, [0]⟩]
  methods := [⟨"M", 0, false, true, ⟨[], some "System.Collections.Generic.List<System.Object>"⟩, 1,
    [.newList 0, .store 0, .load 0, .load 0, .builtin .listAdd, .load 0, .giveBack]⟩]

/-- A list among its own items is cyclic. -/
theorem Value.isCyclic_list_of_items {store : Store} {element : String} {reference : Nat}
    (itself : .list element reference ∈ store.items reference) : (Value.list element reference).IsCyclic store :=
  ⟨.list element reference, .refl, .single (Array.mem_toList_iff.2 itself)⟩

/-- A method that adds a list to itself is compiled and loaded, the call gives the list back, and the list has no
written form, however deep. -/
theorem not_written_listInItself :
    (emit listInItself (.ofList [Core.collections]) .default "snippet").image = some .listInItself ∧
    Module.load .listInItself (.ofList [Core.collections]) 256 =
      .ok ⟨.listInItself, [], 256⟩ ∧
    (Module.invoke ⟨.listInItself, [], 256⟩ 20 0 []).run .empty =
      (some ⟨.ok (.list "System.Object" 0), []⟩, ⟨⟨#[#[.list "System.Object" 0]], #[]⟩, ""⟩) ∧
    ∀ depth, Value.writtenWithin? ⟨#[#[.list "System.Object" 0]], #[]⟩ depth (.list "System.Object" 0) = none := by
  refine ⟨?_, rfl, ?_, ?_⟩
  · rw [listInItself, emit_ofList]
    decide +kernel
  · with_unfolding_all rfl
  · exact (Value.isCyclic_list_of_items (by simp [Store.items])).writtenWithin?_eq_none

end Snippet
