import Mathlib.Data.List.Induction
import Snippet.Library.Basic

/-!
Sets of libraries that grow. A set holds the first library of each name, in the order in which the names came, so the
first definition of a type along this order is found. What is added later takes nothing away. Main statement:
`LibrarySet.addAll_keepsFirsts`.
-/

namespace Snippet

/-- The libraries of a list in front of which none of the same name stands, in order. -/
def Library.firsts (offered : List Library) : List Library :=
  (offered.zipIdx.filter fun entry => !(offered.take entry.2).any (·.name == entry.1.name)).map (·.1)

/-- What is added to a set: one library, or several one after the other. -/
inductive LibraryAddition where
  | single (library : Library)
  | several (libraries : List Library)

/-- The libraries that are added, in order. -/
def LibraryAddition.libraries : LibraryAddition → List Library
  | single library => [library]
  | several libraries => libraries

namespace Library

theorem firsts_concat (offered : List Library) (library : Library) :
    firsts (offered ++ [library]) =
      firsts offered ++ if offered.any (·.name == library.name) then [] else [library] := by
  have sameFront : offered.zipIdx.filter
        (fun entry => !((offered ++ [library]).take entry.2).any (·.name == entry.1.name)) =
      offered.zipIdx.filter fun entry => !(offered.take entry.2).any (·.name == entry.1.name) := by
    refine List.filter_congr fun entry member => ?_
    rw [List.take_append_of_le_length (Nat.le_of_lt (List.snd_lt_of_mem_zipIdx member))]
  rw [firsts, List.zipIdx_append, List.filter_append, sameFront, List.map_append, ← firsts]
  congr 1
  rw [List.zipIdx_singleton, Nat.zero_add, List.filter_cons, List.take_left, List.filter_nil]
  cases offered.any (·.name == library.name) <;> rfl

/-- The library of a name is the first one of this name. -/
theorem find?_firsts (offered : List Library) (name : String) :
    (firsts offered).find? (·.name == name) = offered.find? (·.name == name) := by
  induction offered using List.reverseRecOn with
  | nil => rfl
  | append_singleton offered library ih =>
    rw [firsts_concat, List.find?_append, List.find?_append, ih]
    cases found : offered.find? (·.name == name) with
    | some first => rfl
    | none =>
      have isNew : library.name = name → offered.any (·.name == library.name) = false := by
        rintro rfl
        rw [List.find?_eq_none] at found
        exact List.any_eq_false.2 found
      rw [Option.none_or, Option.none_or]
      by_cases isName : library.name = name
      · rw [isNew isName, if_neg Bool.false_ne_true]
      · cases offered.any (·.name == library.name) with
        | true => simp [isName]
        | false => rfl

end Library

namespace LibrarySet

/-- The set with an addition. -/
def add (set : LibrarySet) : LibraryAddition → LibrarySet
  | .single library => set.insert library
  | .several libraries => set.extend libraries

/-- The set with some additions. -/
def addAll (set : LibrarySet) (additions : List LibraryAddition) : LibrarySet := additions.foldl add set

/-- Additions add their libraries one after the other. -/
theorem addAll_eq_extend (set : LibrarySet) (additions : List LibraryAddition) :
    set.addAll additions = set.extend (additions.flatMap (·.libraries)) := by
  induction additions generalizing set with
  | nil => rfl
  | cons addition rest ih =>
    have isAdded : set.add addition = set.extend addition.libraries := by cases addition <;> rfl
    rw [List.flatMap_cons, extend, List.foldl_append, ← extend, ← extend, ← isAdded, ← ih]
    rfl

/-- A library is in the set if one of its name was offered. -/
theorem contains_eq_any {set : LibrarySet} {offered : List Library} (holds : set.libraries = Library.firsts offered)
    (name : String) : set.contains name = offered.any (·.name == name) := by
  rw [contains, ← List.isSome_find?, ← List.isSome_find?, holds, Library.find?_firsts]

theorem libraries_insert {set : LibrarySet} {offered : List Library} (holds : set.libraries = Library.firsts offered)
    (library : Library) : (set.insert library).libraries = Library.firsts (offered ++ [library]) := by
  rw [Library.firsts_concat, insert, contains_eq_any holds, ← holds]
  split
  · rw [List.append_nil]
  · rfl

/-- A set that is made up of libraries holds the first one of each name. -/
theorem libraries_ofList (offered : List Library) : (ofList offered).libraries = Library.firsts offered := by
  induction offered using List.reverseRecOn with
  | nil => rfl
  | append_singleton offered library ih =>
    rw [ofList, extend, List.foldl_append]
    exact libraries_insert ih library

/-! ### What stays -/

variable {set : LibrarySet}

theorem prefix_insert (set : LibrarySet) (library : Library) : set.libraries <+: (set.insert library).libraries := by
  rw [insert]
  split
  · exact List.prefix_rfl
  · exact List.prefix_append ..

/-- Libraries are only added behind the others. -/
theorem prefix_extend (set : LibrarySet) (more : List Library) : set.libraries <+: (set.extend more).libraries := by
  induction more generalizing set with
  | nil => exact List.prefix_rfl
  | cons library rest ih => exact (set.prefix_insert library).trans (ih (set.insert library))

theorem findType?_of_grows {larger : LibrarySet} (grows : set.libraries <+: larger.libraries) {fullName : String}
    {type : HostType} (found : set.findType? fullName = some type) : larger.findType? fullName = some type := by
  obtain ⟨added, isLarger⟩ := grows
  rw [findType?, ← isLarger, List.findSome?_append, ← findType?, found, Option.some_or]

theorem hasNamespace_of_grows {larger : LibrarySet} (grows : set.libraries <+: larger.libraries) {space : String}
    (known : set.hasNamespace space = true) : larger.hasNamespace space = true := by
  obtain ⟨added, isLarger⟩ := grows
  rw [hasNamespace, ← isLarger, List.any_append, ← hasNamespace, known, Bool.true_or]

/-- What a set holds behind additions in any order: the first library of each name, in the order in which they came. The
library of a name is the first of this name, and the type of a full name is the first along this order. Whatever is
added later, no library goes, a type that is found stays the one that is found, and a namespace stays known. -/
theorem addAll_keepsFirsts (additions : List LibraryAddition) :
    let offered := additions.flatMap (·.libraries)
    let set := empty.addAll additions
    set.libraries = Library.firsts offered ∧
      (∀ name, set.get? name = offered.find? (·.name == name)) ∧
      (∀ fullName, set.findType? fullName =
        ((Library.firsts offered).flatMap (·.types)).find? (·.fullName == fullName)) ∧
      ∀ more : List LibraryAddition, set.libraries <+: (set.addAll more).libraries ∧
        (∀ fullName type, set.findType? fullName = some type → (set.addAll more).findType? fullName = some type) ∧
        ∀ space, set.hasNamespace space = true → (set.addAll more).hasNamespace space = true := by
  intro offered set
  have holds : set.libraries = Library.firsts offered := by
    rw [show set = ofList offered from addAll_eq_extend empty additions]
    exact libraries_ofList offered
  refine ⟨holds, fun name => ?_, fun fullName => ?_, fun more => ?_⟩
  · rw [get?, holds, Library.find?_firsts]
  · rw [findType?, holds, List.find?_flatMap]
    rfl
  · have grows : set.libraries <+: (set.addAll more).libraries := by
      rw [addAll_eq_extend]
      exact set.prefix_extend _
    exact ⟨grows, fun _ _ found => findType?_of_grows grows found, fun _ known => hasNamespace_of_grows grows known⟩

/-- A library of a name, which defines the type of an item. -/
def offering (name : String) (kind : HostKind) : Library := ⟨name, [.bare "Shop" [] "Item" kind]⟩

/-- A second library of a name and a second definition of a type change nothing. -/
theorem addAll_keepsFirsts_offering :
    let set := empty.addAll [.single (offering "Shop" .data)]
    let larger := set.addAll [.several [offering "Shop" .static, offering "Post" .static]]
    set.libraries <+: larger.libraries ∧
      larger.findType? "Shop.Item" = some (.bare "Shop" [] "Item" .data) ∧ larger.hasNamespace "Shop" = true := by
  intro set larger
  have found : set.findType? "Shop.Item" = some (.bare "Shop" [] "Item" .data) := by with_unfolding_all rfl
  have known : set.hasNamespace "Shop" = true := by decide
  obtain ⟨grows, types, spaces⟩ := (addAll_keepsFirsts [.single (offering "Shop" .data)]).2.2.2
    [.several [offering "Shop" .static, offering "Post" .static]]
  exact ⟨grows, types _ _ found, spaces _ known⟩

end LibrarySet

end Snippet
