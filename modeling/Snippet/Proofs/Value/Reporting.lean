import Mathlib.Algebra.GroupWithZero.Nat
import Snippet.Value.Store

/-!
How deep and how long failure reports of lists and objects are. A place is locked while its contents are shown, so
reports end, and no more contents stand within each other than there are lists and objects (`Value.reportWithin?_eq`).
Their length has no such bound: what is shared is shown again at each place where it is met
(`Store.pow_le_length_report_doubled`).
-/

namespace Snippet

/-! ### How deep reports are -/

/-- The form of a value, if its contents have one. -/
def Value.reportWith? (contents? : Store.Place → Option String) (value : Value) : Option String :=
  (value.place?.elim (some "") contents?).map value.reportAround

/-- The contents of a list or an object, if no more than `depth` contents stand within each other there. -/
def Store.contentsWithin? (store : Store) : Nat → List Place → Place → Option String
  | 0, locked, place => if place ∈ store.unlocked locked then none else some "<locked>"
  | depth + 1, locked, place =>
    if place ∈ store.unlocked locked then
      ((store.entries place).mapM fun entry : String × Value =>
        (entry.2.reportWith? (store.contentsWithin? depth (place :: locked))).map (entry.1 ++ ·)).map place.enclose
    else some "<locked>"

/-- The form of a value in failure reports, if no more than `depth` contents stand within each other there. -/
def Value.reportWithin? (store : Store) (depth : Nat) (value : Value) : Option String :=
  value.reportWith? (store.contentsWithin? depth [])

theorem Value.reportWith?_eq {contents? : Store.Place → Option String} {contents : Store.Place → String}
    (same : ∀ place, contents? place = some (contents place)) (value : Value) :
    value.reportWith? contents? = some (value.reportWith contents) := by
  unfold reportWith? reportWith
  cases value.place? with
  | none => rfl
  | some place => exact congrArg (Option.map value.reportAround) (same place)

namespace Store

variable {store : Store} {locked : List Place} {place : Place}

theorem contents_locked (isLocked : place ∉ store.unlocked locked) : store.contents locked place = "<locked>" := by
  rw [contents, if_neg isLocked]

theorem contents_unlocked (isOpen : place ∈ store.unlocked locked) :
    store.contents locked place = place.enclose ((store.entries place).map fun (label, value) =>
      label ++ value.reportWith (store.contents (place :: locked))) := by
  rw [contents, if_pos isOpen]

/-- As many contents within each other as there are unlocked places suffice. -/
theorem contentsWithin?_eq {depth : Nat} (enough : (store.unlocked locked).length ≤ depth) (place : Place) :
    store.contentsWithin? depth locked place = some (store.contents locked place) := by
  induction depth generalizing locked place with
  | zero =>
    have allLocked : place ∉ store.unlocked locked := by
      simp [List.length_eq_zero_iff.1 (Nat.le_zero.1 enough)]
    rw [contentsWithin?, if_neg allLocked, contents_locked allLocked]
  | succ depth inductionHypothesis =>
    rw [contentsWithin?]
    by_cases isOpen : place ∈ store.unlocked locked
    · have fewer : (store.unlocked (place :: locked)).length ≤ depth :=
        Nat.le_of_lt_succ (Nat.lt_of_lt_of_le (length_unlocked_cons_lt isOpen) enough)
      have shown (entry : String × Value) :
          (entry.2.reportWith? (store.contentsWithin? depth (place :: locked))).map (entry.1 ++ ·) =
            pure (entry.1 ++ entry.2.reportWith (store.contents (place :: locked))) := by
        rw [Value.reportWith?_eq (inductionHypothesis fewer)]
        rfl
      rw [if_pos isOpen, contents_unlocked isOpen]
      simp only [shown, List.mapM_pure]
      rfl
    · rw [if_neg isOpen, contents_locked isOpen]

/-- A list that is among its own items is shown once. -/
example : (Store.mk #[#[.int 1, .list "T" 0]] #[]).contentsWithin? 1 [] (.list 0) =
    some "[Int(1), List(ListRef \x7b element: \"T\", items: Mutex \x7b data: <locked> \x7d \x7d)]" := by rfl

end Store

/-- No more contents stand within each other in a failure report than there are lists and objects. -/
theorem Value.reportWithin?_eq (store : Store) (value : Value) :
    value.reportWithin? store (store.lists.size + store.objects.size) = some (value.report store) :=
  reportWith?_eq (Store.contentsWithin?_eq (store.length_unlocked_le [])) value

/-! ### How long reports are -/

namespace Store

/-- An empty list, and lists of which each holds the one before it twice. -/
def doubled (element : String) : Nat → Store
  | 0 => ⟨#[#[]], #[]⟩
  | count + 1 =>
    { doubled element count with
      lists := (doubled element count).lists.push #[.list element count, .list element count] }

variable {element : String}

theorem size_lists_doubled (element : String) (count : Nat) : (doubled element count).lists.size = count + 1 := by
  induction count with
  | zero => rfl
  | succ count inductionHypothesis => rw [doubled, Array.size_push, inductionHypothesis]

theorem items_doubled {count reference : Nat} (isLater : reference < count) :
    (doubled element count).items (reference + 1) = #[.list element reference, .list element reference] := by
  induction count with
  | zero => exact absurd isLater (Nat.not_lt_zero _)
  | succ count inductionHypothesis =>
    have size := size_lists_doubled element count
    rw [items, doubled, Array.getD_eq_getD_getElem?, Array.getElem?_push]
    by_cases isLast : reference = count
    · subst isLast
      rw [if_pos size.symm]
      rfl
    · rw [if_neg (by omega)]
      rw [← Array.getD_eq_getD_getElem?]
      exact inductionHypothesis (by omega)

theorem le_length_report (element : String) (contents : Place → String) (reference : Nat) :
    (contents (.list reference)).length ≤ ((Value.list element reference).reportWith contents).length := by
  show _ ≤ (_ ++ contents (.list reference) ++ _ : String).length
  simp only [String.length_append]
  omega

/-- What is met twice is shown twice, so that the contents of a list of shared lists double with each of them. -/
theorem pow_le_length_contents_doubled {count reference : Nat} {locked : List Place} (isList : reference ≤ count)
    (isOpen : ∀ earlier ≤ reference, .list earlier ∉ locked) :
    2 ^ reference ≤ ((doubled element count).contents locked (.list reference)).length := by
  induction reference generalizing locked with
  | zero =>
    have unlocked : .list 0 ∈ (doubled element count).unlocked locked := by
      simpa [mem_unlocked, places, size_lists_doubled] using isOpen 0 (Nat.le_refl _)
    rw [contents_unlocked unlocked]
    show 1 ≤ (_ ++ _ ++ _ : String).length
    simp only [String.length_append]
    exact Nat.le_add_left ..
  | succ reference inductionHypothesis =>
    have unlocked : .list (reference + 1) ∈ (doubled element count).unlocked locked := by
      simpa [mem_unlocked, places, size_lists_doubled, Nat.lt_succ_iff, isList] using isOpen _ (Nat.le_refl _)
    have stillOpen : ∀ earlier ≤ reference, .list earlier ∉ Place.list (reference + 1) :: locked := by
      intro earlier isEarlier
      simp only [List.mem_cons, Place.list.injEq, not_or]
      exact ⟨by omega, isOpen earlier (by omega)⟩
    have inner := inductionHypothesis (Nat.le_of_succ_le isList) stillOpen
    have shown := Nat.le_trans inner (le_length_report element _ reference)
    rw [contents_unlocked unlocked, entries, items_doubled isList]
    show _ ≤ ("[" ++ (("" ++ _) ++ ", " ++ ("" ++ _)) ++ "]" : String).length
    simp only [String.length_append] at shown ⊢
    rw [Nat.pow_succ]
    omega

theorem pow_le_length_report_doubled (element : String) (count : Nat) :
    2 ^ count ≤ ((Value.list element count).report (doubled element count)).length :=
  Nat.le_trans (pow_le_length_contents_doubled (Nat.le_refl count) fun _ _ => List.not_mem_nil)
    (le_length_report element _ count)

end Store

end Snippet
