import Snippet.Value.Basic

/-!
The lists and objects of a running program, and how values appear in failure reports, with what their lists and objects
hold. Main statements: what each operation of the store does to the items and fields it concerns.
-/

namespace Snippet

/-! ### Lists and objects -/

/-- The fields of an object in order, each with its value. -/
abbrev Fields := List (String × Value)

namespace Fields

/-- The value of a field. -/
def get? (fields : Fields) (name : String) : Option Value := fields.lookup name

/-- The fields with a new value for one of them; others stay, and none is added. -/
def set (fields : Fields) (name : String) (value : Value) : Fields :=
  fields.map fun field => if field.1 == name then (field.1, value) else field

/-- Fields from a list of pairs: a name keeps its first place and takes its last value. -/
def ofPairs (pairs : List (String × Value)) : Fields :=
  let put (fields : Fields) (pair : String × Value) : Fields :=
    if (fields.get? pair.1).isSome then fields.set pair.1 pair.2 else fields ++ [pair]
  pairs.foldl put []

end Fields

/-- The lists and objects of a running program, by reference. -/
structure Store where
  lists : Array (Array Value)
  objects : Array Fields

namespace Store

/-- The store without lists and objects. -/
def empty : Store := ⟨#[], #[]⟩

/-- The items of a list. -/
def items (store : Store) (reference : Nat) : Array Value := store.lists.getD reference #[]

/-- The store with other items in a list. -/
def setItems (store : Store) (reference : Nat) (items : Array Value) : Store :=
  { store with lists := store.lists.setIfInBounds reference items }

/-- The fields of an object. -/
def fields (store : Store) (reference : Nat) : Fields := store.objects.getD reference []

/-- The store with other fields in an object. -/
def setFields (store : Store) (reference : Nat) (fields : Fields) : Store :=
  { store with objects := store.objects.setIfInBounds reference fields }

/-- A new list, as a value, and the store with it. -/
def newList (store : Store) (element : String) (items : Array Value) : Value × Store :=
  (.list element store.lists.size, { store with lists := store.lists.push items })

/-- A new object, as a value, and the store with it. -/
def newObject (store : Store) (type : String) (fields : Fields) : Value × Store :=
  (.object type store.objects.size, { store with objects := store.objects.push fields })

theorem items_setItems (store : Store) (reference : Nat) (items : Array Value)
    (valid : reference < store.lists.size) :
    (store.setItems reference items).items reference = items := by
  show (store.lists.setIfInBounds reference items).getD reference #[] = items
  simp [valid]

theorem items_setItems_ne (store : Store) (reference other : Nat) (items : Array Value)
    (different : reference ≠ other) :
    (store.setItems reference items).items other = store.items other := by
  show (store.lists.setIfInBounds reference items).getD other #[] = store.lists.getD other #[]
  simp [different]

theorem items_newList (store : Store) (element : String) (items : Array Value) :
    (store.newList element items).2.items store.lists.size = items := by
  show (store.lists.push items).getD store.lists.size #[] = items
  simp

theorem setItems_newList (store : Store) (element : String) (items others : Array Value) :
    (store.newList element items).2.setItems store.lists.size others = (store.newList element others).2 := by
  simp [newList, setItems, Array.setIfInBounds, Array.set_push]

theorem fields_newObject (store : Store) (type : String) (fields : Fields) :
    (store.newObject type fields).2.fields store.objects.size = fields := by
  show (store.objects.push fields).getD store.objects.size [] = fields
  simp

end Store

/-! ### Places -/

/-- Where a list or an object is in a store. -/
inductive Store.Place where
  | list (reference : Nat)
  | object (reference : Nat)
deriving DecidableEq

/-- The place of a list or an object; other values have none. -/
def Value.place? : Value → Option Store.Place
  | list _ reference => some (.list reference)
  | object _ reference => some (.object reference)
  | _ => none

namespace Store

/-- The places of all lists and objects. -/
def places (store : Store) : List Place :=
  (List.range store.lists.size).map .list ++ (List.range store.objects.size).map .object

/-- The places that are not locked. -/
def unlocked (store : Store) (locked : List Place) : List Place := store.places.filter (· ∉ locked)

theorem length_places (store : Store) : store.places.length = store.lists.size + store.objects.size := by
  simp [places]

theorem mem_unlocked {store : Store} {locked : List Place} {place : Place} :
    place ∈ store.unlocked locked ↔ place ∈ store.places ∧ place ∉ locked := by
  simp [unlocked]

theorem length_unlocked_le (store : Store) (locked : List Place) :
    (store.unlocked locked).length ≤ store.lists.size + store.objects.size :=
  store.length_places ▸ List.length_filter_le _ _

/-- One more lock leaves fewer places open. -/
theorem length_unlocked_cons_lt {store : Store} {locked : List Place} {place : Place}
    (isOpen : place ∈ store.unlocked locked) :
    (store.unlocked (place :: locked)).length < (store.unlocked locked).length := by
  have fewer : store.unlocked (place :: locked) = (store.unlocked locked).filter (· ≠ place) := by
    rw [unlocked, unlocked, List.filter_filter]
    exact List.filter_congr fun other _ => by simp
  rw [fewer]
  exact List.length_filter_lt_length_iff_exists.2 ⟨place, isOpen, by simp⟩

end Store

/-! ### Failure reports -/

/-- A character inside the quotes of a failure report. -/
def Value.reportCharacter (character : Char) : String :=
  match character with
  | '"' => "\\\""
  | '\\' => "\\\\"
  | '\n' => "\\n"
  | '\r' => "\\r"
  | '\t' => "\\t"
  | '\x00' => "\\0"
  | _ =>
    if character.toNat < 32 ∨ (127 ≤ character.toNat ∧ character.toNat < 160) then
      "\\u\x7b" ++ String.ofList (Nat.toDigits 16 character.toNat) ++ "\x7d"
    else toString character

/-- A text in the quotes of a failure report. -/
def Value.reportText (text : String) : String :=
  "\"" ++ String.join (text.toList.map reportCharacter) ++ "\""

/-- The form of a value in failure reports: its kind and its content, which is given for lists and objects. -/
def Value.reportAround (contents : String) : Value → String
  | null => "Null"
  | bool value => if value then "Bool(true)" else "Bool(false)"
  | int value => "Int(" ++ toString value.toInt ++ ")"
  | long value => "Long(" ++ toString value.toInt ++ ")"
  | double value => "Double(" ++ Decimal.Layout.report.write value ++ ")"
  | text value => "Str(" ++ reportText value ++ ")"
  | list element _ =>
    "List(ListRef \x7b element: " ++ reportText element ++ ", items: Mutex \x7b data: " ++ contents ++ " \x7d \x7d)"
  | object type _ =>
    "Object(ObjectRef \x7b type_name: " ++ reportText type ++ ", fields: Mutex \x7b data: " ++ contents ++
      " \x7d \x7d)"

/-- The form of a value, with the contents of the place at which it is. -/
def Value.reportWith (contents : Store.Place → String) (value : Value) : String :=
  value.reportAround (value.place?.elim "" contents)

/-- What a failure report puts around the parts of a list or an object. -/
def Store.Place.enclose : Store.Place → List String → String
  | .list _, parts => "[" ++ ", ".intercalate parts ++ "]"
  | .object _, parts => "\x7b" ++ ", ".intercalate parts ++ "\x7d"

namespace Store

/-- The values in a list or an object, each with the text that stands before it in a failure report. -/
def entries (store : Store) : Place → List (String × Value)
  | .list reference => (store.items reference).toList.map (Prod.mk "")
  | .object reference =>
    (store.fields reference).map fun (name, value) => (Value.reportText name ++ ": ", value)

/-- The contents of a list or an object in failure reports. While they are shown the place is locked, and where it is
met again they are left out. -/
def contents (store : Store) (locked : List Place) (place : Place) : String :=
  if place ∈ store.unlocked locked then
    place.enclose ((store.entries place).map fun (label, value) =>
      label ++ value.reportWith fun inner => store.contents (place :: locked) inner)
  else "<locked>"
termination_by (store.unlocked locked).length
decreasing_by exact length_unlocked_cons_lt ‹_›

end Store

/-- The form of a value in failure reports. -/
def Value.report (store : Store) (value : Value) : String := value.reportWith (store.contents [])

end Snippet
