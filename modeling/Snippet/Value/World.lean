import Snippet.Value.Exception
import Snippet.Value.Store

/-!
The state that a running program changes: the lists and objects of the store and the text printed.
-/

namespace Snippet

/-- The state of a running program. -/
structure World where
  store : Store
  printed : String

/-- The state in which nothing exists and nothing is printed. -/
def World.empty : World := ⟨.empty, ""⟩

/-- The cause that ends a run, with the operands as they are. -/
abbrev Fault := Cause Value

/-- The exception of a fault: its operands are put into words as they are when it shows. -/
def Fault.inWords (store : Store) (fault : Fault) : Exception := fault.map (·.report store)

/-- A computation that changes the world and may end with an exception. Changes made before an
exception remain. -/
abbrev Action (α : Type) := ExceptT Exception (StateM World) α

namespace Action

/-- The store. -/
def store : Action Store := return (← get).store

/-- Changes the store. -/
def modifyStore (change : Store → Store) : Action PUnit :=
  modify fun world => { world with store := change world.store }

/-- A result that may be an exception. -/
def ofExcept {α : Type} : Except Exception α → Action α
  | .ok value => pure value
  | .error exception => throw exception

/-- A result that may be a fault. -/
def ofFaulty {α : Type} : Except Fault α → Action α
  | .ok value => pure value
  | .error fault => do throw (fault.inWords (← Action.store))

/-- A new list with the given items. -/
def newList (element : String) (items : Array Value) : Action Value :=
  modifyGet fun world =>
    let (value, store) := world.store.newList element items
    (value, { world with store })

/-- A new object with the given fields. -/
def newObject (type : String) (fields : Fields) : Action Value :=
  modifyGet fun world =>
    let (value, store) := world.store.newObject type fields
    (value, { world with store })

/-- Prints a text. -/
def print (text : String) : Action PUnit :=
  modify fun world => { world with printed := world.printed ++ text }

end Action

end Snippet
