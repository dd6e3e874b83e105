import Snippet.Image.Basic

/-!
Pools: the constants, strings and imports of an image, each held once. Main statements: the index
that a pool gives for an entry finds that entry, and earlier indices stay valid.
-/

namespace Snippet

/-- Entries in the order in which they were first asked for. -/
structure Pool (α : Type) where
  entries : Array α

namespace Pool

variable {α : Type} [DecidableEq α]

/-- The pool without entries. -/
def empty : Pool α := ⟨#[]⟩

/-- The index of an entry, which is added if the pool lacks it. -/
def intern (pool : Pool α) (entry : α) : Nat × Pool α :=
  match pool.entries.findIdx? (· == entry) with
  | some index => (index, pool)
  | none => (pool.entries.size, ⟨pool.entries.push entry⟩)

theorem getElem?_intern (pool : Pool α) (entry : α) :
    (pool.intern entry).2.entries[(pool.intern entry).1]? = some entry := by
  unfold intern
  split
  · next index found =>
    obtain ⟨inside, same, _⟩ := Array.findIdx?_eq_some_iff_getElem.1 found
    simp only [Array.getElem?_eq_getElem inside]
    exact congrArg some (eq_of_beq same)
  · simp

theorem getElem?_intern_of_lt (pool : Pool α) (entry : α) (index : Nat)
    (inside : index < pool.entries.size) :
    (pool.intern entry).2.entries[index]? = pool.entries[index]? := by
  unfold intern
  split
  · rfl
  · simp [Array.getElem?_push, Nat.ne_of_lt inside]

end Pool

/-- What has been needed so far while a program is compiled, and the slots of the current method. -/
structure EmitState where
  constants : Pool Constant
  strings : Pool String
  imports : Pool Import
  /-- The number of slots: parameters, variables and temporaries. -/
  slots : Nat

/-- The state before anything is compiled. -/
def EmitState.empty : EmitState := ⟨.empty, .empty, .empty, 0⟩

/-- A step of the compilation. -/
abbrev Emit (α : Type) := StateM EmitState α

namespace Emit

/-- The index of a constant. -/
def constant (value : Constant) : Emit UInt32 :=
  modifyGet fun state =>
    let (index, constants) := state.constants.intern value
    (.ofNat index, { state with constants })

/-- The index of a string. -/
def string (value : String) : Emit UInt32 :=
  modifyGet fun state =>
    let (index, strings) := state.strings.intern value
    (.ofNat index, { state with strings })

/-- The index of an import. -/
def imported (value : Import) : Emit UInt32 :=
  modifyGet fun state =>
    let (index, imports) := state.imports.intern value
    (.ofNat index, { state with imports })

/-- A new temporary slot. -/
def temporary : Emit UInt16 :=
  modifyGet fun state => (.ofNat state.slots, { state with slots := state.slots + 1 })

end Emit

end Snippet
