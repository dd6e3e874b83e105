import Snippet.Proofs.Block.Size
import Snippet.Proofs.Machine.Moves
import Snippet.Proofs.Stack.Heights

/-!
Well-formed code: targets and indices exist, no jump lacks its target, and every position has one
number of operands. Main statement: a checked program whose operands have values, and whose slots and
instructions can be counted, is compiled to methods with well-formed code.
-/

namespace Snippet

/-! ### Jumps out of a round -/

namespace Emit

theorem isReady_inLoop (round done : Nat) (code : StatementCode) :
    ∃ instruction, code.inLoop round done = .ready instruction := by
  cases code <;> exact ⟨_, rfl⟩

/-- Whether every jump of statement code has its target. -/
def Settled (codes : List StatementCode) : Prop := ∀ code ∈ codes, ∃ instruction, code = .ready instruction

theorem settled_ready (code : List Instruction) : Settled (ready code) := by
  intro one member
  obtain ⟨instruction, -, rfl⟩ := List.mem_map.1 member
  exact ⟨instruction, rfl⟩

/-- In the code of a loop every jump has its target. -/
theorem settled_round (round done : Nat) (codes : List StatementCode) :
    Settled (codes.map (·.inLoop round done)) := by
  intro one member
  obtain ⟨code, -, rfl⟩ := List.mem_map.1 member
  exact isReady_inLoop round done code

theorem Settled.append {first second : List StatementCode} (head : Settled first) (tail : Settled second) :
    Settled (first ++ second) := fun code member => (List.mem_append.1 member).elim (head code) (tail code)

theorem settled_exitTest (test : Option (List Instruction)) (done : Nat) : Settled (exitTest test done) := by
  cases test with
  | none => nofun
  | some code => exact settled_ready _

mutual

/-- Outside all loops no jump of a statement lacks its target. -/
theorem statement_settled {typing : Typing} (source : TypedStmt) (fits : source.Fits typing false)
    (start : Nat) (before : EmitState) : Settled ((statement start source).run before).1 := by
  match source with
  | .block body => exact statements_settled body fits start before
  | .evaluate value => exact settled_ready _
  | .giveBack _ none => exact settled_ready _
  | .giveBack _ (some value) => exact settled_ready _
  | .branch condition thenBranch none =>
    exact (settled_ready _).append (statement_settled thenBranch fits.2.2 _ _)
  | .branch condition thenBranch (some elseBranch) =>
    obtain ⟨-, -, thenFits, elseFits⟩ := fits
    exact (((settled_ready _).append (statement_settled thenBranch thenFits _ _)).append (settled_ready _)).append
      (statement_settled elseBranch elseFits _ _)
  | .whileLoop condition body =>
    exact ((settled_ready _).append (settled_round _ _ _)).append (settled_ready _)
  | .forLoop first condition steps body =>
    exact (((statements_settled first fits.1 start before).append (settled_exitTest _ _)).append
      (settled_round _ _ _)).append (settled_ready _)
  | .leaveLoop | .nextRound => cases fits

theorem statements_settled {typing : Typing} (sources : List TypedStmt)
    (fits : TypedStmt.AllFit typing false sources) (start : Nat) (before : EmitState) :
    Settled ((statements start sources).run before).1 := by
  match sources with
  | [] => nofun
  | first :: rest =>
    exact (statement_settled first fits.1 start before).append (statements_settled rest fits.2 _ _)

end

end Emit

/-! ### Indices and targets -/

/-- The target of an instruction that jumps. -/
def Instruction.target? : Instruction → Option UInt32
  | jump target | jumpIfFalse target | jumpIfTrue target => some target
  | _ => none

/-- Whether every index of an instruction finds what the instruction needs. -/
def Instruction.InTables (image : Image) (slotCount : UInt16) : Instruction → Prop
  | const index => index.toNat < image.constants.length
  | load slot | store slot => slot < slotCount
  | cast name | newList name | loadField name | storeField name => name.toNat < image.strings.length
  | call method => method.toNat < image.methods.length
  | hostCall function => ∃ wanted, image.imports[function.toNat]? = some (.function wanted)
  | newObject type => ∃ name, image.imports[type.toNat]? = some (.type name)
  | _ => True

/-- Whether code compiled for a method is well formed. -/
structure MethodImage.IsWellFormed (compiled : MethodImage) (image : Image) (method : TypedMethod) : Prop where
  /-- The code lays out the method's block, in which every part of the source has its place. -/
  encodes : List.Forall₂ (Instruction.Encodes image) compiled.code (method.block.layout 0 0 0)
  /-- No jump waits for its target. -/
  settled : ∀ before : EmitState, Emit.Settled ((Emit.statements 0 method.body).run before).1
  targets : ∀ instruction ∈ compiled.code, ∀ target ∈ instruction.target?, target.toNat ≤ compiled.code.length
  indices : ∀ instruction ∈ compiled.code, instruction.InTables image compiled.slotCount
  heights : ∃ heights : Nat → Nat, compiled.HasHeights image heights ∧
    ∀ part ∈ method.block.extents 0, part.1.HasHeights heights part.2.1 part.2.2

namespace MethodImage.Compiles

variable {program : TypedProgram} {libraries : LibrarySet} {image : Image} {method : TypedMethod}
  {compiled : MethodImage}

theorem targets (code : compiled.Compiles image method) :
    ∀ instruction ∈ compiled.code, ∀ target ∈ instruction.target?, target.toNat ≤ compiled.code.length := by
  intro instruction member target jumps
  obtain ⟨position, found⟩ := List.mem_iff_getElem?.1 member
  obtain ⟨line, isLine, encodes⟩ := code.exists_line found
  cases encodes with
  | jump goal | jumpIfFalse goal | jumpIfTrue goal =>
      cases jumps
      rw [Emit.position, UInt32.toNat_ofNat_of_lt' (code.target_lt isLine rfl)]
      exact code.target_le isLine rfl
  | _ => cases jumps

theorem inTables (code : compiled.Compiles image method) (compiles : program.CompilesTo libraries image)
    (fits : program.MethodFits libraries method) :
    ∀ instruction ∈ compiled.code, instruction.InTables image compiled.slotCount := by
  intro instruction member
  obtain ⟨position, found⟩ := List.mem_iff_getElem?.1 member
  obtain ⟨line, isLine, encodes⟩ := code.exists_line found
  have isInside {α : Type} {table : List α} {index : Nat} {entry : α} (found : table[index]? = some entry) :
      index < table.length := (List.getElem?_eq_some_iff.1 found).1
  have slotInside {slot : Nat} (inside : slot < compiled.slotCount.toNat) : Emit.slot slot < compiled.slotCount := by
    have small : slot < UInt16.size := Nat.lt_trans inside (UInt16.toNat_lt _)
    rw [UInt16.lt_iff_toNat_lt, Emit.slot, UInt16.toNat_ofNat_of_lt' small]
    exact inside
  cases encodes with
  | const entry | cast entry | newList entry | loadField entry | storeField entry => exact isInside entry
  | load slot => exact slotInside (code.indexes fits isLine)
  | store slot => exact slotInside (code.indexes fits isLine)
  | call index =>
      have inside : index < program.methods.length := code.indexes fits isLine
      rw [Instruction.InTables, compiles.toNat_ofNat (List.getElem?_eq_getElem inside), compiles.length_methods]
      exact inside
  | hostCall entry | newObject entry => exact ⟨_, entry⟩
  | _ => trivial

/-- The code of a method whose operands have values is well formed. -/
theorem isWellFormed (code : compiled.Compiles image method) (compiles : program.CompilesTo libraries image)
    (fits : program.MethodFits libraries method) (valuesOnly : method.ValuesOnly) :
    compiled.IsWellFormed image method := by
  obtain ⟨plan, enters, -, obeys⟩ := TypedMethod.stack_plan fits False.elim (valuesOnly.toStacks _)
  exact ⟨code.encodes, fun before => Emit.statements_settled method.body fits.body 0 before, code.targets,
    code.inTables compiles fits, _, code.hasHeights compiles enters obeys⟩

end MethodImage.Compiles

/-- A source text without errors is compiled if no operand lacks its value and if slots and
instructions can be counted in 16 and in 32 bits. The code of every method is well formed. -/
theorem CompilationUnit.exists_wellFormed {unit : CompilationUnit} {libraries : LibrarySet}
    (noError : ∀ finding ∈ (unit.check libraries).findings, finding.isError = false)
    (valuesOnly : (unit.check libraries).program.ValuesOnly)
    (slots : ∀ method ∈ (unit.check libraries).program.methods,
      method.slots.length + method.temporaries < 65536)
    (short : TypedMethod.lengthOfAll (unit.check libraries).program.methods < UInt32.size) (moduleName : String) :
    ∃ image, (unit.check libraries).program.toImage moduleName = .ok image ∧
      List.Forall₂ (fun method compiled => compiled.IsWellFormed image method)
        (unit.check libraries).program.methods image.methods := by
  obtain ⟨image, done⟩ := (unit.check libraries).program.exists_toImage moduleName slots short
  have compiles := CompilationUnit.compilesTo noError done
  refine ⟨image, done, List.forall₂_iff_get.2 ⟨compiles.length_methods.symm, fun index inside inside' => ?_⟩⟩
  have code := (List.forall₂_iff_get.1 compiles.methods).2 index inside inside'
  have member := List.get_mem (unit.check libraries).program.methods ⟨index, inside⟩
  exact code.isWellFormed compiles (compiles.fits _ member) (valuesOnly _ member)

/-- The code of the method that gives a variable back is well formed. -/
theorem CompilationUnit.exists_wellFormed_givingVariable :
    ∃ image, (givingVariable.check .empty).program.toImage "snippet" = .ok image ∧
      List.Forall₂ (fun method compiled => compiled.IsWellFormed image method)
        (givingVariable.check .empty).program.methods image.methods := by
  have noError : ∀ finding ∈ (givingVariable.check .empty).findings, finding.isError = false := by
    rw [findings_givingVariable]
    nofun
  have fits := givingVariable.methodFits_of_check .empty noError
  refine CompilationUnit.exists_wellFormed noError (TypedProgram.valuesOnly_of_closed LibrarySet.empty_closed fits)
    ?_ ?_ "snippet"
  · decide +kernel
  · decide +kernel

end Snippet
