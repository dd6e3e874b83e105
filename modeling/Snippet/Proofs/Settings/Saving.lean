import Mathlib.Logic.Relation
import Snippet.Proofs.Json.RoundTrip
import Snippet.Settings.FileTree

/-!
Saving settings over settings that were saved before. Settings come back from the text that is saved for them
(`CompilerSettings.ofText?_toText`). While a save is under way, operations may fail at any point. A reader of the path
finds the old settings until the last operation and the new ones behind it, but not between the two renames: there the
path has no file, and both texts are complete beside it. Main statement: `FileProgress.load_of_saving`.
-/

namespace Snippet

/-! ### Saved settings are read back -/

namespace CompilerSettings

theorem ofJson?_toJson (settings : CompilerSettings) : ofJson? settings.toJson = some settings := by
  have version := Json.unsigned?_int settings.version.toNat_lt
  have depth := Json.unsigned?_int settings.maxCallDepth.toNat_lt
  have suppressed := Json.list?_map Json.text? .string (fun _ => rfl) settings.suppressedWarnings
  have fields : settings.toJson.record? ["version", "warnings_as_errors", "suppressed_warnings", "max_call_depth"] 1 =
      some [some (.int settings.version.toNat), some (.bool settings.warningsAsErrors),
        some (.array (settings.suppressedWarnings.map .string)), some (.int settings.maxCallDepth.toNat)] := rfl
  rw [ofJson?]
  simp [fields, version, depth, suppressed, fieldOr, Json.bool?]

theorem isExact_toJson (settings : CompilerSettings) : settings.toJson.IsExact :=
  ⟨trivial, trivial, Json.isExact_map _ _ fun _ => trivial, trivial, trivial⟩

theorem ofText?_toText (settings : CompilerSettings) : ofText? settings.toText = some settings := by
  rw [ofText?, toText, Json.read?_pretty settings.isExact_toJson]
  exact ofJson?_toJson settings

end CompilerSettings

/-! ### Files and directories -/

namespace FileAddress

theorem beside_injective (address : FileAddress) {ending ending' : String}
    (same : address.beside ending = address.beside ending') : ending = ending' :=
  (String.append_right_inj _).1 (congrArg FileAddress.name same)

@[simp]
theorem directory_beside (address : FileAddress) (ending : String) :
    (address.beside ending).directory = address.directory := rfl

theorem beside_ne (address : FileAddress) {ending : String} (isSome : ending ≠ "") :
    address.beside ending ≠ address := by
  intro same
  refine isSome (address.beside_injective (same.trans ?_))
  rw [beside, String.append_empty]

theorem notMem_beside (address : FileAddress) {ending : String} (isSome : ending ≠ "") :
    address ∉ [address.beside ending] := by
  rw [List.mem_singleton]
  exact (address.beside_ne isSome).symm

/-- A file is no directory around a file beside it. -/
theorem asDirectory_notMem (address : FileAddress) : address.asDirectory ∉ enclosingDirectories address.directory := by
  intro member
  obtain ⟨count, inside, same⟩ := List.mem_map.1 member
  have length := congrArg List.length same
  rw [asDirectory, List.length_append, List.length_singleton, List.length_take] at length
  omega

end FileAddress

namespace FileTree

variable {tree : FileTree} {address other : FileAddress}

theorem content?_remove_ne (different : other ≠ address) :
    (tree.remove address).content? other = tree.content? other := by
  unfold content? remove
  induction tree.files with
  | nil => rfl
  | cons file rest ih =>
    obtain ⟨found, content⟩ := file
    by_cases isFile : found = address
    · subst isFile
      simpa [List.lookup_cons, beq_false_of_ne different] using ih
    · simp [List.lookup_cons, isFile, ih]

theorem content?_remove_self (tree : FileTree) (address : FileAddress) :
    (tree.remove address).content? address = none := by
  unfold content? remove
  rw [List.lookup_eq_none_iff]
  intro file member
  have different := (List.mem_filter.1 member).2
  exact bne_iff_ne.2 (bne_iff_ne.1 different).symm

theorem content?_put_ne (different : other ≠ address) (content : String) :
    (tree.put address content).content? other = tree.content? other := by
  refine Eq.trans ?_ (content?_remove_ne different)
  rw [content?, put, List.lookup_cons, beq_false_of_ne different]
  rfl

/-- Only what is made besides decides whether a directory is there. -/
theorem hasDirectory_append {directory : List String} {made : List (List String)} (isNew : directory ∉ made) :
    { tree with directories := made ++ tree.directories }.hasDirectory directory = tree.hasDirectory directory := by
  simp [hasDirectory, isNew]

theorem load_of_content {content : String} {settings : CompilerSettings} (found : tree.content? address = some content)
    (reads : CompilerSettings.ofText? content = some settings) : tree.load address = .ok (some settings) := by
  rw [load, found]
  simp [reads]

theorem load_of_gone (isGone : tree.content? address = none) (isFile : tree.hasDirectory address.asDirectory = false) :
    tree.load address = .ok none := by
  rw [load, isGone]
  exact if_neg (ne_true_of_eq_false isFile)

/-- Settings that are loaded are in the file. -/
theorem content_of_load {settings : CompilerSettings} (loaded : tree.load address = .ok (some settings)) :
    ∃ content, tree.content? address = some content ∧ CompilerSettings.ofText? content = some settings := by
  unfold load at loaded
  split at loaded
  · next content found =>
    refine ⟨content, found, ?_⟩
    split at loaded
    · next settings' reads =>
      cases loaded
      exact reads
    · cases loaded
  · split at loaded <;> cases loaded

end FileTree

/-! ### Operations that fail -/

namespace FileOperation

variable {operation : FileOperation} {tree changed : FileTree} {other : FileAddress}

/-- Whether an operation that fails may leave a tree. Some of the directories may have been made, and a file may have
been written in part. A rename happens wholly or not at all. -/
inductive Leaves (tree : FileTree) : FileOperation → FileTree → Prop
  | untouched (operation : FileOperation) : Leaves tree operation tree
  | made {directory : List String} {made : List (List String)}
      (isPart : ∀ found ∈ made, found ∈ enclosingDirectories directory) :
      Leaves tree (makeDirectory directory) { tree with directories := made ++ tree.directories }
  | created (target : FileAddress) : Leaves tree (create target) (tree.put target "")
  | torn (target : FileAddress) (content part : String) : Leaves tree (fill target content) (tree.put target part)

/-- The files that an operation may change. -/
def changes : FileOperation → List FileAddress
  | makeDirectory _ | settle _ => []
  | create target | fill target _ => [target]
  | rename source target => [source, target]

/-- The directories that an operation may make. -/
def makes : FileOperation → List (List String)
  | makeDirectory directory => enclosingDirectories directory
  | create _ | fill .. | settle _ | rename .. => []

/-- Whether an operation that renames something renames a file. -/
def MovesFile (tree : FileTree) : FileOperation → Prop
  | rename source _ => tree.hasDirectory source.asDirectory = false
  | makeDirectory _ | create _ | fill .. | settle _ => True

/-- A rename of a file moves its content. -/
theorem after?_rename {source target : FileAddress} {content : String} (found : tree.content? source = some content)
    (isDone : (rename source target).after? tree = some changed) :
    changed = (tree.remove source).put target content := by
  simp only [after?, found] at isDone
  split at isDone
  · exact (Option.some.inj isDone).symm
  · cases isDone

/-- Where there is no directory, a file is renamed. -/
theorem exists_of_after?_rename {source target : FileAddress} (isFile : tree.hasDirectory source.asDirectory = false)
    (isDone : (rename source target).after? tree = some changed) :
    ∃ content, tree.content? source = some content ∧ changed = (tree.remove source).put target content := by
  cases found : tree.content? source with
  | some content => exact ⟨content, rfl, after?_rename found isDone⟩
  | none => simp [after?, found, isFile] at isDone

/-- An operation that is done changes its files only. -/
theorem content?_after (isDone : operation.after? tree = some changed) (moves : operation.MovesFile tree)
    (isOther : other ∉ operation.changes) : changed.content? other = tree.content? other := by
  cases operation with
  | makeDirectory directory =>
    rw [after?] at isDone
    split at isDone <;> cases isDone
    rfl
  | create target =>
    rw [after?] at isDone
    split at isDone <;> cases isDone
    exact FileTree.content?_put_ne (by simpa [changes] using isOther) _
  | fill target content =>
    obtain ⟨-, -, rfl⟩ := Option.map_eq_some_iff.1 isDone
    exact FileTree.content?_put_ne (by simpa [changes] using isOther) _
  | settle target =>
    obtain ⟨-, -, rfl⟩ := Option.map_eq_some_iff.1 isDone
    rfl
  | rename source target =>
    obtain ⟨notSource, notTarget⟩ : other ≠ source ∧ other ≠ target := by simpa [changes] using isOther
    obtain ⟨content, -, rfl⟩ := exists_of_after?_rename moves isDone
    rw [FileTree.content?_put_ne notTarget, FileTree.content?_remove_ne notSource]

/-- So does one that fails. -/
theorem Leaves.content? (leaves : operation.Leaves tree changed) (isOther : other ∉ operation.changes) :
    changed.content? other = tree.content? other := by
  cases leaves with
  | untouched | made => rfl
  | created | torn => exact FileTree.content?_put_ne (by simpa [changes] using isOther) _

/-- An operation that is done makes its directories only. -/
theorem hasDirectory_after {directory : List String} (isDone : operation.after? tree = some changed)
    (moves : operation.MovesFile tree) (isOther : directory ∉ operation.makes) : changed.hasDirectory directory = tree.hasDirectory directory := by
  cases operation with
  | makeDirectory around =>
    rw [after?] at isDone
    split at isDone <;> cases isDone
    exact FileTree.hasDirectory_append fun member => isOther (List.mem_filter.1 member).1
  | create target =>
    rw [after?] at isDone
    split at isDone <;> cases isDone
    rfl
  | fill target content | settle target =>
    obtain ⟨-, -, rfl⟩ := Option.map_eq_some_iff.1 isDone
    rfl
  | rename source target =>
    obtain ⟨content, -, rfl⟩ := exists_of_after?_rename moves isDone
    rfl

theorem Leaves.hasDirectory {directory : List String} (leaves : operation.Leaves tree changed)
    (isOther : directory ∉ operation.makes) : changed.hasDirectory directory = tree.hasDirectory directory := by
  cases leaves with
  | made isPart => exact FileTree.hasDirectory_append fun member => isOther (isPart _ member)
  | untouched | created | torn => rfl

end FileOperation

/-! ### A save under way -/

/-- Steps that are carried out: the files, the steps that are not done, and whether a required one has failed. -/
structure FileProgress where
  tree : FileTree
  left : List FileStep
  hasFailed : Bool

/-- A required step was done if steps have been performed. -/
theorem FileTree.exists_after_of_perform {tree : FileTree} {step : FileStep} {rest : List FileStep}
    (succeeds : (tree.perform (step :: rest)).1 = true) (isRequired : step.isRequired = true) :
    ∃ changed, step.operation.after? tree = some changed ∧ (changed.perform rest).1 = true := by
  rw [perform] at succeeds
  split at succeeds
  · next changed isDone => exact ⟨changed, isDone, succeeds⟩
  · rw [if_pos isRequired] at succeeds
    cases succeeds

namespace FileProgress

/-- The next step is tried. A required one that fails stops everything. -/
inductive Tries : FileProgress → FileProgress → Prop
  | done {tree changed : FileTree} {step : FileStep} (rest : List FileStep)
      (isDone : step.operation.after? tree = some changed) : Tries ⟨tree, step :: rest, false⟩ ⟨changed, rest, false⟩
  | passed {tree changed : FileTree} {step : FileStep} (rest : List FileStep) (isOptional : step.isRequired = false)
      (leaves : step.operation.Leaves tree changed) : Tries ⟨tree, step :: rest, false⟩ ⟨changed, rest, false⟩
  | stopped {tree changed : FileTree} {step : FileStep} (rest : List FileStep) (isRequired : step.isRequired = true)
      (leaves : step.operation.Leaves tree changed) :
      Tries ⟨tree, step :: rest, false⟩ ⟨changed, step :: rest, true⟩

/-- Whether steps may have come so far. -/
def Reaches : FileProgress → FileProgress → Prop := Relation.ReflTransGen Tries

/-- Steps that are performed come as far as they are performed. -/
theorem reaches_perform (tree : FileTree) (steps : List FileStep) :
    ∃ left : List FileStep, ((tree.perform steps).1 = true → left = []) ∧
      Reaches ⟨tree, steps, false⟩ ⟨(tree.perform steps).2, left, !(tree.perform steps).1⟩ := by
  induction steps generalizing tree with
  | nil => exact ⟨[], fun _ => rfl, .refl⟩
  | cons step rest ih =>
    rw [FileTree.perform]
    split
    · next changed isDone =>
      obtain ⟨left, isEmpty, reaches⟩ := ih changed
      exact ⟨left, isEmpty, .head (.done rest isDone) reaches⟩
    · split
      · next isRequired => exact ⟨step :: rest, nofun, .single (.stopped rest isRequired (.untouched _))⟩
      · next isOptional =>
        obtain ⟨left, isEmpty, reaches⟩ := ih tree
        exact ⟨left, isEmpty, .head (.passed rest (eq_false_of_ne_true isOptional) (.untouched _)) reaches⟩

theorem Tries.required {tree : FileTree} {step : FileStep} {rest : List FileStep} {hasFailed : Bool}
    {next : FileProgress} (tries : Tries ⟨tree, step :: rest, hasFailed⟩ next) (isRequired : step.isRequired = true) :
    (∃ changed, step.operation.after? tree = some changed ∧ next = ⟨changed, rest, false⟩) ∨
      ∃ changed, step.operation.Leaves tree changed ∧ next = ⟨changed, step :: rest, true⟩ := by
  cases tries with
  | done _ isDone => exact .inl ⟨_, isDone, rfl⟩
  | passed _ isOptional => rw [isOptional] at isRequired; cases isRequired
  | stopped _ _ leaves => exact .inr ⟨_, leaves, rfl⟩

end FileProgress

/-- Whether a path holds a text. -/
structure FileTree.Holds (tree : FileTree) (address : FileAddress) (content : String) : Prop where
  found : tree.content? address = some content
  isFile : tree.hasDirectory address.asDirectory = false

namespace FileTree.Holds

variable {tree changed : FileTree} {address : FileAddress} {content : String} {operation : FileOperation}

theorem after (holds : tree.Holds address content) (isDone : operation.after? tree = some changed)
    (moves : operation.MovesFile tree) (isOther : address ∉ operation.changes) (isOutside : address.asDirectory ∉ operation.makes) :
    changed.Holds address content :=
  ⟨(FileOperation.content?_after isDone moves isOther).trans holds.found,
    (FileOperation.hasDirectory_after isDone moves isOutside).trans holds.isFile⟩

theorem leaves (holds : tree.Holds address content) (leaves : operation.Leaves tree changed)
    (isOther : address ∉ operation.changes) (isOutside : address.asDirectory ∉ operation.makes) :
    changed.Holds address content :=
  ⟨(leaves.content? isOther).trans holds.found, (leaves.hasDirectory isOutside).trans holds.isFile⟩

end FileTree.Holds

namespace FileProgress

section

variable (address : FileAddress) (old : String) (settings : CompilerSettings)

/-- How far saving may have come where an old text was saved before. The old text stays at the path while the new one
is written beside it; between the two renames the path has none. -/
inductive Saves : FileProgress → Prop
  | preparing {tree : FileTree} (count : Nat) (isFront : count < 3) (holds : tree.Holds address old)
      (hasFailed : Bool) : Saves ⟨tree, (saveSteps address settings true).drop count, hasFailed⟩
  | written {tree : FileTree} (count : Nat) (isMiddle : 3 ≤ count ∧ count < 6) (holds : tree.Holds address old)
      (isWritten : tree.content? (address.beside ".tmp") = some settings.toText) (hasFailed : Bool) :
      Saves ⟨tree, (saveSteps address settings true).drop count, hasFailed⟩
  | swapping {tree : FileTree} (isGone : tree.content? address = none)
      (isFile : tree.hasDirectory address.asDirectory = false)
      (isKept : tree.content? (address.beside ".bak") = some old)
      (isWritten : tree.content? (address.beside ".tmp") = some settings.toText) (hasFailed : Bool) :
      Saves ⟨tree, (saveSteps address settings true).drop 5, hasFailed⟩
  | saved {tree : FileTree} (found : tree.content? address = some settings.toText) : Saves ⟨tree, [], false⟩

end

section

variable {address : FileAddress} {old : String} {settings : CompilerSettings} {tree : FileTree} {hasFailed : Bool}
  {next : FileProgress}

/-- Making the directory and writing the new text beside the path leave the old one there. -/
theorem saves_of_preparing {count : Nat} (isFront : count < 3) (holds : tree.Holds address old)
    (tries : Tries ⟨tree, (saveSteps address settings true).drop count, hasFailed⟩ next) :
    Saves address old settings next := by
  have notBeside : address ∉ [address.beside ".tmp"] := address.notMem_beside (by decide)
  have outside := address.asDirectory_notMem
  match count with
  | 0 =>
    obtain ⟨changed, isDone, rfl⟩ | ⟨changed, leaves, rfl⟩ := tries.required rfl
    · exact .preparing 1 (by decide) (holds.after isDone trivial List.not_mem_nil outside) _
    · exact .preparing 0 (by decide) (holds.leaves leaves List.not_mem_nil outside) _
  | 1 =>
    obtain ⟨changed, isDone, rfl⟩ | ⟨changed, leaves, rfl⟩ := tries.required rfl
    · exact .preparing 2 (by decide) (holds.after isDone trivial notBeside List.not_mem_nil) _
    · exact .preparing 1 (by decide) (holds.leaves leaves notBeside List.not_mem_nil) _
  | 2 =>
    obtain ⟨changed, isDone, rfl⟩ | ⟨changed, leaves, rfl⟩ := tries.required rfl
    · refine .written 3 (by decide) (holds.after isDone trivial notBeside List.not_mem_nil) ?_ _
      obtain ⟨-, -, rfl⟩ := Option.map_eq_some_iff.1 isDone
      exact tree.content?_put _ _
    · exact .preparing 2 (by decide) (holds.leaves leaves notBeside List.not_mem_nil) _

/-- The first rename takes the old text away, and the second one brings the new one. -/
theorem saves_of_written {count : Nat} (isMiddle : 3 ≤ count ∧ count < 6) (holds : tree.Holds address old)
    (isWritten : tree.content? (address.beside ".tmp") = some settings.toText)
    (tries : Tries ⟨tree, (saveSteps address settings true).drop count, hasFailed⟩ next) :
    Saves address old settings next := by
  match count with
  | 3 =>
    obtain ⟨changed, isDone, rfl⟩ | ⟨changed, leaves, rfl⟩ := tries.required rfl
    · obtain ⟨-, -, rfl⟩ := Option.map_eq_some_iff.1 isDone
      exact .written 4 (by decide) holds isWritten _
    · cases leaves
      exact .written 3 (by decide) holds isWritten _
  | 4 =>
    cases tries with
    | done rest isDone =>
      cases FileOperation.after?_rename holds.found isDone
      have isOther : address.beside ".tmp" ≠ address.beside ".bak" := fun same =>
        absurd (FileAddress.beside_injective _ same) (by decide)
      refine .swapping ?_ ?_ (FileTree.content?_put ..) ?_ _
      · rw [FileTree.content?_put_ne (address.beside_ne (by decide)).symm, FileTree.content?_remove_self]
      · exact holds.isFile
      · rwa [FileTree.content?_put_ne isOther, FileTree.content?_remove_ne (address.beside_ne (by decide))]
    | passed rest isOptional leaves =>
      cases leaves
      exact .written 5 (by decide) holds isWritten _
    | stopped rest isRequired => cases isRequired
  | 5 =>
    obtain ⟨changed, isDone, rfl⟩ | ⟨changed, leaves, rfl⟩ := tries.required rfl
    · cases FileOperation.after?_rename isWritten isDone
      exact .saved (FileTree.content?_put ..)
    · cases leaves
      exact .written 5 (by decide) holds isWritten _

theorem Saves.step {progress : FileProgress} (saves : Saves address old settings progress)
    (tries : Tries progress next) : Saves address old settings next := by
  cases saves with
  | preparing count isFront holds => exact saves_of_preparing isFront holds tries
  | written count isMiddle holds isWritten => exact saves_of_written isMiddle holds isWritten tries
  | swapping isGone isFile isKept isWritten =>
    obtain ⟨changed, isDone, rfl⟩ | ⟨changed, leaves, rfl⟩ := tries.required rfl
    · cases FileOperation.after?_rename isWritten isDone
      exact .saved (FileTree.content?_put ..)
    · cases leaves
      exact .swapping isGone isFile isKept isWritten _
  | saved => cases tries

theorem Saves.run {progress : FileProgress} (saves : Saves address old settings progress)
    (reaches : Reaches progress next) : Saves address old settings next := by
  induction reaches with
  | refl => exact saves
  | tail _ tries ih => exact ih.step tries

end

theorem drop_saveSteps_ne_nil {address : FileAddress} {settings : CompilerSettings} {count : Nat} (isLess : count < 6) :
    (saveSteps address settings true).drop count ≠ [] := by
  refine List.ne_nil_of_length_pos ?_
  rw [List.length_drop]
  exact Nat.sub_pos_of_lt isLess

/-- Wherever a save over others is, it has come there as `Saves` says. -/
theorem exists_saves {tree : FileTree} {address : FileAddress} {previous settings : CompilerSettings}
    {progress : FileProgress} (saved : tree.load address = .ok (some previous))
    (isFile : tree.hasDirectory address.asDirectory = false)
    (reaches : Reaches ⟨tree, saveSteps address settings (tree.occupied address), false⟩ progress) :
    ∃ old, CompilerSettings.ofText? old = some previous ∧ Saves address old settings progress := by
  obtain ⟨old, found, reads⟩ := FileTree.content_of_load saved
  have isPresent : tree.occupied address = true := by simp [FileTree.occupied, found]
  rw [isPresent] at reaches
  have saves : Saves address old settings ⟨tree, saveSteps address settings true, false⟩ :=
    .preparing 0 (by decide) ⟨found, isFile⟩ false
  exact ⟨old, reads, saves.run reaches⟩

/-- What is loaded while a save is under way. -/
theorem Saves.load {address : FileAddress} {old : String} {previous settings : CompilerSettings}
    {progress : FileProgress} (saves : Saves address old settings progress)
    (reads : CompilerSettings.ofText? old = some previous) :
    progress.left ≠ [] ∧ progress.tree.load address = .ok (some previous) ∨
      progress.left = [] ∧ progress.hasFailed = false ∧ progress.tree.load address = .ok (some settings) ∨
      progress.left = [⟨.rename (address.beside ".tmp") address, true⟩] ∧ progress.tree.load address = .ok none ∧
        progress.tree.load (address.beside ".bak") = .ok (some previous) ∧
        progress.tree.load (address.beside ".tmp") = .ok (some settings) := by
  cases saves with
  | preparing count isFront holds =>
    exact .inl ⟨drop_saveSteps_ne_nil (by omega), FileTree.load_of_content holds.found reads⟩
  | written count isMiddle holds isWritten =>
    exact .inl ⟨drop_saveSteps_ne_nil isMiddle.2, FileTree.load_of_content holds.found reads⟩
  | swapping isGone isFile isKept isWritten =>
    exact .inr (.inr ⟨rfl, FileTree.load_of_gone isGone isFile, FileTree.load_of_content isKept reads,
      FileTree.load_of_content isWritten settings.ofText?_toText⟩)
  | saved found => exact .inr (.inl ⟨rfl, rfl, FileTree.load_of_content found settings.ofText?_toText⟩)

/-- What a reader of the path finds while settings are saved over others, after every operation and behind every
failure: the old settings while steps are left, and the new ones at the end. The exception is the time between the two
renames, where the path has no file; the old settings and the new ones are in the files beside it then. -/
theorem load_of_saving {tree : FileTree} {address : FileAddress} {previous settings : CompilerSettings}
    {progress : FileProgress} (saved : tree.load address = .ok (some previous))
    (isFile : tree.hasDirectory address.asDirectory = false)
    (reaches : Reaches ⟨tree, saveSteps address settings (tree.occupied address), false⟩ progress) :
    progress.left ≠ [] ∧ progress.tree.load address = .ok (some previous) ∨
      progress.left = [] ∧ progress.hasFailed = false ∧ progress.tree.load address = .ok (some settings) ∨
      progress.left = [⟨.rename (address.beside ".tmp") address, true⟩] ∧ progress.tree.load address = .ok none ∧
        progress.tree.load (address.beside ".bak") = .ok (some previous) ∧
        progress.tree.load (address.beside ".tmp") = .ok (some settings) := by
  obtain ⟨old, reads, saves⟩ := exists_saves saved isFile reaches
  exact saves.load reads

/-- A directory in which the default settings are saved. -/
def savedBefore : FileTree := FileTree.empty.put ⟨[], "settings.json"⟩ CompilerSettings.default.toText

theorem load_savedBefore : savedBefore.load ⟨[], "settings.json"⟩ = .ok (some .default) :=
  FileTree.load_of_content (FileTree.content?_put ..) (CompilerSettings.ofText?_toText _)

/-- Settings with a limit of their own for the depth of calls. -/
def deeperSettings : CompilerSettings := { CompilerSettings.default with maxCallDepth := 512 }

/-- Saving them there, between the two renames. -/
def savingDeeper : FileProgress :=
  ⟨((savedBefore.put ⟨[], "settings.json.tmp"⟩ deeperSettings.toText).remove ⟨[], "settings.json"⟩).put
    ⟨[], "settings.json.bak"⟩ CompilerSettings.default.toText,
    (saveSteps ⟨[], "settings.json"⟩ deeperSettings true).drop 5, false⟩

theorem reaches_savingDeeper :
    Reaches ⟨savedBefore, saveSteps ⟨[], "settings.json"⟩ deeperSettings
      (savedBefore.occupied ⟨[], "settings.json"⟩), false⟩ savingDeeper :=
  .head (.done _ rfl) (.head (.done _ rfl) (.head (.done _ rfl) (.head (.done _ rfl) (.single (.done _ rfl)))))

theorem load_of_saving_deeper :
    savingDeeper.left ≠ [] ∧ savingDeeper.tree.load ⟨[], "settings.json"⟩ = .ok (some .default) ∨
      savingDeeper.left = [] ∧ savingDeeper.hasFailed = false ∧
        savingDeeper.tree.load ⟨[], "settings.json"⟩ = .ok (some deeperSettings) ∨
      savingDeeper.left = [⟨.rename ⟨[], "settings.json.tmp"⟩ ⟨[], "settings.json"⟩, true⟩] ∧
        savingDeeper.tree.load ⟨[], "settings.json"⟩ = .ok none ∧
        savingDeeper.tree.load ⟨[], "settings.json.bak"⟩ = .ok (some .default) ∧
        savingDeeper.tree.load ⟨[], "settings.json.tmp"⟩ = .ok (some deeperSettings) :=
  load_of_saving load_savedBefore rfl reaches_savingDeeper

/-- A reader does not always find the old settings or the new ones. -/
theorem not_load_of_saving :
    ¬ ∀ (tree : FileTree) (address : FileAddress) (previous settings : CompilerSettings) (progress : FileProgress),
      tree.load address = .ok (some previous) → tree.hasDirectory address.asDirectory = false →
        Reaches ⟨tree, saveSteps address settings (tree.occupied address), false⟩ progress →
          progress.tree.load address = .ok (some previous) ∨ progress.tree.load address = .ok (some settings) := by
  intro always
  have found := always _ _ _ _ _ load_savedBefore rfl reaches_savingDeeper
  have isNone : savingDeeper.tree.load ⟨[], "settings.json"⟩ = .ok none := rfl
  rw [isNone] at found
  exact found.elim nofun nofun

section

variable {tree : FileTree} {address : FileAddress} {old : String} {settings : CompilerSettings}

/-- What a reader finds behind a save over others. -/
theorem load_save {previous : CompilerSettings} (saved : tree.load address = .ok (some previous))
    (isFile : tree.hasDirectory address.asDirectory = false) :
    (tree.save address settings).1 = .ok ⟨⟩ ∧ (tree.save address settings).2.load address = .ok (some settings) ∨
      (tree.save address settings).1 = .error .files ∧
        ((tree.save address settings).2.load address = .ok (some previous) ∨
          (tree.save address settings).2.load address = .ok none) := by
  obtain ⟨left, isEmpty, reaches⟩ := reaches_perform tree (saveSteps address settings (tree.occupied address))
  obtain ⟨old, reads, saves⟩ := exists_saves saved isFile reaches
  simp only [FileTree.save, FileTree.outcome]
  cases isDone : (tree.perform (saveSteps address settings (tree.occupied address))).1 with
  | true =>
    obtain ⟨isSome, -⟩ | ⟨-, -, isNew⟩ | ⟨isLast, -⟩ := saves.load reads
    · exact absurd (isEmpty isDone) isSome
    · exact .inl ⟨rfl, isNew⟩
    · cases (isEmpty isDone).symm.trans isLast
  | false =>
    refine .inr ⟨rfl, ?_⟩
    obtain ⟨-, isOld⟩ | ⟨-, notFailed, -⟩ | ⟨-, isNone, -⟩ := saves.load reads
    · exact .inl isOld
    · simp [isDone] at notFailed
    · exact .inr isNone

/-- A save that succeeds comes to the first rename, with everything in place for it. -/
theorem exists_prepared (holds : tree.Holds address old)
    (isFree : tree.hasDirectory (address.beside ".bak").asDirectory = false)
    (performs : (tree.perform (saveSteps address settings true)).1 = true) :
    ∃ prepared : FileTree, prepared.Holds address old ∧
      prepared.hasDirectory address.directory = true ∧
      prepared.hasDirectory (address.beside ".bak").asDirectory = false ∧
      Reaches ⟨tree, saveSteps address settings true, false⟩
        ⟨prepared, (saveSteps address settings true).drop 4, false⟩ := by
  obtain ⟨made, isMade, performs⟩ := FileTree.exists_after_of_perform performs rfl
  obtain ⟨created, isCreated, performs⟩ := FileTree.exists_after_of_perform performs rfl
  obtain ⟨filled, isFilled, performs⟩ := FileTree.exists_after_of_perform performs rfl
  obtain ⟨settled, isSettled, -⟩ := FileTree.exists_after_of_perform performs rfl
  have notBeside : address ∉ [address.beside ".tmp"] := address.notMem_beside (by decide)
  have sameDirectories : settled.hasDirectory = made.hasDirectory := by
    funext directory
    rw [FileOperation.hasDirectory_after isSettled trivial List.not_mem_nil,
      FileOperation.hasDirectory_after isFilled trivial List.not_mem_nil,
      FileOperation.hasDirectory_after isCreated trivial List.not_mem_nil]
  refine ⟨settled, ?_, ?_, ?_, .head (.done _ isMade) (.head (.done _ isCreated) (.head (.done _ isFilled)
    (.single (.done _ isSettled))))⟩
  · have madeHolds := holds.after isMade trivial List.not_mem_nil address.asDirectory_notMem
    have createdHolds := madeHolds.after isCreated trivial notBeside List.not_mem_nil
    have filledHolds := createdHolds.after isFilled trivial notBeside List.not_mem_nil
    exact filledHolds.after isSettled trivial List.not_mem_nil List.not_mem_nil
  · rw [FileOperation.after?] at isCreated
    split at isCreated
    · next isPossible =>
      rw [sameDirectories]
      exact (Bool.and_eq_true_iff.1 isPossible).1
    · cases isCreated
  · rw [sameDirectories]
    exact (FileOperation.hasDirectory_after isMade trivial (address.beside ".bak").asDirectory_notMem).trans isFree

/-- Every save over others that succeeds leaves the path without a file for a time, and without end where only its last
step fails, unless there is a directory in the way of the old settings. -/
theorem exists_load_none_of_save {previous : CompilerSettings} (saved : tree.load address = .ok (some previous))
    (isFile : tree.hasDirectory address.asDirectory = false)
    (isFree : tree.hasDirectory (address.beside ".bak").asDirectory = false)
    (succeeds : (tree.save address settings).1 = .ok ⟨⟩) (hasFailed : Bool) :
    ∃ progress, Reaches ⟨tree, saveSteps address settings (tree.occupied address), false⟩ progress ∧
      progress.hasFailed = hasFailed ∧ progress.tree.load address = .ok none := by
  obtain ⟨old, found, -⟩ := FileTree.content_of_load saved
  have isPresent : tree.occupied address = true := by simp [FileTree.occupied, found]
  rw [FileTree.save, isPresent] at succeeds
  have performs : (tree.perform (saveSteps address settings true)).1 = true := by
    cases isDone : (tree.perform (saveSteps address settings true)).1 with
    | true => rfl
    | false =>
      rw [FileTree.outcome, isDone] at succeeds
      cases succeeds
  obtain ⟨prepared, holds, hasDirectory, isStillFree, reaches⟩ := exists_prepared ⟨found, isFile⟩ isFree performs
  have isSetAside : (FileOperation.rename address (address.beside ".bak")).after? prepared =
      some ((prepared.remove address).put (address.beside ".bak") old) := by
    simp [FileOperation.after?, holds.found, hasDirectory, isStillFree]
  have swaps := Relation.ReflTransGen.tail reaches (.done _ isSetAside)
  have isNone : ((prepared.remove address).put (address.beside ".bak") old).load address = .ok none := by
    refine FileTree.load_of_gone ?_ holds.isFile
    rw [FileTree.content?_put_ne (address.beside_ne (by decide)).symm, FileTree.content?_remove_self]
  rw [isPresent]
  cases hasFailed with
  | false => exact ⟨_, swaps, rfl, isNone⟩
  | true => exact ⟨_, swaps.tail (.stopped _ rfl (.untouched _)), rfl, isNone⟩

end

end FileProgress
end Snippet
