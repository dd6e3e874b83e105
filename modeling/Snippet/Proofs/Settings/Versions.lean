import Snippet.Proofs.Settings.Saving

/-!
Saving settings again and again, where no operation on files fails. Whatever lay beside the path at first, it holds the
settings saved last, the backup beside it what the path held just in front of the last save, and nothing else has
changed. Main statement: `FileTree.saveAll_keeps`.
-/

namespace Snippet

namespace FileTree

/-- The tree behind steps of which none fails, not even one that is not required. -/
def completed? (tree : FileTree) : List FileStep → Option FileTree
  | [] => some tree
  | step :: rest => (step.operation.after? tree).bind fun changed => changed.completed? rest

/-- The files behind some saves, one after the other. -/
def saveAll (tree : FileTree) (address : FileAddress) (saves : List CompilerSettings) : FileTree :=
  saves.foldl (fun tree settings => (save.{0} tree address settings).2) tree

/-- Whether no operation fails in a save to a path at which there is no directory. -/
def SavesOnce (tree : FileTree) (address : FileAddress) (settings : CompilerSettings) : Prop :=
  tree.hasDirectory address.asDirectory = false ∧
    (tree.completed? (saveSteps address settings (tree.occupied address))).isSome = true

/-- Whether no operation fails in any of the saves, to a path at which there is no directory. -/
def SavesWholly (tree : FileTree) (address : FileAddress) : List CompilerSettings → Prop
  | [] => True
  | settings :: rest =>
    tree.SavesOnce address settings ∧ (save.{0} tree address settings).2.SavesWholly address rest

variable {tree written after : FileTree} {address : FileAddress} {content : String}

theorem completed?_cons {step : FileStep} {rest : List FileStep} :
    tree.completed? (step :: rest) = some after ↔
      ∃ changed, step.operation.after? tree = some changed ∧ changed.completed? rest = some after :=
  Option.bind_eq_some_iff

/-- Steps of which none fails are performed to their end. -/
theorem perform_of_completed {steps : List FileStep} (completed : tree.completed? steps = some after) :
    tree.perform steps = (true, after) := by
  induction steps generalizing tree with
  | nil => rw [perform, Option.some.inj completed]
  | cons step rest ih =>
    obtain ⟨changed, isDone, completed⟩ := completed?_cons.1 completed
    rw [perform, isDone]
    exact ih completed

/-! ### One save -/

/-- Whether a text has been written beside a path, and nothing else has changed but directories. -/
structure Prepares (before : FileTree) (address : FileAddress) (content : String) (written : FileTree) : Prop where
  found : written.content? (address.beside ".tmp") = some content
  isFile : written.hasDirectory (address.beside ".tmp").asDirectory = false
  others : ∀ other, other ≠ address.beside ".tmp" → written.content? other = before.content? other
  directories : written.hasDirectory = before.hasDirectory

/-- Whether a path has got a new text: what it held is in the backup, and nothing else has changed but directories. -/
structure Replaces (before : FileTree) (address : FileAddress) (content : String) (after : FileTree) : Prop where
  found : after.content? address = some content
  backup : after.content? (address.beside ".bak") =
    (before.content? address).or (before.content? (address.beside ".bak"))
  temporary : after.occupied (address.beside ".tmp") = false
  others : ∀ other, other ∉ [address, address.beside ".bak", address.beside ".tmp"] →
    after.content? other = before.content? other

theorem beside_tmp_ne_bak (address : FileAddress) : address.beside ".tmp" ≠ address.beside ".bak" := fun same =>
  absurd (address.beside_injective same) (by decide)

/-- The steps in front of the renames. A file that was left there before is written anew. -/
theorem exists_prepares {rest : List FileStep}
    (completed : tree.completed? (⟨.create (address.beside ".tmp"), true⟩ ::
      ⟨.fill (address.beside ".tmp") content, true⟩ :: ⟨.settle (address.beside ".tmp"), true⟩ :: rest) = some after) :
    ∃ written, tree.Prepares address content written ∧ written.completed? rest = some after := by
  obtain ⟨created, isCreated, completed⟩ := completed?_cons.1 completed
  obtain ⟨filled, isFilled, completed⟩ := completed?_cons.1 completed
  obtain ⟨settled, isSettled, completed⟩ := completed?_cons.1 completed
  obtain ⟨-, -, rfl⟩ := Option.map_eq_some_iff.1 isSettled
  obtain ⟨-, -, rfl⟩ := Option.map_eq_some_iff.1 isFilled
  rw [FileOperation.after?] at isCreated
  split at isCreated
  · next isPossible =>
    cases isCreated
    have isFile : tree.hasDirectory (address.beside ".tmp").asDirectory = false := by
      simpa using (Bool.and_eq_true_iff.1 isPossible).2
    refine ⟨(tree.put (address.beside ".tmp") "").put (address.beside ".tmp") content,
      ⟨content?_put .., isFile, fun other isOther => ?_, rfl⟩, completed⟩
    rw [content?_put_ne isOther, content?_put_ne isOther]
  · cases isCreated

/-- The first rename moves what the path held to the backup. -/
theorem Prepares.setAside {kept : FileTree} (prepares : tree.Prepares address content written)
    (isPath : tree.hasDirectory address.asDirectory = false)
    (renamed : (FileOperation.rename address (address.beside ".bak")).after? written = some kept) :
    kept.content? (address.beside ".tmp") = some content ∧
      kept.hasDirectory (address.beside ".tmp").asDirectory = false ∧
      kept.content? (address.beside ".bak") = tree.content? address ∧ (tree.content? address).isSome = true ∧
      ∀ other, other ∉ [address, address.beside ".bak", address.beside ".tmp"] →
        kept.content? other = tree.content? other := by
  obtain ⟨old, isOld, rfl⟩ := FileOperation.exists_of_after?_rename (prepares.directories ▸ isPath) renamed
  have isNew : address ≠ address.beside ".tmp" := (address.beside_ne (by decide)).symm
  rw [prepares.others address isNew] at isOld
  refine ⟨?_, prepares.isFile, ?_, Option.isSome_of_mem isOld, fun other isOther => ?_⟩
  · rw [content?_put_ne (beside_tmp_ne_bak address), content?_remove_ne isNew.symm]
    exact prepares.found
  · rw [content?_put, isOld]
  · simp only [List.mem_cons, List.not_mem_nil, or_false, not_or] at isOther
    obtain ⟨notPath, notBackup, notTemporary⟩ := isOther
    rw [content?_put_ne notBackup, content?_remove_ne notPath]
    exact prepares.others other notTemporary

/-- The last rename brings the new text to the path and leaves no temporary file. -/
theorem finish {kept : FileTree} (found : kept.content? (address.beside ".tmp") = some content)
    (isFile : kept.hasDirectory (address.beside ".tmp").asDirectory = false)
    (renamed : (FileOperation.rename (address.beside ".tmp") address).after? kept = some after) :
    after.content? address = some content ∧ after.occupied (address.beside ".tmp") = false ∧
      ∀ other, other ≠ address → other ≠ address.beside ".tmp" → after.content? other = kept.content? other := by
  cases FileOperation.after?_rename found renamed
  refine ⟨content?_put .., ?_, fun other notPath notTemporary => ?_⟩
  · rw [occupied, content?_put_ne (address.beside_ne (by decide)), content?_remove_self]
    exact isFile
  · rw [content?_put_ne notPath, content?_remove_ne notTemporary]

/-- A path gets a new text by steps of which none fails. -/
theorem replaces_of_completed (isPath : tree.hasDirectory address.asDirectory = false)
    (completed : tree.completed? (replaceSteps address content (tree.occupied address)) = some after) :
    tree.Replaces address content after := by
  cases isPresent : tree.occupied address with
  | false =>
    rw [isPresent] at completed
    obtain ⟨written, prepares, completed⟩ := exists_prepares completed
    obtain ⟨swapped, renamed, completed⟩ := completed?_cons.1 completed
    cases completed
    obtain ⟨found, temporary, others⟩ := finish prepares.found prepares.isFile renamed
    have isMissing : tree.content? address = none :=
      Option.not_isSome_iff_eq_none.1 (ne_true_of_eq_false (Bool.or_eq_false_iff.1 isPresent).1)
    have isOther : address.beside ".bak" ≠ address.beside ".tmp" := (beside_tmp_ne_bak address).symm
    refine ⟨found, ?_, temporary, fun other isOther => ?_⟩
    · rw [others _ (address.beside_ne (by decide)) isOther, prepares.others _ isOther, isMissing, Option.none_or]
    · simp only [List.mem_cons, List.not_mem_nil, or_false, not_or] at isOther
      rw [others other isOther.1 isOther.2.2, prepares.others other isOther.2.2]
  | true =>
    rw [isPresent] at completed
    obtain ⟨written, prepares, completed⟩ := exists_prepares completed
    obtain ⟨kept, setAside, completed⟩ := completed?_cons.1 completed
    obtain ⟨swapped, renamed, completed⟩ := completed?_cons.1 completed
    cases completed
    obtain ⟨isWritten, isFile, isKept, isSome, keptOthers⟩ := prepares.setAside isPath setAside
    obtain ⟨found, temporary, others⟩ := finish isWritten isFile renamed
    refine ⟨found, ?_, temporary, fun other isOther => ?_⟩
    · rw [others _ (address.beside_ne (by decide)) (beside_tmp_ne_bak address).symm, isKept,
        Option.or_of_isSome isSome]
    · rw [others other (fun same => isOther (by simp [same])) (fun same => isOther (by simp [same])),
        keptOthers other isOther]

/-- A save in which no operation fails succeeds, and its path gets the text of the settings. -/
theorem SavesOnce.replaces {settings : CompilerSettings} (once : tree.SavesOnce address settings) :
    (save.{0} tree address settings).1 = .ok ⟨⟩ ∧
      tree.Replaces address settings.toText (save.{0} tree address settings).2 := by
  obtain ⟨isPath, completed⟩ := once
  obtain ⟨after, completed⟩ := Option.isSome_iff_exists.1 completed
  have isSaved : save.{0} tree address settings = (.ok ⟨⟩, after) := by
    rw [save, perform_of_completed completed]
    rfl
  rw [isSaved]
  refine ⟨rfl, ?_⟩
  obtain ⟨made, isMade, completed⟩ := completed?_cons.1 completed
  have sameFiles (other : FileAddress) : made.content? other = tree.content? other :=
    FileOperation.content?_after isMade trivial List.not_mem_nil
  have samePath := FileOperation.hasDirectory_after isMade trivial address.asDirectory_notMem
  have isPresent : made.occupied address = tree.occupied address := by
    rw [occupied, occupied, sameFiles, samePath]
  rw [← isPresent] at completed
  have replaces := replaces_of_completed (samePath.trans isPath) completed
  refine ⟨replaces.found, ?_, replaces.temporary, fun other isOther => ?_⟩
  · rw [← sameFiles, ← sameFiles]
    exact replaces.backup
  · rw [← sameFiles]
    exact replaces.others other isOther

/-! ### Saves one after the other -/

theorem saveAll_append (tree : FileTree) (address : FileAddress) (earlier : List CompilerSettings)
    (last : CompilerSettings) :
    tree.saveAll address (earlier ++ [last]) = (save.{0} (tree.saveAll address earlier) address last).2 := by
  rw [saveAll, List.foldl_append, List.foldl_cons, List.foldl_nil]
  rfl

theorem savesWholly_append {earlier : List CompilerSettings} {last : CompilerSettings} :
    tree.SavesWholly address (earlier ++ [last]) ↔ tree.SavesWholly address earlier ∧
      (tree.saveAll address earlier).SavesOnce address last := by
  induction earlier generalizing tree with
  | nil => exact and_comm
  | cons first rest ih =>
    rw [List.cons_append, SavesWholly, SavesWholly, ih, and_assoc]
    rfl

/-- Saves in which no operation fails leave every file alone but the three. -/
theorem content?_saveAll {saves : List CompilerSettings} (wholly : tree.SavesWholly address saves)
    {other : FileAddress} (isOther : other ∉ [address, address.beside ".bak", address.beside ".tmp"]) :
    (tree.saveAll address saves).content? other = tree.content? other := by
  induction saves generalizing tree with
  | nil => rfl
  | cons first rest ih =>
    obtain ⟨once, wholly⟩ := wholly
    exact (ih wholly).trans (once.replaces.2.others other isOther)

/-- Behind saves in which no operation fails the path holds the text of the last one. -/
theorem content?_saveAll_last {saves : List CompilerSettings} (wholly : tree.SavesWholly address saves)
    {last : CompilerSettings} (isLast : saves.getLast? = some last) :
    (tree.saveAll address saves).content? address = some last.toText := by
  obtain ⟨earlier, rfl⟩ := List.getLast?_eq_some_iff.1 isLast
  rw [saveAll_append]
  exact (savesWholly_append.1 wholly).2.replaces.2.found

/-- What is there behind saves in which no operation fails, whatever was there before. The path gives the settings
saved last. The backup holds what the path held just in front of the last save, which are the settings saved before the
last ones if there were any, and is untouched if the path held nothing. The temporary file is gone, and every other file
is as it was. -/
theorem saveAll_keeps {earlier : List CompilerSettings} {last : CompilerSettings}
    (wholly : tree.SavesWholly address (earlier ++ [last])) :
    let before := tree.saveAll address earlier
    let after := tree.saveAll address (earlier ++ [last])
    after.load address = .ok (some last) ∧
      after.content? (address.beside ".bak") =
        (before.content? address).or (before.content? (address.beside ".bak")) ∧
      (∀ previous, earlier.getLast? = some previous →
        after.load (address.beside ".bak") = .ok (some previous)) ∧
      after.occupied (address.beside ".tmp") = false ∧
      ∀ other, other ∉ [address, address.beside ".bak", address.beside ".tmp"] →
        after.content? other = tree.content? other := by
  intro before after
  obtain ⟨whollyEarlier, once⟩ := savesWholly_append.1 wholly
  obtain ⟨-, replaces⟩ := once.replaces
  rw [← saveAll_append] at replaces
  refine ⟨load_of_content replaces.found last.ofText?_toText, replaces.backup, fun previous isPrevious => ?_,
    replaces.temporary, fun other isOther => content?_saveAll wholly isOther⟩
  have isKept := replaces.backup
  rw [content?_saveAll_last whollyEarlier isPrevious, Option.some_or] at isKept
  exact load_of_content isKept previous.ofText?_toText

/-- A directory with leftovers of an earlier program: a temporary file, a backup and a file of its own, but no
settings. -/
def leftovers : FileTree :=
  ((empty.put ⟨[], "settings.json.tmp"⟩ "half").put ⟨[], "settings.json.bak"⟩ "old").put ⟨[], "notes.txt"⟩ "keep"

theorem saveAll_keeps_leftovers :
    let after := leftovers.saveAll ⟨[], "settings.json"⟩ [.default, FileProgress.deeperSettings]
    after.load ⟨[], "settings.json"⟩ = .ok (some FileProgress.deeperSettings) ∧
      after.content? ⟨[], "settings.json.bak"⟩ = some CompilerSettings.default.toText ∧
      after.load ⟨[], "settings.json.bak"⟩ = .ok (some .default) ∧
      after.occupied ⟨[], "settings.json.tmp"⟩ = false ∧
      after.content? ⟨[], "notes.txt"⟩ = some "keep" := by
  have wholly : leftovers.SavesWholly ⟨[], "settings.json"⟩ ([.default] ++ [FileProgress.deeperSettings]) :=
    ⟨⟨rfl, rfl⟩, ⟨rfl, rfl⟩, trivial⟩
  obtain ⟨isLast, isKept, previous, temporary, others⟩ := saveAll_keeps wholly
  exact ⟨isLast, isKept, previous _ rfl, temporary, others _ (by decide)⟩

end FileTree

end Snippet
