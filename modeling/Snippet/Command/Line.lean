import Snippet.Text.Split

/-!
The command line: global options, a task, the options of the task and its words.
-/

namespace Snippet

/-- The options that describe a method around a body. -/
structure MethodOptions where
  body : String
  parameters : List String
  returnType : String
  usings : String
  space : Option String
  className : Option String
  methodName : Option String

/-- What a command asks for. -/
inductive Task where
  /-- Print the source text around a body. -/
  | generate (method : MethodOptions)
  /-- Compile a body and call it. -/
  | run (method : MethodOptions) (words : List String)
  /-- Compile a file and call one of its methods. -/
  | assembly (file space className methodName : String) (words : List String)

/-- A command line. -/
structure CommandLine where
  settings : Option String
  asJson : Bool
  task : Task

/-- The options, flags and words of a part of a command line, in order. -/
structure ScannedWords where
  options : List (String × String)
  flags : List String
  words : List String

namespace ScannedWords

/-- Nothing. -/
def empty : ScannedWords := ⟨[], [], []⟩

/-- With one more option in front. -/
def addOption (scanned : ScannedWords) (name value : String) : ScannedWords :=
  { scanned with options := (name, value) :: scanned.options }

/-- With one more flag in front. -/
def addFlag (scanned : ScannedWords) (name : String) : ScannedWords :=
  { scanned with flags := name :: scanned.flags }

/-- With one more word in front. -/
def addWord (scanned : ScannedWords) (word : String) : ScannedWords :=
  { scanned with words := word :: scanned.words }

end ScannedWords

/-- The options with a value and the options without one that a part of a command line may have. -/
structure OptionTable where
  valued : List String
  flags : List String

/-- The name of a long option, and the value behind an equals sign in the same word. -/
def longOption? (word : String) : Option (String × Option String) :=
  match word.toList with
  | '-' :: '-' :: name =>
    match name.dropWhile (· != '=') with
    | [] => some (String.ofList name, none)
    | _ :: value => some (String.ofList (name.takeWhile (· != '=')), some (String.ofList value))
  | _ => none

/-- Whether a word begins like an option; a single dash does not. -/
def looksLikeOption (word : String) : Bool :=
  match word.toList with
  | '-' :: _ :: _ => true
  | _ => false

namespace OptionTable

/-- The options, flags and words of a part of a command line. Behind two dashes everything is a
word. If `onlyOptions` is set, the first word ends the options, and it and all behind it are
words. -/
def scan (table : OptionTable) (onlyOptions : Bool) : List String → Option ScannedWords
  | [] => some .empty
  | word :: rest =>
    if word = "--" then
      if onlyOptions then none else some { ScannedWords.empty with words := rest }
    else
      match longOption? word, rest with
      | some (name, none), rest =>
        if table.flags.contains name then (table.scan onlyOptions rest).map (·.addFlag name)
        else if table.valued.contains name then
          match rest with
          | value :: rest =>
            if looksLikeOption value then none
            else (table.scan onlyOptions rest).map (·.addOption name value)
          | [] => none
        else none
      | some (name, some value), rest =>
        if table.valued.contains name then
          (table.scan onlyOptions rest).map (·.addOption name value)
        else none
      | none, rest =>
        if looksLikeOption word then none
        else if onlyOptions then some { ScannedWords.empty with words := word :: rest }
        else (table.scan onlyOptions rest).map (·.addWord word)

/-- The options that every part may have. -/
def shared : OptionTable := ⟨["settings"], ["json"]⟩

/-- The options of the tasks that compile a body. -/
def method : OptionTable :=
  ⟨["body", "param", "returns", "usings", "namespace", "class", "method"] ++ shared.valued,
    shared.flags⟩

/-- The options of the task that compiles a file. -/
def assembly : OptionTable :=
  ⟨["file", "namespace", "class", "method"] ++ shared.valued, shared.flags⟩

end OptionTable

namespace ScannedWords

/-- The values of an option. -/
def valuesOf (scanned : ScannedWords) (name : String) : List String :=
  (scanned.options.filter (·.1 == name)).map (·.2)

/-- The value of an option that may be given once. -/
def atMostOne? (scanned : ScannedWords) (name : String) : Option (Option String) :=
  match scanned.valuesOf name with
  | [] => some none
  | [value] => some (some value)
  | _ => none

/-- The value of an option that must be given once. -/
def exactlyOne? (scanned : ScannedWords) (name : String) : Option String :=
  (scanned.atMostOne? name).join

/-- Whether a flag is given, which may be once. -/
def flag? (scanned : ScannedWords) (name : String) : Option Bool :=
  match scanned.flags.filter (· == name) with
  | [] => some false
  | [_] => some true
  | _ => none

/-- The options of a method. -/
def methodOptions? (scanned : ScannedWords) : Option MethodOptions := do
  let body ← scanned.exactlyOne? "body"
  let returnType ← scanned.atMostOne? "returns"
  let usings ← scanned.atMostOne? "usings"
  return ⟨body, scanned.valuesOf "param", returnType.getD "void", usings.getD "",
    ← scanned.atMostOne? "namespace", ← scanned.atMostOne? "class",
    ← scanned.atMostOne? "method"⟩

/-- The task of a name with its options. -/
def task? (scanned : ScannedWords) (name : String) : Option Task := do
  match name with
  | "generate" =>
    let method ← scanned.methodOptions?
    if scanned.words.isEmpty then return .generate method else none
  | "run" => return .run (← scanned.methodOptions?) scanned.words
  | "assembly" =>
    let space ← scanned.atMostOne? "namespace"
    return .assembly (← scanned.exactlyOne? "file") (space.getD "")
      (← scanned.exactlyOne? "class") (← scanned.exactlyOne? "method") scanned.words
  | _ => none

end ScannedWords

/-- The options that a task may have. -/
def OptionTable.ofTask? (name : String) : Option OptionTable :=
  match name with
  | "generate" | "run" => some .method
  | "assembly" => some .assembly
  | _ => none

/-- The command line that some arguments form. A global option may stand in front of the task or
among its options. -/
def CommandLine.parse? (arguments : List String) : Option CommandLine := do
  let front ← OptionTable.shared.scan true arguments
  let name :: rest := front.words | none
  let table ← OptionTable.ofTask? name
  let scanned ← table.scan false rest
  let task ← scanned.task? name
  let frontSettings ← front.atMostOne? "settings"
  let settings ← scanned.atMostOne? "settings"
  return ⟨settings <|> frontSettings, (← front.flag? "json") || (← scanned.flag? "json"), task⟩

end Snippet
