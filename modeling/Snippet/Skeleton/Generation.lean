import Snippet.Callable.Shape
import Snippet.Decimal.Reading
import Snippet.Text.Split

/-!
Skeletons: texts with slots in braces. Rendering goes over a skeleton once, and what it inserts is
not looked at again. From a skeleton the source text around a method body is generated.
-/

namespace Snippet

/-- A slot of a skeleton. -/
inductive SkeletonSlot where
  | usings
  | space
  | className
  | returnType
  | methodName
  | parameters
  | body
deriving DecidableEq, Repr

namespace SkeletonSlot

/-- The slots in the order of their numbers. -/
def all : List SkeletonSlot :=
  [usings, space, className, returnType, methodName, parameters, body]

/-- The name by which a skeleton may mark a slot. -/
def name : SkeletonSlot → String
  | usings => "usings"
  | space => "namespaceName"
  | className => "className"
  | returnType => "returnType"
  | methodName => "methodName"
  | parameters => "parameters"
  | body => "body"

/-- The number that a text between braces denotes; a plus sign may stand in front. -/
def number? (marker : List Char) : Option Nat :=
  let digits := match marker with
    | '+' :: digits => digits
    | digits => digits
  if digits.isEmpty ∨ ¬ digits.all Char.isDigit then none else some (Decimal.ofDigits digits)

/-- The slot that a text between braces marks, by number or by name. -/
def ofMarker? (marker : List Char) : Option SkeletonSlot :=
  match number? marker with
  | some number => all[number]?
  | none => all.find? (·.name == String.ofList marker)

end SkeletonSlot

/-- The text between a brace and the next closing one, and the characters behind that. -/
def splitMarker? (characters : List Char) : Option (List Char × List Char) :=
  match characters.dropWhile (· != '\x7d') with
  | [] => none
  | _ :: behind => some (characters.takeWhile (· != '\x7d'), behind)

theorem length_splitMarker? {characters marker behind : List Char}
    (split : splitMarker? characters = some (marker, behind)) :
    behind.length < characters.length := by
  unfold splitMarker? at split
  split at split
  · cases split
  · next rest dropped =>
    obtain ⟨rfl, rfl⟩ := Prod.mk.inj (Option.some.inj split)
    have shorter := (List.dropWhile_sublist (l := characters) (· != '\x7d')).length_le
    rw [dropped] at shorter
    exact shorter

/-- The slot that is marked behind an opening brace, and the characters behind the marker. -/
def slotAt? (characters : List Char) : Option (SkeletonSlot × List Char) :=
  match splitMarker? characters with
  | some (marker, behind) => (SkeletonSlot.ofMarker? marker).map (·, behind)
  | none => none

theorem length_slotAt? {characters behind : List Char} {slot : SkeletonSlot}
    (found : slotAt? characters = some (slot, behind)) : behind.length < characters.length := by
  unfold slotAt? at found
  split at found
  · next marker rest split =>
    obtain ⟨_, _, pair⟩ := Option.map_eq_some_iff.1 found
    obtain ⟨_, rfl⟩ := Prod.mk.inj pair
    exact length_splitMarker? split
  · cases found

/-- The characters of a skeleton with the slots filled. Doubled braces become single ones, and a
brace that marks no slot stays. -/
def renderCharacters (fill : SkeletonSlot → List Char) : List Char → List Char
  | [] => []
  | '\x7b' :: '\x7b' :: rest => '\x7b' :: renderCharacters fill rest
  | '\x7d' :: '\x7d' :: rest => '\x7d' :: renderCharacters fill rest
  | '\x7b' :: rest =>
    match _found : slotAt? rest with
    | some (slot, behind) => fill slot ++ renderCharacters fill behind
    | none => '\x7b' :: renderCharacters fill rest
  | character :: rest => character :: renderCharacters fill rest
termination_by characters => characters.length
decreasing_by
  all_goals simp only [List.length_cons]
  · omega
  · omega
  · have := length_slotAt? _found
    omega
  · omega
  · omega

/-- A skeleton with its slots filled. -/
def renderSkeleton (skeleton : String) (fill : SkeletonSlot → String) : String :=
  String.ofList (renderCharacters (fun slot => (fill slot).toList) skeleton.toList)

/-! ### Generation -/

/-- What fills the slots of a skeleton. -/
structure GenerationRequest where
  body : Option String
  parameters : String
  returnType : String
  usings : String
  methodName : String
  className : String
  space : String
  skeleton : String

/-- The skeleton that is used unless another one is given. -/
def defaultSkeleton : String :=
  "\nusing System;\n\x7b0\x7d\n\nnamespace \x7b1\x7d\n\x7b\x7b\n    public static class \x7b2\x7d\n    \x7b\x7b\n        public static \x7b3\x7d \x7b4\x7d(\x7b5\x7d)\n        \x7b\x7b\n            \x7b6\x7d\n        \x7d\x7d\n    \x7d\x7d\n\x7d\x7d"

namespace GenerationRequest

/-- A request without a body, in which everything else has its default. -/
def default : GenerationRequest where
  body := none
  parameters := ""
  returnType := noResult
  usings := ""
  methodName := "Execute"
  className := "Executer"
  space := "DynamicCompilation"
  skeleton := defaultSkeleton

/-- What fills a slot. -/
def fill (request : GenerationRequest) (body : String) : SkeletonSlot → String
  | .usings => request.usings
  | .space => request.space
  | .className => request.className
  | .returnType => request.returnType
  | .methodName => request.methodName
  | .parameters => request.parameters
  | .body => body

end GenerationRequest

/-- A body that does not end with a semicolon is an expression, whose value a method with a result
returns. -/
def addReturn (body returnType : String) : String :=
  if returnType != noResult && body.toList.getLast? != some ';' then "return " ++ body ++ ";"
  else body

/-- The source text for a request, which needs a body. -/
def GenerationRequest.generate (request : GenerationRequest) : Except Failure String :=
  match request.body with
  | none => .error (.input .missingBody)
  | some body =>
    .ok (renderSkeleton request.skeleton (request.fill (addReturn body request.returnType)))

/-- Whether a text has a line that equals another one up to white space at the ends. -/
def hasLine (text line : String) : Bool :=
  (Text.lines text).any fun existing => Text.trim existing == Text.trim line

/-- The caller's using directives, and behind them those of the declaration that are not yet a line
of the skeleton or of the caller's. -/
def joinUsings (skeleton caller derived : String) : String :=
  let missing := (Text.lines derived).filter fun line =>
    Text.trim line != "" && !hasLine skeleton line && !hasLine caller line
  if caller.isEmpty then String.intercalate "\n" missing
  else if missing.isEmpty then caller
  else caller ++ "\n" ++ String.intercalate "\n" missing

end Snippet
