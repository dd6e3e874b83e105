import Snippet.Proofs.Grammar.Known
import Snippet.Proofs.Grammar.Level

/-!
Readers that find something: a logic of readers that are known to give a result, and what the elementary readers
find where the tokens are known. From it, reading back a written type name, in front of anything that does not go on
with it. Main statement: `Reader.typeName_found`.
-/

namespace Snippet.Reader

/-- Whether a reader of an input gives a result that has a property, with the input behind it. -/
def Finds {α : Type} (input : Input) (reader : Reader α) (good : α → Input → Prop) : Prop :=
  ∃ (value : α) (next : Input), reader input = .ok (value, next) ∧ good value next

namespace Finds

variable {α β : Type} {input : Input} {good good' : α → Input → Prop} {reader : Reader α}

theorem pure {value : α} (holds : good value input) : Finds input (Pure.pure value) good :=
  ⟨value, input, rfl, holds⟩

theorem bind {first : Reader β} {rest : β → Reader α} {middle : β → Input → Prop} (head : Finds input first middle)
    (tail : ∀ (value : β) (next : Input), middle value next → Finds next (rest value) good) :
    Finds input (first >>= rest) good := by
  obtain ⟨value, next, isFirst, holds⟩ := head
  obtain ⟨result, last, isRest, isGood⟩ := tail value next holds
  refine ⟨result, last, ?_, isGood⟩
  show (first input >>= fun found => rest found.1 found.2) = _
  rw [isFirst]
  exact isRest

theorem weaken (finds : Finds input reader good)
    (weaker : ∀ (value : α) (next : Input), good value next → good' value next) : Finds input reader good' := by
  obtain ⟨value, next, isRead, holds⟩ := finds
  exact ⟨value, next, isRead, weaker value next holds⟩

theorem map {first : Reader β} {change : β → α}
    (head : Finds input first fun value next => good (change value) next) :
    Finds input (change <$> first) good := by
  rw [map_eq_pure_bind]
  exact head.bind fun _ _ holds => .pure holds

theorem pureBind {value : β} {rest : β → Reader α} (go : Finds input (rest value) good) :
    Finds input (Pure.pure value >>= rest) good := go

theorem peek {rest : Token → Reader α} {token : Token} (isToken : input.token = token)
    (go : Finds input (rest token) good) : Finds input (Reader.peek >>= rest) good := by
  subst isToken
  exact go

theorem peekAt {distance : Nat} {rest : Token → Reader α} (go : Finds input (rest (input.tokenAt distance)) good) :
    Finds input (Reader.peekAt distance >>= rest) good := go

theorem here {rest : Span → Reader α} (go : Finds input (rest input.span) good) :
    Finds input (Reader.here >>= rest) good := go

theorem previous {rest : Span → Reader α} (go : Finds input (rest input.previous) good) :
    Finds input (Reader.previous >>= rest) good := go

theorem get {rest : Input → Reader α} (go : Finds input (rest input) good) : Finds input (get >>= rest) good := go

theorem sees {sign : Symbol} {rest : Bool → Reader α} {isSeen : Bool} (seen : input.token.isSymbol sign = isSeen)
    (go : Finds input (rest isSeen) good) : Finds input (Reader.sees sign >>= rest) good := by
  subst seen
  exact go

theorem advance {rest : Span → Reader α} (go : Finds input.advance (rest input.span) good) :
    Finds input (Reader.advance >>= rest) good := go

theorem discardAdvance {rest : PUnit → Reader α} (go : Finds input.advance (rest ⟨⟩) good) :
    Finds input (discard Reader.advance >>= rest) good := go

/-- A reader that stops under a condition goes on without it. -/
theorem guard {stops : Prop} [Decidable stops] {stop rest : Reader α} (never : ¬stops)
    (go : Finds input rest good) : Finds input (if stops then stop else rest) good := by
  rwa [if_neg never]

section

variable {tokens : List Token} {middle : List PlacedToken}

theorem expect_eq_ok {sign : Symbol} (shows : input.Shows (.symbol sign :: tokens) middle) :
    Reader.expect sign input = .ok (input.span, input.advance) := by
  show (if input.token.isSymbol sign = true then _ else _ : Reader Span) input = _
  rw [shows.head, if_pos (show (Token.symbol sign).isSymbol sign = true from beq_self_eq_true sign)]
  rfl

theorem discardExpect {sign : Symbol} {rest : PUnit → Reader α}
    (shows : input.Shows (.symbol sign :: tokens) middle)
    (go : ∀ next : Input, next.Shows tokens middle → Finds next (rest ⟨⟩) good) :
    Finds input (discard (Reader.expect sign) >>= rest) good := by
  have found : Finds input (discard (Reader.expect sign)) fun _ next => next.Shows tokens middle := by
    refine ⟨⟨⟩, input.advance, ?_, shows.advance⟩
    show (Reader.expect sign input >>= fun found => (.ok (⟨⟩, found.2) : Except Stop (PUnit × Input))) = _
    rw [expect_eq_ok shows]
    rfl
  exact found.bind fun _ => go

theorem expectName {name : String} {rest : String × Span → Reader α}
    (shows : input.Shows (.name name :: tokens) middle)
    (go : ∀ (span : Span) (next : Input), next.Shows tokens middle → Finds next (rest (name, span)) good) :
    Finds input (Reader.expectName >>= rest) good := by
  rw [Reader.expectName, bind_assoc]
  exact .peek shows.head (go input.span input.advance shows.advance)

/-- A symbol is taken where it stands. -/
theorem eat {sign : Symbol} {rest : Bool → Reader α} (shows : input.Shows (.symbol sign :: tokens) middle)
    (go : ∀ next : Input, next.Shows tokens middle → Finds next (rest true) good) :
    Finds input (Reader.eat sign >>= rest) good := by
  rw [Reader.eat, bind_assoc]
  refine .peek shows.head ?_
  rw [if_pos (show (Token.symbol sign).isSymbol sign = true from beq_self_eq_true sign)]
  exact go input.advance shows.advance

/-- A symbol is not taken where another token stands. -/
theorem eatNothing {sign : Symbol} {rest : Bool → Reader α} (differs : input.token.isSymbol sign = false)
    (go : Finds input (rest false) good) : Finds input (Reader.eat sign >>= rest) good := by
  rw [Reader.eat, bind_assoc]
  refine .peek rfl ?_
  rw [differs]
  exact go

end

end Finds

end Snippet.Reader

namespace Snippet

/-- Whether a type name may end in front of the input. -/
structure Input.EndsType (input : Input) : Prop where
  notLess : input.token.isSymbol .less = false
  notDot : input.token.isSymbol .dot = false
  notQuestion : input.token.isSymbol .question = false

/-- A type name ends in front of a symbol that does not go on with it. -/
theorem Input.endsType_of_symbol {input : Input} {sign : Symbol} (isSign : input.token = .symbol sign)
    (ends : [Symbol.less, .dot, .question].contains sign = false) : input.EndsType := by
  simp only [List.contains_cons, List.contains_nil, Bool.or_false, Bool.or_eq_false_iff] at ends
  obtain ⟨notLess, notDot, notQuestion⟩ := ends
  refine ⟨?_, ?_, ?_⟩ <;> rw [isSign, Token.isSymbol] <;> assumption

/-- Parts of type names without places. -/
def TypeSegment.unplaced (segment : TypeSegment) : TypeSegment := segment.mapSpans fun _ => ⟨0, 0⟩

theorem TypeSegment.unplaced_mk (name : String) (arguments : List TypeName) :
    (TypeSegment.mk name arguments).unplaced = .mk name (arguments.map TypeName.unplaced) := by
  rw [unplaced, mapSpans, TypeName.mapSpansOfAll_eq_map]
  rfl

theorem TypeName.unplaced_named (span : Span) (segments : List TypeSegment) :
    (TypeName.named span segments).unplaced = .named ⟨0, 0⟩ (segments.map TypeSegment.unplaced) := by
  rw [unplaced, mapSpans, TypeSegment.mapSpansOfAll_eq_map]
  rfl

/-- The tokens of the first part of a dotted type name, and those of the other parts behind it. -/
theorem TypeSegment.tokens_cons (name : String) (arguments : List TypeName) (rest : List TypeSegment) :
    Token.separated .dot (TypeSegment.tokensOfAll (.mk name arguments :: rest)) =
      .name name ::
        (TypeName.argumentTokens arguments ++ (rest.map TypeSegment.tokens).flatMap (.symbol .dot :: ·)) := by
  simp [Token.separated, TypeSegment.tokens]

theorem TypeName.exists_startsType (type : TypeName) (written : type.IsWritten) :
    ∃ first rest, type.tokens = first :: rest ∧ Reader.startsType first = true := by
  match type with
  | .basic _ type => exact ⟨_, [], rfl, by cases type <;> rfl⟩
  | .named _ (.mk name arguments :: rest) =>
    rw [TypeName.tokens, TypeSegment.tokens_cons]
    exact ⟨_, _, rfl, rfl⟩
  | .named _ [] => exact absurd rfl written.1

namespace Reader

theorem refuseNullable_found {α : Type} {input : Input} {rest : PUnit → Reader α} {good : α → Input → Prop}
    (notQuestion : input.token.isSymbol .question = false) (go : Finds input (rest ⟨⟩) good) :
    Finds input (refuseNullable >>= rest) good := by
  have nothing : Finds input refuseNullable fun _ next => next = input := by
    rw [refuseNullable]
    exact .sees notQuestion (.pure rfl)
  exact nothing.bind fun _ _ same => same ▸ go

mutual

theorem typeName_found (fuel : Nat) (type : TypeName) (written : type.IsWritten) {input : Input}
    {middle : List PlacedToken} (enough : 20 * type.tokens.length ≤ fuel) (shows : input.Shows type.tokens middle)
    (ends : ∀ next : Input, next.rest = middle → next.EndsType) :
    Finds input (typeName fuel) fun found next => found.unplaced = type.unplaced ∧ next.rest = middle := by
  match fuel, type with
  | _, .named _ [] => exact absurd rfl written.1
  | 0, .basic _ _ => exact absurd enough (by simp [TypeName.tokens])
  | 0, .named _ (.mk _ _ :: _) =>
    rw [TypeName.tokens, TypeSegment.tokens_cons] at enough
    exact absurd enough (by simp)
  | fuel + 1, .basic _ basic =>
    rw [typeName]
    have isBasic : basicType? (.keyword basic.word) = some basic := basic.ofWord?_word
    refine .here (.peek shows.head ?_)
    rw [isBasic]
    have behind := shows.advance.isRest
    exact .discardAdvance (.pureBind (refuseNullable_found (ends _ behind).notQuestion (.pure ⟨rfl, behind⟩)))
  | fuel + 1, .named span (.mk name arguments :: rest) =>
    rw [TypeName.tokens] at enough shows
    rw [typeName]
    have noBasic : basicType? input.token = none := by
      rw [TypeSegment.tokens_cons] at shows
      rw [shows.head]
      rfl
    refine .here (.peek rfl ?_)
    rw [noBasic]
    refine (typeSegments_found fuel _ _ rest written.2 (by omega) shows ends).bind fun found next both => ?_
    obtain ⟨same, behind⟩ := both
    refine .previous (.pureBind (refuseNullable_found (ends _ behind).notQuestion (.pure ⟨?_, behind⟩)))
    rw [TypeName.unplaced_named, TypeName.unplaced_named, same]

theorem typeSegments_found (fuel : Nat) (name : String) (arguments : List TypeName) (rest : List TypeSegment)
    (written : TypeSegment.AllWritten (.mk name arguments :: rest)) {input : Input} {middle : List PlacedToken}
    (enough : 20 * (Token.separated .dot (TypeSegment.tokensOfAll (.mk name arguments :: rest))).length ≤ fuel + 10)
    (shows : input.Shows (Token.separated .dot (TypeSegment.tokensOfAll (.mk name arguments :: rest))) middle)
    (ends : ∀ next : Input, next.rest = middle → next.EndsType) :
    Finds input (typeSegments fuel) fun found next =>
      found.map TypeSegment.unplaced = (TypeSegment.mk name arguments :: rest).map TypeSegment.unplaced ∧
        next.rest = middle := by
  rw [TypeSegment.tokens_cons] at enough shows
  rw [List.length_cons, List.length_append] at enough
  match fuel with
  | 0 => omega
  | fuel + 1 =>
    rw [typeSegments]
    refine .expectName shows fun _ behindName shows => ?_
    obtain ⟨between, showsArguments, behindArguments⟩ := shows.split
    have finish (found : List TypeName) (same : found.map TypeName.unplaced = arguments.map TypeName.unplaced)
        (next : Input) (isBehind : next.rest = between) :
        Finds next (do
            if (← sees .dot) && (← peekAt 1).isName then
              discard Reader.advance
              return TypeSegment.mk name found :: (← typeSegments fuel)
            else return [TypeSegment.mk name found]) fun found next =>
          found.map TypeSegment.unplaced = (TypeSegment.mk name arguments :: rest).map TypeSegment.unplaced ∧
            next.rest = middle := by
      have sameFirst : (TypeSegment.mk name found).unplaced = (TypeSegment.mk name arguments).unplaced := by
        rw [TypeSegment.unplaced_mk, TypeSegment.unplaced_mk, same]
      have shows := behindArguments next isBehind
      match rest with
      | [] =>
        refine .sees (ends next shows.isRest).notDot (.peekAt (.pure ⟨?_, shows.isRest⟩))
        rw [List.map_singleton, List.map_singleton, sameFirst]
      | .mk secondName secondArguments :: others =>
        have areTokens : ((TypeSegment.mk secondName secondArguments :: others).map TypeSegment.tokens).flatMap
            (Token.symbol .dot :: ·) = .symbol .dot ::
              Token.separated .dot (TypeSegment.tokensOfAll (.mk secondName secondArguments :: others)) := by
          simp [Token.separated]
        rw [areTokens] at shows enough
        have isDot : next.token.isSymbol .dot = true := by
          rw [shows.head]
          rfl
        have isName : (next.tokenAt 1).isName = true := by
          rw [TypeSegment.tokens_cons] at shows
          rw [shows.second]
          rfl
        refine .sees isDot (.peekAt ?_)
        rw [isName]
        rw [List.length_cons] at enough
        refine .discardAdvance ?_
        refine (typeSegments_found fuel _ _ others written.2 (by omega) shows.advance ends).bind ?_
        intro more last both
        refine .pure ⟨?_, both.2⟩
        rw [List.map_cons, List.map_cons, sameFirst, both.1]
    match arguments with
    | [] =>
      have isBehind : behindName.rest = between := showsArguments.isRest
      have notLess : behindName.token.isSymbol .less = false := by
        have shows := behindArguments behindName isBehind
        match rest with
        | [] => exact (ends _ shows.isRest).notLess
        | _ :: _ =>
          rw [shows.head]
          rfl
      exact .sees notLess (.pureBind (finish [] rfl behindName isBehind))
    | first :: others =>
      have isLess : behindName.token.isSymbol .less = true := by
        rw [TypeName.argumentTokens, List.cons_append] at showsArguments
        rw [showsArguments.head]
        rfl
      refine .sees isLess ?_
      refine (typeArguments_found fuel first others written.1.1 written.1.2 (by omega) showsArguments).bind ?_
      exact fun found next both => finish found both.1 next both.2

theorem typeArguments_found (fuel : Nat) (first : TypeName) (others : List TypeName) (isWritten : first.IsWritten)
    (written : TypeName.AllWritten others) {input : Input} {middle : List PlacedToken}
    (enough : 20 * (TypeName.argumentTokens (first :: others)).length ≤ fuel + 20)
    (shows : input.Shows (TypeName.argumentTokens (first :: others)) middle) :
    Finds input (typeArguments fuel) fun found next =>
      found.map TypeName.unplaced = (first :: others).map TypeName.unplaced ∧ next.rest = middle := by
  rw [TypeName.argumentTokens, Token.separated, TypeName.tokensOfAll_eq_map, List.flatMap_map] at enough shows
  simp only [List.length_cons, List.length_append, List.length_nil, List.cons_append, List.append_assoc] at enough shows
  match fuel with
  | 0 => omega
  | fuel + 1 =>
    rw [typeArguments]
    refine .discardExpect shows fun opened shows => ?_
    obtain ⟨behindFirst, showsFirst, shows⟩ := shows.split
    have endsFirst (next : Input) (isBehind : next.rest = behindFirst) : next.EndsType := by
      cases others with
      | nil => exact Input.endsType_of_symbol (shows next isBehind).head rfl
      | cons second more => exact Input.endsType_of_symbol (shows next isBehind).head rfl
    refine (typeName_found fuel first isWritten (by omega) showsFirst endsFirst).bind fun one next both => ?_
    obtain ⟨behindTail, showsTail, shows⟩ := (shows next both.2).split
    have endsTail (next : Input) (isBehind : next.rest = behindTail) :
        next.EndsType ∧ next.token.isSymbol .comma = false := by
      have head := (shows next isBehind).head
      exact ⟨Input.endsType_of_symbol head rfl, by rw [head]; rfl⟩
    refine (typeArgumentsTail_found fuel others written (by omega) showsTail endsTail).bind fun more last both' => ?_
    refine .discardExpect (shows last both'.2) fun closed shows => .pure ⟨?_, shows.isRest⟩
    rw [List.map_cons, List.map_cons, both.1, both'.1]

theorem typeArgumentsTail_found (fuel : Nat) (types : List TypeName) (written : TypeName.AllWritten types)
    {input : Input} {middle : List PlacedToken}
    (enough : 20 * (types.flatMap fun type => .symbol .comma :: type.tokens).length < fuel)
    (shows : input.Shows (types.flatMap fun type => .symbol .comma :: type.tokens) middle)
    (ends : ∀ next : Input, next.rest = middle → next.EndsType ∧ next.token.isSymbol .comma = false) :
    Finds input (typeArgumentsTail fuel) fun found next =>
      found.map TypeName.unplaced = types.map TypeName.unplaced ∧ next.rest = middle := by
  match fuel, types with
  | 0, _ => omega
  | fuel + 1, [] =>
    rw [typeArgumentsTail]
    have behind : input.rest = middle := shows.isRest
    exact .eatNothing (ends input behind).2 (.pure ⟨rfl, behind⟩)
  | fuel + 1, first :: rest =>
    simp only [List.flatMap_cons, List.length_cons, List.length_append, List.cons_append] at enough shows
    rw [typeArgumentsTail]
    refine .eat shows fun next shows => ?_
    obtain ⟨behindFirst, showsFirst, shows⟩ := shows.split
    have endsFirst (next : Input) (isBehind : next.rest = behindFirst) : next.EndsType := by
      cases rest with
      | nil => exact (ends next (shows next isBehind).isRest).1
      | cons second more => exact Input.endsType_of_symbol (shows next isBehind).head rfl
    refine (typeName_found fuel first written.1 (by omega) showsFirst endsFirst).bind fun one next both => ?_
    refine (typeArgumentsTail_found fuel rest written.2 (by omega) (shows next both.2) ends).bind ?_
    intro more last both'
    refine .pure ⟨?_, both'.2⟩
    rw [List.map_cons, List.map_cons, both.1, both'.1]

end

end Reader

end Snippet
