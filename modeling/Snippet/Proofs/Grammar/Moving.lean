import Snippet.Grammar.Expression
import Snippet.Proofs.Grammar.Spans

/-!
Readers and the places of tokens: a logic of readers that read the same from tokens with changed places. Of a problem
that stops a reader only the cause is compared, since it may stand behind the last token taken. The places of the same
tokens in two texts are changed to the same places by changes that keep every order.
-/

namespace Snippet

/-- Whether a change of places keeps what the least range around two ranges is, and which range starts first. -/
structure Span.Respects (change : Span → Span) : Prop where
  join (first second : Span) : change (first.join second) = (change first).join (change second)
  order (first second : Span) : (change first).start ≤ (change second).start ↔ first.start ≤ second.start

/-- A token with a changed place. -/
def PlacedToken.mapSpans (change : Span → Span) (placed : PlacedToken) : PlacedToken :=
  ⟨placed.token, change placed.span⟩

namespace Input

/-- An input with changed places. -/
def mapSpans (change : Span → Span) (input : Input) : Input :=
  ⟨input.rest.map (PlacedToken.mapSpans change), change input.previous⟩

variable (change : Span → Span) (input : Input)

@[simp]
theorem token_mapSpans : (input.mapSpans change).token = input.token := by
  obtain ⟨rest, previous⟩ := input
  cases rest <;> rfl

@[simp]
theorem tokenAt_mapSpans (distance : Nat) : (input.mapSpans change).tokenAt distance = input.tokenAt distance := by
  obtain ⟨rest, previous⟩ := input
  rw [tokenAt, tokenAt, mapSpans, List.getElem?_map]
  dsimp only
  cases rest[distance]? <;> rfl

theorem span_mapSpans {input : Input} (isSome : input.rest ≠ []) :
    (input.mapSpans change).span = change input.span := by
  obtain ⟨rest, previous⟩ := input
  cases rest with
  | nil => exact absurd rfl isSome
  | cons placed others => rfl

theorem advance_mapSpans : (input.mapSpans change).advance = input.advance.mapSpans change := by
  obtain ⟨rest, previous⟩ := input
  match rest with
  | [] | [_] | _ :: _ :: _ => rfl

theorem advance_rest_ne_nil {input : Input} (isSome : input.rest ≠ []) : input.advance.rest ≠ [] := by
  obtain ⟨rest, previous⟩ := input
  match rest with
  | [] => exact absurd rfl isSome
  | [_] => exact isSome
  | _ :: _ :: _ => exact List.cons_ne_nil _ _

end Input

namespace Reader

/-- Whether two readers agree on inputs that differ in places only: the results correspond, and so do the inputs left.
The tokens are never used up. -/
def Moves {α β : Type} (change : Span → Span) (move : α → β) (reader : Reader α) (moved : Reader β) : Prop :=
  ∀ input : Input, input.rest ≠ [] →
    match reader input with
    | .ok (value, next) =>
      moved (input.mapSpans change) = .ok (move value, next.mapSpans change) ∧ next.rest ≠ []
    | .error .exhausted => moved (input.mapSpans change) = .error .exhausted
    | .error (.finding found) =>
      ∃ span, moved (input.mapSpans change) = .error (.finding ⟨found.problem, span⟩)

namespace Moves

variable {α β γ δ : Type} {change : Span → Span} {move : α → β}

theorem pure {value : α} {result : β} (same : result = move value) :
    Moves change move (Pure.pure value) (Pure.pure result) := by
  subst same
  exact fun input isSome => ⟨rfl, isSome⟩

theorem exhausted : Moves change move (throw .exhausted) (throw .exhausted) := fun _ _ => rfl

theorem fail {problem : Problem} {first second : Span} :
    Moves change move (Reader.fail problem first) (Reader.fail problem second) := fun _ _ => ⟨second, rfl⟩

theorem failHere {problem : Problem} : Moves change move (Reader.failHere problem) (Reader.failHere problem) :=
  fun _ _ => ⟨_, rfl⟩

theorem unsupportedHere {construct : String} :
    Moves change move (Reader.unsupportedHere construct) (Reader.unsupportedHere construct) := failHere

theorem bind {first : Reader γ} {first' : Reader δ} {through : γ → δ} {rest : γ → Reader α} {rest' : δ → Reader β}
    (head : Moves change through first first')
    (tail : ∀ value : γ, Moves change move (rest value) (rest' (through value))) :
    Moves change move (first >>= rest) (first' >>= rest') := by
  intro input isSome
  have unfolded : (first >>= rest) input = (first input).bind fun found => rest found.1 found.2 := rfl
  have unfolded' (input : Input) : (first' >>= rest') input = (first' input).bind fun found => rest' found.1 found.2 :=
    rfl
  have isFirst := head input isSome
  rw [unfolded, unfolded']
  cases read : first input with
  | ok found =>
      obtain ⟨value, next⟩ := found
      rw [read] at isFirst
      obtain ⟨isFirst, isMore⟩ := isFirst
      rw [isFirst]
      exact tail value next isMore
  | error stop =>
      rw [read] at isFirst
      cases stop with
      | exhausted =>
          rw [isFirst]
          rfl
      | finding found =>
          obtain ⟨span, isFirst⟩ := isFirst
          rw [isFirst]
          exact ⟨span, rfl⟩

theorem pureBind {value : γ} {result : δ} {rest : γ → Reader α} {rest' : δ → Reader β}
    (go : Moves change move (rest value) (rest' result)) :
    Moves change move (Pure.pure value >>= rest) (Pure.pure result >>= rest') := go

theorem map {first : Reader γ} {first' : Reader δ} {through : γ → δ} {give : γ → α} {give' : δ → β}
    (head : Moves change through first first') (same : ∀ value : γ, give' (through value) = move (give value)) :
    Moves change move (give <$> first) (give' <$> first') := by
  rw [map_eq_pure_bind, map_eq_pure_bind]
  exact head.bind fun value => .pure (same value)

theorem peek {rest : Token → Reader α} {rest' : Token → Reader β}
    (go : ∀ token : Token, Moves change move (rest token) (rest' token)) :
    Moves change move (Reader.peek >>= rest) (Reader.peek >>= rest') := by
  intro input isSome
  have unfolded : (Reader.peek >>= rest') (input.mapSpans change) =
      rest' (input.mapSpans change).token (input.mapSpans change) := rfl
  rw [unfolded, Input.token_mapSpans]
  exact go input.token input isSome

theorem peekAt {distance : Nat} {rest : Token → Reader α} {rest' : Token → Reader β}
    (go : ∀ token : Token, Moves change move (rest token) (rest' token)) :
    Moves change move (Reader.peekAt distance >>= rest) (Reader.peekAt distance >>= rest') := by
  intro input isSome
  have unfolded : (Reader.peekAt distance >>= rest') (input.mapSpans change) =
      rest' ((input.mapSpans change).tokenAt distance) (input.mapSpans change) := rfl
  rw [unfolded, Input.tokenAt_mapSpans]
  exact go (input.tokenAt distance) input isSome

theorem sees {sign : Symbol} {rest : Bool → Reader α} {rest' : Bool → Reader β}
    (go : ∀ isSeen : Bool, Moves change move (rest isSeen) (rest' isSeen)) :
    Moves change move (Reader.sees sign >>= rest) (Reader.sees sign >>= rest') := by
  rw [Reader.sees, bind_assoc, bind_assoc]
  exact .peek fun token => go _

theorem here {rest : Span → Reader α} {rest' : Span → Reader β}
    (go : ∀ span : Span, Moves change move (rest span) (rest' (change span))) :
    Moves change move (Reader.here >>= rest) (Reader.here >>= rest') := by
  intro input isSome
  have unfolded : (Reader.here >>= rest') (input.mapSpans change) =
      rest' (input.mapSpans change).span (input.mapSpans change) := rfl
  rw [unfolded, Input.span_mapSpans change isSome]
  exact go input.span input isSome

theorem previous {rest : Span → Reader α} {rest' : Span → Reader β}
    (go : ∀ span : Span, Moves change move (rest span) (rest' (change span))) :
    Moves change move (Reader.previous >>= rest) (Reader.previous >>= rest') :=
  fun input isSome => go input.previous input isSome

theorem get {rest : Input → Reader α} {rest' : Input → Reader β}
    (go : ∀ input : Input, Moves change move (rest input) (rest' (input.mapSpans change))) :
    Moves change move (get >>= rest) (get >>= rest') := fun input isSome => go input input isSome

/-- Readers with the same two ways to go on. -/
theorem choose {condition : Prop} [Decidable condition] {first second : Reader α} {first' second' : Reader β}
    (yes : Moves change move first first') (no : Moves change move second second') :
    Moves change move (if condition then first else second) (if condition then first' else second') := by
  split
  · exact yes
  · exact no

end Moves

variable {change : Span → Span}

theorem advance_moves : Moves change change advance advance := by
  intro input isSome
  refine ⟨?_, Input.advance_rest_ne_nil isSome⟩
  show Except.ok ((input.mapSpans change).span, (input.mapSpans change).advance) = _
  rw [Input.span_mapSpans change isSome, Input.advance_mapSpans]

theorem Moves.discard {α β γ δ : Type} {move : α → β} {through : γ → δ} {first : Reader γ} {first' : Reader δ}
    {rest : PUnit → Reader α} {rest' : PUnit → Reader β} (head : Moves change through first first')
    (tail : Moves change move (rest ⟨⟩) (rest' ⟨⟩)) :
    Moves change move (Functor.discard first >>= rest) (Functor.discard first' >>= rest') := by
  have dropped : Moves change (fun _ : PUnit => PUnit.unit) (Functor.discard first) (Functor.discard first') :=
    .map head fun _ => rfl
  exact dropped.bind fun _ => tail

theorem Moves.discardAdvance {α β : Type} {move : α → β} {rest : PUnit → Reader α} {rest' : PUnit → Reader β}
    (tail : Moves change move (rest ⟨⟩) (rest' ⟨⟩)) :
    Moves change move (Functor.discard Reader.advance >>= rest) (Functor.discard Reader.advance >>= rest') :=
  .discard advance_moves tail

theorem Moves.eat {α β : Type} {move : α → β} {sign : Symbol} {rest : Bool → Reader α} {rest' : Bool → Reader β}
    (go : ∀ isTaken : Bool, Moves change move (rest isTaken) (rest' isTaken)) :
    Moves change move (Reader.eat sign >>= rest) (Reader.eat sign >>= rest') := by
  have eaten : Moves change id (Reader.eat sign) (Reader.eat sign) := by
    rw [Reader.eat]
    exact .peek fun token => .choose (.discardAdvance (.pure rfl)) (.pure rfl)
  exact eaten.bind go

theorem expect_moves (sign : Symbol) : Moves change change (expect sign) (expect sign) := by
  rw [expect]
  refine .get fun input => ?_
  rw [Input.token_mapSpans]
  exact .choose advance_moves .fail

theorem expectWord_moves (word : Keyword) : Moves change change (expectWord word) (expectWord word) := by
  rw [expectWord]
  refine .get fun input => ?_
  rw [Input.token_mapSpans]
  exact .choose advance_moves .fail

/-- A name with a changed place. -/
def movedName (change : Span → Span) (found : String × Span) : String × Span := (found.1, change found.2)

theorem expectName_moves : Moves change (movedName change) expectName expectName := by
  rw [expectName]
  refine .peek fun token => ?_
  split
  · exact advance_moves.bind fun span => .pure rfl
  · exact .failHere
  · exact .failHere

theorem passMode_moves : Moves change id passMode passMode := by
  rw [passMode]
  refine .peek fun token => ?_
  split
  · exact .discardAdvance (.pure rfl)
  · exact .discardAdvance (.pure rfl)
  · exact .discardAdvance (.pure rfl)
  · exact .pure rfl

theorem nameTail_moves (fuel : Nat) (name : String) : Moves change id (nameTail fuel name) (nameTail fuel name) := by
  induction fuel generalizing name with
  | zero => exact .exhausted
  | succ fuel ih =>
      rw [nameTail]
      refine .eat fun isTaken => .choose ?_ (.pure rfl)
      exact expectName_moves.bind fun found => ih _

theorem qualifiedName_moves (fuel : Nat) : Moves change id (qualifiedName fuel) (qualifiedName fuel) := by
  rw [qualifiedName]
  exact expectName_moves.bind fun found => nameTail_moves fuel found.1

/-! ### Type names -/

theorem refuseNullable_moves : Moves change id refuseNullable refuseNullable := by
  rw [refuseNullable]
  refine .sees fun isSeen => .choose (.peekAt fun next => .choose .unsupportedHere (.pure rfl)) (.pure rfl)

mutual

theorem typeName_moves (respects : Span.Respects change) (fuel : Nat) :
    Moves change (TypeName.mapSpans change) (typeName fuel) (typeName fuel) := by
  match fuel with
  | 0 => exact .exhausted
  | fuel + 1 =>
    rw [typeName]
    refine .here fun start => .peek fun token => ?_
    split
    · exact .discardAdvance (.pureBind (refuseNullable_moves.bind fun _ => .pure rfl))
    · refine (typeSegments_moves respects fuel).bind fun segments => .previous fun stop => .pureBind ?_
      refine refuseNullable_moves.bind fun _ => .pure ?_
      rw [TypeName.mapSpans, respects.join, TypeSegment.mapSpansOfAll_eq_map]

theorem typeSegments_moves (respects : Span.Respects change) (fuel : Nat) :
    Moves change (List.map (TypeSegment.mapSpans change)) (typeSegments fuel) (typeSegments fuel) := by
  match fuel with
  | 0 => exact .exhausted
  | fuel + 1 =>
    rw [typeSegments]
    refine expectName_moves.bind fun found => .sees fun isLess => ?_
    have finish (arguments : List TypeName) :
        Moves change (List.map (TypeSegment.mapSpans change)) (do
            if (← sees .dot) && (← peekAt 1).isName then
              discard advance
              return TypeSegment.mk found.1 arguments :: (← typeSegments fuel)
            else return [TypeSegment.mk found.1 arguments]) (do
            if (← sees .dot) && (← peekAt 1).isName then
              discard advance
              return TypeSegment.mk found.1 (arguments.map (TypeName.mapSpans change)) :: (← typeSegments fuel)
            else return [TypeSegment.mk found.1 (arguments.map (TypeName.mapSpans change))]) := by
      have moved : TypeSegment.mk found.1 (arguments.map (TypeName.mapSpans change)) =
          (TypeSegment.mk found.1 arguments).mapSpans change := by
        rw [TypeSegment.mapSpans, TypeName.mapSpansOfAll_eq_map]
      rw [moved]
      refine .sees fun isDot => .peekAt fun next => .choose (.discardAdvance ?_) (.pure rfl)
      exact (typeSegments_moves respects fuel).bind fun others => .pure rfl
    refine .choose ?_ (.pureBind (finish []))
    exact (typeArguments_moves respects fuel).bind finish

theorem typeArguments_moves (respects : Span.Respects change) (fuel : Nat) :
    Moves change (List.map (TypeName.mapSpans change)) (typeArguments fuel) (typeArguments fuel) := by
  match fuel with
  | 0 => exact .exhausted
  | fuel + 1 =>
    rw [typeArguments]
    refine .discard (expect_moves .less) ?_
    refine (typeName_moves respects fuel).bind fun first => (typeArgumentsTail_moves respects fuel).bind fun others => ?_
    exact .discard (expect_moves .greater) (.pure rfl)

theorem typeArgumentsTail_moves (respects : Span.Respects change) (fuel : Nat) :
    Moves change (List.map (TypeName.mapSpans change)) (typeArgumentsTail fuel) (typeArgumentsTail fuel) := by
  match fuel with
  | 0 => exact .exhausted
  | fuel + 1 =>
    rw [typeArgumentsTail]
    refine .eat fun isTaken => .choose ?_ (.pure rfl)
    exact (typeName_moves respects fuel).bind fun first => (typeArgumentsTail_moves respects fuel).bind fun others => .pure rfl

end

end Reader

/-! ### Two texts with the same tokens -/

/-- The greatest partner of the numbers up to a limit, of numbers with partners. -/
def greatestPartner : List (Nat × Nat) → Nat → Nat
  | [], _ => 0
  | (own, partner) :: rest, limit =>
    if own ≤ limit then max partner (greatestPartner rest limit) else greatestPartner rest limit

theorem greatestPartner_mono (pairs : List (Nat × Nat)) {limit limit' : Nat} (atMost : limit ≤ limit') :
    greatestPartner pairs limit ≤ greatestPartner pairs limit' := by
  induction pairs with
  | nil => exact Nat.le_refl 0
  | cons pair rest ih =>
      rw [greatestPartner, greatestPartner]
      split <;> split <;> omega

theorem greatestPartner_eq_zero {pairs : List (Nat × Nat)} {limit : Nat} (above : ∀ pair ∈ pairs, limit < pair.1) :
    greatestPartner pairs limit = 0 := by
  induction pairs with
  | nil => rfl
  | cons pair rest ih =>
      obtain ⟨isAbove, above⟩ := List.forall_mem_cons.1 above
      rw [greatestPartner, if_neg (Nat.not_le_of_lt isAbove), ih above]

/-- Where numbers and partners increase, every number has its own partner. -/
theorem greatestPartner_of_mem {pairs : List (Nat × Nat)}
    (increase : pairs.Pairwise fun first second => first.1 < second.1 ∧ first.2 < second.2) {pair : Nat × Nat}
    (isPair : pair ∈ pairs) : greatestPartner pairs pair.1 = pair.2 := by
  induction pairs with
  | nil => cases isPair
  | cons first rest ih =>
      obtain ⟨above, increase⟩ := List.pairwise_cons.1 increase
      rw [greatestPartner]
      rcases List.mem_cons.1 isPair with rfl | isPair
      · rw [if_pos (Nat.le_refl _), greatestPartner_eq_zero fun other member => (above other member).1, Nat.max_zero]
      · obtain ⟨after, greater⟩ := above pair isPair
        rw [if_pos (Nat.le_of_lt after), ih increase isPair, Nat.max_eq_right (Nat.le_of_lt greater)]

/-- The change that adds to the start of a place the greatest partner of the starts up to it. -/
def Span.withPartner (pairs : List (Nat × Nat)) (span : Span) : Span :=
  ⟨span.start + greatestPartner pairs span.start, 0⟩

theorem Span.respects_withPartner (pairs : List (Nat × Nat)) : Span.Respects (Span.withPartner pairs) where
  join first second := by
    simp only [withPartner, Span.join, Nat.max_self, Span.mk.injEq, and_true]
    rcases Nat.le_total first.start second.start with before | behind
    · have further := greatestPartner_mono pairs before
      rw [Nat.min_eq_left before, Nat.min_eq_left (by omega)]
    · have further := greatestPartner_mono pairs behind
      rw [Nat.min_eq_right behind, Nat.min_eq_right (by omega)]
  order first second := by
    simp only [withPartner]
    constructor
    · intro before
      refine Nat.le_of_not_lt fun behind => ?_
      have further := greatestPartner_mono pairs (Nat.le_of_lt behind)
      omega
    · intro before
      exact Nat.add_le_add before (greatestPartner_mono pairs before)

/-- The starts of tokens with the starts of other tokens. -/
def startPairs (tokens tokens' : List PlacedToken) : List (Nat × Nat) :=
  (tokens.map (·.span.start)).zip (tokens'.map (·.span.start))

theorem greatestPartner_startPairs {tokens tokens' : List PlacedToken}
    (starts : (tokens.map (·.span.start)).Pairwise (· < ·)) (starts' : (tokens'.map (·.span.start)).Pairwise (· < ·))
    {index : Nat} (inside : index < tokens.length) (inside' : index < tokens'.length) :
    greatestPartner (startPairs tokens tokens') tokens[index].span.start = tokens'[index].span.start := by
  have increase : (startPairs tokens tokens').Pairwise fun pair other => pair.1 < other.1 ∧ pair.2 < other.2 := by
    refine List.pairwise_iff_getElem.2 fun index index' _ _ before => ?_
    simp only [startPairs, List.getElem_zip]
    exact ⟨List.pairwise_iff_getElem.1 starts _ _ _ _ before, List.pairwise_iff_getElem.1 starts' _ _ _ _ before⟩
  have isPair : (tokens[index].span.start, tokens'[index].span.start) ∈ startPairs tokens tokens' := by
    refine List.mem_iff_getElem.2 ⟨index, ?_, ?_⟩
    · rw [startPairs, List.length_zip, List.length_map, List.length_map]
      omega
    · simp [startPairs]
  exact greatestPartner_of_mem increase isPair

/-- The places of the same tokens in two texts are changed to the same places. -/
theorem exists_matching {tokens tokens' : List PlacedToken} (same : tokens'.map (·.token) = tokens.map (·.token))
    (starts : (tokens.map (·.span.start)).Pairwise (· < ·)) (starts' : (tokens'.map (·.span.start)).Pairwise (· < ·)) :
    ∃ change change' : Span → Span, Span.Respects change ∧ Span.Respects change' ∧
      tokens.map (PlacedToken.mapSpans change) = tokens'.map (PlacedToken.mapSpans change') := by
  have sameLength : tokens'.length = tokens.length := by
    rw [← List.length_map (·.token), same, List.length_map]
  refine ⟨Span.withPartner (startPairs tokens tokens'), Span.withPartner (startPairs tokens' tokens),
    Span.respects_withPartner _, Span.respects_withPartner _, List.ext_getElem ?_ fun index inside inside' => ?_⟩
  · rw [List.length_map, List.length_map, sameLength]
  · rw [List.length_map] at inside inside'
    have sameToken : tokens[index].token = tokens'[index].token := by
      have found : (tokens'.map (·.token))[index]? = (tokens.map (·.token))[index]? := by rw [same]
      rw [List.getElem?_map, List.getElem?_map, List.getElem?_eq_getElem inside, List.getElem?_eq_getElem inside'] at found
      exact (Option.some.inj found).symm
    rw [List.getElem_map, List.getElem_map, PlacedToken.mapSpans, PlacedToken.mapSpans, sameToken, Span.withPartner,
      Span.withPartner, greatestPartner_startPairs starts starts' inside inside',
      greatestPartner_startPairs starts' starts inside' inside, Nat.add_comm]

end Snippet
