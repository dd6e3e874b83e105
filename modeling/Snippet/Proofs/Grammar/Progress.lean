import Snippet.Grammar.Declaration
import Snippet.Proofs.Grammar.Expression

/-!
Readers and positions: a logic of readers that move forward over the tokens and come to an end. The measure is the
number of tokens left; between two tokens only a bounded chain of readers runs, so that fuel in proportion to the tokens
is never used up, and more of it changes nothing.
-/

namespace Snippet

namespace Input

/-- What is left of some tokens at a position. -/
def startingAt (tokens : List PlacedToken) (position : Nat) : Input where
  rest := tokens.drop position
  previous :=
    match position with
    | 0 => ⟨0, 0⟩
    | before + 1 => (tokens[before]?).elim ⟨0, 0⟩ (·.span)

variable {tokens : List PlacedToken} {position : Nat}

theorem rest_startingAt : (startingAt tokens position).rest = tokens.drop position := rfl

theorem ends_startingAt_iff (inside : position < tokens.length) :
    (startingAt tokens position).Ends ↔ Ends ⟨tokens, ⟨0, 0⟩⟩ := by
  rw [Ends, Ends, rest_startingAt, List.getLast?_drop, if_neg (Nat.not_le_of_lt inside)]

namespace Ends

variable (ends : (startingAt tokens position).Ends)

include ends

theorem position_lt : position < tokens.length := by
  refine Nat.lt_of_not_le fun outside => ?_
  rw [Ends, rest_startingAt, List.drop_eq_nil_of_le outside] at ends
  cases ends

theorem whole : Ends ⟨tokens, ⟨0, 0⟩⟩ := (ends_startingAt_iff ends.position_lt).1 ends

/-- A token other than the end of the text is not the last one. -/
theorem succ_lt {token : Token} (found : (startingAt tokens position).token = token) (more : token ≠ .endOfFile) :
    position + 1 < tokens.length := by
  have first := ends.position_lt
  have rest : tokens.drop position = tokens[position] :: tokens.drop (position + 1) := List.drop_eq_getElem_cons first
  refine Nat.lt_of_not_le fun isLast => more (found.symm.trans ?_)
  rw [Ends, rest_startingAt, rest, List.drop_eq_nil_of_le isLast] at ends
  rw [Input.token, rest_startingAt, rest]
  exact Option.some.inj ends

end Ends

/-- The input behind the token at the front starts one position further. -/
theorem advance_startingAt (more : position + 1 < tokens.length) :
    (startingAt tokens position).advance = startingAt tokens (position + 1) := by
  have first : position < tokens.length := Nat.lt_of_succ_lt more
  have rest : tokens.drop position = tokens[position] :: tokens[position + 1] :: tokens.drop (position + 2) := by
    rw [List.drop_eq_getElem_cons first, List.drop_eq_getElem_cons more]
  have place : (startingAt tokens (position + 1)).previous = tokens[position].span := by
    show (tokens[position]?).elim _ _ = _
    rw [List.getElem?_eq_getElem first, Option.elim_some]
  rw [advance, rest_startingAt, rest]
  dsimp only
  rw [← place, ← List.drop_eq_getElem_cons more]
  rfl

/-- From the last token there is nowhere to go. -/
theorem advance_startingAt_last (isLast : position + 1 = tokens.length) :
    (startingAt tokens position).advance = startingAt tokens position := by
  have first : position < tokens.length := Nat.lt_of_succ_le (Nat.le_of_eq isLast)
  have rest : tokens.drop position = [tokens[position]] := by
    rw [List.drop_eq_getElem_cons first, List.drop_eq_nil_of_le (Nat.le_of_eq isLast.symm)]
  rw [advance, rest_startingAt, rest]

theorem advance_startingAt_min (inside : position < tokens.length) :
    (startingAt tokens position).advance = startingAt tokens (min (position + 1) (tokens.length - 1)) := by
  rcases Nat.lt_or_eq_of_le (Nat.succ_le_of_lt inside) with more | isLast
  · rw [advance_startingAt more, Nat.min_eq_left (Nat.le_sub_one_of_lt more)]
  · rw [advance_startingAt_last isLast, ← isLast, Nat.succ_sub_one, Nat.min_eq_right (Nat.le_succ _)]

end Input

namespace Reader

/-- Whether fuel suffices at a position: twenty for each token left and some extra, not counting the end of the text. -/
abbrev Suffices (tokens : List PlacedToken) (position extra fuel : Nat) : Prop :=
  20 * tokens.length + extra ≤ fuel + 20 * (position + 1)

/-- Whether a reader proceeds at a position of tokens that end with the end of the text: what it reads, another reader
reads too, and it ends at the goal or further behind, still in front of the end. If it stops with a problem, so does
the other one, and it lacks fuel only where there is not enough. -/
def Proceeds {α : Type} (tokens : List PlacedToken) (position : Nat) (enough : Prop) (goal : Nat)
    (reader other : Reader α) : Prop :=
  (Input.startingAt tokens position).Ends →
    match reader (.startingAt tokens position) with
    | .ok (value, next) => other (.startingAt tokens position) = .ok (value, next) ∧
      ∃ later, goal ≤ later ∧ next = .startingAt tokens later ∧ next.Ends
    | .error .exhausted => ¬enough
    | .error (.finding found) => other (.startingAt tokens position) = .error (.finding found)

namespace Proceeds

variable {α β γ : Type} {tokens : List PlacedToken} {position goal : Nat} {enough : Prop}

theorem pure {value : α} (reached : goal ≤ position) :
    Proceeds tokens position enough goal (Pure.pure value) (Pure.pure value) :=
  fun ends => ⟨rfl, position, reached, rfl, ends⟩

theorem exhausted {extra : Nat} {other : Reader α} (isSome : 0 < extra) :
    Proceeds tokens position (Suffices tokens position extra 0) goal (throw .exhausted) other := by
  intro ends enough
  have inside := ends.position_lt
  omega

theorem fail {problem : Problem} {span : Span} :
    Proceeds (α := α) tokens position enough goal (Reader.fail problem span) (Reader.fail problem span) :=
  fun _ => rfl

theorem failHere {problem : Problem} :
    Proceeds (α := α) tokens position enough goal (Reader.failHere problem) (Reader.failHere problem) :=
  fun _ => rfl

theorem unsupportedHere {construct : String} : Proceeds (α := α) tokens position enough goal
    (Reader.unsupportedHere construct) (Reader.unsupportedHere construct) :=
  fun _ => rfl

theorem bind {first first' : Reader β} {rest rest' : β → Reader α} {enough' : Prop} {middle : Nat}
    (head : Proceeds tokens position enough' middle first first') (spared : enough → enough')
    (tail : ∀ (value : β) (later : Nat), middle ≤ later →
      Proceeds tokens later enough goal (rest value) (rest' value)) :
    Proceeds tokens position enough goal (first >>= rest) (first' >>= rest') := by
  intro ends
  have unfolded (first : Reader β) (rest : β → Reader α) (input : Input) :
      (first >>= rest) input = (first input).bind fun found => rest found.1 found.2 := rfl
  have isFirst := head ends
  rw [unfolded, unfolded]
  cases read : first (.startingAt tokens position) with
  | ok found =>
    obtain ⟨value, next⟩ := found
    rw [read] at isFirst
    obtain ⟨same, later, reached, rfl, endsLater⟩ := isFirst
    rw [same]
    exact tail value later reached endsLater
  | error stop =>
    rw [read] at isFirst
    cases stop with
    | exhausted => exact fun isEnough => isFirst (spared isEnough)
    | finding found =>
      replace isFirst : first' (.startingAt tokens position) = .error (.finding found) := isFirst
      rw [isFirst]
      rfl

theorem weaken {reader other : Reader α} {enough' : Prop} {goal' : Nat}
    (proceeds : Proceeds tokens position enough' goal' reader other) (spared : enough → enough')
    (nearer : goal ≤ goal') :
    Proceeds tokens position enough goal reader other := by
  intro ends
  have outcome := proceeds ends
  cases read : reader (.startingAt tokens position) with
  | ok found =>
    rw [read] at outcome
    obtain ⟨same, later, reached, isLater⟩ := outcome
    exact ⟨same, later, Nat.le_trans nearer reached, isLater⟩
  | error stop =>
    rw [read] at outcome
    cases stop with
    | exhausted => exact fun isEnough => outcome (spared isEnough)
    | finding found => exact outcome

theorem map {first first' : Reader β} {change : β → α} (head : Proceeds tokens position enough goal first first') :
    Proceeds tokens position enough goal (change <$> first) (change <$> first') := by
  rw [map_eq_pure_bind, map_eq_pure_bind]
  exact head.bind id fun _ _ reached => .pure reached

theorem pureBind {value : β} {rest rest' : β → Reader α}
    (go : Proceeds tokens position enough goal (rest value) (rest' value)) :
    Proceeds tokens position enough goal (Pure.pure value >>= rest) (Pure.pure value >>= rest') := go

/-- Readers with the same two ways to go on. -/
theorem choose {condition : Prop} [Decidable condition] {first second first' second' : Reader α}
    (yes : condition → Proceeds tokens position enough goal first first')
    (no : ¬condition → Proceeds tokens position enough goal second second') :
    Proceeds tokens position enough goal (if condition then first else second)
      (if condition then first' else second') := by
  split
  · exact yes ‹_›
  · exact no ‹_›

/-! Readers that look at the tokens. -/

theorem peek {rest rest' : Token → Reader α} (go : Proceeds tokens position enough goal
      (rest (Input.startingAt tokens position).token) (rest' (Input.startingAt tokens position).token)) :
    Proceeds tokens position enough goal (Reader.peek >>= rest) (Reader.peek >>= rest') := go

theorem peekAt {distance : Nat} {rest rest' : Token → Reader α}
    (go : ∀ token, Proceeds tokens position enough goal (rest token) (rest' token)) :
    Proceeds tokens position enough goal (Reader.peekAt distance >>= rest) (Reader.peekAt distance >>= rest') :=
  go ((Input.startingAt tokens position).tokenAt distance)

theorem sees {sign : Symbol} {rest rest' : Bool → Reader α}
    (go : ∀ isSeen, Proceeds tokens position enough goal (rest isSeen) (rest' isSeen)) :
    Proceeds tokens position enough goal (Reader.sees sign >>= rest) (Reader.sees sign >>= rest') :=
  go ((Input.startingAt tokens position).token.isSymbol sign)

theorem here {rest rest' : Span → Reader α}
    (go : ∀ span, Proceeds tokens position enough goal (rest span) (rest' span)) :
    Proceeds tokens position enough goal (Reader.here >>= rest) (Reader.here >>= rest') :=
  go (Input.startingAt tokens position).span

theorem previous {rest rest' : Span → Reader α}
    (go : ∀ span, Proceeds tokens position enough goal (rest span) (rest' span)) :
    Proceeds tokens position enough goal (Reader.previous >>= rest) (Reader.previous >>= rest') :=
  go (Input.startingAt tokens position).previous

theorem get {rest rest' : Input → Reader α} (go : Proceeds tokens position enough goal
      (rest (.startingAt tokens position)) (rest' (.startingAt tokens position))) :
    Proceeds tokens position enough goal (get >>= rest) (get >>= rest') := go

/-! Readers that take a token. -/

/-- A reader that goes on behind a token other than the end of the text. -/
theorem behind {reader reader' rest rest' : Reader α} {token : Token}
    (steps : reader (.startingAt tokens position) = rest (Input.startingAt tokens position).advance)
    (steps' : reader' (.startingAt tokens position) = rest' (Input.startingAt tokens position).advance)
    (found : (Input.startingAt tokens position).token = token) (more : token ≠ .endOfFile)
    (go : Proceeds tokens (position + 1) enough goal rest rest') :
    Proceeds tokens position enough goal reader reader' := by
  intro ends
  have inside := ends.succ_lt found more
  rw [steps, steps', Input.advance_startingAt inside]
  exact go ((Input.ends_startingAt_iff inside).2 (ends.whole))

theorem discardAdvance {rest rest' : PUnit → Reader α} {token : Token}
    (found : (Input.startingAt tokens position).token = token) (more : token ≠ .endOfFile)
    (go : Proceeds tokens (position + 1) enough goal (rest ⟨⟩) (rest' ⟨⟩)) :
    Proceeds tokens position enough goal (discard Reader.advance >>= rest) (discard Reader.advance >>= rest') :=
  .behind rfl rfl found more go

theorem advance {rest rest' : Span → Reader α} {token : Token}
    (found : (Input.startingAt tokens position).token = token) (more : token ≠ .endOfFile)
    (go : ∀ span, Proceeds tokens (position + 1) enough goal (rest span) (rest' span)) :
    Proceeds tokens position enough goal (Reader.advance >>= rest) (Reader.advance >>= rest') :=
  .behind rfl rfl found more (go _)

/-- A reader that goes on in one way behind a symbol and in another one without it. -/
theorem eat {sign : Symbol} {first second first' second' : Reader α}
    (taken : Proceeds tokens (position + 1) enough goal first first')
    (left : Proceeds tokens position enough goal second second') :
    Proceeds tokens position enough goal (Reader.eat sign >>= fun found => if found then first else second)
      (Reader.eat sign >>= fun found => if found then first' else second') := by
  rw [Reader.eat, bind_assoc, bind_assoc]
  refine .peek ?_
  by_cases isSign : (Input.startingAt tokens position).token.isSymbol sign = true
  · rw [if_pos isSign]
    exact .behind rfl rfl (Input.token_of_isSymbol isSign) (by simp) taken
  · rw [if_neg isSign]
    exact left

/-- An entry of a list stands alone, or a comma and more entries follow. -/
theorem commaOrEnd {entry : α} {others others' : Reader (List α)} (reached : goal ≤ position)
    (more : Proceeds tokens (position + 1) enough goal others others') :
    Proceeds tokens position enough goal
      (do if ← Reader.eat .comma then return entry :: (← others) else return [entry])
      (do if ← Reader.eat .comma then return entry :: (← others') else return [entry]) :=
  .eat (more.bind id fun _ _ reached => .pure reached) (.pure reached)

end Proceeds

section

variable {tokens : List PlacedToken} {position : Nat} {enough : Prop}

theorem expect_proceeds (sign : Symbol) :
    Proceeds tokens position enough (position + 1) (expect sign) (expect sign) := by
  rw [expect]
  refine .get (.choose (fun isSign => ?_) fun _ => .fail)
  exact .behind rfl rfl (Input.token_of_isSymbol isSign) (by simp) (.pure (Nat.le_refl _))

theorem discard_expect_proceeds (sign : Symbol) :
    Proceeds tokens position enough (position + 1) (discard (expect sign)) (discard (expect sign)) :=
  .map (expect_proceeds sign)

theorem expectWord_proceeds (word : Keyword) :
    Proceeds tokens position enough (position + 1) (expectWord word) (expectWord word) := by
  rw [expectWord]
  refine .get (.choose (fun isWord => ?_) fun _ => .fail)
  exact .behind rfl rfl (Input.token_of_isKeyword isWord) (by simp) (.pure (Nat.le_refl _))

theorem expectName_proceeds : Proceeds tokens position enough (position + 1) expectName expectName := by
  rw [expectName]
  refine .peek ?_
  split
  · next isName => exact .advance isName (by simp) fun _ => .pure (Nat.le_refl _)
  · exact .failHere
  · exact .failHere

theorem passMode_proceeds : Proceeds tokens position enough position passMode passMode := by
  rw [passMode]
  refine .peek ?_
  split
  · next isWord => exact .discardAdvance isWord (by simp) (.pure (Nat.le_succ _))
  · next isWord => exact .discardAdvance isWord (by simp) (.pure (Nat.le_succ _))
  · next isWord => exact .discardAdvance isWord (by simp) (.pure (Nat.le_succ _))
  · exact .pure (Nat.le_refl _)

/-- Whatever stands at the front, a step does not lead back. -/
theorem advance_proceeds : Proceeds tokens position enough position advance advance := by
  intro ends
  have inside := ends.position_lt
  refine ⟨rfl, min (position + 1) (tokens.length - 1), by omega, Input.advance_startingAt_min inside, ?_⟩
  rw [Input.advance_startingAt_min inside, Input.ends_startingAt_iff (by omega)]
  exact ends.whole

theorem refuseNullable_proceeds : Proceeds tokens position enough position refuseNullable refuseNullable := by
  rw [refuseNullable]
  refine .sees fun _ => .choose (fun _ => .peekAt fun _ => ?_) fun _ => .pure (Nat.le_refl _)
  exact .choose (fun _ => .unsupportedHere) fun _ => .pure (Nat.le_refl _)

end

/-! ### Type names -/

section

variable {tokens : List PlacedToken}

theorem nameTail_proceeds (fuel further : Nat) (more : fuel ≤ further) (name : String) {position : Nat} :
    Proceeds tokens position (Suffices tokens position 1 fuel) position (nameTail fuel name)
      (nameTail further name) := by
  match fuel, further, more with
  | 0, _, _ => exact .exhausted Nat.one_pos
  | fuel + 1, further + 1, more =>
    rw [nameTail, nameTail]
    refine .eat (expectName_proceeds.bind id fun found later named => ?_) (.pure (Nat.le_refl _))
    exact (nameTail_proceeds fuel further (Nat.le_of_succ_le_succ more) _).weaken (by omega) (by omega)

theorem qualifiedName_proceeds (fuel further : Nat) (more : fuel ≤ further) {position : Nat} :
    Proceeds tokens position (Suffices tokens position 1 fuel) (position + 1) (qualifiedName fuel)
      (qualifiedName further) :=
  expectName_proceeds.bind id fun _ _ named =>
    (nameTail_proceeds fuel further more _).weaken (by omega) (by omega)

mutual

theorem typeName_proceeds (fuel further : Nat) (more : fuel ≤ further) {position : Nat} :
    Proceeds tokens position (Suffices tokens position 2 fuel) (position + 1) (typeName fuel) (typeName further) := by
  match fuel, further, more with
  | 0, _, _ => exact .exhausted Nat.two_pos
  | fuel + 1, further + 1, more =>
    rw [typeName, typeName]
    refine .here fun start => .peek ?_
    split
    · next basic isBasic =>
      refine .discardAdvance (token_of_basicType? isBasic) nofun ?_
      exact refuseNullable_proceeds.bind id fun _ _ reached => .pure reached
    · refine (typeSegments_proceeds fuel further (Nat.le_of_succ_le_succ more)).bind (by omega) fun _ later named => ?_
      refine .previous fun _ => refuseNullable_proceeds.bind id fun _ _ reached => .pure ?_
      omega

theorem typeSegments_proceeds (fuel further : Nat) (more : fuel ≤ further) {position : Nat} :
    Proceeds tokens position (Suffices tokens position 1 fuel) (position + 1) (typeSegments fuel)
      (typeSegments further) := by
  match fuel, further, more with
  | 0, _, _ => exact .exhausted Nat.one_pos
  | fuel + 1, further + 1, more =>
    have more := Nat.le_of_succ_le_succ more
    rw [typeSegments, typeSegments]
    have finish {later : Nat} (named : position + 1 ≤ later) (segment : TypeSegment) :
        let rest (fuel : Nat) : Reader (List TypeSegment) := do
          if (← sees .dot) && (← peekAt 1).isName then
            discard advance
            return segment :: (← typeSegments fuel)
          else return [segment]
        Proceeds tokens later (Suffices tokens position 1 (fuel + 1)) (position + 1) (rest fuel) (rest further) := by
      refine .sees fun isDot => .peekAt fun next => .choose (fun _ => ?_) fun _ => .pure named
      refine advance_proceeds.map.bind id fun _ after reached => ?_
      refine (typeSegments_proceeds fuel further more).bind (by omega) fun _ last read => .pure ?_
      omega
    refine expectName_proceeds.bind id fun found later named => .sees fun _ => ?_
    refine .choose (fun _ => ?_) fun _ => .pureBind (finish named _)
    exact (typeArguments_proceeds fuel further more).bind (by omega) fun _ last read => finish (by omega) _

theorem typeArguments_proceeds (fuel further : Nat) (more : fuel ≤ further) {position : Nat} :
    Proceeds tokens position (Suffices tokens position 1 fuel) (position + 1) (typeArguments fuel)
      (typeArguments further) := by
  match fuel, further, more with
  | 0, _, _ => exact .exhausted Nat.one_pos
  | fuel + 1, further + 1, more =>
    have more := Nat.le_of_succ_le_succ more
    rw [typeArguments, typeArguments]
    refine (discard_expect_proceeds .less).bind id fun _ left opened => ?_
    refine (typeName_proceeds fuel further more).bind (by omega) fun _ middle first => ?_
    refine (typeArgumentsTail_proceeds fuel further more).bind (by omega) fun _ behind others => ?_
    refine (discard_expect_proceeds .greater).bind id fun _ last closed => .pure ?_
    omega

theorem typeArgumentsTail_proceeds (fuel further : Nat) (more : fuel ≤ further) {position : Nat} :
    Proceeds tokens position (Suffices tokens position 1 fuel) position (typeArgumentsTail fuel)
      (typeArgumentsTail further) := by
  match fuel, further, more with
  | 0, _, _ => exact .exhausted Nat.one_pos
  | fuel + 1, further + 1, more =>
    have more := Nat.le_of_succ_le_succ more
    rw [typeArgumentsTail, typeArgumentsTail]
    refine .eat ?_ (.pure (Nat.le_refl _))
    refine (typeName_proceeds fuel further more).bind (by omega) fun _ behind next => ?_
    refine (typeArgumentsTail_proceeds fuel further more).bind (by omega) fun _ last others => .pure ?_
    omega

end

/-- The look-ahead for a declaration proceeds; where it finds none it has not moved. -/
theorem localType?_proceeds (fuel further : Nat) (more : fuel ≤ further) {position : Nat} :
    Proceeds tokens position (Suffices tokens position 2 fuel) position (localType? fuel) (localType? further) := by
  intro ends
  have isType := typeName_proceeds fuel further more ends
  have stays : ∃ later, position ≤ later ∧ Input.startingAt tokens position = .startingAt tokens later ∧
      (Input.startingAt tokens position).Ends := ⟨position, Nat.le_refl _, rfl, ends⟩
  unfold localType?
  dsimp only
  by_cases noType : !startsType (Input.startingAt tokens position).token
  · rw [if_pos noType, if_pos noType]
    exact ⟨rfl, stays⟩
  rw [if_neg noType, if_neg noType]
  by_cases isMember : !(Input.startingAt tokens position).token.isName &&
      ((Input.startingAt tokens position).tokenAt 1).isSymbol .dot
  · rw [if_pos isMember, if_pos isMember]
    exact ⟨rfl, stays⟩
  rw [if_neg isMember, if_neg isMember]
  cases read : typeName fuel (.startingAt tokens position) with
  | ok found =>
    rw [read] at isType
    obtain ⟨same, later, reached, isLater, endsLater⟩ := isType
    rw [same]
    by_cases declares : declaresHere found.2
    · simp only [if_pos declares]
      exact ⟨trivial, later, Nat.le_of_succ_le reached, isLater, endsLater⟩
    · simp only [if_neg declares]
      exact ⟨trivial, stays⟩
  | error stop =>
    rw [read] at isType
    cases stop with
    | exhausted => exact isType
    | finding found =>
      rw [show typeName further (.startingAt tokens position) = .error (.finding found) from isType]
      exact ⟨rfl, stays⟩

theorem localType?_stays {fuel : Nat} {input next : Input} (read : localType? fuel input = .ok (none, next)) :
    next = input := by
  unfold localType? at read
  dsimp only at read
  split at read
  · cases read
    rfl
  split at read
  · cases read
    rfl
  split at read
  · split at read <;> cases read
    rfl
  · cases read
  · cases read
    rfl

end

end Reader

end Snippet
