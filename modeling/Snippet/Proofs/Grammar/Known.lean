import Snippet.Proofs.Grammar.Reader

/-!
Reading known tokens: what a reader finds, and that what is known behind it is still there. Main statement:
`Reader.qualifiedName_shown`.
-/

namespace Snippet

/-- The tokens of further names with a dot in front of each one. -/
def Token.dotted (names : List String) : List Token := names.flatMap fun name => [.symbol .dot, .name name]

namespace Input

/-- Whether the tokens at the front are known, up to a rest. -/
def Shows (input : Input) (tokens : List Token) (rest : List PlacedToken) : Prop :=
  rest ≠ [] ∧ ∃ taken : List PlacedToken, input.rest = taken ++ rest ∧ taken.map (·.token) = tokens

namespace Shows

variable {input : Input} {token : Token} {first tokens : List Token} {rest : List PlacedToken}

theorem head (shows : input.Shows (token :: tokens) rest) : input.token = token := by
  obtain ⟨-, taken, isRest, isTokens⟩ := shows
  cases taken with
  | nil => cases isTokens
  | cons placed others =>
      rw [Input.token, isRest]
      exact (List.cons.inj isTokens).1

theorem second {next : Token} (shows : input.Shows (token :: next :: tokens) rest) : input.tokenAt 1 = next := by
  obtain ⟨-, taken, isRest, isTokens⟩ := shows
  match taken with
  | [] | [_] => cases isTokens
  | placed :: next :: others =>
      rw [Input.tokenAt, isRest]
      exact (List.cons.inj (List.cons.inj isTokens).2).1

/-- The token behind the only known one. -/
theorem tokenAt_one (shows : input.Shows [token] rest) : input.tokenAt 1 = input.advance.token := by
  obtain ⟨isSome, taken, isRest, isTokens⟩ := shows
  obtain ⟨placed, rfl, -⟩ := List.map_eq_singleton_iff.1 isTokens
  obtain ⟨next, behind, rfl⟩ := List.exists_cons_of_ne_nil isSome
  rw [Input.tokenAt, Input.advance, isRest]
  rfl

theorem third {next last : Token} (shows : input.Shows (token :: next :: last :: tokens) rest) :
    input.tokenAt 2 = last := by
  obtain ⟨-, taken, isRest, isTokens⟩ := shows
  match taken with
  | [] | [_] | [_, _] => cases isTokens
  | placed :: next :: last :: others =>
      rw [Input.tokenAt, isRest]
      exact (List.cons.inj (List.cons.inj (List.cons.inj isTokens).2).2).1

theorem advance (shows : input.Shows (token :: tokens) rest) : input.advance.Shows tokens rest := by
  obtain ⟨isSome, taken, isRest, isTokens⟩ := shows
  cases taken with
  | nil => cases isTokens
  | cons placed others =>
      refine ⟨isSome, others, ?_, (List.cons.inj isTokens).2⟩
      obtain ⟨next, behind, more⟩ := List.exists_cons_of_ne_nil (List.append_ne_nil_of_right_ne_nil others isSome)
      rw [Input.advance, isRest, List.cons_append, more]

theorem isRest (shows : input.Shows [] rest) : input.rest = rest := by
  obtain ⟨-, taken, isRest, isTokens⟩ := shows
  rw [isRest, List.map_eq_nil_iff.1 isTokens]
  rfl

/-- What is known behind some tokens is known of whatever stands there. -/
theorem split (shows : input.Shows (first ++ tokens) rest) : ∃ middle : List PlacedToken,
    input.Shows first middle ∧ ∀ next : Input, next.rest = middle → next.Shows tokens rest := by
  obtain ⟨isSome, taken, isRest, isTokens⟩ := shows
  obtain ⟨front, behind, rfl, isFront, isBehind⟩ := List.map_eq_append_iff.1 isTokens
  refine ⟨behind ++ rest, ⟨List.append_ne_nil_of_right_ne_nil behind isSome, front, ?_, isFront⟩, ?_⟩
  · rw [isRest, List.append_assoc]
  · exact fun next isNext => ⟨isSome, behind, isNext, isBehind⟩

end Shows

end Input

namespace Reader

variable {input : Input} {tokens : List Token} {rest : List PlacedToken}

theorem expect_span_shown {sign : Symbol} (shows : input.Shows (.symbol sign :: tokens) rest) :
    Ensures input (expect sign) fun _ next => next.Shows tokens rest := by
  rw [expect]
  refine .get ?_
  split
  · intro span next read
    cases read
    exact shows.advance
  · exact .fail

theorem expect_shown {sign : Symbol} (shows : input.Shows (.symbol sign :: tokens) rest) :
    Ensures input (discard (expect sign)) fun _ next => next.Shows tokens rest := .map (expect_span_shown shows)

theorem expectWord_shown {word : Keyword} (shows : input.Shows (.keyword word :: tokens) rest) :
    Ensures input (discard (expectWord word)) fun _ next => next.Shows tokens rest := by
  refine .map ?_
  rw [expectWord]
  refine .get ?_
  split
  · intro span next read
    cases read
    exact shows.advance
  · exact .fail

/-- Nothing is claimed of a reader of what is not known. -/
theorem anything {α : Type} {input : Input} (reader : Reader α) : Ensures input reader fun _ _ => True :=
  fun _ _ _ => trivial

theorem advance_shown {token : Token} (shows : input.Shows (token :: tokens) rest) :
    Ensures input advance fun _ next => next.Shows tokens rest := by
  intro span next read
  cases read
  exact shows.advance

theorem expectName_shown {name : String} (shows : input.Shows (.name name :: tokens) rest) :
    Ensures input expectName fun found next => found.1 = name ∧ next.Shows tokens rest := by
  rw [expectName]
  refine .peek ?_
  rw [shows.head]
  exact (advance_shown shows).bind fun span next behind => .pure ⟨rfl, behind⟩

theorem eat_shown {sign : Symbol} (shows : input.Shows (.symbol sign :: tokens) rest) :
    Ensures input (eat sign) fun found next => found = true ∧ next.Shows tokens rest := by
  rw [eat]
  refine .peek ?_
  rw [shows.head, if_pos (show (Token.symbol sign).isSymbol sign = true from beq_self_eq_true sign)]
  have taken : Ensures input (discard advance) fun _ next => next.Shows tokens rest := .map (advance_shown shows)
  exact taken.bind fun _ _ behind => .pure ⟨rfl, behind⟩

theorem eat_left {sign : Symbol} (differs : input.token.isSymbol sign = false) :
    Ensures input (eat sign) fun found next => found = false ∧ next = input := by
  rw [eat]
  refine .peek ?_
  rw [differs]
  exact .pure ⟨rfl, rfl⟩

/-- Further parts of a dotted name in front of a symbol that is no dot. -/
theorem nameTail_shown (fuel : Nat) {names : List String} {front : String} {sign : Symbol} (noDot : sign ≠ .dot)
    {input : Input} (shows : input.Shows (Token.dotted names ++ .symbol sign :: tokens) rest) :
    Ensures input (nameTail fuel front) fun found next =>
      found = names.foldl (fun text name => text ++ "." ++ name) front ∧ next.Shows (.symbol sign :: tokens) rest := by
  induction fuel generalizing names front input with
  | zero => exact .exhausted
  | succ fuel ih =>
      rw [nameTail]
      cases names with
      | nil =>
        have ends : input.token.isSymbol .dot = false := by
          rw [shows.head]
          exact beq_eq_false_iff_ne.2 noDot
        refine (eat_left ends).bind fun found next both => ?_
        obtain ⟨rfl, rfl⟩ := both
        exact .pure ⟨rfl, shows⟩
      | cons name others =>
        refine (eat_shown shows).bind fun found next both => ?_
        obtain ⟨rfl, behindDot⟩ := both
        refine (expectName_shown behindDot).bind fun found next both => ?_
        obtain ⟨rfl, behindName⟩ := both
        exact ih behindName

theorem qualifiedName_shown (fuel : Nat) {first : String} {names : List String} {sign : Symbol} (noDot : sign ≠ .dot)
    (shows : input.Shows (.name first :: Token.dotted names ++ .symbol sign :: tokens) rest) :
    Ensures input (qualifiedName fuel) fun found next =>
      found = names.foldl (fun text name => text ++ "." ++ name) first ∧ next.Shows (.symbol sign :: tokens) rest := by
  rw [qualifiedName]
  refine (expectName_shown shows).bind fun found next both => ?_
  obtain ⟨rfl, behind⟩ := both
  exact nameTail_shown fuel noDot behind

end Reader

end Snippet
