import Snippet.Proofs.Grammar.MovingTree
import Snippet.Proofs.Grammar.Reader

/-!
Whole source texts are read the same from tokens with changed places. The place in front of the first token counts for
nothing, since it is forgotten with the first token taken. Main statement: `CompilationUnit.ofTokens_mapSpans`.
-/

namespace Snippet

namespace Reader

/-- Whether a reader of some tokens gives the same wherever the token before them stands. -/
def Forgets {α : Type} (tokens : List PlacedToken) (reader : Reader α) : Prop :=
  ∀ first second : Span, reader ⟨tokens, first⟩ = reader ⟨tokens, second⟩

namespace Forgets

variable {α β : Type} {tokens : List PlacedToken} {placed next : PlacedToken} {rest : List PlacedToken}

theorem bind {first : Reader β} {behind : β → Reader α} (head : Forgets tokens first) :
    Forgets tokens (first >>= behind) := by
  intro one other
  show (first ⟨tokens, one⟩ >>= fun found => behind found.1 found.2) = _
  rw [head one other]
  rfl

theorem discard {first : Reader β} (head : Forgets tokens first) : Forgets tokens (Functor.discard first) := by
  intro one other
  show (first ⟨tokens, one⟩ >>= fun found => (.ok (⟨⟩, found.2) : Except Stop (PUnit × Input))) = _
  rw [head one other]
  rfl

theorem peek {behind : Token → Reader α} (go : Forgets (placed :: rest) (behind placed.token)) :
    Forgets (placed :: rest) (Reader.peek >>= behind) := go

theorem here {behind : Span → Reader α} (go : Forgets (placed :: rest) (behind placed.span)) :
    Forgets (placed :: rest) (Reader.here >>= behind) := go

theorem failHere {problem : Problem} : Forgets (placed :: rest) (Reader.failHere problem : Reader α) := fun _ _ => rfl

theorem exhausted : Forgets tokens (throw .exhausted : Reader α) := fun _ _ => rfl

theorem advance : Forgets (placed :: next :: rest) Reader.advance := fun _ _ => rfl

/-- A reader that takes nothing is followed by one that forgets. -/
theorem behind {first : Reader β} {value : β} {behind : β → Reader α}
    (nothing : ∀ place : Span, first ⟨tokens, place⟩ = .ok (value, ⟨tokens, place⟩))
    (go : Forgets tokens (behind value)) : Forgets tokens (first >>= behind) := by
  intro one other
  show (first ⟨tokens, one⟩ >>= fun found => behind found.1 found.2) =
    first ⟨tokens, other⟩ >>= fun found => behind found.1 found.2
  rw [nothing, nothing]
  exact go one other

end Forgets

variable {placed next : PlacedToken} {rest : List PlacedToken}

theorem expectWord_forgets (word : Keyword) : Forgets (placed :: next :: rest) (expectWord word) := by
  intro one other
  show (if placed.token.isKeyword word = true then advance else fail _ placed.span : Reader Span) _ =
    (if placed.token.isKeyword word = true then advance else fail _ placed.span : Reader Span) _
  split
  · exact Forgets.advance one other
  · rfl

theorem modifierList_forgets (fuel : Nat) (isModifier : (setModifier? .none placed.token).isSome) :
    Forgets (placed :: next :: rest) (modifierList fuel .none) := by
  cases fuel with
  | zero => exact .exhausted
  | succ fuel =>
      rw [modifierList]
      refine .peek ?_
      split
      · next isNone =>
        rw [isNone] at isModifier
        cases isModifier
      · exact .failHere
      · exact .bind (.discard .advance)

theorem classDecl_forgets (fuel : Nat) (modifiers : Modifiers) (start : Span) :
    Forgets (placed :: next :: rest) (classDecl fuel modifiers start) := by
  cases fuel with
  | zero => exact .exhausted
  | succ fuel =>
      rw [classDecl]
      exact .bind (.discard (expectWord_forgets .classWord))

theorem space_forgets (fuel : Nat) : Forgets (placed :: next :: rest) (space fuel) := by
  cases fuel with
  | zero => exact .exhausted
  | succ fuel =>
      rw [space]
      exact .bind .advance

theorem usings_forgets (fuel : Nat) (isUsing : placed.token.isKeyword .usingWord = true) :
    Forgets (placed :: next :: rest) (usings fuel) := by
  cases fuel with
  | zero => exact .exhausted
  | succ fuel =>
      rw [usings]
      refine .peek ?_
      rw [isUsing]
      exact .bind .advance

/-- The members of a text are read from their first token on, or there are none. -/
theorem members_forgets (fuel : Nat) : Forgets (placed :: next :: rest) (members fuel) ∨
    ∀ place : Span, members fuel ⟨placed :: next :: rest, place⟩ = .ok ([], ⟨placed :: next :: rest, place⟩) := by
  cases fuel with
  | zero => exact .inl .exhausted
  | succ fuel =>
      rw [members]
      by_cases isSpace : placed.token.isKeyword .namespaceWord = true
      · refine .inl (.peek ?_)
        rw [if_pos isSpace]
        exact .bind (space_forgets fuel)
      by_cases isUsing : placed.token.isKeyword .usingWord = true
      · refine .inl (.peek ?_)
        rw [if_neg isSpace, if_pos isUsing]
        exact .failHere
      by_cases isClass : (placed.token.isKeyword .classWord || (setModifier? .none placed.token).isSome) = true
      · refine .inl (.peek ?_)
        rw [if_neg isSpace, if_neg isUsing, if_pos isClass]
        refine .here ?_
        by_cases isModifier : (setModifier? .none placed.token).isSome = true
        · exact .bind (modifierList_forgets fuel isModifier)
        · have isWord : placed.token.isKeyword .classWord = true := by
            rw [Bool.or_eq_true] at isClass
            exact isClass.resolve_right isModifier
          cases fuel with
          | zero => exact .bind .exhausted
          | succ fuel =>
              have nothing (place : Span) : modifierList (fuel + 1) .none ⟨placed :: next :: rest, place⟩ =
                  .ok (.none, ⟨placed :: next :: rest, place⟩) := by
                have isPeek {α : Type} (behind : Token → Reader α) :
                    (peek >>= behind) ⟨placed :: next :: rest, place⟩ =
                      behind placed.token ⟨placed :: next :: rest, place⟩ := rfl
                rw [modifierList, isPeek, Option.not_isSome_iff_eq_none.1 isModifier]
                rfl
              refine .behind nothing (.peek ?_)
              rw [isWord]
              exact .bind (classDecl_forgets (fuel + 1) .none placed.span)
      · refine .inr fun place => ?_
        show (if placed.token.isKeyword .namespaceWord = true then _
          else if placed.token.isKeyword .usingWord = true then _
          else if (placed.token.isKeyword .classWord || (setModifier? .none placed.token).isSome) = true then _
          else Pure.pure [] : Reader (List Member)) _ = _
        rw [if_neg isSpace, if_neg isUsing, if_neg isClass]
        rfl

theorem usings_nothing (fuel : Nat) (noUsing : placed.token.isKeyword .usingWord = false) (place : Span) :
    usings (fuel + 1) ⟨placed :: rest, place⟩ = .ok ([], ⟨placed :: rest, place⟩) := by
  rw [usings]
  show (if (!placed.token.isKeyword .usingWord) = true then Pure.pure [] else _ : Reader (List UsingDirective)) _ = _
  rw [noUsing]
  rfl

/-- Whether what a reader of some tokens gives is the same wherever the token before them stands. -/
def GivesSame {α : Type} (tokens : List PlacedToken) (reader : Reader α) : Prop :=
  ∀ first second : Span, (reader ⟨tokens, first⟩).map Prod.fst = (reader ⟨tokens, second⟩).map Prod.fst

theorem Forgets.givesSame {α : Type} {tokens : List PlacedToken} {reader : Reader α}
    (forgets : Forgets tokens reader) : GivesSame tokens reader :=
  fun first second => congrArg (Except.map Prod.fst) (forgets first second)

theorem GivesSame.behind {α β : Type} {tokens : List PlacedToken} {first : Reader β} {value : β}
    {behind : β → Reader α} (nothing : ∀ place : Span, first ⟨tokens, place⟩ = .ok (value, ⟨tokens, place⟩))
    (go : GivesSame tokens (behind value)) : GivesSame tokens (first >>= behind) := by
  intro one other
  show (first ⟨tokens, one⟩ >>= fun found => behind found.1 found.2).map Prod.fst =
    (first ⟨tokens, other⟩ >>= fun found => behind found.1 found.2).map Prod.fst
  rw [nothing, nothing]
  exact go one other

/-- The place in front of a text counts for nothing. -/
theorem compilationUnit_givesSame (fuel : Nat) {tokens : List PlacedToken} {place : Span}
    (ends : Input.Ends ⟨tokens, place⟩) : GivesSame tokens (compilationUnit fuel) := by
  match tokens with
  | [] => cases ends
  | [⟨token, span⟩] =>
    obtain rfl : token = .endOfFile := Option.some.inj ends
    cases fuel <;> exact fun _ _ => rfl
  | placed :: next :: rest =>
    rw [compilationUnit]
    by_cases isUsing : placed.token.isKeyword .usingWord = true
    · exact Forgets.givesSame (.bind (usings_forgets fuel isUsing))
    · cases fuel with
      | zero => exact fun _ _ => rfl
      | succ fuel =>
          refine .behind (usings_nothing fuel (Bool.eq_false_iff.2 isUsing)) ?_
          rcases members_forgets (fuel + 1) with forgets | nothing
          · exact Forgets.givesSame (.bind forgets)
          · refine .behind nothing fun first second => ?_
            obtain ⟨token, span⟩ := placed
            cases token <;> rfl

end Reader

namespace CompilationUnit

/-- The tree or the problem that reading gives. -/
def ofReading : Except Stop CompilationUnit → Except Finding CompilationUnit
  | .ok unit => .ok unit
  | .error (.finding found) => .error found
  | .error .exhausted => .error ⟨.unsupported "nesting", ⟨0, 0⟩⟩

theorem ofTokens_eq (tokens : List PlacedToken) : ofTokens tokens =
    ofReading ((Reader.compilationUnit (readingFuel tokens) ⟨tokens, ⟨0, 0⟩⟩).map Prod.fst) := by
  rw [ofTokens]
  cases Reader.compilationUnit (readingFuel tokens) ⟨tokens, ⟨0, 0⟩⟩ with
  | ok found => rfl
  | error stop => cases stop <;> rfl

theorem ends_mapSpans (change : Span → Span) {tokens : List PlacedToken} {place : Span}
    (ends : Input.Ends ⟨tokens, place⟩) : Input.Ends ⟨tokens.map (PlacedToken.mapSpans change), place⟩ := by
  rw [Input.Ends, List.getLast?_map, Option.map_map]
  exact ends

/-- The same problem, or the same tree with changed places, is read from tokens with changed places. -/
theorem ofTokens_mapSpans {change : Span → Span} (respects : Span.Respects change) {tokens : List PlacedToken}
    {place : Span} (ends : Input.Ends ⟨tokens, place⟩) :
    match ofTokens tokens with
    | .ok unit => ofTokens (tokens.map (PlacedToken.mapSpans change)) = .ok (unit.mapSpans change)
    | .error found => ∃ span, ofTokens (tokens.map (PlacedToken.mapSpans change)) = .error ⟨found.problem, span⟩ := by
  have isSome : tokens ≠ [] := by
    rintro rfl
    cases ends
  have sameFuel : readingFuel (tokens.map (PlacedToken.mapSpans change)) = readingFuel tokens := by
    rw [readingFuel, List.length_map, readingFuel]
  have read := Reader.compilationUnit_moves respects (readingFuel tokens) ⟨tokens, ⟨0, 0⟩⟩ isSome
  have same := Reader.compilationUnit_givesSame (readingFuel tokens) (ends_mapSpans change ends) ⟨0, 0⟩ (change ⟨0, 0⟩)
  rw [ofTokens_eq, ofTokens_eq, sameFuel, same]
  cases isRead : Reader.compilationUnit (readingFuel tokens) ⟨tokens, ⟨0, 0⟩⟩ with
  | ok found =>
      rw [isRead] at read
      exact congrArg (fun result => ofReading (result.map Prod.fst)) read.1
  | error stop =>
      rw [isRead] at read
      cases stop with
      | exhausted => exact ⟨_, congrArg (fun result => ofReading (result.map Prod.fst)) read⟩
      | finding found =>
          obtain ⟨span, isMoved⟩ := read
          exact ⟨span, congrArg (fun result => ofReading (result.map Prod.fst)) isMoved⟩

end CompilationUnit

end Snippet
