import Snippet.Proofs.Passing.Running

/-!
Code without jumps: a run of the machine through the layout of a block is a run of the block. Main statement:
`Running.Of.unfolds`.
-/

namespace Snippet

/-! ### Jumps out of a round -/

namespace Block

/-- Whether no jump out of a round stands outside the bodies of the loops of a block. -/
def IsClosed : Block → Prop
  | empty | command _ => True
  | append first second | choose first second => first.IsClosed ∧ second.IsClosed
  | guard _ body | scope _ body => body.IsClosed
  | loop _ _ test _ advance => test.IsClosed ∧ advance.IsClosed
  | leaveLoop | nextRound => False

end Block

/-- Whether a completion is no jump out of a round. -/
def Completion.IsOrderly : Completion → Prop
  | leaveLoop | nextRound => False
  | next | gaveBack _ => True

namespace Activation

theorem of_follow {before : Option (Completion × Activation)}
    {behind : Activation → Option (Completion × Activation)} {result : Completion × Activation}
    (done : follow before behind = some result) :
    (∃ activation, before = some (.next, activation) ∧ behind activation = some result) ∨
      before = some result ∧ result.1 ≠ .next := by
  unfold follow at done
  split at done
  · next activation => exact .inl ⟨activation, rfl, done⟩
  · next other =>
    refine .inr ⟨done, fun isNext => ?_⟩
    obtain ⟨completion, activation⟩ := result
    cases isNext
    exact other activation done

/-- Behind what only ends normally the rest goes on. -/
theorem of_follow_next {before : Option (Completion × Activation)}
    {behind : Activation → Option (Completion × Activation)} {result : Completion × Activation}
    (goesOn : ∀ ⦃ended⦄, before = some ended → ended.1 = .next) (done : follow before behind = some result) :
    ∃ activation, before = some (.next, activation) ∧ behind activation = some result := by
  rcases of_follow done with found | ⟨ended, notNext⟩
  · exact found
  · exact absurd (goesOn ended) notNext

theorem of_turn {body : Option (Completion × Activation)}
    {round onward : Activation → Option (Completion × Activation)} {result : Completion × Activation}
    (done : turn body round onward = some result) :
    (∃ activation, body = some (.next, activation) ∧ onward activation = some result) ∨
      (∃ activation, body = some (.nextRound, activation) ∧ round activation = some result) ∨
      (∃ activation, body = some (.leaveLoop, activation) ∧ result = (.next, activation)) ∨
      ∃ value activation, body = some (.gaveBack value, activation) ∧ result = (.gaveBack value, activation) := by
  unfold turn at done
  split at done
  · next activation => exact .inl ⟨activation, rfl, done⟩
  · next activation => exact .inr (.inl ⟨activation, rfl, done⟩)
  · next activation => exact .inr (.inr (.inl ⟨activation, rfl, (Option.some.inj done).symm⟩))
  · next notNext notRound notLeft =>
    obtain ⟨completion, activation⟩ := result
    cases completion with
    | next => exact absurd done (notNext activation)
    | nextRound => exact absurd done (notRound activation)
    | leaveLoop => exact absurd done (notLeft activation)
    | gaveBack value => exact .inr (.inr (.inr ⟨value, activation, done, rfl⟩))

theorem follow_of_ne {result : Completion × Activation} (isOther : result.1 ≠ .next)
    (behind : Activation → Option (Completion × Activation)) : follow (some result) behind = some result := by
  obtain ⟨completion, activation⟩ := result
  cases completion with
  | next => exact absurd rfl isOther
  | _ => rfl

end Activation

namespace Block

variable {site : Site} {most : Nat} {activation : Activation} {result : Completion × Activation}

theorem isOrderly_command {single : Command} (done : single.run site activation = some result) :
    result.1.IsOrderly := by
  have ofLocal {after : Option Activation} (isLocal : after.map (Completion.next, ·) = some result) :
      result.1.IsOrderly := by
    obtain ⟨_, -, rfl⟩ := Option.map_eq_some_iff.1 isLocal
    trivial
  cases single with
  | giveBack =>
    simp only [Command.run] at done
    split at done
    · split at done
      · cases done
        trivial
      · cases done
    · cases done
  | giveBackNothing =>
    simp only [Command.run] at done
    split at done
    · cases done
      trivial
    · cases done
  | load =>
    simp only [Command.run] at done
    split at done
    · cases done
    · exact ofLocal done
  | _ =>
    simp only [Command.run] at done
    exact ofLocal done

/-- A loop ends orderly if its test and its advance do. -/
theorem isOrderly_rounds {isGuarded isDirect : Bool} {test body advance : Activation → Option (Completion × Activation)}
    (tests : ∀ activation result, test activation = some result → result.1.IsOrderly)
    (advances : ∀ activation result, advance activation = some result → result.1.IsOrderly)
    (done : runRounds isGuarded isDirect test body advance most activation = some result) : result.1.IsOrderly := by
  induction most generalizing activation with
  | zero => cases done
  | succ most ih =>
      have goOn {activation : Activation} (again : Activation.follow (advance activation)
          (runRounds isGuarded isDirect test body advance most) = some result) : result.1.IsOrderly := by
        rcases Activation.of_follow again with ⟨_, -, rest⟩ | ⟨ended, -⟩
        · exact ih rest
        · exact advances _ _ ended
      rw [runRounds] at done
      rcases Activation.of_follow done with ⟨tested, -, rest⟩ | ⟨ended, -⟩
      · split at rest
        · cases rest
        · cases rest
          trivial
        · have isRound {activation : Activation} (again : (if isDirect then
              runRounds isGuarded isDirect test body advance most else fun activation =>
                Activation.follow (advance activation)
                  (runRounds isGuarded isDirect test body advance most)) activation = some result) :
              result.1.IsOrderly := by
            cases isDirect with
            | true => exact ih again
            | false => exact goOn again
          rcases Activation.of_turn rest with ⟨_, -, rest⟩ | ⟨_, -, rest⟩ | ⟨_, -, rfl⟩ | ⟨_, _, -, rfl⟩
          · exact goOn rest
          · exact isRound rest
          · trivial
          · trivial
      · exact tests _ _ ended

/-- A block without jumps out of a round ends orderly. -/
theorem IsClosed.run {block : Block} (closed : block.IsClosed) (done : block.run site most activation = some result) :
    result.1.IsOrderly := by
  induction block generalizing activation result with
  | empty =>
      cases done
      trivial
  | command single => exact isOrderly_command done
  | append first second first_ih second_ih =>
      rcases Activation.of_follow done with ⟨_, -, rest⟩ | ⟨ended, -⟩
      · exact second_ih closed.2 rest
      · exact first_ih closed.1 ended
  | guard truth body ih =>
      rw [Block.run] at done
      split at done
      · cases done
      · split at done
        · exact ih closed done
        · cases done
          trivial
  | choose thenBlock elseBlock then_ih else_ih =>
      rw [Block.run] at done
      split at done
      · cases done
      · exact then_ih closed.1 done
      · exact else_ih closed.2 done
  | loop isGuarded isDirect test body advance test_ih _ advance_ih =>
      exact isOrderly_rounds (fun _ _ done => test_ih closed.1 done) (fun _ _ done => advance_ih closed.2 done) done
  | leaveLoop | nextRound => exact closed.elim
  | scope extent body ih => exact ih closed done

theorem isClosed_ofList (commands : List Command) : (ofList commands).IsClosed := by
  induction commands with
  | nil => trivial
  | cons first rest ih => exact ⟨trivial, ih⟩

end Block

mutual

/-- No jump out of a round stands in an expression. -/
theorem TypedExpr.isClosed_block (value : TypedExpr) (free : Nat) : (value.block free).IsClosed := by
  match value with
  | .mk node type _ => exact node.isClosed_block free type

theorem TypedNode.isClosed_block (node : TypedNode) (free : Nat) (type : Ty) : (node.block free type).IsClosed := by
  match node with
  | .const _ | .slot _ | .newList _ | .newObject _ => trivial
  | .field object _ => exact ⟨object.isClosed_block free, trivial⟩
  | .assign (.slot _) value => exact ⟨value.isClosed_block free, Block.isClosed_ofList _⟩
  | .assign (.field object _) value => exact ⟨⟨object.isClosed_block _, value.isClosed_block _⟩, trivial⟩
  | .update (.slot _) _ value => exact ⟨⟨trivial, value.isClosed_block _⟩, Block.isClosed_ofList _⟩
  | .update (.field object _) _ value =>
    exact ⟨⟨⟨object.isClosed_block _, Block.isClosed_ofList _⟩, value.isClosed_block _⟩, Block.isClosed_ofList _⟩
  | .step (.slot _) _ _ => exact Block.isClosed_ofList _
  | .step (.field object _) _ isFront =>
    refine ⟨object.isClosed_block _, ?_⟩
    cases isFront <;> exact Block.isClosed_ofList _
  | .binary _ left right => exact ⟨⟨left.isClosed_block _, right.isClosed_block _⟩, trivial⟩
  | .logical _ left right => exact ⟨⟨left.isClosed_block _, trivial⟩, trivial, right.isClosed_block _⟩
  | .not operand | .negate operand | .convert (.numeric _) operand | .convert (.cast _) operand =>
    exact ⟨operand.isClosed_block _, trivial⟩
  | .conditional condition thenValue elseValue =>
    exact ⟨condition.isClosed_block _, thenValue.isClosed_block _, elseValue.isClosed_block _⟩
  | .call _ passed => exact ⟨⟨TypedArgument.isClosed_blockOfAll passed _, trivial⟩, Block.isClosed_ofList _⟩
  | .hostCall _ passed => exact ⟨TypedExpr.isClosed_blockOfAll passed _, trivial⟩
  | .builtin _ receiver passed =>
    exact ⟨⟨receiver.isClosed_block _, TypedExpr.isClosed_blockOfAll passed _⟩, trivial⟩

theorem TypedExpr.isClosed_blockOfAll (values : List TypedExpr) (free : Nat) :
    (TypedExpr.blockOfAll free values).IsClosed := by
  match values with
  | [] => trivial
  | first :: rest => exact ⟨first.isClosed_block _, TypedExpr.isClosed_blockOfAll rest _⟩

theorem TypedArgument.isClosed_blockOfAll (passed : List TypedArgument) (free : Nat) :
    (TypedArgument.blockOfAll free passed).IsClosed := by
  match passed with
  | [] => trivial
  | .mk mode value :: rest =>
    have others := TypedArgument.isClosed_blockOfAll rest
    have isValue := value.isClosed_block
    unfold TypedArgument.blockOfAll
    split
    · trivial
    · next same =>
      cases same
      exact ⟨trivial, others _⟩
    · next same =>
      cases same
      exact ⟨isValue _, others _⟩

end

theorem TypedExpr.isClosed_effectBody (value : TypedExpr) (free : Nat) : (value.effectBody free).IsClosed := by
  unfold effectBody
  split
  · exact ⟨TypedExpr.isClosed_block _ _, trivial⟩
  · exact ⟨⟨trivial, TypedExpr.isClosed_block _ _⟩, Block.isClosed_ofList _⟩
  · exact Block.isClosed_ofList _
  · split
    · exact TypedExpr.isClosed_block _ _
    · exact ⟨TypedExpr.isClosed_block _ _, trivial⟩

theorem TypedExpr.isClosed_effectBlockOfAll (values : List TypedExpr) (free : Nat) :
    (TypedExpr.effectBlockOfAll free values).IsClosed := by
  induction values generalizing free with
  | nil => trivial
  | cons first rest ih => exact ⟨first.isClosed_effectBody free, ih _⟩

mutual

/-- No jump out of a round stands outside all loops of a statement that stands outside all loops. -/
theorem TypedStmt.isClosed_body {typing : Typing} (statement : TypedStmt) (fits : statement.Fits typing false)
    (free : Nat) : (statement.body free).IsClosed := by
  match statement with
  | .block body => exact TypedStmt.isClosed_blockOfAll body fits free
  | .evaluate value => exact value.isClosed_effectBody free
  | .giveBack _ none => trivial
  | .giveBack _ (some value) => exact ⟨value.isClosed_block free, trivial⟩
  | .branch condition thenBranch none =>
    exact ⟨condition.isClosed_block free, thenBranch.isClosed_body fits.2.2 _⟩
  | .branch condition thenBranch (some elseBranch) =>
    exact ⟨condition.isClosed_block free, thenBranch.isClosed_body fits.2.2.1 _, elseBranch.isClosed_body fits.2.2.2 _⟩
  | .whileLoop condition body => exact ⟨condition.isClosed_block free, trivial⟩
  | .forLoop start condition steps body =>
    refine ⟨TypedStmt.isClosed_blockOfAll start fits.1 free, ?_, TypedExpr.isClosed_effectBlockOfAll steps _⟩
    cases condition with
    | none => trivial
    | some condition => exact condition.isClosed_block _
  | .leaveLoop | .nextRound => cases fits

theorem TypedStmt.isClosed_blockOfAll {typing : Typing} (statements : List TypedStmt)
    (fit : TypedStmt.AllFit typing false statements) (free : Nat) :
    (TypedStmt.blockOfAll free statements).IsClosed := by
  match statements with
  | [] => trivial
  | first :: rest => exact ⟨first.isClosed_body fit.1 free, TypedStmt.isClosed_blockOfAll rest fit.2 _⟩

end

/-- No jump out of a round stands outside all loops of a method that keeps its promises. -/
theorem TypedProgram.MethodFits.isClosed_block {program : TypedProgram} {references : LibrarySet}
    {method : TypedMethod} (fits : program.MethodFits references method) : method.block.IsClosed := by
  have closed := TypedStmt.isClosed_blockOfAll method.body fits.body method.slots.length
  unfold TypedMethod.block
  dsimp only
  split
  · exact ⟨closed, trivial⟩
  · exact closed

/-- Where the parts of a loop stand that is laid out at a start. -/
theorem Assembly.Stands.loop {code : List Assembly} {isGuarded isDirect : Bool} {test body advance : Block}
    {start done round : Nat}
    (stands : Stands code start ((Block.loop isGuarded isDirect test body advance).layout start done round)) :
    ∃ bodyStart next finish : Nat, bodyStart = start + test.length + (if isGuarded then 1 else 0) ∧
      next = bodyStart + body.length ∧ finish = next + advance.length + 1 ∧
      start + (Block.loop isGuarded isDirect test body advance).length = finish ∧
      Stands code start (test.layout start done round) ∧
      (isGuarded = true → code[start + test.length]? = some (.jumpIf false finish)) ∧
      Stands code bodyStart (body.layout bodyStart finish (if isDirect then start else next)) ∧
      Stands code next (advance.layout next done round) ∧
      code[next + advance.length]? = some (.jump start) := by
  have inGuard := stands.left.left.left.right
  have inBody := stands.left.left.right
  have inAdvance := stands.left.right
  have inJump := stands.right.head
  simp only [List.length_append, Block.length_layout, ← Nat.add_assoc] at inGuard inBody inAdvance inJump
  have size (finish : Nat) : (if isGuarded then [Assembly.jumpIf false finish] else []).length =
      if isGuarded then 1 else 0 := by
    cases isGuarded <;> rfl
  rw [size] at inBody inAdvance inJump
  refine ⟨_, _, _, rfl, rfl, rfl, ?_, stands.left.left.left.left, fun guarded => ?_, inBody, inAdvance, inJump⟩
  · rw [Block.length]
    omega
  · rw [if_pos guarded] at inGuard
    exact inGuard.head

/-! ### Blocks in the code of a call -/

namespace Running

/-- What a block of a running call runs in. -/
def site (running : Running) (program : TypedProgram) (libraries : LibrarySet) (most : Nat) : Site where
  libraries := libraries
  methods := program.methods
  call := program.run libraries most
  slots := running.method.slots

/-- Whether a machine that comes to an outcome within a number of steps, in front of a block of the call, runs the block
and comes to the outcome behind it. -/
def Unfolds (running : Running) (program : TypedProgram) (libraries : LibrarySet) (image : Image) (module : Module)
    (outcome : Outcome) (limit most : Nat) (block : Block) : Prop :=
  ∀ (start done round steps : Nat) (activation : Activation), steps ≤ limit →
    Assembly.Stands (running.method.block.layout 0 0 0) start (block.layout start done round) →
    running.Goes program image module outcome steps start activation →
    ∃ result rest, block.run (running.site program libraries most) most activation = some result ∧ rest ≤ steps ∧
      (result.1 = .nextRound → rest < steps) ∧
      running.Reaches program image module outcome done round (start + block.length) rest result

variable {program : TypedProgram} {references libraries : LibrarySet} {image : Image} {module : Module}
  {outcome : Outcome} {running : Running} {limit most : Nat}

/-- Behind a block that ends otherwise than normally it does not matter where the block ends. -/
theorem Reaches.elsewhere {done round stop steps : Nat} {result : Completion × Activation} (isOther : result.1 ≠ .next)
    (reaches : running.Reaches program image module outcome done round stop steps result) (other : Nat) :
    running.Reaches program image module outcome done round other steps result := by
  obtain ⟨completion, activation⟩ := result
  cases completion with
  | next => exact absurd rfl isOther
  | _ => exact reaches

namespace Unfolds

variable {first second : Block}

theorem append (one : running.Unfolds program libraries image module outcome limit most first)
    (other : running.Unfolds program libraries image module outcome limit most second) :
    running.Unfolds program libraries image module outcome limit most (first.append second) := by
  intro start done round steps activation enough stands goes
  obtain ⟨⟨completion, middle⟩, rest, ran, isLess, isStrict, reaches⟩ :=
    one start done round steps activation enough stands.left goes
  by_cases isNext : completion = .next
  · subst isNext
    have behind := stands.right
    rw [Block.length_layout] at behind
    obtain ⟨result, last, ran', isLess', isStrict', reaches'⟩ :=
      other _ done round rest middle (Nat.le_trans isLess enough) behind reaches
    refine ⟨result, last, ?_, Nat.le_trans isLess' isLess,
      fun isRound => Nat.lt_of_lt_of_le (isStrict' isRound) isLess, ?_⟩
    · rw [Block.run, ran]
      exact ran'
    · rw [Block.length, ← Nat.add_assoc]
      exact reaches'
  · refine ⟨(completion, middle), rest, ?_, isLess, isStrict, reaches.elsewhere isNext _⟩
    rw [Block.run, ran]
    exact Activation.follow_of_ne isNext _

variable (loads : program.LoadsTo references libraries image module) (isOf : running.Of program image)

include loads isOf

theorem guard (truth : Bool) (body : running.Unfolds program libraries image module outcome limit most first) :
    running.Unfolds program libraries image module outcome limit most (.guard truth first) := by
  intro start done round steps activation enough stands goes
  obtain ⟨found, after, rest, popped, isLess, goes⟩ := goes.jumpIf loads isOf stands.head
  have place : start + (Block.guard truth first).length = start + 1 + first.length := by
    rw [Block.length]
    omega
  rw [place, Block.run, popped]
  dsimp only
  by_cases isFound : found = truth
  · have isOther : found ≠ !truth := by rw [isFound]; cases truth <;> exact Bool.noConfusion
    rw [if_neg isOther] at goes
    rw [if_pos isFound]
    obtain ⟨result, last, ran, isLess', -, reaches⟩ :=
      body _ done round rest after (Nat.le_trans (Nat.le_of_lt isLess) enough) stands.tail goes
    have isLess := Nat.lt_of_le_of_lt isLess' isLess
    exact ⟨result, last, ran, Nat.le_of_lt isLess, fun _ => isLess, reaches⟩
  · have isOther : found = !truth := by cases found <;> cases truth <;> first | rfl | exact absurd rfl isFound
    rw [if_pos isOther] at goes
    rw [if_neg isFound]
    exact ⟨(.next, after), rest, rfl, Nat.le_of_lt isLess, fun _ => isLess, goes⟩

theorem choose (one : running.Unfolds program libraries image module outcome limit most first)
    (other : running.Unfolds program libraries image module outcome limit most second) :
    running.Unfolds program libraries image module outcome limit most (.choose first second) := by
  intro start done round steps activation enough stands goes
  have place : start + (Block.choose first second).length = start + 1 + first.length + 1 + second.length := by
    rw [Block.length]
    omega
  have behind := stands.right
  rw [List.length_cons, Block.length_layout, ← Nat.add_assoc, Nat.add_right_comm] at behind
  obtain ⟨found, after, rest, popped, isLess, goes⟩ := goes.jumpIf loads isOf stands.left.head
  have enough : rest ≤ limit := Nat.le_trans (Nat.le_of_lt isLess) enough
  rw [place, Block.run, popped]
  cases found with
  | true =>
    dsimp only
    obtain ⟨⟨completion, middle⟩, last, ran, isLess', -, reaches⟩ :=
      one _ done round rest after enough stands.left.tail goes
    have isLess := Nat.lt_of_le_of_lt isLess' isLess
    by_cases isNext : completion = .next
    · subst isNext
      obtain ⟨final, isFinal, goes⟩ := Goes.jump loads isOf reaches behind.head
      have isLess := Nat.lt_trans isFinal isLess
      exact ⟨(.next, middle), final, ran, Nat.le_of_lt isLess, fun _ => isLess, goes⟩
    · exact ⟨(completion, middle), last, ran, Nat.le_of_lt isLess, fun _ => isLess, reaches.elsewhere isNext _⟩
  | false =>
    dsimp only
    obtain ⟨result, last, ran, isLess', -, reaches⟩ := other _ done round rest after enough behind.tail goes
    have isLess := Nat.lt_of_le_of_lt isLess' isLess
    exact ⟨result, last, ran, Nat.le_of_lt isLess, fun _ => isLess, reaches⟩

/-- The rounds of a loop. The induction is on the rounds that are left; every round takes a step. -/
theorem rounds {isGuarded isDirect : Bool} {test body advance : Block}
    (tests : running.Unfolds program libraries image module outcome limit most test)
    (turns : running.Unfolds program libraries image module outcome limit most body)
    (advances : running.Unfolds program libraries image module outcome limit most advance)
    {start done round : Nat} (stands : Assembly.Stands (running.method.block.layout 0 0 0) start
      ((Block.loop isGuarded isDirect test body advance).layout start done round))
    {rounds steps : Nat} {activation : Activation} (fewer : steps ≤ rounds) (enough : steps ≤ limit)
    (goes : running.Goes program image module outcome steps start activation) :
    ∃ result rest, Block.runRounds isGuarded isDirect (test.run (running.site program libraries most) most)
        (body.run (running.site program libraries most) most)
        (advance.run (running.site program libraries most) most) rounds activation = some result ∧ rest ≤ steps ∧
      (result.1 = .nextRound → rest < steps) ∧
      running.Reaches program image module outcome done round
        (start + (Block.loop isGuarded isDirect test body advance).length) rest result := by
  induction rounds generalizing steps activation with
  | zero =>
      obtain ⟨-, calls, ends, -⟩ := goes
      obtain rfl : steps = 0 := Nat.le_zero.1 fewer
      cases ends
  | succ rounds ih =>
      obtain ⟨bodyStart, next, finish, isBody, isNext, isFinish, isStop, inTest, inGuard, inBody, inAdvance, inJump⟩ :=
        stands.loop
      rw [isStop] at ih ⊢
      let runs (block : Block) := block.run (running.site program libraries most) most
      let again := Block.runRounds isGuarded isDirect (runs test) (runs body) (runs advance) rounds
      let onward (activation : Activation) := Activation.follow (runs advance activation) again
      let directly := if isDirect then again else onward
      -- What goes on in front of the advance goes on behind the loop.
      have goOn {left : Nat} {after : Activation} (isLeft : left ≤ steps)
          (goes : running.Goes program image module outcome left next after) :
          ∃ result rest, onward after = some result ∧ rest ≤ steps ∧ (result.1 = .nextRound → rest < steps) ∧
            running.Reaches program image module outcome done round finish rest result := by
        obtain ⟨⟨completion, behind⟩, last, ran, isLess, isStrict, reaches⟩ :=
          advances _ done round left after (Nat.le_trans isLeft enough) inAdvance goes
        by_cases isNormal : completion = .next
        · subst isNormal
          obtain ⟨turned, isTurned, goes⟩ := Goes.jump loads isOf reaches inJump
          obtain ⟨result, rest, ran', isLess', -, reaches'⟩ := ih (by omega) (by omega) goes
          have isLess : rest < steps := by omega
          refine ⟨result, rest, ?_, Nat.le_of_lt isLess, fun _ => isLess, reaches'⟩
          show Activation.follow (advance.run _ _ after) again = some result
          rw [ran]
          exact ran'
        · refine ⟨(completion, behind), last, ?_, by omega, fun isRound => ?_, reaches.elsewhere isNormal _⟩
          · show Activation.follow (advance.run _ _ after) again = _
            rw [ran]
            exact Activation.follow_of_ne isNormal _
          · exact Nat.lt_of_lt_of_le (isStrict isRound) isLeft
      have turn {left : Nat} {after : Activation} (isLeft : left ≤ steps) (isDirectly : isDirect = true → left < steps)
          (goes : running.Goes program image module outcome left (if isDirect then start else next) after) :
          ∃ result rest, directly after = some result ∧ rest ≤ steps ∧ (result.1 = .nextRound → rest < steps) ∧
            running.Reaches program image module outcome done round finish rest result := by
        cases isDirect with
        | true =>
          have isLess := isDirectly rfl
          obtain ⟨result, rest, ran, isLess', -, reaches⟩ := ih (by omega) (by omega) goes
          exact ⟨result, rest, ran, by omega, fun _ => by omega, reaches⟩
        | false => exact goOn isLeft goes
      have enters {left : Nat} {after : Activation} (isLeft : left ≤ steps)
          (goes : running.Goes program image module outcome left bodyStart after) :
          ∃ result rest, Activation.turn (runs body after) directly onward = some result ∧ rest ≤ steps ∧
            (result.1 = .nextRound → rest < steps) ∧
            running.Reaches program image module outcome done round finish rest result := by
        obtain ⟨⟨completion, behind⟩, last, ran, isLess, isStrict, reaches⟩ :=
          turns _ _ _ left after (Nat.le_trans isLeft enough) inBody goes
        rw [← isNext] at reaches
        replace ran : runs body after = some (completion, behind) := ran
        rw [ran]
        cases completion with
        | next => exact goOn (Nat.le_trans isLess isLeft) reaches
        | leaveLoop => exact ⟨_, last, rfl, Nat.le_trans isLess isLeft, Completion.noConfusion, reaches⟩
        | nextRound =>
          have isLess := Nat.lt_of_lt_of_le (isStrict rfl) isLeft
          exact turn (Nat.le_of_lt isLess) (fun _ => isLess) reaches
        | gaveBack value => exact ⟨_, last, rfl, Nat.le_trans isLess isLeft, Completion.noConfusion, reaches⟩
      obtain ⟨⟨completion, tested⟩, left, ran, isLess, isStrict, reaches⟩ :=
        tests _ done round steps activation enough inTest goes
      rw [Block.runRounds, ran]
      by_cases isNormal : completion = .next
      · subst isNormal
        cases isGuarded with
        | false => exact enters isLess (isBody ▸ reaches)
        | true =>
          obtain ⟨found, after, rest, popped, isLess', goes⟩ := Goes.jumpIf loads isOf reaches (inGuard rfl)
          rw [if_pos rfl] at isBody
          dsimp only [Activation.follow]
          rw [if_pos rfl, popped]
          cases found with
          | false => exact ⟨_, rest, rfl, by omega, Completion.noConfusion, goes⟩
          | true =>
            rw [if_neg Bool.noConfusion, ← isBody] at goes
            exact enters (by omega) goes
      · exact ⟨(completion, tested), left, Activation.follow_of_ne isNormal _, isLess, isStrict,
          reaches.elsewhere isNormal _⟩

/-- A command that is local to the call. -/
theorem runLocal {single : Command} (isLocal : single.isLocal = true) :
    running.Unfolds program libraries image module outcome limit most (.command single) := by
  intro start done round steps activation enough stands goes
  have lacks {slot : Nat} (isLoad : single = .load slot) :
      (running.site program libraries most).lacks activation.stored slot = false := by
    subst isLoad
    exact goes.not_lacks loads isOf rfl stands.head
  have moves : ∃ after rest, single.runLocal (running.site program libraries most) activation = some after ∧
      rest < steps ∧ running.Goes program image module outcome rest (start + 1) after :=
    goes.runLocal loads isOf rfl stands.head isLocal
  obtain ⟨after, rest, ran, isLess, goes⟩ := moves
  refine ⟨(.next, after), rest, ?_, Nat.le_of_lt isLess, Completion.noConfusion, goes⟩
  rw [Block.run, Command.run_of_isLocal isLocal fun _ => lacks, ran]
  rfl

theorem giveBack : running.Unfolds program libraries image module outcome limit most (.command .giveBack) := by
  intro start done round steps activation enough stands goes
  have assigns : (running.site program libraries most).assignsOut activation.stored = true :=
    goes.assignsOut loads isOf rfl (.inl rfl) stands.head
  obtain ⟨result, stack, rest, isStack, isLess, leaves⟩ := goes.giveBack loads isOf stands.head
  refine ⟨(.gaveBack (some result), { activation with stack }), rest, ?_, isLess, Completion.noConfusion, leaves⟩
  rw [Block.run, Command.run, isStack]
  exact if_pos assigns

theorem giveBackNothing :
    running.Unfolds program libraries image module outcome limit most (.command .giveBackNothing) := by
  intro start done round steps activation enough stands goes
  have assigns : (running.site program libraries most).assignsOut activation.stored = true :=
    goes.assignsOut loads isOf rfl (.inr rfl) stands.head
  obtain ⟨rest, isLess, leaves⟩ := goes.giveBackNothing loads isOf stands.head
  refine ⟨(.gaveBack none, activation), rest, ?_, isLess, Completion.noConfusion, leaves⟩
  rw [Block.run, Command.run]
  exact if_pos assigns

/-- A call whose method unfolds ends. -/
theorem whole (unfolds : running.Unfolds program libraries image module outcome limit most running.method.block)
    {steps : Nat} {arguments : List Value} {stack : Stack} {world : World} {calls : List HostCall}
    (enough : steps ≤ limit) (goes : running.Goes program image module outcome steps 0
      ⟨running.method.start arguments, [], stack, world, calls⟩) :
    ∃ result after rest, program.run libraries (most + 1) running.index arguments stack world calls =
        some ⟨result, after.slots, after.stack, after.world, after.calls⟩ ∧ rest ≤ steps ∧
      running.Leaves program image module outcome rest result after := by
  have stands : Assembly.Stands (running.method.block.layout 0 0 0) 0 (running.method.block.layout 0 0 0) :=
    fun place line isLine => by rw [Nat.zero_add, isLine]
  obtain ⟨⟨completion, after⟩, rest, ran, isLess, -, reaches⟩ := unfolds 0 0 0 steps _ enough stands goes
  obtain ⟨_, isMethod, fits, -⟩ := loads.compiles.compiled_at isOf.compiled
  cases isOf.found.symm.trans isMethod
  have orderly := fits.isClosed_block.run ran
  cases completion with
  | next => exact (Goes.not_end loads isOf reaches (Nat.zero_add _)).elim
  | leaveLoop | nextRound => exact orderly.elim
  | gaveBack result =>
    refine ⟨result, after, rest, ?_, isLess, reaches⟩
    rw [TypedProgram.run, isOf.found]
    exact congrArg (· >>= _) ran

/-- A call of a method, if what is called unfolds in fewer steps. -/
theorem call (deeper : ∀ rest < limit, ∀ fuel : Nat, rest ≤ fuel → ∀ callee : Running, callee.Of program image →
      ∀ block : Block, callee.Unfolds program libraries image module outcome rest fuel block)
    (isEnough : limit ≤ most) (index : Nat) :
    running.Unfolds program libraries image module outcome limit most (.command (.call index)) := by
  intro start done round steps activation enough stands goes
  obtain ⟨method, compiled, arguments, stack, rest, found, popped, isLess, isCallee, entered⟩ :=
    goes.call loads isOf stands.head
  obtain ⟨fuel, rfl⟩ : ∃ fuel : Nat, most = fuel + 1 := ⟨most - 1, by omega⟩
  obtain ⟨result, after, last, called, isLess', leaves⟩ := whole loads isCallee
    (deeper rest (by omega) fuel (by omega) _ isCallee method.block) (Nat.le_refl _) entered
  refine ⟨(.next, { activation with
    stack := Stack.pushAll (result.toList ++ after.stack) (method.finals after.slots)
    world := after.world, calls := after.calls }), last, ?_, by omega, Completion.noConfusion, leaves⟩
  rw [Block.run, Command.run, Site.runCall_eq found popped called]
  rfl

/-- Every block unfolds, if its parts unfold and calls unfold in fewer steps. The induction follows the block. -/
theorem ofBlock (deeper : ∀ rest < limit, ∀ fuel : Nat, rest ≤ fuel → ∀ callee : Running, callee.Of program image →
      ∀ block : Block, callee.Unfolds program libraries image module outcome rest fuel block)
    (isEnough : limit ≤ most) (block : Block) :
    running.Unfolds program libraries image module outcome limit most block := by
  induction block with
  | empty =>
      intro start done round steps activation enough stands goes
      exact ⟨(.next, activation), steps, rfl, Nat.le_refl _, Completion.noConfusion, goes⟩
  | command single =>
      cases single with
      | call index => exact call loads isOf deeper isEnough index
      | giveBack => exact giveBack loads isOf
      | giveBackNothing => exact giveBackNothing loads isOf
      | _ => exact runLocal loads isOf rfl
  | append first second one other => exact one.append other
  | guard truth body ih => exact guard loads isOf truth ih
  | choose thenBlock elseBlock one other => exact choose loads isOf one other
  | loop isGuarded isDirect test body advance tests turns advances =>
      intro start done round steps activation enough stands goes
      rw [Block.run]
      exact rounds loads isOf tests turns advances stands (Nat.le_trans enough isEnough) enough goes
  | leaveLoop =>
      intro start done round steps activation enough stands goes
      obtain ⟨rest, isLess, goes⟩ := goes.jump loads isOf stands.head
      exact ⟨(.leaveLoop, activation), rest, rfl, Nat.le_of_lt isLess, Completion.noConfusion, goes⟩
  | nextRound =>
      intro start done round steps activation enough stands goes
      obtain ⟨rest, isLess, goes⟩ := goes.jump loads isOf stands.head
      exact ⟨(.nextRound, activation), rest, rfl, Nat.le_of_lt isLess, fun _ => isLess, goes⟩
  | scope extent body ih =>
      intro start done round steps activation enough stands goes
      exact ih start done round steps activation enough stands goes

end Unfolds

/-- A machine that comes to an outcome, in front of a block of the running call, runs the block. The induction is on the
steps: what a call calls takes fewer. -/
theorem Of.unfolds (loads : program.LoadsTo references libraries image module) (isOf : running.Of program image)
    (enough : limit ≤ most) (block : Block) :
    running.Unfolds program libraries image module outcome limit most block := by
  induction limit using Nat.strongRecOn generalizing running most block with
  | _ limit ih =>
      exact .ofBlock loads isOf (fun rest isLess fuel enough callee isCallee block =>
        ih rest isLess isCallee enough block) enough block

end Running

end Snippet
