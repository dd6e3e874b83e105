import Snippet.Machine.Step

/-!
Actions in a world: what a sequence of actions gives there, and what is known behind one that succeeds.
-/

namespace Snippet

namespace Action

/-- The result of an action in a world, and the world behind it. -/
def inWorld {α : Type} (action : Action α) (world : World) : Except Exception α × World :=
  action.run.run world

variable {α β : Type} {world world' : World}

/-- An action in two parts goes on with the result of the first one, in the world behind it. -/
theorem inWorld_bind (first : Action α) (next : α → Action β) (world : World) :
    (first >>= next).inWorld world =
      match first.inWorld world with
      | (.ok value, middle) => (next value).inWorld middle
      | (.error exception, middle) => (.error exception, middle) := by
  show (ExceptT.bindCont next (first.inWorld world).1).run (first.inWorld world).2 = _
  rcases first.inWorld world with ⟨result | result, middle⟩ <;> rfl

/-- An action in two parts has a result only if the first part has one. -/
theorem of_bind_eq_ok {first : Action α} {next : α → Action β} {result : β}
    (done : (first >>= next).inWorld world = (.ok result, world')) :
    ∃ value middle, first.inWorld world = (.ok value, middle) ∧
      (next value).inWorld middle = (.ok result, world') := by
  rw [inWorld_bind] at done
  rcases isFirst : first.inWorld world with ⟨exception | value, middle⟩
  · rw [isFirst] at done
    cases done
  · rw [isFirst] at done
    exact ⟨value, middle, rfl, done⟩

/-- A step without a world has a result only if it leaves the world as it is. -/
theorem of_lift_eq_ok {step : Except Fault α} {result : α}
    (done : (liftM step : Action α).inWorld world = (.ok result, world')) :
    step = .ok result ∧ world' = world := by
  cases step with
  | error exception => cases done
  | ok value =>
      cases done
      exact ⟨rfl, rfl⟩

theorem of_pure_eq_ok {value result : α}
    (done : (pure value : Action α).inWorld world = (.ok result, world')) :
    result = value ∧ world' = world := by
  cases done
  exact ⟨rfl, rfl⟩

theorem of_map_eq_ok {change : α → β} {action : Action α} {result : β}
    (done : (change <$> action).inWorld world = (.ok result, world')) :
    ∃ value, action.inWorld world = (.ok value, world') ∧ result = change value := by
  rw [map_eq_pure_bind] at done
  obtain ⟨value, middle, isValue, rest⟩ := of_bind_eq_ok done
  obtain ⟨rfl, rfl⟩ := of_pure_eq_ok rest
  exact ⟨value, isValue, rfl⟩

/-- Whether everything that an action can give, in any world, has a property. -/
def Gives (action : Action α) (property : α → Prop) : Prop :=
  ∀ ⦃world value world'⦄, action.inWorld world = (.ok value, world') → property value

theorem Gives.bind {first : Action α} {next : α → Action β} {between : α → Prop} {property : β → Prop}
    (known : first.Gives between) (gives : ∀ value, between value → (next value).Gives property) :
    (first >>= next).Gives property := by
  intro world result world' done
  obtain ⟨value, middle, isValue, rest⟩ := of_bind_eq_ok done
  exact gives value (known isValue) rest

theorem gives_bind {first : Action α} {next : α → Action β} {property : β → Prop}
    (gives : ∀ value, (next value).Gives property) : (first >>= next).Gives property :=
  Gives.bind (show first.Gives fun _ => True from fun _ _ _ _ => trivial) fun value _ => gives value

theorem gives_pure {value : α} {property : α → Prop} (holds : property value) :
    (pure value : Action α).Gives property := by
  intro world result world' done
  obtain ⟨rfl, rfl⟩ := of_pure_eq_ok done
  exact holds

theorem gives_throw (exception : Exception) (property : α → Prop) : (throw exception : Action α).Gives property := by
  intro world result world' done
  cases done

theorem gives_lift {step : Except Fault α} {property : α → Prop}
    (holds : ∀ value, step = .ok value → property value) :
    (liftM step : Action α).Gives property := by
  intro world result world' done
  exact holds result (of_lift_eq_ok done).1

end Action

end Snippet
