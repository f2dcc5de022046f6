/-
  Effects on a state. An effect changes a state and yields a value
  or a fault; what it did before a fault stays done, so that only
  its definition can tell what a fault leaves behind.

  Key definitions include:
    * `Effect`
    * `Effect.Atomic`

  Key theorems include:
    * `Effect.run_bind`
    * `Effect.run_bind_eq_ok`
    * `Effect.run_bind_eq_error`
    * `Effect.run_tryCatch`
-/

namespace RegisterVM

/- A change of a state that yields a value or a fault. -/
abbrev Effect (σ ε α : Type) :=
  ExceptT ε (StateM σ) α

namespace Effect

variable {σ ε α β : Type}

/- A sequence goes on from a value and stops at a fault. -/
theorem run_bind
    (first : Effect σ ε α)
    (rest : α → Effect σ ε β)
    (s : σ) :
    (first >>= rest).run s =
      match first.run s with
      | (.ok value, s') => (rest value).run s'
      | (.error e, s') => (.error e, s') := by
  show
    (match first.run s with
      | (result, s') => (ExceptT.bindCont rest result) s') = _
  rcases first.run s with ⟨_ | _, s'⟩ <;> rfl

/- A sequence yields a value if both of its parts do. -/
theorem run_bind_eq_ok
    {first : Effect σ ε α}
    {rest : α → Effect σ ε β}
    {s s'' : σ}
    {result : β} :
    (first >>= rest).run s = (.ok result, s'') ↔
      ∃ value s', first.run s = (.ok value, s') ∧
        (rest value).run s' = (.ok result, s'') := by
  rw [run_bind]
  rcases first.run s with ⟨e | value, s'⟩
  · constructor
    · intro hRun
      cases hRun
    · rintro ⟨_, _, hFirst, _⟩
      cases hFirst
  · constructor
    · intro hRun
      exact ⟨value, s', rfl, hRun⟩
    · rintro ⟨_, _, hFirst, hRest⟩
      cases hFirst
      exact hRest

/- It ends in a fault at the first part or at the second. -/
theorem run_bind_eq_error
    {first : Effect σ ε α}
    {rest : α → Effect σ ε β}
    {s s'' : σ}
    {e : ε} :
    (first >>= rest).run s = (.error e, s'') ↔
      first.run s = (.error e, s'') ∨
        ∃ value s', first.run s = (.ok value, s') ∧
          (rest value).run s' = (.error e, s'') := by
  rw [run_bind]
  rcases first.run s with ⟨e' | value, s'⟩
  · constructor
    · intro hRun
      cases hRun
      exact Or.inl rfl
    · rintro (hFirst | ⟨_, _, hFirst, _⟩)
      · cases hFirst
        rfl
      · cases hFirst
  · constructor
    · intro hRun
      exact Or.inr ⟨value, s', rfl, hRun⟩
    · rintro (hFirst | ⟨_, _, hFirst, hRest⟩)
      · cases hFirst
      · cases hFirst
        exact hRest

/- A value is changed where there is one. -/
theorem run_map
    (f : α → β)
    (action : Effect σ ε α)
    (s : σ) :
    (f <$> action).run s =
      match action.run s with
      | (.ok value, s') => (.ok (f value), s')
      | (.error e, s') => (.error e, s') := by
  show (action >>= fun value => pure (f value)).run s = _
  rw [run_bind]
  rcases action.run s with ⟨_ | _, s'⟩ <;> rfl

theorem run_get_bind
    (rest : σ → Effect σ ε α)
    (s : σ) :
    (get >>= rest).run s = (rest s).run s :=
  rfl

/- A handler goes on from a fault, in the state it left. -/
theorem run_tryCatch
    (body : Effect σ ε α)
    (handler : ε → Effect σ ε α)
    (s : σ) :
    (tryCatch body handler).run s =
      match body.run s with
      | (.ok value, s') => (.ok value, s')
      | (.error e, s') => (handler e).run s' := by
  unfold tryCatch instMonadExceptOfMonadExceptOf tryCatchThe
  simp only [MonadExceptOf.tryCatch, ExceptT.tryCatch,
    ExceptT.run, ExceptT.mk, bind, StateT.bind]
  rcases body s with ⟨_ | _, s'⟩ <;> rfl

/- An effect of which a fault leaves the state as it was. -/
def Atomic
    (action : Effect σ ε α) : Prop :=
  ∀ s e s', action.run s = (.error e, s') → s' = s

end Effect

end RegisterVM
