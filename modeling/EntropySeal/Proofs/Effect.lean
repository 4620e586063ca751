import EntropySeal.Effect

/-!
# Running actions and attempts

What an action or an attempt does, step by step: each law rewrites a run into
the runs of its parts.  A delivery leaves alone what it does not reach of a buffer.
-/

namespace EntropySeal

variable {σ τ α β : Type}

namespace Action

@[simp]
theorem run_pure (a : α) (t : Traced σ) : (pure a : Action σ α) t = (a, t) :=
  rfl

@[simp]
theorem run_bind (act : Action σ α) (next : α → Action σ β) (t : Traced σ) :
    (act >>= next) t = next (act t).1 (act t).2 :=
  rfl

@[simp]
theorem run_log (e : Event) (t : Traced σ) :
    log e t = ((), { t with events := t.events ++ [e] }) :=
  rfl

end Action

namespace Attempt

@[simp]
theorem run_pure (a : α) (t : Traced σ) : (pure a : Attempt σ α).toAction t = (.ok a, t) :=
  rfl

@[simp]
theorem run_throw (e : Error) (t : Traced σ) :
    (throw e : Attempt σ α).toAction t = (.error e, t) :=
  rfl

@[simp]
theorem run_mk (act : Action σ (Except Error α)) (t : Traced σ) :
    toAction (ExceptT.mk act) t = act t :=
  rfl

@[simp]
theorem run_always (act : Action σ α) (t : Traced σ) :
    (always act).toAction t = (.ok (act t).1, (act t).2) :=
  rfl

@[simp]
theorem run_log (e : Event) (t : Traced σ) :
    (log e).toAction t = (.ok (), { t with events := t.events ++ [e] }) :=
  rfl

/-- An attempt goes on after a success only. -/
theorem run_bind (act : Attempt σ α) (next : α → Attempt σ β) (t : Traced σ) :
    (act >>= next).toAction t =
      match act.toAction t with
      | (.ok a, t') => (next a).toAction t'
      | (.error e, t') => (.error e, t') := by
  simp only [toAction, ExceptT.run, bind, ExceptT.bind, ExceptT.mk, StateT.bind]
  rcases act t with ⟨result, t'⟩
  cases result <;> rfl

theorem run_bind_ok {act : Attempt σ α} {t t' : Traced σ} {a : α}
    (ran : act.toAction t = (.ok a, t')) (next : α → Attempt σ β) :
    (act >>= next).toAction t = (next a).toAction t' := by
  rw [run_bind, ran]

theorem run_bind_error {act : Attempt σ α} {t t' : Traced σ} {e : Error}
    (ran : act.toAction t = (.error e, t')) (next : α → Attempt σ β) :
    (act >>= next).toAction t = (.error e, t') := by
  rw [run_bind, ran]

/-- A function applied to what an attempt brings is applied to a success only. -/
theorem run_map (f : α → β) (act : Attempt σ α) (t : Traced σ) :
    (f <$> act).toAction t = ((act.toAction t).1.map f, (act.toAction t).2) := by
  rw [map_eq_pure_bind, run_bind]
  rcases act.toAction t with ⟨result, t'⟩
  cases result <;> rfl

/-- An attempt succeeds where both of its parts do. -/
theorem run_bind_eq_ok_iff {act : Attempt σ α} {next : α → Attempt σ β} {t t' : Traced σ}
    {b : β} :
    (act >>= next).toAction t = (.ok b, t') ↔
      ∃ a between, act.toAction t = (.ok a, between) ∧
        (next a).toAction between = (.ok b, t') := by
  rw [run_bind]
  rcases act.toAction t with ⟨result, between⟩
  cases result with
  | error e =>
      constructor
      · exact nofun
      · rintro ⟨_, _, returned, _⟩
        cases returned
  | ok a =>
      constructor
      · intro succeeded
        exact ⟨a, between, rfl, succeeded⟩
      · rintro ⟨_, _, returned, succeeded⟩
        cases returned
        exact succeeded

end Attempt

/-- A buffer keeps what a delivery does not reach. -/
theorem Delivery.writtenTo_eq {d : Delivery} {buffer : Bytes}
    (fits : d.bytes.length ≤ buffer.length) :
    d.writtenTo buffer = d.bytes ++ buffer.drop d.bytes.length := by
  apply List.take_of_length_le
  rw [List.length_append, List.length_drop]
  omega

end EntropySeal
