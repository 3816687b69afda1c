/-!
Computations that change a state and may fail. The state is left as it was last set, also by a
computation that fails; one that is atomic then leaves the state it found.
-/

namespace JvmFrames

variable {ε σ α β : Type}

def resultOf (action : ExceptT ε (StateM σ) α) (state : σ) : Except ε (α × σ) :=
  match action.run.run state with
  | (.ok value, after) => .ok (value, after)
  | (.error cause, _) => .error cause

def Atomic (action : ExceptT ε (StateM σ) α) : Prop :=
  ∀ state cause, (action.run.run state).1 = .error cause → (action.run.run state).2 = state

theorem resultOf_eq_ok_iff {action : ExceptT ε (StateM σ) α} {state after : σ} {value : α} :
    resultOf action state = .ok (value, after) ↔ action.run.run state = (.ok value, after) := by
  unfold resultOf
  rcases action.run.run state with ⟨_ | given, left⟩
  · exact ⟨nofun, nofun⟩
  · constructor <;> rintro ⟨⟩ <;> rfl

theorem map_snd_resultOf_eq_ok_iff {action : ExceptT ε (StateM σ) Unit} {state after : σ} :
    (resultOf action state).map Prod.snd = .ok after ↔ action.run.run state = (.ok (), after) := by
  rw [← resultOf_eq_ok_iff]
  rcases resultOf action state with _ | ⟨_, _⟩
  · exact ⟨nofun, nofun⟩
  · constructor <;> rintro ⟨⟩ <;> rfl

theorem run_get_bind (next : σ → ExceptT ε (StateM σ) α) (state : σ) :
    (get >>= next).run.run state = (next state).run.run state := rfl

/-- To look at the state and then fail at once or not at all is to check before changing. -/
theorem atomic_get_bind {next : σ → ExceptT ε (StateM σ) α}
    (checked : ∀ state, (∃ cause, next state = throw cause) ∨
      ∃ value, ((next state).run.run state).1 = .ok value) : Atomic (get >>= next) := by
  intro state cause failed
  rw [run_get_bind] at failed ⊢
  rcases checked state with ⟨_, refused⟩ | ⟨value, done⟩
  · rw [refused]
    rfl
  · rw [done] at failed
    contradiction

theorem run_bind (first : ExceptT ε (StateM σ) α) (next : α → ExceptT ε (StateM σ) β) (state : σ) :
    (first >>= next).run.run state =
      match first.run.run state with
      | (.ok value, after) => (next value).run.run after
      | (.error cause, after) => (.error cause, after) := by
  rw [ExceptT.run_bind, StateT.run_bind]
  rcases first.run.run state with ⟨_ | _, after⟩ <;> rfl

theorem run_bind_ok {first : ExceptT ε (StateM σ) α} {next : α → ExceptT ε (StateM σ) β}
    {state : σ} {result : β} (success : ((first >>= next).run.run state).1 = .ok result) :
    ∃ value after, first.run.run state = (.ok value, after) ∧
      ((next value).run.run after).1 = .ok result := by
  rw [run_bind] at success
  rcases outcome : first.run.run state with ⟨answer, after⟩
  rw [outcome] at success
  cases answer with
  | error cause => contradiction
  | ok value => exact ⟨value, after, rfl, success⟩

theorem run_bind_of_ok {first : ExceptT ε (StateM σ) α} {state after : σ} {value : α}
    (success : first.run.run state = (.ok value, after)) (next : α → ExceptT ε (StateM σ) β) :
    (first >>= next).run.run state = (next value).run.run after := by
  rw [run_bind, success]

theorem run_bind_of_error {first : ExceptT ε (StateM σ) α} {state : σ} {cause : ε}
    (failure : (first.run.run state).1 = .error cause) (next : α → ExceptT ε (StateM σ) β) :
    ((first >>= next).run.run state).1 = .error cause := by
  rw [run_bind]
  rcases outcome : first.run.run state with ⟨answer, after⟩
  rw [outcome] at failure
  obtain rfl := failure
  rfl

end JvmFrames
