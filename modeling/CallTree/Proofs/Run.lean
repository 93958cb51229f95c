import CallTree.Host.Run

/-! Runs as functions of the machine that they start from. -/
namespace CallTree.Run

variable {σ α β : Type} {m m' : Machine σ}

/-- How a run ends that starts from a machine, and the machine that it leaves. -/
def exec (x : Run σ α) (m : Machine σ) : Except Fault α × Machine σ := Id.run (x.run.run m)

@[simp] theorem exec_pure (a : α) : exec (pure a : Run σ α) m = (.ok a, m) := rfl

@[simp] theorem exec_throw (f : Fault) : exec (throw f : Run σ α) m = (.error f, m) := rfl

theorem exec_eq_of_ok {x : Run σ α} {a : α} (h : (exec x m).1 = .ok a) :
    exec x m = (.ok a, (exec x m).2) := Prod.ext h rfl

/-- What comes after a run sees its machine, and nothing comes after a fault. -/
theorem exec_bind (x : Run σ α) (k : α → Run σ β) :
    exec (x >>= k) m = match exec x m with
      | (.ok a, m') => exec (k a) m'
      | (.error f, m') => (.error f, m') := by
  unfold exec ExceptT.run StateT.run Id.run
  simp only [bind, ExceptT.bind, ExceptT.mk, StateT.bind, ExceptT.bindCont]
  rcases x m with ⟨_ | _, _⟩ <;> rfl

theorem exec_bind_ok {x : Run σ α} {k : α → Run σ β} {a : α} (h : exec x m = (.ok a, m')) :
    exec (x >>= k) m = exec (k a) m' := by
  rw [exec_bind, h]

theorem exec_bind_error {x : Run σ α} {k : α → Run σ β} {f : Fault}
    (h : exec x m = (.error f, m')) : exec (x >>= k) m = (.error f, m') := by
  rw [exec_bind, h]

/-- A run that comes through has come through its first part. -/
theorem exec_bind_eq_ok {x : Run σ α} {k : α → Run σ β} {b : β}
    (h : exec (x >>= k) m = (.ok b, m')) :
    ∃ a m₁, exec x m = (.ok a, m₁) ∧ exec (k a) m₁ = (.ok b, m') := by
  rw [exec_bind] at h
  rcases hx : exec x m with ⟨f | a, m₁⟩
  · rw [hx] at h
    cases h
  · rw [hx] at h
    exact ⟨a, m₁, rfl, h⟩

/-- A run fails in its first part, or in what comes after that. -/
theorem exec_bind_error_iff {x : Run σ α} {k : α → Run σ β} {f : Fault} :
    (exec (x >>= k) m).1 = .error f ↔ (exec x m).1 = .error f ∨
      ∃ a m₁, exec x m = (.ok a, m₁) ∧ (exec (k a) m₁).1 = .error f := by
  rcases hx : exec x m with ⟨f' | a, m₁⟩
  · rw [exec_bind_error hx]
    simp
  · rw [exec_bind_ok hx]
    constructor
    · intro h
      exact Or.inr ⟨a, m₁, rfl, h⟩
    · rintro (h | ⟨a', m₂, h, hk⟩)
      · cases h
      · cases h
        exact hk

theorem exec_tryCatch (x : Run σ α) (k : Fault → Run σ α) :
    exec (tryCatch x k) m = match exec x m with
      | (.ok a, m') => (.ok a, m')
      | (.error f, m') => exec (k f) m' := by
  unfold exec ExceptT.run StateT.run Id.run
  simp only [tryCatch, tryCatchThe, MonadExceptOf.tryCatch, ExceptT.tryCatch, ExceptT.mk, bind,
    StateT.bind]
  rcases x m with ⟨_ | _, _⟩ <;> rfl

@[simp] theorem exec_record (e : Event) :
    exec (record e) m = (.ok (), { m with events := m.events ++ [e] }) := rfl

/-- A function of the host changes nothing but the state of the host. -/
theorem exec_enter (h : Host σ) (f : FunctionRef) (args : List Value) (m : Machine σ) :
    exec (h.enter f args) m =
      ((h.perform f args m.host).1, { m with host := (h.perform f args m.host).2 }) := rfl

end CallTree.Run
