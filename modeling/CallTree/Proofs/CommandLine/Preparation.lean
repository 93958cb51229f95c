import CallTree.CommandLine.Run
import CallTree.Proofs.Evaluation
import CallTree.Proofs.Parts

/-! What a run of the command line does before it answers a request: it loads a provider and a hook
and reads a document. It leaves records of properties on the way to them, and one of the call that
makes the provider if what was found stands for what it makes. -/
namespace CallTree.CommandLine

variable {σ α β : Type} {s : Surroundings σ} {m m' : Machine σ} {f : Fault} {r : Refusal}

open Run

/-- How an attempt ends that starts from a machine: with a fault, with a refusal, or with a
value. -/
def attempt (x : Attempt σ α) (m : Machine σ) : Except Fault (Except Refusal α) × Machine σ :=
  exec x.run m

@[simp] theorem attempt_pure (a : α) : attempt (pure a : Attempt σ α) m = (.ok (.ok a), m) := rfl

@[simp] theorem attempt_throw (r : Refusal) :
    attempt (throw r : Attempt σ α) m = (.ok (.error r), m) := rfl

theorem attempt_lift (x : Run σ α) (m : Machine σ) :
    attempt (ExceptT.lift x) m = match exec x m with
      | (.ok a, m') => (.ok (.ok a), m')
      | (.error f, m') => (.error f, m') := by
  rw [attempt, ExceptT.run_lift, ← bind_pure_comp, exec_bind]
  rfl

/-- What comes after an attempt sees its value, and nothing comes after a fault or a refusal. -/
theorem attempt_bind (x : Attempt σ α) (k : α → Attempt σ β) :
    attempt (x >>= k) m = match attempt x m with
      | (.ok (.ok a), m') => attempt (k a) m'
      | (.ok (.error r), m') => (.ok (.error r), m')
      | (.error f, m') => (.error f, m') := by
  rw [attempt, ExceptT.run_bind, exec_bind, attempt]
  rcases exec x.run m with ⟨f | r | a, m'⟩ <;> rfl

theorem attempt_bind_ok {x : Attempt σ α} {k : α → Attempt σ β} {a : α}
    (h : attempt x m = (.ok (.ok a), m')) : attempt (x >>= k) m = attempt (k a) m' := by
  rw [attempt_bind, h]

theorem attempt_bind_refused {x : Attempt σ α} {k : α → Attempt σ β}
    (h : attempt x m = (.ok (.error r), m')) : attempt (x >>= k) m = (.ok (.error r), m') := by
  rw [attempt_bind, h]

theorem attempt_bind_fault {x : Attempt σ α} {k : α → Attempt σ β}
    (h : attempt x m = (.error f, m')) : attempt (x >>= k) m = (.error f, m') := by
  rw [attempt_bind, h]

/-- An attempt that comes through has come through its first part. -/
theorem attempt_bind_eq_ok {x : Attempt σ α} {k : α → Attempt σ β} {b : β}
    (h : attempt (x >>= k) m = (.ok (.ok b), m')) :
    ∃ a m₁, attempt x m = (.ok (.ok a), m₁) ∧ attempt (k a) m₁ = (.ok (.ok b), m') := by
  rw [attempt_bind] at h
  rcases hx : attempt x m with ⟨f | r | a, m₁⟩
  · rw [hx] at h
    cases h
  · rw [hx] at h
    cases h
  · rw [hx] at h
    exact ⟨a, m₁, rfl, h⟩

/-! ### Records -/

/-- An attempt that leaves no other records than those of properties. -/
def OnlyReads (x : Attempt σ α) : Prop := Run.OnlyReads x.run

theorem OnlyReads.bind {x : Attempt σ α} {k : α → Attempt σ β} (hx : OnlyReads x)
    (hk : ∀ a, OnlyReads (k a)) : OnlyReads (x >>= k) := by
  rw [OnlyReads, ExceptT.run_bind]
  refine Run.OnlyReads.bind hx ?_
  rintro (r | a)
  · exact onlyReads_pure _
  · exact hk a

theorem onlyReads_done (a : α) : OnlyReads (pure a : Attempt σ α) := onlyReads_pure _

theorem onlyReads_refuse (r : Refusal) : OnlyReads (throw r : Attempt σ α) := onlyReads_pure _

theorem onlyReads_lift {x : Run σ α} (hx : Run.OnlyReads x) :
    OnlyReads (ExceptT.lift x : Attempt σ α) := by
  rw [OnlyReads, ExceptT.run_lift, ← bind_pure_comp]
  exact hx.bind fun a => onlyReads_pure (Except.ok a)

theorem onlyReads_fault (f : Fault) : OnlyReads (ExceptT.lift (throw f) : Attempt σ α) :=
  onlyReads_lift fun _ => ⟨[], by simp, by simp⟩

theorem onlyReads_ofExcept (x : Except Refusal α) :
    OnlyReads (MonadExcept.ofExcept x : Attempt σ α) := by
  cases x with
  | error r => exact onlyReads_refuse r
  | ok a => exact onlyReads_done a

/-- Behind an attempt, one that leaves no other records adds records of properties. -/
theorem events_bind {k : α → Attempt σ β} (x : Attempt σ α) (hk : ∀ a, OnlyReads (k a))
    (m : Machine σ) : ∃ reads, (attempt (x >>= k) m).2.events = (attempt x m).2.events ++ reads ∧
      ∀ e ∈ reads, e.isRead = true := by
  rw [attempt_bind]
  rcases attempt x m with ⟨f | r | a, m'⟩
  · exact ⟨[], by simp, by simp⟩
  · exact ⟨[], by simp, by simp⟩
  · exact hk a m'

/-! ### Stages of a run -/

/-- With options and settings, a run comes to an answer if all is there for one. -/
theorem exec_run {arguments : List String} {o : Options} {config : Config}
    (ho : Options.ofArguments arguments = .ok o)
    (hc : Config.ofEnvironment s.environment = .ok config) (m : Machine σ) :
    exec (run s arguments) m = match attempt (prepare s o) m with
      | (.ok (.ok p), m') => exec (finish s (o.format.getD config.format) p) m'
      | (.ok (.error r), m') => (.ok (.refused r), m')
      | (.error f, m') => (.error f, m') := by
  simp only [run, ho, hc]
  rw [exec_bind, ← attempt, answer, attempt_bind]
  rcases attempt (prepare s o) m with ⟨f | r | p, m'⟩
  · rfl
  · rfl
  · dsimp only
    rw [attempt_lift]
    rcases exec (finish s (o.format.getD config.format) p) m' with ⟨f | outcome, m''⟩ <;> rfl

theorem onlyReads_follow (h : Host σ) (r : Refusal) (v : Value) (names : List String) :
    OnlyReads (follow h r v names) := by
  induction names generalizing v with
  | nil => exact onlyReads_done v
  | cons name names ih =>
    refine (onlyReads_lift (h.onlyReads_part? v name)).bind ?_
    rintro (_ | part)
    · exact onlyReads_refuse r
    · exact ih part

theorem onlyReads_load (s : Surroundings σ) (spec : String) : OnlyReads (load s spec) := by
  refine (onlyReads_ofExcept _).bind ?_
  rintro ⟨name, path⟩
  dsimp only
  split
  · exact onlyReads_fault _
  · refine (onlyReads_ofExcept _).bind ?_
    intro values
    split
    · exact onlyReads_refuse _
    · split
      · exact onlyReads_follow _ _ _ _
      · exact onlyReads_refuse _

theorem attempt_loadProvider (s : Surroundings σ) (spec : String) (m : Machine σ) :
    attempt (loadProvider s spec) m = match attempt (load s spec) m with
      | (.ok (.ok v), m') =>
        if s.host.objects.isMaker v then attempt (ExceptT.lift (s.host.call v [])) m'
        else (.ok (.ok v), m')
      | (.ok (.error r), m') => (.ok (.error r), m')
      | (.error f, m') => (.error f, m') := by
  rw [loadProvider, attempt_bind]
  rcases attempt (load s spec) m with ⟨f | r | v, m'⟩
  · rfl
  · rfl
  · dsimp only
    split <;> rfl

/-- The record of the call that makes a provider, if what is found under the name stands for what it
makes. -/
def making (s : Surroundings σ) (spec : String) (m : Machine σ) : List Event :=
  match (attempt (load s spec) m).1 with
  | .ok (.ok v) => if s.host.objects.isMaker v then s.host.records v [] else []
  | _ => []

/-- On the way to a provider properties are read, and then it is made if it has to be. -/
theorem events_loadProvider (s : Surroundings σ) (spec : String) (m : Machine σ) :
    ∃ reads, (attempt (loadProvider s spec) m).2.events = m.events ++ reads ++ making s spec m ∧
      ∀ e ∈ reads, e.isRead = true := by
  obtain ⟨reads, he, hr⟩ := onlyReads_load s spec m
  refine ⟨reads, ?_, hr⟩
  rw [attempt_loadProvider, making, ← he, ← attempt]
  rcases attempt (load s spec) m with ⟨f | r | v, m'⟩
  · simp
  · simp
  · dsimp only
    split
    · rw [← s.host.events_call v [] m', attempt_lift]
      rcases exec (s.host.call v []) m' with ⟨f | made, m''⟩ <;> rfl
    · simp

theorem onlyReads_loadTransform (s : Surroundings σ) (name : Option String) :
    OnlyReads (loadTransform s name) := by
  unfold loadTransform
  split
  · next t _ =>
    rw [map_eq_pure_bind]
    exact (onlyReads_load s t).bind fun v => onlyReads_done (hookOf? v)
  · exact onlyReads_done none

end CallTree.CommandLine
