import CallTree.Proofs.Simulation

/-! What gets into the log: one error for each statement whose hook or callable fails, and one for
each scope whose provider cannot be asked for its callables. -/
namespace CallTree

variable {σ τ : Type} {m m' m₁ : Machine σ} {i : Nat} {g : Setting σ} {h h' : History σ}
  {v w : Visit σ}

open Run

/-- A provider that fails when it is asked for its callables. An error is not asked. -/
def Scope.unlisted (os : Objects) (provider : Value) : Bool :=
  match Table.ofValue os provider with
  | .ok _ => false
  | .error _ => true

theorem Scope.exec_bind_unlisted (g : Setting σ) (provider : Value) (m : Machine σ) :
    exec (Scope.bind g provider) m = (.ok (ofValue g.host.objects provider),
      { m with logged := m.logged + if unlisted g.host.objects provider then 1 else 0 }) := by
  cases ht : Table.ofValue g.host.objects provider with
  | ok t => cases provider <;> simp only [Scope.bind, ofValue, unlisted, ht] <;> rfl
  | error f =>
    cases provider <;> simp only [Scope.bind, ofValue, unlisted, ht]
    case error e => cases ht
    all_goals rfl

/-! ### What does not log -/

/-- Machines that are the same, with `n` errors logged. -/
def Machine.SameLogged (n : Nat) (m m' : Machine σ) : Prop := m = m' ∧ m.logged = n

theorem Run.related_record_sameLogged (n : Nat) (e : Event) :
    Related (Machine.SameLogged n : Machine σ → Machine σ → Prop) (record e) (record e) := by
  rintro m m' ⟨rfl, hn⟩
  exact ⟨rfl, rfl, hn⟩

theorem Host.simulates_sameLogged (h : Host σ) (n : Nat) :
    h.Simulates (Machine.SameLogged n) h := by
  refine ⟨rfl, fun e _ => related_record_sameLogged n e, ?_⟩
  rintro f args m m' ⟨rfl, hn⟩
  exact ⟨rfl, rfl, hn⟩

theorem Host.logged_parts (h : Host σ) (key value : Value) (m : Machine σ) :
    (exec (Answer.parts h key value) m).2.logged = m.logged :=
  ((h.simulates_sameLogged m.logged).parts key value m m ⟨rfl, rfl⟩).2.2

/-- The call behind a statement logs nothing. What becomes of its fault does. -/
theorem Setting.logged_invoke (g : Setting σ) (scope : Scope) (mode : Mode) (name : String)
    (entry : Entry) (args : List Value) (m : Machine σ) :
    (exec (g.invoke scope mode name entry args) m).2.logged = m.logged :=
  ((g.host.simulates_sameLogged m.logged).invoke g.transform
    (fun _ => related_record_sameLogged m.logged _) args m m ⟨rfl, rfl⟩).2.2

/-! ### What one statement logs -/

namespace Setting

/-- The call that a statement makes, and the entry that it calls. -/
def called? (scope : Scope) (text : Value) (mode : Mode) : Option (Call × Entry) :=
  match scope.callables, text with
  | .ok table, .str s => match Call.ofStatement? s with
    | some call => match table.resolve (.str call.name) mode with
      | .ok (.ok entry) => some (call, entry)
      | _ => none
    | none => none
  | _, _ => none

theorem Calls.called?_eq {scope : Scope} {text : Value} {mode : Mode} {call : Call} {entry : Entry}
    (hc : Calls scope text mode call entry) : called? scope text mode = some (call, entry) := by
  obtain ⟨table, s, hs, rfl, hcall, hentry, hallow⟩ := hc
  simp only [called?, hs, hcall, Table.resolve, hentry, hallow]

theorem Settles.called?_eq {scope : Scope} {text : Value} {mode : Mode} {e : CallError}
    (he : Settles scope text mode e) : called? scope text mode = none := by
  cases he with
  | poisoned hs => simp only [called?, hs]
  | invalid hs hc =>
    cases text with
    | str s => simp only [called?, hs, hc s rfl]
    | _ => simp only [called?, hs]
  | missing hs ht hc hg => simp only [called?, hs, ht, hc, Table.resolve, hg]
  | denied hs ht hc hg ha => simp only [called?, hs, ht, hc, Table.resolve, hg, ha]

theorem args_of_called? {s : Statement} {scope : Scope} {mode : Mode} {call : Call} {entry : Entry}
    (hc : called? scope s.text mode = some (call, entry)) : s.args = call.args := by
  unfold called? at hc
  split at hc
  · next t _ ht =>
    split at hc
    · next call' hcall =>
      split at hc
      · cases hc
        simp only [Statement.args, ht, hcall, Option.map_some, Option.getD_some]
      · cases hc
    · cases hc
  · cases hc

end Setting

namespace Visit

/-- What the hook or the callable of a statement raised, if one of them did. -/
def raised? (g : Setting σ) (v : Visit σ) : Option Fault :=
  match Setting.called? v.scope v.text v.mode with
  | some (call, entry) =>
    match (Run.exec (g.invoke v.scope v.mode call.name entry
        (call.args.map (Argument.value v.context))) v.before).1 with
    | .error f => some f
    | .ok _ => none
  | none => none

/-- The evaluation of a statement that logs an error. An error value that is raised is a value. -/
def logs (g : Setting σ) (v : Visit σ) : Bool :=
  match v.raised? g with
  | some (.reported _) => false
  | some _ => true
  | none => false

/-- The statement before a scope whose provider cannot be asked. -/
def opensUnlisted (g : Setting σ) (v : Visit σ) : Bool :=
  match v.mode, (v.exec g).1 with
  | .path, .ok provider => Scope.unlisted g.host.objects provider
  | _, _ => false

theorem raised?_of_calls {call : Call} {entry : Entry}
    (hc : Setting.Calls v.scope v.text v.mode call entry) :
    v.raised? g = match (Run.exec (g.invoke v.scope v.mode call.name entry
        (call.args.map (Argument.value v.context))) v.before).1 with
      | .error f => some f
      | .ok _ => none := by
  simp only [raised?, hc.called?_eq]

theorem raised?_of_settles {e : CallError} (he : Setting.Settles v.scope v.text v.mode e) :
    v.raised? g = none := by
  simp only [raised?, he.called?_eq]

theorem exec_of_settles {e : CallError} (he : Setting.Settles v.scope v.text v.mode e) :
    v.exec g = (.ok (.error e), v.before) := by
  rw [exec, g.evaluate_of_settles he, Run.exec_pure]

theorem logged_exec (hm : v.mode = .data ∨ v.mode = .path) :
    (v.exec g).2.logged = v.before.logged + if v.logs g then 1 else 0 := by
  obtain ⟨e, he⟩ | ⟨call, entry, hc⟩ := Setting.settles_or_calls v.scope v.text hm
  · rw [exec_of_settles he, logs, raised?_of_settles he]
    rfl
  · have hn := g.logged_invoke v.scope v.mode call.name entry
      (call.args.map (Argument.value v.context)) v.before
    rw [exec, g.evaluate_of_calls hc, Setting.contain, exec_tryCatch, logs, raised?_of_calls hc]
    rcases hx : Run.exec (g.invoke v.scope v.mode call.name entry
      (call.args.map (Argument.value v.context))) v.before with ⟨f | w, m₁⟩
    · rw [hx] at hn
      cases f with
      | reported e => exact hn
      | _ => exact congrArg (· + 1) hn
    · rw [hx] at hn
      exact hn

/-- The same is raised from machines in relation. -/
theorem Related.raised? {R : Machine σ → Machine τ → Prop} {g' : Setting τ} {v' : Visit τ}
    (hv : v.Related R v') (hs : g.Simulates R g') : v'.raised? g' = v.raised? g := by
  unfold Visit.raised?
  rw [hv.statement, hv.scope]
  cases hc : Setting.called? v.scope v.text v.mode with
  | none => rfl
  | some called =>
    obtain ⟨call, entry⟩ := called
    have hargs := hv.args
    rw [hv.statement, Setting.args_of_called? hc] at hargs
    dsimp only
    rw [hargs, (hs.invoke v.scope v.mode call.name entry _ _ _ hv.before).1]

end Visit

/-! ### What a whole answer logs -/

namespace History

/-- From `m` on, there is an error in the log for each statement that logs one, and for each scope
that cannot be set up. -/
def Logs (g : Setting σ) (m : Machine σ) (h : History σ) : Prop :=
  h.machine.logged =
    m.logged + (h.visits.countP (Visit.logs g) + h.visits.countP (Visit.opensUnlisted g))

theorem Logs.andThen (hh : h.Logs g m) (hh' : h'.Logs g h.machine) : (h.andThen h').Logs g m := by
  cases hf : h.fault with
  | some f =>
    rw [andThen_of_fault hf]
    exact hh
  | none =>
    rw [andThen_of_none hf]
    unfold Logs at hh hh' ⊢
    simp only [hh', hh, List.countP_append]
    omega

theorem Logs.leaf (hv : h.visits = [v]) (hm : v.mode = .data)
    (hn : h.machine.logged = (v.exec g).2.logged) : h.Logs g v.before := by
  have ho : v.opensUnlisted g = false := by
    simp only [Visit.opensUnlisted, hm]
  rw [Logs, hn, Visit.logged_exec (Or.inl hm), hv, List.countP_singleton, List.countP_singleton, ho]
  rfl

theorem Logs.inScope {provider : Value} (hm : v.mode = .path)
    (hv : v.exec g = (.ok provider, m₁))
    (hh : h.Logs g { m₁ with
      logged := m₁.logged + if Scope.unlisted g.host.objects provider then 1 else 0 }) (i : Nat) :
    (h.inScope v i).Logs g v.before := by
  have ho : v.opensUnlisted g = Scope.unlisted g.host.objects provider := by
    simp only [Visit.opensUnlisted, hm, hv]
  have hn := v.logged_exec (g := g) (Or.inr hm)
  rw [hv] at hn
  have hlogs : Visit.logs g ∘ Visit.under i = Visit.logs g := rfl
  have hopens : Visit.opensUnlisted g ∘ Visit.under i = Visit.opensUnlisted g := rfl
  unfold Logs at hh ⊢
  simp only [History.inScope, List.countP_cons, List.countP_map, hlogs, hopens, ho]
  simp only at hh hn
  omega

end History

open History in
mutual
theorem entryHistory_logs (g : Setting σ) (scope : Scope) (context : Dict Value) (i : Nat)
    (e : RequestEntry) (m : Machine σ) : (entryHistory g scope context i e m).Logs g m := by
  match e with
  | .declare n v | .invalid key => rfl
  | .leaf key s =>
    obtain ⟨w, m₁, hw, ⟨f, m₂, hp, hh⟩ | ⟨es, m₂, hp, hh⟩⟩ :=
      entryHistory_leaf g scope context i key s m
    all_goals
      have hn := g.host.logged_parts key w m₁
      rw [hp] at hn
      rw [hh]
      refine Logs.leaf (v := Visit.ofLeaf scope context i key s m) rfl rfl ?_
      rw [hw]
      exact hn
  | .scope key body =>
    obtain ⟨w, m₁, n, hw, hb, hh⟩ := entryHistory_scope g scope context i key body m
    rw [Scope.exec_bind_unlisted] at hb
    rw [hh, ← (Prod.mk.inj hb).2]
    exact Logs.inScope rfl hw (historyFrom_logs g _ context 0 body _) i

theorem historyFrom_logs (g : Setting σ) (scope : Scope) (context : Dict Value) (i : Nat)
    (es : List RequestEntry) (m : Machine σ) : (historyFrom g scope context i es m).Logs g m := by
  match es with
  | [] => rfl
  | e :: r =>
    exact (entryHistory_logs g scope context i e m).andThen
      (historyFrom_logs g scope _ (i + 1) r _)
end

/-- All that an answer logs, with the scope of the root. -/
theorem history_logs (g : Setting σ) (root : Value) (context : Dict Value) (request : Request)
    (m : Machine σ) :
    (history g root context request m).machine.logged =
      m.logged + (if Scope.unlisted g.host.objects root then 1 else 0) +
        ((history g root context request m).visits.countP (Visit.logs g) +
          (history g root context request m).visits.countP (Visit.opensUnlisted g)) := by
  have hh := historyFrom_logs g (Scope.ofValue g.host.objects root) context 0 request
    (exec (Scope.bind g root) m).2
  rw [History.Logs, Scope.exec_bind_unlisted] at hh
  rw [history, Scope.exec_bind_unlisted, hh]

end CallTree
