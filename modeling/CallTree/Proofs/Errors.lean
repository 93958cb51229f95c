import CallTree.Proofs.ErrorFree
import CallTree.Proofs.Hook
import CallTree.Proofs.Logged
import CallTree.Proofs.Poison

/-! The errors in an answer. Where none of them comes from the host, they are those of the dispatch
itself, and no method fails in silence. -/
namespace CallTree

variable {σ : Type} {g : Setting σ} {w : Value} {m m' : Machine (Watched σ)} {p q : Prop}
  {base : Nat}

open Run

/-- An error of the dispatch itself. That of a method stands only where `logged` holds. -/
structure CallError.Explained (logged : Prop) (e : CallError) : Prop where
  canonical : e.IsCanonical
  logged : e.kind = .methodError → logged

/-- A value without errors, or an error of the dispatch. -/
def Value.Explained (logged : Prop) (v : Value) : Prop :=
  v.errorFree = true ∨ ∃ e, v = .error e ∧ e.Explained logged

/-- A scope that is not poisoned, or is poisoned by an error of the dispatch. -/
def Scope.Explained (logged : Prop) (scope : Scope) : Prop :=
  ∀ e, scope.poisoned = some e → e.Explained logged

theorem CallError.Explained.mono {e : CallError} (he : e.Explained p) (h : p → q) :
    e.Explained q :=
  ⟨he.canonical, fun hk => h (he.logged hk)⟩

theorem Value.Explained.mono (hw : w.Explained p) (h : p → q) : w.Explained q := by
  obtain hw | ⟨e, rfl, he⟩ := hw
  · exact Or.inl hw
  · exact Or.inr ⟨e, rfl, he.mono h⟩

theorem Value.Explained.of_error {e : CallError} (hw : (Value.error e).Explained p) :
    e.Explained p := by
  obtain hw | ⟨e', he, hp⟩ := hw
  · cases hw
  · cases he
    exact hp

/-! ### One statement -/

/-- Neither the hook nor the callable of a statement raises an error where the host gives none. -/
theorem Host.errorFree_invoke {h : Host σ} {transform : Option Value} {scope : Scope} {mode : Mode}
    {name : String} {entry : Entry} {args : List Value}
    (hc : (exec (Setting.invoke ⟨h.watched, transform⟩ scope mode name entry args) m).2.Clean) :
    Outcome.errorFree
      (exec (Setting.invoke ⟨h.watched, transform⟩ scope mode name entry args) m).1 = true := by
  cases transform with
  | none =>
    rw [exec_invoke_none, exec_bind_ok (exec_record _)] at hc ⊢
    exact errorFree_call hc
  | some t =>
    obtain ⟨given, m₁, ha⟩ | ⟨pre, arg, post, given, m₁, f, m₂, rfl, ha, hf⟩ :=
      h.watched.applies_or_fails t args m
    · rw [exec_invoke_of_applies ha, exec_bind_ok (exec_record _)] at hc ⊢
      exact errorFree_call hc
    · rw [exec_invoke_of_fails ha hf, ← hf] at hc ⊢
      exact errorFree_call hc

namespace Visit

variable {v : Visit (Watched σ)}

/-- The call behind a statement raises no error, and gives none. -/
theorem errorFree_of_calls {call : Call} {entry : Entry}
    (hs : Setting.Calls v.scope v.text v.mode call entry) (hc : (v.exec g.watched).2.Clean) :
    Outcome.errorFree (Run.exec (g.watched.invoke v.scope v.mode call.name entry
      (call.args.map (Argument.value v.context))) v.before).1 = true := by
  obtain ⟨w, n, hw⟩ := Setting.exec_contain (g.watched.invoke v.scope v.mode call.name entry
    (call.args.map (Argument.value v.context))) v.before
  rw [exec, Setting.evaluate_of_calls _ hs, hw] at hc
  exact Host.errorFree_invoke hc

theorem raised?_ne_reported (hm : v.mode = .data ∨ v.mode = .path)
    (hc : (v.exec g.watched).2.Clean) (e : CallError) :
    v.raised? g.watched ≠ some (.reported e) := by
  intro hr
  obtain ⟨e', he⟩ | ⟨call, entry, hs⟩ := Setting.settles_or_calls v.scope v.text hm
  · rw [raised?_of_settles he] at hr
    cases hr
  · have hfree := errorFree_of_calls hs hc
    rw [raised?_of_calls hs] at hr
    split at hr
    · next f hf =>
      cases hr
      rw [hf] at hfree
      cases hfree
    · cases hr

/-- A statement has a value without errors, or an error that it is settled by, or that of a method,
which is in the log then. -/
theorem explained_exec (hm : v.mode = .data ∨ v.mode = .path) (hb : base ≤ v.before.logged)
    (hs : v.scope.Explained (base < v.before.logged)) (hx : v.exec g.watched = (.ok w, m'))
    (hc : m'.Clean) : w.Explained (base < m'.logged) := by
  obtain ⟨e, he⟩ | ⟨call, entry, hcalls⟩ := Setting.settles_or_calls v.scope v.text hm
  · rw [exec_of_settles he] at hx
    cases hx
    refine Or.inr ⟨e, rfl, ?_⟩
    cases he with
    | poisoned hp => exact hs e (Scope.poisoned_eq_some_iff.mpr hp)
    | invalid | missing | denied => exact ⟨rfl, fun hk => by cases hk⟩
  · have hfree := errorFree_of_calls hcalls (by rw [hx]; exact hc)
    have hn := g.watched.logged_invoke v.scope v.mode call.name entry
      (call.args.map (Argument.value v.context)) v.before
    rw [exec, Setting.evaluate_of_calls _ hcalls, Setting.contain, exec_tryCatch] at hx
    rcases hy : Run.exec (g.watched.invoke v.scope v.mode call.name entry
      (call.args.map (Argument.value v.context))) v.before with ⟨f | u, m₁⟩
    · rw [hy] at hx hn hfree
      cases f with
      | reported e => cases hfree
      | _ =>
        cases hx
        exact Or.inr ⟨CallError.methodError, rfl, rfl, fun _ => Nat.lt_succ_of_le (hn ▸ hb)⟩
    · rw [hy] at hx hfree
      cases hx
      exact Or.inl hfree

end Visit

/-- An error is taken apart into itself, and a value without errors into such values. -/
theorem Answer.explained_parts (ho : g.host.objects.errorFree = true) (hw : w.Explained p)
    {key : Value} {es : List (Value × Value)}
    (hx : exec (parts g.host.watched key w) m = (.ok es, m')) (hc : m'.Clean) :
    ∀ e ∈ es, e.2.Explained p := by
  intro e he
  obtain hw | ⟨e', rfl, hp⟩ := hw
  · exact Or.inl (errorFree_parts ho hw hx hc e he)
  · rw [exec_parts_of_error] at hx
    cases hx
    obtain ⟨name, -, rfl⟩ := List.mem_map.mp he
    exact Or.inr ⟨e', rfl, hp⟩

/-- The scope of a provider is poisoned by the provider, or because that cannot be asked, which is
in the log then. -/
theorem Scope.explained_ofValue (os : Objects) {n : Nat} (hb : base ≤ n)
    (hw : ∀ e, w = .error e → e.Explained (base < n)) :
    (Scope.ofValue os w).Explained (base < n + if Scope.unlisted os w then 1 else 0) := by
  intro e he
  obtain he | ⟨⟨f, hf⟩, rfl⟩ := (poisoned_ofValue_iff os w).mp he
  · exact (hw e he).mono fun h => Nat.lt_add_right _ h
  · have hu : unlisted os w = true := by
      simp only [unlisted, hf]
    rw [hu]
    exact ⟨rfl, fun _ => Nat.lt_succ_of_le hb⟩

/-! ### Whole answers -/

namespace History

variable {h h' : History (Watched σ)}

/-- What is bound in the answer is explained, where the log had `base` errors at first, and no
statement raised an error. -/
structure Explained (g : Setting σ) (base : Nat) (h : History (Watched σ)) : Prop where
  values : ∀ b ∈ h.bindings, b.answered = true → b.value.Explained (base < h.machine.logged)
  raised : ∀ v ∈ h.visits, ∀ e, v.raised? g.watched ≠ some (.reported e)

theorem Explained.andThen (hh : h.Explained g base)
    (hh' : h.fault = none → h'.Explained g base)
    (hn : h.fault = none → h.machine.logged ≤ h'.machine.logged) :
    (h.andThen h').Explained g base := by
  cases hf : h.fault with
  | some f =>
    rw [andThen_of_fault hf]
    exact hh
  | none =>
    rw [andThen_of_none hf]
    refine ⟨?_, ?_⟩
    · intro b hb ha
      rcases List.mem_append.mp hb with hb | hb
      · exact (hh.values b hb ha).mono fun h => Nat.lt_of_lt_of_le h (hn hf)
      · exact (hh' hf).values b hb ha
    · intro v hv
      rcases List.mem_append.mp hv with hv | hv
      · exact hh.raised v hv
      · exact (hh' hf).raised v hv

theorem machine_inScope (v : Visit σ) (i : Nat) (h : History σ) :
    (h.inScope v i).machine = h.machine := rfl

theorem Explained.inScope {v : Visit (Watched σ)} (hh : h.Explained g base)
    (hv : ∀ e, v.raised? g.watched ≠ some (.reported e)) (i : Nat) :
    (h.inScope v i).Explained g base := by
  refine ⟨?_, ?_⟩
  · intro b hb
    obtain ⟨b', hb', rfl⟩ := List.mem_map.mp hb
    exact hh.values b' hb'
  · intro u hu
    rcases mem_visits_inScope.mp hu with rfl | ⟨u', hu', rfl⟩
    · exact hv
    · exact hh.raised u' hu'

end History

theorem le_logged_historyFrom (g : Setting σ) (scope : Scope) (context : Dict Value) (i : Nat)
    (es : List RequestEntry) (m : Machine σ) :
    m.logged ≤ (historyFrom g scope context i es m).machine.logged := by
  have hn := historyFrom_logs g scope context i es m
  rw [History.Logs] at hn
  omega

open History in
mutual
theorem entryHistory_explained (ho : g.host.objects.errorFree = true) {scope : Scope}
    {context : Dict Value} {i : Nat} {e : RequestEntry} {m : Machine (Watched σ)}
    (hb : base ≤ m.logged) (hs : scope.Explained (base < m.logged))
    (hc : (entryHistory g.watched scope context i e m).machine.Clean) :
    (entryHistory g.watched scope context i e m).Explained g base := by
  match e with
  | .declare n v =>
    refine ⟨?_, fun _ hv => absurd hv List.not_mem_nil⟩
    intro b hb ha
    obtain rfl := List.mem_singleton.mp hb
    cases ha
  | .invalid key =>
    refine ⟨?_, fun _ hv => absurd hv List.not_mem_nil⟩
    intro b hb ha
    obtain rfl := List.mem_singleton.mp hb
    exact Or.inr ⟨CallError.invalidStatement, rfl, rfl, fun hk => by cases hk⟩
  | .leaf key s =>
    obtain ⟨w, m₁, hw, hh⟩ := entryHistory_leaf g.watched scope context i key s m
    have hext : Extends (Answer.parts g.host.watched key w) :=
      extends_of_related fun past => (g.host.watched_simulates past).parts key w
    obtain ⟨f, m₂, hp, hh⟩ | ⟨es, m₂, hp, hh⟩ := hh
    all_goals
      rw [hh] at hc ⊢
      have hc₁ : m₁.Clean := hext.clean hp hc
      have hraised : ∀ v ∈ [Visit.ofLeaf scope context i key s m],
          ∀ e, v.raised? g.watched ≠ some (.reported e) := by
        intro v hv
        obtain rfl := List.mem_singleton.mp hv
        exact Visit.raised?_ne_reported (Or.inl rfl) (by rw [hw]; exact hc₁)
    · exact ⟨fun _ hb => absurd hb List.not_mem_nil, hraised⟩
    · refine ⟨?_, hraised⟩
      intro b hb' _
      obtain ⟨e, he, rfl⟩ := List.mem_map.mp hb'
      have hn : m₂.logged = m₁.logged := by
        have hn := g.watched.host.logged_parts key w m₁
        rwa [hp] at hn
      have hexp := Visit.explained_exec (Or.inl rfl) hb hs hw hc₁
      rw [← hn] at hexp
      exact Answer.explained_parts ho hexp hp hc e he
  | .scope key body =>
    obtain ⟨w, m₁, n, hw, hbind, hh⟩ := entryHistory_scope g.watched scope context i key body m
    rw [Scope.exec_bind_unlisted] at hbind
    rw [hh, ← (Prod.mk.inj hbind).2] at hc ⊢
    rw [machine_inScope] at hc
    have hc₁ : m₁.Clean := hc.of_prefix (historyFrom_extends g _ context 0 body
      { m₁ with logged := m₁.logged + if Scope.unlisted g.host.objects w then 1 else 0 })
    have hb₁ : base ≤ m₁.logged := by
      have hn := (Visit.ofKey scope context i key m).logged_exec (g := g.watched) (Or.inr rfl)
      rw [hw] at hn
      exact hb.trans (Nat.le.intro hn.symm)
    have hexp := Visit.explained_exec (Or.inr rfl) hb hs hw hc₁
    have hchild := Scope.explained_ofValue g.watched.host.objects hb₁
      fun e he => Value.Explained.of_error (he ▸ hexp)
    refine (historyFrom_explained ho ?_ hchild hc).inScope ?_ i
    · exact hb₁.trans (Nat.le_add_right ..)
    · exact Visit.raised?_ne_reported (Or.inr rfl) (by rw [hw]; exact hc₁)

/-- In a scope that is explained, so are answers. -/
theorem historyFrom_explained (ho : g.host.objects.errorFree = true) {scope : Scope}
    {context : Dict Value} {i : Nat} {es : List RequestEntry} {m : Machine (Watched σ)}
    (hb : base ≤ m.logged) (hs : scope.Explained (base < m.logged))
    (hc : (historyFrom g.watched scope context i es m).machine.Clean) :
    (historyFrom g.watched scope context i es m).Explained g base := by
  match es with
  | [] =>
    rw [historyFrom]
    exact ⟨fun _ hb => absurd hb List.not_mem_nil, fun _ hv => absurd hv List.not_mem_nil⟩
  | e :: r =>
    have hn : m.logged ≤ (entryHistory g.watched scope context i e m).machine.logged := by
      have hn := entryHistory_logs g.watched scope context i e m
      rw [Logs] at hn
      omega
    rw [historyFrom] at hc ⊢
    cases hf : (entryHistory g.watched scope context i e m).fault with
    | some f =>
      rw [andThen_of_fault hf] at hc ⊢
      exact entryHistory_explained ho hb hs hc
    | none =>
      rw [andThen_of_none hf] at hc
      have hc₁ := hc.of_prefix (historyFrom_extends g scope _ (i + 1) r _)
      refine (entryHistory_explained ho hb hs hc₁).andThen (fun _ => ?_)
        fun _ => le_logged_historyFrom ..
      refine historyFrom_explained ho (hb.trans hn) ?_ hc
      intro e' he'
      exact (hs e' he').mono fun h => Nat.lt_of_lt_of_le h hn
end

/-- Where the host gives no error, the history of the watched host is explained. -/
theorem history_explained (g : Setting σ) {root : Value} (hroot : ∀ e, root ≠ .error e)
    (ho : g.host.objects.errorFree = true) (context : Dict Value) (request : Request)
    (m : Machine σ)
    (hgiven : ∀ o ∈ outcomes g root context request m, Outcome.errorFree o = true) :
    (history g.watched root context request m.watched).Explained g m.logged := by
  have hclean : (history g.watched root context request m.watched).machine.Clean := by
    rw [outcomes, exec_answerBy] at hgiven
    exact hgiven
  rw [history, Scope.exec_bind_unlisted] at hclean ⊢
  refine historyFrom_explained ho (Nat.le_add_right ..) ?_ hclean
  exact Scope.explained_ofValue _ (Nat.le_refl _) fun e he => absurd he (hroot e)

/-- Whatever is raised in a history that is explained gets into the log. -/
theorem History.Explained.logs {h : History σ} {h' : History (Watched σ)}
    (hexp : h'.Explained g base) (hh : h.Related Machine.Watches h') :
    ∀ v ∈ h.visits, v.logs g = (v.raised? g).isSome := by
  have hmap : h.visits.map (Visit.raised? g) = h'.visits.map (Visit.raised? g.watched) := by
    rw [← List.forall₂_eq_eq_eq, List.forall₂_map_left_iff, List.forall₂_map_right_iff]
    exact hh.visits.imp fun _ _ hv => (hv.raised? g.simulates_watched).symm
  intro v hv
  have hmem := List.mem_map_of_mem (f := Visit.raised? g) hv
  rw [hmap] at hmem
  obtain ⟨v', hv', hr⟩ := List.mem_map.mp hmem
  unfold Visit.logs
  rw [← hr]
  rcases hf : v'.raised? g.watched with _ | f
  · rfl
  · cases f with
    | reported e => exact absurd hf (hexp.raised v' hv' e)
    | _ => rfl

/-- Where the host gives no error, every error in an answer is one of the four errors of the
dispatch, and that of a method is there only if something was logged.

An answer logs one error for each statement whose hook or callable raised something, and one for
each scope whose provider could not be asked for its callables, the root among them. A statement
that is settled without a call, or by the error of its scope, logs nothing. -/
theorem errors_are_canonical_and_logged (g : Setting σ) {root : Value}
    (hroot : ∀ e, root ≠ .error e) (ho : g.host.objects.errorFree = true) (context : Dict Value)
    (request : Request) (m : Machine σ)
    (hgiven : ∀ o ∈ outcomes g root context request m, Outcome.errorFree o = true)
    {d : Dict Value} {m' : Machine σ}
    (hd : exec (answerBy g root context request) m = (.ok d, m')) :
    (∀ x e, (x, .error e) ∈ d →
      e.IsCanonical ∧ (e.kind = .methodError → m.logged < m'.logged)) ∧
    m'.logged = m.logged + (if Scope.unlisted g.host.objects root then 1 else 0) +
      ((history g root context request m).visits.countP (fun v => (v.raised? g).isSome) +
        (history g root context request m).visits.countP (Visit.opensUnlisted g)) ∧
    (history g root context request m).visits.map (·.toStatement) = request.statements ∧
    ∀ v ∈ (history g root context request m).visits,
      (v.exec g).2.logged = v.before.logged + (if (v.raised? g).isSome then 1 else 0) ∧
      ∀ e, Setting.Settles v.scope v.text v.mode e →
        v.raised? g = none ∧ v.exec g = (.ok (.error e), v.before) := by
  have hh := history_watched g root context request m
  have hexp := history_explained g hroot ho context request m hgiven
  have hlogs := hexp.logs hh
  rw [exec_answerBy] at hd
  obtain ⟨hout, rfl⟩ := Prod.mk.inj hd
  have hnone : (history g root context request m).fault = none := by
    cases hf : (history g root context request m).fault with
    | none => rfl
    | some f =>
      rw [History.outcome_of_fault hf] at hout
      cases hout
  rw [History.outcome_of_none hnone] at hout
  cases hout
  have hf := history_follows g root context request m
  refine ⟨?_, ?_, (hf.complete hnone).1, ?_⟩
  · intro x e he
    obtain ⟨a, ha, hae⟩ := Dict.value_of_mem_ofList he
    obtain ⟨b, hb, rfl⟩ := List.mem_map.mp ha
    obtain ⟨hb, hanswered⟩ := List.mem_filter.mp hb
    rw [← hh.bindings] at hb
    have hvalue := hexp.values b hb hanswered
    have hbe : b.value = .error e := hae
    rw [hbe] at hvalue
    have hlog : (history g root context request m).machine.logged =
        (history g.watched root context request m.watched).machine.logged :=
      congrArg Machine.logged hh.machine
    rw [hlog]
    exact ⟨hvalue.of_error.canonical, hvalue.of_error.logged⟩
  · rw [history_logs, List.countP_congr fun v hv => by rw [hlogs v hv]]
  · intro v hv
    have hm := Request.mode_of_mem (hf.mem_statements hv)
    refine ⟨?_, ?_⟩
    · rw [Visit.logged_exec hm, hlogs v hv]
    · intro e he
      exact ⟨Visit.raised?_of_settles he, Visit.exec_of_settles he⟩

/-- A provider with a function that fails, and with one that gives a provider which fails when it is
asked for its callables. -/
def brittleWorld : World where
  objects :=
    [("brittle", .provider [Sample.method "crack" .any, Sample.method "mute" .any] "brittle"),
      ("mute", .lister .fails)]
  scripts := [("brittle", .actions [.fail, .give (.object "mute")])]

/-- One failure is found under two names, and one in a scope. Each of the two is logged once. -/
theorem Sample.failures_of_a_brittle_provider :
    let g : Setting Store := ⟨brittleWorld.host, none⟩
    let request : Request := [.leaf (.str "\x7ba, b\x7d") "crack()",
      .scope (.str "mute()") [.leaf (.str "c") "any()"], .leaf (.str "d") "any()"]
    ∃ d m', exec (answerBy g (.object "brittle") [] request) World.initial = (.ok d, m') ∧
      d = [(.str "a", .error CallError.methodError), (.str "b", .error CallError.methodError),
        (.str "c", .error CallError.methodError), (.str "d", .error CallError.methodNotFound)] ∧
      (∀ x e, (x, .error e) ∈ d →
        e.IsCanonical ∧ (e.kind = .methodError → World.initial.logged < m'.logged)) ∧
      m'.logged = 2 := by
  intro g request
  have hd : (exec (answerBy g (.object "brittle") [] request) World.initial).1 =
      .ok [(.str "a", .error CallError.methodError), (.str "b", .error CallError.methodError),
        (.str "c", .error CallError.methodError), (.str "d", .error CallError.methodNotFound)] := by
    decide +kernel
  have hraised : (history g (.object "brittle") [] request World.initial).visits.countP
      (fun v => (v.raised? g).isSome) = 1 := by
    decide +kernel
  have hopens : (history g (.object "brittle") [] request World.initial).visits.countP
      (Visit.opensUnlisted g) = 1 := by
    decide +kernel
  obtain ⟨herrors, hlogged, -⟩ := errors_are_canonical_and_logged g
    (fun e (he : Value.object "brittle" = .error e) => by cases he) (by decide +kernel) [] request
    World.initial (by decide +kernel) (Prod.ext hd rfl)
  refine ⟨_, _, Prod.ext hd rfl, rfl, herrors, ?_⟩
  rw [hlogged, hraised, hopens]
  rfl

end CallTree
