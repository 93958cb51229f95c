import CallTree.Proofs.Logged
import CallTree.Proofs.Hook
import CallTree.Sample

/-! What becomes of one statement: the stages that it goes through, the stage that decides its
value, and what was done by then. -/
namespace CallTree

variable {σ : Type} {g : Setting σ} {scope : Scope} {text : Value} {mode : Mode}
  {context : Dict Value} {m m' : Machine σ}

open Run

namespace Setting

/-- The arguments that an entry is given: without a hook those of the statement, and else what the
hook makes of them, each in its turn. -/
inductive Gives (g : Setting σ) (args : List Value) (m : Machine σ) :
    List Value → Machine σ → Prop
  | untouched (ht : g.transform = none) : Gives g args m args m
  | transformed {t : Value} {given : List Value} {m' : Machine σ} (ht : g.transform = some t)
      (ha : g.host.Applies t args m given m') : Gives g args m given m'

/-- How the call of an entry ends. The hook may fail at an argument: then the later ones are not
looked at and the entry is not called. -/
inductive Attempts (g : Setting σ) (scope : Scope) (mode : Mode) (name : String) (entry : Entry)
    (args : List Value) (m : Machine σ) : Except Fault Value → Machine σ → Prop
  | refused {t arg : Value} {pre post given : List Value} {f : Fault} {m₁ m₂ : Machine σ}
      (ht : g.transform = some t) (he : args = pre ++ arg :: post)
      (ha : g.host.Applies t pre m given m₁) (hf : exec (g.host.call t [arg]) m₁ = (.error f, m₂)) :
      Attempts g scope mode name entry args m (.error f) m₂
  | called {given : List Value} {r : Except Fault Value} {m₁ m₂ : Machine σ}
      (hg : g.Gives args m given m₁)
      (hr : exec (g.host.call entry.target given)
        { m₁ with events := m₁.events ++ [.invoke scope.provider mode name entry given] } =
          (r, m₂)) :
      Attempts g scope mode name entry args m r m₂

/-- The value of a statement and the machine that it leaves. A statement that is settled without a
call leaves the machine as it was. Of the faults of a call, an error value is the value, and any
other one is logged. -/
inductive Yields (g : Setting σ) (scope : Scope) (text : Value) (mode : Mode)
    (context : Dict Value) (m : Machine σ) : Value → Machine σ → Prop
  | settled {e : CallError} (he : Settles scope text mode e) :
      Yields g scope text mode context m (.error e) m
  | produced {call : Call} {entry : Entry} {v : Value} {m' : Machine σ}
      (hc : Calls scope text mode call entry)
      (ha : g.Attempts scope mode call.name entry (call.args.map (Argument.value context)) m
        (.ok v) m') :
      Yields g scope text mode context m v m'
  | reported {call : Call} {entry : Entry} {e : CallError} {m' : Machine σ}
      (hc : Calls scope text mode call entry)
      (ha : g.Attempts scope mode call.name entry (call.args.map (Argument.value context)) m
        (.error (.reported e)) m') :
      Yields g scope text mode context m (.error e) m'
  | failed {call : Call} {entry : Entry} {f : Fault} {m' : Machine σ}
      (hc : Calls scope text mode call entry)
      (ha : g.Attempts scope mode call.name entry (call.args.map (Argument.value context)) m
        (.error f) m')
      (hf : ∀ e, f ≠ .reported e) :
      Yields g scope text mode context m (.error CallError.methodError)
        { m' with logged := m'.logged + 1 }

/-! ### The call -/

variable {name : String} {entry : Entry} {args : List Value} {r : Except Fault Value}

theorem exec_invoke_of_gives {given : List Value} {m₁ : Machine σ} (hg : g.Gives args m given m₁)
    (scope : Scope) (mode : Mode) (name : String) (entry : Entry) :
    exec (g.invoke scope mode name entry args) m = exec (g.host.call entry.target given)
      { m₁ with events := m₁.events ++ [.invoke scope.provider mode name entry given] } := by
  obtain ⟨host, transform⟩ := g
  cases hg with
  | untouched ht =>
    obtain rfl : transform = none := ht
    rw [Host.exec_invoke_none, exec_bind_ok (exec_record _)]
  | transformed ht ha =>
    obtain rfl : transform = _ := ht
    rw [Host.exec_invoke_of_applies ha, exec_bind_ok (exec_record _)]

theorem Attempts.exec_invoke (h : g.Attempts scope mode name entry args m r m') :
    exec (g.invoke scope mode name entry args) m = (r, m') := by
  cases h with
  | refused ht he ha hf =>
    obtain ⟨host, transform⟩ := g
    obtain rfl : transform = _ := ht
    rw [he, Host.exec_invoke_of_fails ha hf]
  | called hg hr => rw [exec_invoke_of_gives hg, hr]

/-- There is no other way to call an entry. -/
theorem attempts_invoke (g : Setting σ) (scope : Scope) (mode : Mode) (name : String)
    (entry : Entry) (args : List Value) (m : Machine σ) :
    g.Attempts scope mode name entry args m (exec (g.invoke scope mode name entry args) m).1
      (exec (g.invoke scope mode name entry args) m).2 := by
  have hcalled : ∀ given m₁, g.Gives args m given m₁ →
      g.Attempts scope mode name entry args m (exec (g.invoke scope mode name entry args) m).1
        (exec (g.invoke scope mode name entry args) m).2 := by
    intro given m₁ hg
    rw [exec_invoke_of_gives hg]
    exact .called hg rfl
  cases ht : g.transform with
  | none => exact hcalled args m (.untouched ht)
  | some t =>
    rcases g.host.applies_or_fails t args m with
      ⟨given, m₁, ha⟩ | ⟨pre, arg, post, given, m₁, f, m₂, he, ha, hf⟩
    · exact hcalled given m₁ (.transformed ht ha)
    · have hrefused : g.Attempts scope mode name entry args m (.error f) m₂ :=
        .refused ht he ha hf
      rw [hrefused.exec_invoke]
      exact hrefused

theorem Attempts.logged (h : g.Attempts scope mode name entry args m r m') :
    m'.logged = m.logged := by
  have hn := g.logged_invoke scope mode name entry args m
  rw [h.exec_invoke] at hn
  exact hn

/-- A wrong number of arguments is a fault of the call, and the function itself does not run. -/
theorem exec_call_of_not_accepts {f : FunctionRef} {s : Signature} (ht : entry.target = .function f)
    (hs : g.host.objects.signature? f = some s) {given : List Value}
    (hn : s.accepts given.length = false) (m : Machine σ) :
    exec (g.host.call entry.target given) m = (.error .badCall, m) := by
  simp [Host.call, ht, hs, hn]

/-! ### The statement -/

theorem Yields.exec_evaluate {v : Value} (h : g.Yields scope text mode context m v m') :
    exec (g.evaluate scope text mode context) m = (.ok v, m') := by
  cases h with
  | settled he => rw [g.evaluate_of_settles he, exec_pure]
  | produced hc ha => rw [g.evaluate_of_calls hc, contain, exec_tryCatch, ha.exec_invoke]
  | reported hc ha => rw [g.evaluate_of_calls hc, contain, exec_tryCatch, ha.exec_invoke]; rfl
  | @failed _ _ f _ hc ha hf =>
    rw [g.evaluate_of_calls hc, contain, exec_tryCatch, ha.exec_invoke]
    cases f with
    | reported e => exact (hf e rfl).elim
    | _ => rfl

theorem exists_yields (g : Setting σ) (scope : Scope) (text : Value) (context : Dict Value)
    (hm : mode = .data ∨ mode = .path) (m : Machine σ) :
    ∃ v m', g.Yields scope text mode context m v m' := by
  rcases settles_or_calls scope text hm with ⟨e, he⟩ | ⟨call, entry, hc⟩
  · exact ⟨.error e, m, .settled he⟩
  · have ha := g.attempts_invoke scope mode call.name entry
      (call.args.map (Argument.value context)) m
    rcases hx : exec (g.invoke scope mode call.name entry
      (call.args.map (Argument.value context))) m with ⟨f | v, m₁⟩
    · rw [hx] at ha
      by_cases hf : ∃ e, f = .reported e
      · obtain ⟨e, rfl⟩ := hf
        exact ⟨.error e, m₁, .reported hc ha⟩
      · exact ⟨_, _, .failed hc ha fun e he => hf ⟨e, he⟩⟩
    · rw [hx] at ha
      exact ⟨v, m₁, .produced hc ha⟩

/-- Every statement has a value and no fault gets out of it, whatever its text, the variables
and the host. Poison, the text, the name and the way of use are looked at in this order, and the
first that is wrong settles the value without a trace. After that an entry is called, with the
arguments that the hook lets through: the value is what it produces, or the error value that it
or the hook raises, and nothing is logged; any other fault of theirs, such as a wrong number of
arguments, becomes an error with just one line in the log. -/
theorem statements_are_decided_by_stage (g : Setting σ) (scope : Scope) (text : Value)
    (context : Dict Value) (m : Machine σ) (hm : mode = .data ∨ mode = .path) :
    (∃ v m', exec (g.evaluate scope text mode context) m = (.ok v, m')) ∧
    (∀ v m', exec (g.evaluate scope text mode context) m = (.ok v, m') ↔
      g.Yields scope text mode context m v m') ∧
    (∀ name entry args r m', g.Attempts scope mode name entry args m r m' →
      m'.logged = m.logged) ∧
    ∀ call entry f s given m₁, Calls scope text mode call entry → entry.target = .function f →
      g.host.objects.signature? f = some s → s.accepts given.length = false →
      g.Gives (call.args.map (Argument.value context)) m given m₁ →
      exec (g.evaluate scope text mode context) m = (.ok (.error CallError.methodError),
        { m₁ with
          events := m₁.events ++ [.invoke scope.provider mode call.name entry given]
          logged := m.logged + 1 }) := by
  obtain ⟨v, m', hy⟩ := g.exists_yields scope text context hm m
  refine ⟨⟨v, m', hy.exec_evaluate⟩, ?_, ?_, ?_⟩
  · intro w m₂
    constructor
    · intro hx
      rw [hy.exec_evaluate] at hx
      cases hx
      exact hy
    · intro hw
      exact hw.exec_evaluate
  · intro name entry args r m' ha
    exact ha.logged
  · intro call entry f s given m₁ hc ht hs hn hg
    have ha : g.Attempts scope mode call.name entry (call.args.map (Argument.value context)) m
        (.error .badCall)
        { m₁ with events := m₁.events ++ [.invoke scope.provider mode call.name entry given] } :=
      .called hg (exec_call_of_not_accepts ht hs hn _)
    have hlogged := ha.logged
    dsimp only at hlogged
    rw [(Yields.failed hc ha (by simp)).exec_evaluate, ← hlogged]

end Setting

/-- A notebook, and a hook that knows one argument only and raises an error value for that. -/
def strictWorld : World where
  objects := [("notebook", Sample.notebook), ("hook", .hook)]
  scripts :=
    [("notebook", .actions [.echo]),
      ("hook", .rules [(.str "b", .report CallError.invalidStatement)])]

/-- The hook fails at the second of three arguments, so that the third one is not seen, and nothing
is called or logged. A function that takes no argument is logged when it is given one. -/
theorem Sample.stages_of_the_notebook :
    let scope := Scope.ofValue strictWorld.objects (.object "notebook")
    (∃ v m', exec (Setting.evaluate ⟨strictWorld.host, some (.object "hook")⟩ scope
        (.str "echo(a, b, c)") .data []) World.initial = (.ok v, m') ∧
      v = .error CallError.invalidStatement ∧
      m' = ⟨[], [.transform (.str "a"), .transform (.str "b")], 0⟩) ∧
    ∃ m', exec (Setting.evaluate ⟨strictWorld.host, none⟩ scope (.str "count(1)") .path [])
        World.initial = (.ok (.error CallError.methodError), m') ∧ m'.logged = 1 := by
  intro scope
  have hs : ∃ table, scope.callables = .ok table ∧
      Dict.get? (.str "echo") table =
        some ⟨.str "echo", .function ⟨"notebook", 0, "echo"⟩, true, true⟩ ∧
      Dict.get? (.str "count") table =
        some ⟨.str "count", .function ⟨"notebook", 1, "count"⟩, true, true⟩ :=
    ⟨_, rfl, by decide +kernel, by decide +kernel⟩
  obtain ⟨table, hs, hecho, hcount⟩ := hs
  constructor
  · have hc : Setting.Calls scope (.str "echo(a, b, c)") .data ⟨"echo", ["a", "b", "c"]⟩ _ :=
      ⟨table, _, hs, rfl, by decide +kernel, hecho, rfl⟩
    have hargs : ["a", "b", "c"].map (Argument.value []) =
        [.str "a"] ++ .str "b" :: [.str "c"] := by decide +kernel
    have hfirst : exec (strictWorld.host.call (.object "hook") [.str "a"]) World.initial =
        (.ok .null, ⟨[], [.transform (.str "a")], 0⟩) := rfl
    have hpre : Host.Applies strictWorld.host (.object "hook") [.str "a"] World.initial
        [.str "a"] ⟨[], [.transform (.str "a")], 0⟩ := by
      simpa using Host.Applies.cons hfirst (.nil _)
    have hy : Setting.Yields ⟨strictWorld.host, some (.object "hook")⟩ scope
        (.str "echo(a, b, c)") .data [] World.initial (.error CallError.invalidStatement)
        ⟨[], [.transform (.str "a"), .transform (.str "b")], 0⟩ :=
      .reported hc (.refused rfl hargs hpre rfl)
    obtain ⟨-, hiff, -⟩ := Setting.statements_are_decided_by_stage
      ⟨strictWorld.host, some (.object "hook")⟩ scope (.str "echo(a, b, c)") [] World.initial
      (Or.inl rfl)
    exact ⟨_, _, (hiff _ _).mpr hy, rfl, rfl⟩
  · have hc : Setting.Calls scope (.str "count(1)") .path ⟨"count", ["1"]⟩ _ :=
      ⟨table, _, hs, rfl, by decide +kernel, hcount, rfl⟩
    obtain ⟨-, -, -, hwrong⟩ := Setting.statements_are_decided_by_stage ⟨strictWorld.host, none⟩
      scope (.str "count(1)") [] World.initial (Or.inr rfl)
    exact ⟨_, hwrong _ _ _ _ _ _ hc rfl rfl rfl (.untouched rfl), rfl⟩

end CallTree
