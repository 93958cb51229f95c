import CallTree.Proofs.Simulation

/-! The hook: which arguments it sees, what becomes of them, and that a hook which gives nothing
leaves an answer as it is. -/
namespace CallTree

variable {σ : Type} {h : Host σ} {t : Value} {m m₁ m₂ : Machine σ} {args given : List Value}

open Run

namespace Host

/-- The hook takes arguments from left to right, each of them once. An argument that it gives
nothing for stays, and any other value that it gives, also an empty one, takes its place. -/
inductive Applies (h : Host σ) (t : Value) :
    List Value → Machine σ → List Value → Machine σ → Prop
  | nil (m : Machine σ) : Applies h t [] m [] m
  | cons {arg w : Value} {r given : List Value} {m m₁ m₂ : Machine σ}
      (hw : exec (h.call t [arg]) m = (.ok w, m₁)) (hr : Applies h t r m₁ given m₂) :
      Applies h t (arg :: r) m ((if w = .null then arg else w) :: given) m₂

/-- What the hook leaves in the records when it sees arguments. -/
def hookRecords (h : Host σ) (t : Value) (args : List Value) : List Event :=
  args.flatMap fun arg => h.records t [arg]

theorem hookRecords_append (args args' : List Value) :
    h.hookRecords t (args ++ args') = h.hookRecords t args ++ h.hookRecords t args' :=
  List.flatMap_append

theorem hookRecords_singleton (arg : Value) : h.hookRecords t [arg] = h.records t [arg] :=
  List.flatMap_singleton ..

theorem exec_applyTransform_of_ok {arg w : Value} (hw : exec (h.call t [arg]) m = (.ok w, m₁)) :
    exec (Setting.applyTransform ⟨h, some t⟩ arg) m =
      (.ok (if w = .null then arg else w), m₁) := by
  unfold Setting.applyTransform
  dsimp only
  rw [exec_bind_ok hw]
  cases w <;> rfl

theorem exec_applyTransform_of_error {arg : Value} {f : Fault}
    (hf : exec (h.call t [arg]) m = (.error f, m₁)) :
    exec (Setting.applyTransform ⟨h, some t⟩ arg) m = (.error f, m₁) := by
  unfold Setting.applyTransform
  dsimp only
  rw [exec_bind_error hf]

theorem Applies.exec_mapM (ha : h.Applies t args m given m₁) :
    exec (args.mapM (Setting.applyTransform ⟨h, some t⟩)) m = (.ok given, m₁) := by
  induction ha with
  | nil m => rw [List.mapM_nil, exec_pure]
  | cons hw _ ih =>
    rw [List.mapM_cons, exec_bind_ok (exec_applyTransform_of_ok hw), exec_bind_ok ih, exec_pure]

/-- Nothing after an argument that the hook fails at is seen. -/
theorem Applies.exec_mapM_of_error {pre post : List Value} {arg : Value} {f : Fault}
    (ha : h.Applies t pre m given m₁) (hf : exec (h.call t [arg]) m₁ = (.error f, m₂)) :
    exec ((pre ++ arg :: post).mapM (Setting.applyTransform ⟨h, some t⟩)) m = (.error f, m₂) := by
  induction ha with
  | nil m =>
    rw [List.nil_append, List.mapM_cons, exec_bind_error (exec_applyTransform_of_error hf)]
  | cons hw _ ih =>
    rw [List.cons_append, List.mapM_cons, exec_bind_ok (exec_applyTransform_of_ok hw),
      exec_bind_error (ih hf)]

theorem exec_invoke_of_applies (ha : h.Applies t args m given m₁) (scope : Scope) (mode : Mode)
    (name : String) (entry : Entry) :
    exec (Setting.invoke ⟨h, some t⟩ scope mode name entry args) m =
      exec (do
        record (.invoke scope.provider mode name entry given)
        h.call entry.target given) m₁ := by
  rw [Setting.invoke, exec_bind_ok ha.exec_mapM]

theorem exec_invoke_of_fails {pre post : List Value} {arg : Value} {f : Fault}
    (ha : h.Applies t pre m given m₁) (hf : exec (h.call t [arg]) m₁ = (.error f, m₂))
    (scope : Scope) (mode : Mode) (name : String) (entry : Entry) :
    exec (Setting.invoke ⟨h, some t⟩ scope mode name entry (pre ++ arg :: post)) m =
      (.error f, m₂) := by
  rw [Setting.invoke, exec_bind_error (ha.exec_mapM_of_error hf)]

/-- Without a hook, an entry is invoked with the arguments themselves. -/
theorem exec_invoke_none (scope : Scope) (mode : Mode) (name : String) (entry : Entry)
    (args : List Value) (m : Machine σ) :
    exec (Setting.invoke ⟨h, none⟩ scope mode name entry args) m =
      exec (do
        record (.invoke scope.provider mode name entry args)
        h.call entry.target args) m := by
  have hp : Setting.applyTransform ⟨h, none⟩ = pure := rfl
  rw [Setting.invoke, hp, List.mapM_pure, pure_bind, List.map_id']

theorem Applies.events (ha : h.Applies t args m given m₁) :
    m₁.events = m.events ++ h.hookRecords t args := by
  induction ha with
  | nil m => simp [hookRecords]
  | @cons arg _ r _ m _ _ hw _ ih =>
    have hc := h.events_call t [arg] m
    rw [hw] at hc
    rw [ih, hc, List.append_assoc]
    rfl

/-- The hook comes through all arguments, or it fails at the first of them that it fails at. -/
theorem applies_or_fails (h : Host σ) (t : Value) (args : List Value) (m : Machine σ) :
    (∃ given m₁, h.Applies t args m given m₁) ∨
      ∃ pre arg post given m₁ f m₂, args = pre ++ arg :: post ∧ h.Applies t pre m given m₁ ∧
        exec (h.call t [arg]) m₁ = (.error f, m₂) := by
  induction args generalizing m with
  | nil => exact Or.inl ⟨[], m, .nil m⟩
  | cons arg r ih =>
    rcases hw : exec (h.call t [arg]) m with ⟨f | w, m₁⟩
    · exact Or.inr ⟨[], arg, r, [], m, f, m₁, rfl, .nil m, hw⟩
    · obtain ⟨given, m₂, ha⟩ | ⟨pre, arg', post, given, m₂, f, m₃, rfl, ha, hf⟩ := ih m₁
      · exact Or.inl ⟨_, m₂, .cons hw ha⟩
      · exact Or.inr ⟨arg :: pre, arg', post, _, m₂, f, m₃, rfl, .cons hw ha, hf⟩

/-! ### A hook that gives nothing -/

/-- A hook that gives nothing for any argument, and leaves nothing but its records. -/
def Neutral (h : Host σ) (t : Value) : Prop :=
  ∀ arg m, exec (h.call t [arg]) m =
    (.ok .null, { m with events := m.events ++ h.hookRecords t [arg] })

theorem neutral_of_perform {name : String} (ho : h.objects.lookup name = some .hook)
    (hp : ∀ arg s, h.perform ⟨name, 0, name⟩ [arg] s = (.ok .null, s)) :
    h.Neutral (.object name) := by
  intro arg m
  simp only [call, hookRecords, records, ho, List.flatMap_singleton]
  rw [exec_bind_ok (exec_record _), exec_enter, hp]

theorem Neutral.applies (hn : h.Neutral t) (args : List Value) (m : Machine σ) :
    h.Applies t args m args { m with events := m.events ++ h.hookRecords t args } := by
  induction args generalizing m with
  | nil =>
    have hm : { m with events := m.events ++ h.hookRecords t [] } = m := by simp [hookRecords]
    rw [hm]
    exact .nil m
  | cons arg r ih =>
    have hr := ih { m with events := m.events ++ h.hookRecords t [arg] }
    simp only [List.append_assoc, ← hookRecords_append, List.singleton_append] at hr
    exact .cons (hn arg m) hr

/-- A record as it comes about where the hook is there: it sees the arguments of an invocation
before that. -/
def announced (h : Host σ) (t : Value) : Event → List Event
  | .invoke provider mode name entry args =>
    h.hookRecords t args ++ [.invoke provider mode name entry args]
  | e => [e]

theorem announced_of_not_isInvocation {e : Event} (he : e.isInvocation = false) :
    h.announced t e = [e] := by
  cases e with
  | invoke => cases he
  | _ => rfl

/-- Machines that differ in the records of the hook only, where `base` are older records. -/
def Announces (h : Host σ) (t : Value) (base : List Event) (m m' : Machine σ) : Prop :=
  ∃ new, m'.events = base ++ new ∧
    m = { m' with events := base ++ new.flatMap (h.announced t) }

theorem announces_refl (m : Machine σ) : h.Announces t m.events m m := by
  refine ⟨[], ?_, ?_⟩
  · rw [List.append_nil]
  · rw [List.flatMap_nil, List.append_nil]

/-- A record on one side, and on the other side the same record as the hook announces it. -/
theorem Announces.record {base : List Event} {m m' : Machine σ} (hm : h.Announces t base m m')
    (e : Event) :
    h.Announces t base { m with events := m.events ++ h.announced t e }
      { m' with events := m'.events ++ [e] } := by
  obtain ⟨new, hm', rfl⟩ := hm
  refine ⟨new ++ [e], ?_, ?_⟩
  · rw [hm', List.append_assoc]
  · rw [List.flatMap_append, List.flatMap_singleton, List.append_assoc]

theorem simulates_announces (h : Host σ) (t : Value) (base : List Event) :
    h.Simulates (h.Announces t base) h := by
  refine ⟨rfl, ?_, ?_⟩
  · intro e he m m' hm
    have hr := hm.record e
    rw [announced_of_not_isInvocation he] at hr
    exact ⟨rfl, hr⟩
  · rintro f args m m' ⟨new, hm', rfl⟩
    exact ⟨rfl, new, hm', rfl⟩

/-- A call behind a statement goes with a neutral hook as it goes without one. -/
theorem Neutral.simulates (hn : h.Neutral t) (base : List Event) :
    Setting.Simulates (h.Announces t base) ⟨h, some t⟩ ⟨h, none⟩ := by
  refine ⟨h.simulates_announces t base, ?_, ?_⟩
  · rintro m m' ⟨new, hm', rfl⟩
    exact ⟨rfl, new, hm', rfl⟩
  intro scope mode name entry args m m' hm
  rw [exec_invoke_of_applies (hn.applies args m), exec_invoke_none,
    exec_bind_ok (exec_record _), exec_bind_ok (exec_record _)]
  refine (h.simulates_announces t base).call entry.target args _ _ ?_
  have hr := hm.record (.invoke scope.provider mode name entry args)
  rwa [announced, ← List.append_assoc] at hr

end Host

/-! ### What the hook does in answers and evaluations -/

namespace Setting

/-- What a fault is turned into depends on the fault and the machine it leaves. -/
theorem exec_contain_congr {x y : Run σ Value} (hxy : exec x m = exec y m₁) :
    exec (contain x) m = exec (contain y) m₁ := by
  rw [contain, contain, exec_tryCatch, exec_tryCatch, hxy]

theorem events_contain (x : Run σ Value) (m : Machine σ) :
    (exec (contain x) m).2.events = (exec x m).2.events := by
  obtain ⟨v, n, hv⟩ := exec_contain x m
  rw [hv]

end Setting

open Setting in
/-- With a hook that gives nothing, an answer ends as it ends without one, and the machine is left
the same but for the records: before each invocation, those of the hook come in, which sees the
arguments of the invocation.

With any hook, a statement that is settled without a call shows it nothing. For a statement that
calls an entry, the hook sees the arguments from left to right, each of them once. Where it comes
through all of them, the entry is invoked with what became of them. Where it fails at one, the ones
after it are not seen, nothing is invoked, and the fault stands for that of the call. -/
theorem hook_sees_each_argument_once (h : Host σ) (t : Value) :
    (h.Neutral t → ∀ (root : Value) (context : Dict Value) (request : Request) (m : Machine σ),
      ∃ new,
        (exec (answerBy ⟨h, none⟩ root context request) m).2.events = m.events ++ new ∧
        exec (answerBy ⟨h, some t⟩ root context request) m =
          ((exec (answerBy ⟨h, none⟩ root context request) m).1,
            { (exec (answerBy ⟨h, none⟩ root context request) m).2 with
              events := m.events ++ new.flatMap (h.announced t) })) ∧
    ∀ (scope : Scope) (text : Value) (mode : Mode) (context : Dict Value) (m : Machine σ),
      mode = .data ∨ mode = .path →
      ((∃ e, Settles scope text mode e) ∨ ∃ call entry, Calls scope text mode call entry) ∧
      (∀ e, Settles scope text mode e →
        exec (evaluate ⟨h, some t⟩ scope text mode context) m = (.ok (.error e), m)) ∧
      ∀ call entry, Calls scope text mode call entry →
        (∃ given m₁, h.Applies t (call.args.map (Argument.value context)) m given m₁ ∧
          exec (evaluate ⟨h, some t⟩ scope text mode context) m =
            exec (contain do
              record (.invoke scope.provider mode call.name entry given)
              h.call entry.target given) m₁ ∧
          (exec (evaluate ⟨h, some t⟩ scope text mode context) m).2.events =
            m.events ++ (h.hookRecords t (call.args.map (Argument.value context)) ++
              .invoke scope.provider mode call.name entry given ::
                h.records entry.target given)) ∨
        ∃ pre arg post given m₁ f m₂,
          call.args.map (Argument.value context) = pre ++ arg :: post ∧
          h.Applies t pre m given m₁ ∧ exec (h.call t [arg]) m₁ = (.error f, m₂) ∧
          exec (evaluate ⟨h, some t⟩ scope text mode context) m = exec (contain (throw f)) m₂ ∧
          (exec (evaluate ⟨h, some t⟩ scope text mode context) m).2.events =
            m.events ++ h.hookRecords t (pre ++ [arg]) := by
  constructor
  · intro hn root context request m
    obtain ⟨hend, new, hnew, hm⟩ :=
      answerBy_related (hn.simulates m.events) root context request m m (Host.announces_refl m)
    exact ⟨new, hnew, Prod.ext hend hm⟩
  · intro scope text mode context m hmode
    refine ⟨settles_or_calls scope text hmode, ?_, ?_⟩
    · intro e he
      rw [evaluate_of_settles _ he, exec_pure]
    · intro call entry hc
      rw [evaluate_of_calls _ hc, events_contain]
      obtain ⟨given, m₁, ha⟩ | ⟨pre, arg, post, given, m₁, f, m₂, hargs, ha, hf⟩ :=
        h.applies_or_fails t (call.args.map (Argument.value context)) m
      · have hx := Host.exec_invoke_of_applies ha scope mode call.name entry
        refine Or.inl ⟨given, m₁, ha, exec_contain_congr hx, ?_⟩
        rw [hx, exec_bind_ok (exec_record _), Host.events_call]
        simp only [ha.events, List.append_assoc, List.singleton_append]
      · have hx : exec (invoke ⟨h, some t⟩ scope mode call.name entry
            (call.args.map (Argument.value context))) m = (.error f, m₂) := by
          rw [hargs, Host.exec_invoke_of_fails ha hf]
        have he : m₂.events = m₁.events ++ h.records t [arg] := by
          have hcall := h.events_call t [arg] m₁
          rwa [hf] at hcall
        refine Or.inr ⟨pre, arg, post, given, m₁, f, m₂, hargs, ha, hf, exec_contain_congr hx, ?_⟩
        rw [hx]
        simp only [he, ha.events, Host.hookRecords_append, Host.hookRecords_singleton,
          List.append_assoc]

namespace Sample

/-- The notebook, and a hook that follows rules. -/
def hooked (rules : List (Value × Action)) : World where
  objects := ("hook", .hook) :: world.objects
  scripts := ("hook", .rules rules) :: world.scripts

/-- The hook puts a truth value in the place of one text, and fails at another one. -/
def choosy : World := hooked [(.str "a", .give (.bool false)), (.str "c", .fail)]

theorem neutral_of_no_rules : (hooked []).host.Neutral (.object "hook") :=
  Host.neutral_of_perform rfl fun _ _ => rfl

/-- Without rules, the hook sees the name in the request and leaves it. With rules, it comes up to
the argument that it fails at. -/
theorem hooks_of_the_notebook :
    (∃ new,
      (exec (answerBy ⟨(hooked []).host, none⟩ (.object "notebook") [] request)
        World.initial).2.events = new ∧
      exec (answerBy ⟨(hooked []).host, some (.object "hook")⟩ (.object "notebook") [] request)
          World.initial =
        ((exec (answerBy ⟨(hooked []).host, none⟩ (.object "notebook") [] request)
            World.initial).1,
          { (exec (answerBy ⟨(hooked []).host, none⟩ (.object "notebook") [] request)
              World.initial).2 with
            events := new.flatMap ((hooked []).host.announced (.object "hook")) }) ∧
      .transform (.str "Ann") ∈ new.flatMap ((hooked []).host.announced (.object "hook"))) ∧
    ∃ pre arg post given m₁ f m₂,
      [.str "a", .str "b", .str "c", .str "d"] = pre ++ arg :: post ∧
      choosy.host.Applies (.object "hook") pre World.initial given m₁ ∧
      exec (choosy.host.call (.object "hook") [arg]) m₁ = (.error f, m₂) ∧
      given = [.bool false, .str "b"] := by
  constructor
  · obtain ⟨new, hnew, hx⟩ :=
      (hook_sees_each_argument_once (hooked []).host (.object "hook")).1 neutral_of_no_rules
        (.object "notebook") [] request World.initial
    refine ⟨new, hnew, hx, ?_⟩
    have hevents := congrArg (fun r => r.2.events) hx
    change _ = new.flatMap _ at hevents
    rw [← hevents]
    decide +kernel
  · have hcalls : Setting.Calls (Scope.ofValue choosy.objects (.object "notebook"))
        (.str "echo(a, b, c, d)") .data ⟨"echo", ["a", "b", "c", "d"]⟩
        ⟨.str "echo", .function ⟨"notebook", 0, "echo"⟩, true, true⟩ :=
      ⟨_, _, rfl, rfl, by decide +kernel, by decide +kernel, rfl⟩
    have hargs : (["a", "b", "c", "d"].map (Argument.value [])) =
        [.str "a", .str "b", .str "c", .str "d"] := by
      decide +kernel
    have hlast := ((hook_sees_each_argument_once choosy.host (.object "hook")).2 _ _ .data []
      World.initial (Or.inl rfl)).2.2 _ _ hcalls
    rw [hargs] at hlast
    obtain ⟨given, m₁, ha, -⟩ | ⟨pre, arg, post, given, m₁, f, m₂, hpre, ha, hf, -, he⟩ := hlast
    · have hfails : (exec ([.str "a", .str "b", .str "c", .str "d"].mapM
          (Setting.applyTransform ⟨choosy.host, some (.object "hook")⟩)) World.initial).1 =
          .error .failed := by
        decide +kernel
      rw [ha.exec_mapM] at hfails
      cases hfails
    · refine ⟨pre, arg, post, given, m₁, f, m₂, hpre, ha, hf, ?_⟩
      have hrecords : (exec (Setting.evaluate ⟨choosy.host, some (.object "hook")⟩
          (Scope.ofValue choosy.objects (.object "notebook")) (.str "echo(a, b, c, d)") .data [])
          World.initial).2.events =
          [.transform (.str "a"), .transform (.str "b"), .transform (.str "c")] := by
        decide +kernel
      have hseen : choosy.host.hookRecords (.object "hook") (pre ++ [arg]) =
          (pre ++ [arg]).map Event.transform :=
        List.map_eq_flatMap.symm
      have hgiven : (exec ([.str "a", .str "b"].mapM
          (Setting.applyTransform ⟨choosy.host, some (.object "hook")⟩)) World.initial).1 =
          .ok [.bool false, .str "b"] := by
        decide +kernel
      rw [hrecords, hseen] at he
      have htwo : pre ++ [arg] = [.str "a", .str "b"] ++ [.str "c"] :=
        List.map_injective_iff.mpr (fun _ _ h => Event.transform.inj h) he.symm
      rw [← List.append_inj_left' htwo rfl, ha.exec_mapM] at hgiven
      exact Except.ok.inj hgiven

end Sample
end CallTree
