import CallTree.Proofs.Run
import CallTree.Scope

/-! What the evaluation of one statement can do: how it ends, and what it leaves in the records. -/
namespace CallTree

variable {σ : Type} {m : Machine σ}

namespace Host

/-- What a call of a value leaves in the records before anything of the host runs. -/
def records (h : Host σ) (target : Value) (args : List Value) : List Event :=
  match target with
  | .function f => match h.objects.signature? f with
    | some s => if s.accepts args.length then [h.callEvent f args] else []
    | none => []
  | .object name => match h.objects.lookup name, args with
    | some .hook, [arg] => [.transform arg]
    | some (.factory parameters), args =>
      if parameters.accept args.length then [.make name args] else []
    | some .blueprint, args => [.make name args]
    | _, _ => []
  | _ => []

theorem events_call (h : Host σ) (target : Value) (args : List Value) (m : Machine σ) :
    (Run.exec (h.call target args) m).2.events = m.events ++ h.records target args := by
  -- Where there is a record at all, it is made before the host is entered.
  have hentered : ∀ e f, (Run.exec (do Run.record e; h.enter f args) m).2.events =
      m.events ++ [e] := by
    intro e f
    rw [Run.exec_bind_ok (Run.exec_record _), Run.exec_enter]
  cases target with
  | function f =>
    simp only [call, records]
    cases h.objects.signature? f with
    | none => simp
    | some s =>
      by_cases ha : s.accepts args.length
      · simp only [ha, if_true]
        exact hentered _ _
      · simp [ha]
  | object name =>
    simp only [call, records]
    rcases h.objects.lookup name with _ | o
    · simp
    · cases o with
      | hook =>
        rcases args with _ | ⟨arg, _ | ⟨arg', r⟩⟩
        · simp
        · exact hentered _ _
        · simp
      | factory parameters =>
        by_cases ha : parameters.accept args.length
        · simp only [ha, if_true]
          exact hentered _ _
        · simp [ha]
      | blueprint => exact hentered _ _
      | _ => simp
  | _ => simp [call, records]

/-- A call without arguments leaves at most one record, and that is of no other kind than those of
functions that run and of what is made. -/
theorem records_nil (h : Host σ) (v : Value) : h.records v [] = [] ∨
    ∃ name, h.records v [] = [.call name []] ∨ h.records v [] = [.make name []] := by
  cases v with
  | function f =>
    simp only [records, callEvent]
    split
    · split
      · split
        · exact Or.inr ⟨f.name, Or.inr rfl⟩
        · exact Or.inr ⟨f.name, Or.inl rfl⟩
      · exact Or.inl rfl
    · exact Or.inl rfl
  | object name =>
    simp only [records]
    rcases h.objects.lookup name with _ | o
    · exact Or.inl rfl
    · cases o with
      | factory parameters =>
        dsimp only
        split
        · exact Or.inr ⟨name, Or.inr rfl⟩
        · exact Or.inl rfl
      | blueprint => exact Or.inr ⟨name, Or.inr rfl⟩
      | _ => exact Or.inl rfl
  | _ => exact Or.inl rfl

end Host

namespace Setting

open Run

variable (g : Setting σ)

/-- What the hook leaves in the records when it sees an argument. -/
def hookRecords (arg : Value) : List Event :=
  match g.transform with
  | none => []
  | some t => g.host.records t [arg]

theorem events_applyTransform (arg : Value) (m : Machine σ) :
    (exec (g.applyTransform arg) m).2.events = m.events ++ g.hookRecords arg := by
  unfold applyTransform hookRecords
  cases g.transform with
  | none => simp
  | some t =>
    have h := g.host.events_call t [arg] m
    rcases hx : exec (g.host.call t [arg]) m with ⟨f | v, m'⟩
    · rw [hx] at h
      simp only [exec_bind_error hx]
      exact h
    · rw [hx] at h
      simp only [exec_bind_ok hx]
      split <;> exact h

/-- The hook sees the arguments from the left on, up to the first that it fails at. -/
theorem events_applyTransforms (args : List Value) (m : Machine σ) :
    ∃ seen, seen <+: args ∧
      (exec (args.mapM g.applyTransform) m).2.events = m.events ++ seen.flatMap g.hookRecords := by
  induction args generalizing m with
  | nil => exact ⟨[], List.prefix_rfl, by simp⟩
  | cons arg r ih =>
    have h := g.events_applyTransform arg m
    rw [List.mapM_cons]
    rcases hx : exec (g.applyTransform arg) m with ⟨f | v, m₁⟩
    · rw [hx] at h
      exact ⟨[arg], by simp, by rw [exec_bind_error hx, h]; simp⟩
    · rw [hx] at h
      obtain ⟨seen, hs, he⟩ := ih m₁
      refine ⟨arg :: seen, (List.prefix_cons_inj arg).mpr hs, ?_⟩
      rw [exec_bind_ok hx]
      rcases hy : exec (r.mapM g.applyTransform) m₁ with ⟨f | vs, m₂⟩
      · rw [hy] at he
        rw [exec_bind_error hy, he, h]
        simp
      · rw [hy] at he
        rw [exec_bind_ok hy, exec_pure, he, h]
        simp

theorem events_applyTransforms_ok {args vs : List Value} {m' : Machine σ}
    (h : exec (args.mapM g.applyTransform) m = (.ok vs, m')) :
    m'.events = m.events ++ args.flatMap g.hookRecords := by
  induction args generalizing m vs with
  | nil =>
    rw [List.mapM_nil, exec_pure] at h
    obtain rfl := congrArg Prod.snd h
    simp
  | cons arg r ih =>
    have ha := g.events_applyTransform arg m
    rw [List.mapM_cons] at h
    obtain ⟨v, m₁, hx, h⟩ := exec_bind_eq_ok h
    obtain ⟨vs', m₂, hy, h⟩ := exec_bind_eq_ok h
    rw [exec_pure] at h
    obtain rfl := congrArg Prod.snd h
    rw [hx] at ha
    rw [ih hy, ha]
    simp

/-- Nothing that a statement runs lets a fault out. -/
theorem exec_contain (x : Run σ Value) (m : Machine σ) :
    ∃ v n, exec (contain x) m = (.ok v, { (exec x m).2 with logged := n }) := by
  rw [contain, exec_tryCatch]
  rcases exec x m with ⟨f | v, m'⟩
  · cases f with
    | reported e => exact ⟨.error e, m'.logged, rfl⟩
    | _ => exact ⟨.error CallError.methodError, m'.logged + 1, rfl⟩
  · exact ⟨v, m'.logged, rfl⟩

/-- The entry that a statement calls: it is listed in its scope under just the name that the
statement has, and may be used in the given way. -/
def Calls (scope : Scope) (text : Value) (mode : Mode) (call : Call) (entry : Entry) : Prop :=
  ∃ table s, scope.callables = .ok table ∧ text = .str s ∧ Call.ofStatement? s = some call ∧
    Dict.get? (.str call.name) table = some entry ∧ entry.allows mode = .ok true

theorem evaluate_of_calls {scope : Scope} {text : Value} {mode : Mode} {call : Call} {entry : Entry}
    (hc : Calls scope text mode call entry) (context : Dict Value) :
    g.evaluate scope text mode context =
      contain (g.invoke scope mode call.name entry (call.args.map (Argument.value context))) := by
  obtain ⟨table, s, hs, rfl, hcall, hentry, hallow⟩ := hc
  simp only [evaluate, hs, hcall, Table.resolve, hentry, hallow]

/-- The error that a statement has for its value where it does not get as far as a call: that of a
poisoned scope, or what is wrong with its text, its name, or the way in which it is used. -/
inductive Settles (scope : Scope) (text : Value) (mode : Mode) : CallError → Prop
  | poisoned {e : CallError} (hs : scope.callables = .error e) : Settles scope text mode e
  | invalid {table : Table} (hs : scope.callables = .ok table)
      (hc : ∀ s, text = .str s → Call.ofStatement? s = none) :
      Settles scope text mode CallError.invalidStatement
  | missing {table : Table} {s : String} {call : Call} (hs : scope.callables = .ok table)
      (ht : text = .str s) (hc : Call.ofStatement? s = some call)
      (hg : Dict.get? (.str call.name) table = none) :
      Settles scope text mode CallError.methodNotFound
  | denied {table : Table} {s : String} {call : Call} {entry : Entry}
      (hs : scope.callables = .ok table) (ht : text = .str s)
      (hc : Call.ofStatement? s = some call)
      (hg : Dict.get? (.str call.name) table = some entry) (ha : entry.allows mode = .ok false) :
      Settles scope text mode CallError.methodAccess

theorem evaluate_of_settles {scope : Scope} {text : Value} {mode : Mode} {e : CallError}
    (h : Settles scope text mode e) (context : Dict Value) :
    g.evaluate scope text mode context = pure (.error e) := by
  cases h with
  | poisoned hs => simp only [evaluate, hs]
  | invalid hs hc =>
    cases text with
    | str s => simp only [evaluate, hs, hc s rfl]
    | _ => simp only [evaluate, hs]
  | missing hs ht hc hg => simp only [evaluate, hs, ht, hc, Table.resolve, hg]
  | denied hs ht hc hg ha => simp only [evaluate, hs, ht, hc, Table.resolve, hg, ha]

/-- A statement is settled without the host, or it calls an entry. -/
theorem settles_or_calls (scope : Scope) (text : Value) {mode : Mode}
    (hm : mode = .data ∨ mode = .path) :
    (∃ e, Settles scope text mode e) ∨ ∃ call entry, Calls scope text mode call entry := by
  cases hs : scope.callables with
  | error e => exact Or.inl ⟨e, .poisoned hs⟩
  | ok table =>
    cases text with
    | str s =>
      cases hc : Call.ofStatement? s with
      | none =>
        refine Or.inl ⟨CallError.invalidStatement, .invalid hs ?_⟩
        rintro _ ⟨⟩
        exact hc
      | some call =>
        cases hg : Dict.get? (.str call.name) table with
        | none => exact Or.inl ⟨CallError.methodNotFound, .missing hs rfl hc hg⟩
        | some entry =>
          have ha : entry.allows mode = .ok true ∨ entry.allows mode = .ok false := by
            rcases hm with rfl | rfl
            · cases h : entry.data <;> simp [Entry.allows, h]
            · cases h : entry.path <;> simp [Entry.allows, h]
          rcases ha with ha | ha
          · exact Or.inr ⟨call, entry, table, s, hs, rfl, hc, hg, ha⟩
          · exact Or.inl ⟨CallError.methodAccess, .denied hs rfl hc hg ha⟩
    | _ =>
      refine Or.inl ⟨CallError.invalidStatement, .invalid hs ?_⟩
      rintro s ⟨⟩

theorem evaluate_cases (scope : Scope) (text : Value) (context : Dict Value) {mode : Mode}
    (hm : mode = .data ∨ mode = .path) :
    (∃ e, g.evaluate scope text mode context = pure (.error e)) ∨
      ∃ call entry, Calls scope text mode call entry := by
  rcases settles_or_calls scope text hm with ⟨e, he⟩ | hc
  · exact Or.inl ⟨e, g.evaluate_of_settles he context⟩
  · exact Or.inr hc

/-- A statement always has a value. -/
theorem evaluate_ok (scope : Scope) (text : Value) (context : Dict Value) {mode : Mode}
    (hm : mode = .data ∨ mode = .path) (m : Machine σ) :
    ∃ v m', exec (g.evaluate scope text mode context) m = (.ok v, m') := by
  rcases g.evaluate_cases scope text context hm with ⟨e, he⟩ | ⟨call, entry, hc⟩
  · exact ⟨.error e, m, by rw [he, exec_pure]⟩
  · obtain ⟨v, n, hv⟩ := exec_contain (g.invoke scope mode call.name entry
      (call.args.map (Argument.value context))) m
    exact ⟨v, _, by rw [g.evaluate_of_calls hc, hv]⟩

/-- The records of an invocation: those of the hook, and, if it got through the arguments, the
invocation itself with what the entry leaves. -/
theorem events_invoke (scope : Scope) (mode : Mode) (name : String) (entry : Entry)
    (args : List Value) (m : Machine σ) :
    ∃ seen, seen <+: args ∧
      ((exec (g.invoke scope mode name entry args) m).2.events =
          m.events ++ seen.flatMap g.hookRecords ∨
        ∃ given, seen = args ∧ (exec (g.invoke scope mode name entry args) m).2.events =
          m.events ++ (seen.flatMap g.hookRecords ++
            .invoke scope.provider mode name entry given ::
              g.host.records entry.target given)) := by
  unfold invoke
  rcases hx : exec (args.mapM g.applyTransform) m with ⟨f | given, m₁⟩
  · obtain ⟨seen, hs, he⟩ := g.events_applyTransforms args m
    rw [hx] at he
    exact ⟨seen, hs, Or.inl (by rw [exec_bind_error hx]; exact he)⟩
  · refine ⟨args, List.prefix_rfl, Or.inr ⟨given, rfl, ?_⟩⟩
    rw [exec_bind_ok hx, exec_bind_ok (exec_record _), Host.events_call,
      g.events_applyTransforms_ok hx]
    simp

end Setting

namespace Scope

/-- The scope of a provider, as its callables are listed. -/
def ofValue (os : Objects) (provider : Value) : Scope :=
  match provider with
  | .error e => ⟨provider, .error e⟩
  | _ => match Table.ofValue os provider with
    | .ok t => ⟨provider, .ok t⟩
    | .error _ => ⟨provider, .error CallError.methodError⟩

@[simp] theorem ofValue_provider (os : Objects) (provider : Value) :
    (ofValue os provider).provider = provider := by
  unfold ofValue
  split
  · rfl
  · split <;> rfl

/-- The callables of a scope that is not poisoned are those that its provider lists. -/
theorem table_of_callables {os : Objects} {provider : Value} {t : Table}
    (h : (ofValue os provider).callables = .ok t) : Table.ofValue os provider = .ok t := by
  unfold ofValue at h
  split at h
  · cases h
  · cases ht : Table.ofValue os provider with
    | ok t' =>
      rw [ht] at h
      cases h
      rfl
    | error f =>
      rw [ht] at h
      cases h

/-- A scope is bound to any provider, with at most a line in the log. -/
theorem exec_bind (g : Setting σ) (provider : Value) (m : Machine σ) :
    ∃ n, Run.exec (bind g provider) m =
      (.ok (ofValue g.host.objects provider), { m with logged := n }) := by
  cases provider <;> simp only [bind, ofValue]
  case error e => exact ⟨m.logged, rfl⟩
  all_goals
    generalize Table.ofValue g.host.objects _ = t
    cases t with
    | ok t => exact ⟨m.logged, rfl⟩
    | error f => exact ⟨m.logged + 1, rfl⟩

end Scope
end CallTree
