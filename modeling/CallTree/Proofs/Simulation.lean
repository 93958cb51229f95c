import CallTree.Proofs.Access
import CallTree.Proofs.References
import Mathlib.Data.List.Forall2

/-! Two settings side by side. Where their hosts, and the calls behind their statements, act alike
on machines in some relation, so do whole answers. -/
namespace CallTree

variable {σ τ α β : Type} {R : Machine σ → Machine τ → Prop}

namespace Run

/-- From machines in relation, two runs end alike, and they leave machines in relation. -/
def Related (R : Machine σ → Machine τ → Prop) (x : Run σ α) (y : Run τ α) : Prop :=
  ∀ m m', R m m' → (exec x m).1 = (exec y m').1 ∧ R (exec x m).2 (exec y m').2

theorem related_pure (a : α) : Related R (pure a) (pure a) := by
  intro m m' hm
  exact ⟨rfl, hm⟩

theorem related_throw (f : Fault) : Related R (throw f : Run σ α) (throw f) := by
  intro m m' hm
  exact ⟨rfl, hm⟩

theorem Related.bind {x : Run σ α} {y : Run τ α} {k : α → Run σ β} {l : α → Run τ β}
    (hx : Related R x y) (hk : ∀ a, Related R (k a) (l a)) : Related R (x >>= k) (y >>= l) := by
  intro m m' hm
  obtain ⟨hend, hrel⟩ := hx m m' hm
  rcases hxm : exec x m with ⟨f | a, m₁⟩ <;> rcases hym : exec y m' with ⟨f' | a', m₁'⟩ <;>
    rw [hxm, hym] at hend hrel <;> cases hend
  · rw [exec_bind_error hxm, exec_bind_error hym]
    exact ⟨rfl, hrel⟩
  · rw [exec_bind_ok hxm, exec_bind_ok hym]
    exact hk a m₁ m₁' hrel

theorem Related.tryCatch {x : Run σ α} {y : Run τ α} {k : Fault → Run σ α} {l : Fault → Run τ α}
    (hx : Related R x y) (hk : ∀ f, Related R (k f) (l f)) :
    Related R (tryCatch x k) (tryCatch y l) := by
  intro m m' hm
  obtain ⟨hend, hrel⟩ := hx m m' hm
  rw [exec_tryCatch, exec_tryCatch]
  rcases hxm : exec x m with ⟨f | a, m₁⟩ <;> rcases hym : exec y m' with ⟨f' | a', m₁'⟩ <;>
    rw [hxm, hym] at hend hrel <;> cases hend
  · exact hk f m₁ m₁' hrel
  · exact ⟨rfl, hrel⟩

theorem related_mapM {k : α → Run σ β} {l : α → Run τ β} (hk : ∀ a, Related R (k a) (l a))
    (as : List α) : Related R (as.mapM k) (as.mapM l) := by
  induction as with
  | nil =>
    rw [List.mapM_nil, List.mapM_nil]
    exact related_pure []
  | cons a r ih =>
    rw [List.mapM_cons, List.mapM_cons]
    exact (hk a).bind fun b => ih.bind fun bs => related_pure (b :: bs)

end Run

open Run

/-- Two hosts with the same objects, whose functions act alike on machines in relation. -/
structure Host.Simulates (R : Machine σ → Machine τ → Prop) (h : Host σ) (h' : Host τ) :
    Prop where
  objects : h'.objects = h.objects
  record : ∀ e, e.isInvocation = false → Related R (record e) (record e)
  enter : ∀ f args, Related R (h.enter f args) (h'.enter f args)

namespace Host.Simulates

variable {h : Host σ} {h' : Host τ}

theorem call (hs : h.Simulates R h') (target : Value) (args : List Value) :
    Related R (h.call target args) (h'.call target args) := by
  unfold Host.call
  rw [hs.objects]
  cases target with
  | function f =>
    have he : h'.callEvent f args = h.callEvent f args := by
      rw [Host.callEvent, hs.objects]
      rfl
    dsimp only
    rw [he]
    split
    · split
      · exact (hs.record _ (h.not_isInvocation_callEvent f args)).bind fun _ => hs.enter f args
      · exact related_throw _
    · exact related_throw _
  | object name =>
    dsimp only
    split
    · exact (hs.record _ rfl).bind fun _ => hs.enter _ _
    · split
      · exact (hs.record _ rfl).bind fun _ => hs.enter _ _
      · exact related_throw _
    · exact (hs.record _ rfl).bind fun _ => hs.enter _ _
    · exact related_throw _
  | _ => exact related_throw _

theorem readMember (hs : h.Simulates R h') (owner : String) (place : Nat) (member : Member) :
    Related R (h.readMember owner place member) (h'.readMember owner place member) := by
  unfold Host.readMember
  split
  · exact related_pure _
  · exact related_pure _
  · refine (hs.record _ rfl).bind fun _ => Related.tryCatch ?_ ?_
    · simp only [← bind_pure_comp]
      exact (hs.enter _ _).bind fun v => related_pure (some v)
    · intro f
      cases f with
      | missingAttribute => exact related_pure none
      | _ => exact related_throw _
  · exact related_pure _
  · exact related_pure _

theorem part? (hs : h.Simulates R h') (v : Value) (name : String) :
    Related R (h.part? v name) (h'.part? v name) := by
  unfold Host.part?
  rw [hs.objects]
  split
  · exact related_pure _
  · split
    · split
      · exact hs.readMember _ _ _
      · exact related_pure _
    · split
      · exact hs.readMember _ _ _
      · exact related_pure _
    all_goals exact related_pure _
  · exact related_pure _

theorem step (hs : h.Simulates R h') (v : Value) (name : String) :
    Related R (Answer.step h v name) (Answer.step h' v name) := by
  have hpart : Related R (h.part? v name >>= fun part => pure (part.getD .null))
      (h'.part? v name >>= fun part => pure (part.getD .null)) :=
    (hs.part? v name).bind fun part => related_pure _
  cases v <;> simp only [Answer.step, hs.objects]
  case null => exact related_pure _
  all_goals
    split
    · exact related_pure _
    · exact hpart

theorem extract (hs : h.Simulates R h') (v : Value) (p : Key.Path) :
    Related R (Answer.extract h v p) (Answer.extract h' v p) := by
  induction p generalizing v with
  | nil => exact related_pure v
  | cons name p ih =>
    rw [Answer.extract_cons, Answer.extract_cons]
    exact (hs.step v name).bind ih

theorem boundPart (hs : h.Simulates R h') (v : Value) (p : Key.Path) :
    Related R (Answer.boundPart h v p) (Answer.boundPart h' v p) := by
  have hpart : Related R (Answer.part h v p) (Answer.part h' v p) := by
    cases v with
    | error e => exact related_pure _
    | _ => exact hs.extract _ p
  exact hpart.bind fun w => related_pure _

theorem parts (hs : h.Simulates R h') (key v : Value) :
    Related R (Answer.parts h key v) (Answer.parts h' key v) := by
  unfold Answer.parts
  split
  · exact related_mapM (hs.boundPart v) _
  · exact related_pure _

end Host.Simulates

/-- Two settings whose hosts act alike on machines in relation, and the calls behind statements. -/
structure Setting.Simulates (R : Machine σ → Machine τ → Prop) (g : Setting σ) (g' : Setting τ) :
    Prop where
  host : g.host.Simulates R g'.host
  logError : Related R logError logError
  invoke : ∀ scope mode name entry args, Related R (g.invoke scope mode name entry args)
    (g'.invoke scope mode name entry args)

section Hook

variable {h : Host σ} {h' : Host τ}

/-- With the same hook, the calls behind statements are alike on hosts that act alike, also where
the records name other providers. -/
theorem Host.Simulates.invoke (hs : h.Simulates R h') (transform : Option Value)
    {scope scope' : Scope} {mode : Mode} {name : String} {entry : Entry}
    (hr : ∀ given, Related R (Run.record (.invoke scope.provider mode name entry given))
      (Run.record (.invoke scope'.provider mode name entry given))) (args : List Value) :
    Related R (Setting.invoke ⟨h, transform⟩ scope mode name entry args)
      (Setting.invoke ⟨h', transform⟩ scope' mode name entry args) := by
  have hook : ∀ arg, Related R (Setting.applyTransform ⟨h, transform⟩ arg)
      (Setting.applyTransform ⟨h', transform⟩ arg) := by
    intro arg
    cases transform with
    | none => exact related_pure arg
    | some t =>
      refine (hs.call t [arg]).bind fun v => ?_
      split
      · exact related_pure arg
      · exact related_pure v
  exact (related_mapM hook args).bind fun given =>
    (hr given).bind fun _ => hs.call entry.target given

theorem Host.Simulates.setting (hs : h.Simulates R h')
    (hr : ∀ e, Related R (Run.record e) (Run.record e)) (hl : Related R logError logError)
    (transform : Option Value) :
    Setting.Simulates R ⟨h, transform⟩ ⟨h', transform⟩ :=
  ⟨hs, hl, fun _ _ _ _ => hs.invoke transform fun _ => hr _⟩

end Hook

/-- Statements have the same values in scopes with the same callables where the calls behind them
are alike. -/
theorem Setting.related_evaluate {g : Setting σ} {g' : Setting τ} {scope scope' : Scope}
    (hc : scope'.callables = scope.callables) (hl : Related R logError logError)
    (hi : ∀ mode name entry args, Related R (g.invoke scope mode name entry args)
      (g'.invoke scope' mode name entry args))
    (text : Value) (mode : Mode) (context : Dict Value) :
    Related R (g.evaluate scope text mode context) (g'.evaluate scope' text mode context) := by
  unfold Setting.evaluate
  rw [hc]
  split
  · exact related_pure _
  · split
    · split
      · split
        · exact related_throw _
        · exact related_pure _
        · refine (hi _ _ _ _).tryCatch ?_
          intro f
          cases f with
          | reported e => exact related_pure _
          | _ => exact hl.bind fun _ => related_pure _
      · exact related_pure _
    · exact related_pure _

/-- The same statement in the same scope, with the same values for its arguments, evaluated from
machines in relation. -/
structure Visit.Related (R : Machine σ → Machine τ → Prop) (v : Visit σ) (v' : Visit τ) :
    Prop where
  statement : v'.toStatement = v.toStatement
  scope : v'.scope = v.scope
  args : v'.args.map (Argument.value v'.context) = v.args.map (Argument.value v.context)
  before : R v.before v'.before

/-- The same statements evaluated, and the same names bound to the same values. -/
structure History.Related (R : Machine σ → Machine τ → Prop) (h : History σ) (h' : History τ) :
    Prop where
  visits : List.Forall₂ (Visit.Related R) h.visits h'.visits
  bindings : h'.bindings = h.bindings
  fault : h'.fault = h.fault
  machine : R h.machine h'.machine

namespace Setting.Simulates

variable {g : Setting σ} {g' : Setting τ} {m : Machine σ} {m' : Machine τ}

theorem evaluate (hs : g.Simulates R g') (scope : Scope) (text : Value) (mode : Mode)
    (context : Dict Value) :
    Related R (g.evaluate scope text mode context) (g'.evaluate scope text mode context) :=
  Setting.related_evaluate rfl hs.logError (hs.invoke scope) text mode context

theorem bind (hs : g.Simulates R g') (provider : Value) :
    Related R (Scope.bind g provider) (Scope.bind g' provider) := by
  cases provider <;> simp only [Scope.bind, hs.host.objects]
  case error e => exact related_pure _
  all_goals
    split
    · exact related_pure _
    · exact hs.logError.bind fun _ => related_pure _

theorem visit (hs : g.Simulates R g') {v : Visit σ} {v' : Visit τ} (hv : v.Related R v') :
    (v.exec g).1 = (v'.exec g').1 ∧ R (v.exec g).2 (v'.exec g').2 := by
  have he := hs.evaluate v.scope v.text v.mode v.context _ _ hv.before
  have hargs : v'.toStatement.args.map (Argument.value v'.context) =
      v'.toStatement.args.map (Argument.value v.context) := by
    rw [hv.args, hv.statement]
  have hc := v'.toStatement.evaluate_congr hargs g' v'.scope
  rw [hv.statement, hv.scope] at hc
  rwa [Visit.exec, Visit.exec, hv.statement, hv.scope, hc]

end Setting.Simulates

namespace History.Related

variable {h k : History σ} {h' k' : History τ} {v : Visit σ} {v' : Visit τ}

theorem andThen (hh : h.Related R h') (hk : k.Related R k') :
    (h.andThen k).Related R (h'.andThen k') := by
  cases hf : h.fault with
  | some f =>
    rw [andThen_of_fault hf, andThen_of_fault (hh.fault.trans hf)]
    exact hh
  | none =>
    rw [andThen_of_none hf, andThen_of_none (hh.fault.trans hf)]
    refine ⟨List.rel_append hh.visits hk.visits, ?_, hk.fault, hk.machine⟩
    simp only [hh.bindings, hk.bindings]

theorem inScope (hh : h.Related R h') (hv : v.Related R v') (i : Nat) :
    (h.inScope v i).Related R (h'.inScope v' i) := by
  refine ⟨List.Forall₂.cons hv ?_, ?_, hh.fault, hh.machine⟩
  · refine List.rel_map ?_ hh.visits
    intro u u' hu
    refine ⟨?_, hu.scope, hu.args, hu.before⟩
    simp only [Visit.under_toStatement, hu.statement]
  · simp only [History.inScope, hh.bindings]

end History.Related

section Entries

variable {g : Setting σ} {g' : Setting τ}

open History Request in
mutual
theorem entryHistory_related {m : Machine σ} {m' : Machine τ} {context context' : Dict Value}
    (hs : g.Simulates R g') (scope : Scope) (i : Nat) (e : RequestEntry)
    (hc : Agree (entryStatements i e) context context') (hm : R m m') :
    (entryHistory g scope context i e m).Related R (entryHistory g' scope context' i e m') := by
  match e with
  | .declare n v | .invalid key => exact ⟨List.Forall₂.nil, rfl, rfl, hm⟩
  | .leaf key s =>
    have hv : (Visit.ofLeaf scope context i key s m).Related R
        (Visit.ofLeaf scope context' i key s m') :=
      ⟨rfl, rfl, (hc.args (List.mem_singleton_self _)).symm, hm⟩
    obtain ⟨w, m₁, hw, hh⟩ := entryHistory_leaf g scope context i key s m
    obtain ⟨w', m₁', hw', hh'⟩ := entryHistory_leaf g' scope context' i key s m'
    obtain ⟨hend, hrel⟩ := hs.visit hv
    rw [hw, hw'] at hend hrel
    cases hend
    obtain ⟨hend, hrel⟩ := hs.host.parts key w m₁ m₁' hrel
    obtain ⟨f, m₂, hp, hh⟩ | ⟨es, m₂, hp, hh⟩ := hh <;>
      obtain ⟨f', m₂', hp', hh'⟩ | ⟨es', m₂', hp', hh'⟩ := hh' <;>
      rw [hp, hp'] at hend hrel <;> cases hend <;> rw [hh, hh']
    · exact ⟨List.Forall₂.cons hv List.Forall₂.nil, rfl, rfl, hrel⟩
    · exact ⟨List.Forall₂.cons hv List.Forall₂.nil, rfl, rfl, hrel⟩
  | .scope key body =>
    have hv : (Visit.ofKey scope context i key m).Related R
        (Visit.ofKey scope context' i key m') :=
      ⟨rfl, rfl, (hc.args List.mem_cons_self).symm, hm⟩
    have hbody : Agree ((statementsFrom 0 body).map (Statement.under i)) context context' :=
      fun s hs => hc s (List.mem_cons_of_mem _ hs)
    obtain ⟨w, m₁, n, hw, hb, hh⟩ := entryHistory_scope g scope context i key body m
    obtain ⟨w', m₁', n', hw', hb', hh'⟩ := entryHistory_scope g' scope context' i key body m'
    obtain ⟨hend, hrel⟩ := hs.visit hv
    rw [hw, hw'] at hend hrel
    cases hend
    obtain ⟨-, hrel⟩ := hs.bind w m₁ m₁' hrel
    rw [hb, hb'] at hrel
    rw [hh, hh', hs.host.objects]
    exact (historyFrom_related hs _ 0 body hbody.of_under hrel).inScope hv i

/-- Entries are answered alike from machines in relation, also where the contexts agree for their
statements only. -/
theorem historyFrom_related {m : Machine σ} {m' : Machine τ} {context context' : Dict Value}
    (hs : g.Simulates R g') (scope : Scope) (i : Nat) (es : List RequestEntry)
    (hc : Agree (statementsFrom i es) context context') (hm : R m m') :
    (historyFrom g scope context i es m).Related R (historyFrom g' scope context' i es m') := by
  match es with
  | [] => exact ⟨List.Forall₂.nil, rfl, rfl, hm⟩
  | e :: r =>
    have he := entryHistory_related hs scope i e hc.left hm
    have hl : (entryHistory g' scope context' i e m').lasting =
        (entryHistory g scope context i e m).lasting := by
      rw [lasting, lasting, he.bindings]
    refine he.andThen ?_
    rw [hl]
    exact historyFrom_related hs scope (i + 1) r (hc.right.insertAll _) he.machine
end

/-- Requests are answered alike from machines in relation. -/
theorem history_related {m : Machine σ} {m' : Machine τ} (hs : g.Simulates R g') (root : Value)
    (context : Dict Value) (request : Request) (hm : R m m') :
    (history g root context request m).Related R (history g' root context request m') := by
  unfold history
  rw [hs.host.objects]
  exact historyFrom_related hs _ 0 request (fun _ _ _ _ => rfl) (hs.bind root m m' hm).2

theorem answerBy_related (hs : g.Simulates R g') (root : Value) (context : Dict Value)
    (request : Request) :
    Related R (answerBy g root context request) (answerBy g' root context request) := by
  intro m m' hm
  have hh := history_related hs root context request hm
  rw [exec_answerBy, exec_answerBy]
  refine ⟨?_, hh.machine⟩
  rw [History.outcome, History.outcome, hh.fault, History.results, History.results, hh.bindings]

end Entries
end CallTree
