import CallTree.Proofs.Simulation

/-! Hosts that are watched: what their functions gave is kept in the order in which they ran. To be
watched makes no difference to a host. -/
namespace CallTree

variable {σ α β : Type} {h : Host σ} {g : Setting σ}

open Run

/-- What a function of the host gave, or the fault that it failed with. -/
abbrev Outcome := Except Fault Value

/-- The state of a host, and the outcomes so far. -/
abbrev Watched (σ : Type) := σ × List Outcome

def Host.watched (h : Host σ) : Host (Watched σ) where
  objects := h.objects
  perform f args s :=
    let r := h.perform f args s.1
    (r.1, r.2, s.2 ++ [r.1])

@[simp] theorem Host.watched_objects (h : Host σ) : h.watched.objects = h.objects := rfl

def Setting.watched (g : Setting σ) : Setting (Watched σ) := ⟨g.host.watched, g.transform⟩

namespace Machine

/-- A machine from where its host is watched. -/
def watched (m : Machine σ) : Machine (Watched σ) := ⟨(m.host, []), m.events, m.logged⟩

/-- A machine whose host was not watched. -/
def unwatched (m : Machine (Watched σ)) : Machine σ := ⟨m.host.1, m.events, m.logged⟩

/-- The same machine after some more outcomes. -/
def after (past : List Outcome) (m : Machine (Watched σ)) : Machine (Watched σ) :=
  ⟨(m.host.1, past ++ m.host.2), m.events, m.logged⟩

end Machine

/-- All outcomes of the host while a request is answered. -/
def outcomes (g : Setting σ) (root : Value) (context : Dict Value) (request : Request)
    (m : Machine σ) : List Outcome :=
  (exec (answerBy g.watched root context request) m.watched).2.host.2

/-! ### Watching changes nothing -/

/-- Machines of which the second one is the first one, watched. -/
def Machine.Watches (m : Machine σ) (m' : Machine (Watched σ)) : Prop := m = m'.unwatched

theorem Setting.simulates_watched (g : Setting σ) : g.Simulates Machine.Watches g.watched := by
  have hr : ∀ e, Related (Machine.Watches : Machine σ → Machine (Watched σ) → Prop) (record e)
      (record e) := by
    rintro e _ m' rfl
    exact ⟨rfl, rfl⟩
  have hs : g.host.Simulates Machine.Watches g.host.watched := by
    refine ⟨rfl, fun e _ => hr e, ?_⟩
    rintro f args _ m' rfl
    exact ⟨rfl, rfl⟩
  refine hs.setting hr ?_ g.transform
  rintro _ m' rfl
  exact ⟨rfl, rfl⟩

theorem history_watched (g : Setting σ) (root : Value) (context : Dict Value) (request : Request)
    (m : Machine σ) :
    (history g root context request m).Related Machine.Watches
      (history g.watched root context request m.watched) := by
  have hm : Machine.Watches m m.watched := rfl
  exact history_related g.simulates_watched root context request hm

/-! ### Outcomes are only added -/

/-- Machines of which the second one has had more outcomes before. -/
def Machine.Follows (past : List Outcome) (m m' : Machine (Watched σ)) : Prop := m' = m.after past

theorem Machine.follows_outcomes (m : Machine (Watched σ)) :
    Follows m.host.2 { m with host := (m.host.1, []) } m := by
  simp [Follows, after]

theorem Run.related_record_follows (past : List Outcome) (e : Event) :
    Related (Machine.Follows past : Machine (Watched σ) → Machine (Watched σ) → Prop) (record e)
      (record e) := by
  rintro m _ rfl
  exact ⟨rfl, rfl⟩

theorem Host.watched_simulates (h : Host σ) (past : List Outcome) :
    h.watched.Simulates (Machine.Follows past) h.watched := by
  refine ⟨rfl, fun e _ => related_record_follows past e, ?_⟩
  rintro f args m _ rfl
  exact ⟨rfl, by simp only [Machine.Follows, exec_enter, watched, Machine.after, List.append_assoc]⟩

theorem Setting.watched_simulates (g : Setting σ) (past : List Outcome) :
    g.watched.Simulates (Machine.Follows past) g.watched := by
  refine (g.host.watched_simulates past).setting (related_record_follows past) ?_ g.transform
  rintro m _ rfl
  exact ⟨rfl, rfl⟩

/-- The outcomes that a run begins with are the first ones at its end. -/
def Run.Extends (x : Run (Watched σ) α) : Prop :=
  ∀ m, m.host.2 <+: (exec x m).2.host.2

theorem Run.extends_of_related {x : Run (Watched σ) α}
    (hx : ∀ past, Related (Machine.Follows past) x x) : Extends x := by
  intro m
  rw [(hx m.host.2 _ m m.follows_outcomes).2]
  exact List.prefix_append ..

theorem historyFrom_extends (g : Setting σ) (scope : Scope) (context : Dict Value) (i : Nat)
    (es : List RequestEntry) (m : Machine (Watched σ)) :
    m.host.2 <+: (historyFrom g.watched scope context i es m).machine.host.2 := by
  rw [(historyFrom_related (g.watched_simulates m.host.2) scope i es (fun _ _ _ _ => rfl)
    m.follows_outcomes).machine]
  exact List.prefix_append ..

end CallTree
