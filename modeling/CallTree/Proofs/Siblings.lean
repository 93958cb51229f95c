import CallTree.Proofs.Access
import CallTree.Proofs.Sequence
import CallTree.Proofs.Simulation

/-! Neighbours in a request that do not depend on each other. Where the host keeps nothing from one
call to the next, they can change places. -/
namespace CallTree

variable {σ : Type} {m m' : Machine σ} {i j n : Nat} {g : Setting σ} {scope : Scope}
  {context context' : Dict Value} {v v' : Visit σ} {f : Place → Place} {h h' k k' : History σ}
  {e e₁ e₂ : RequestEntry} {x : String}

/-- What the functions of a host give does not depend on its state. -/
def Host.Stateless (h : Host σ) : Prop :=
  ∀ f args s s', (h.perform f args s).1 = (h.perform f args s').1

/-- Two machines that came by the same records, each after some of its own. -/
def Machine.Alongside (a b : List Event) (m m' : Machine σ) : Prop :=
  ∃ new, m.events = a ++ new ∧ m'.events = b ++ new

theorem Machine.alongside (m m' : Machine σ) : Alongside m.events m'.events m m' :=
  ⟨[], by simp, by simp⟩

theorem Run.related_record_alongside (a b : List Event) (e : Event) :
    Related (Machine.Alongside a b : Machine σ → Machine σ → Prop) (record e) (record e) := by
  rintro m m' ⟨new, ha, hb⟩
  exact ⟨rfl, new ++ [e], by simp [ha], by simp [hb]⟩

theorem Host.Stateless.simulates {h : Host σ} (hs : h.Stateless) (a b : List Event) :
    h.Simulates (Machine.Alongside a b) h := by
  refine ⟨rfl, fun e _ => Run.related_record_alongside a b e, ?_⟩
  rintro f args m m' ⟨new, ha, hb⟩
  rw [Run.exec_enter, Run.exec_enter]
  exact ⟨hs f args m.host m'.host, new, ha, hb⟩

theorem Setting.simulates_of_stateless (hs : g.host.Stateless) (a b : List Event) :
    g.Simulates (Machine.Alongside a b) g := by
  refine (hs.simulates a b).setting (Run.related_record_alongside a b) ?_ g.transform
  rintro m m' ⟨new, ha, hb⟩
  exact ⟨rfl, new, ha, hb⟩

/-- Whether an action neither sets nor reads a variable. -/
def Action.keepsNothing : Action → Bool
  | .count _ | .store _ | .load _ => false
  | _ => true

def Script.keepsNothing : Script → Bool
  | .actions as => as.all Action.keepsNothing
  | .rules cases => cases.all fun c => c.2.keepsNothing

theorem Action.fst_perform {a : Action} (ha : a.keepsNothing = true) (args : List Value)
    (s s' : Store) : (a.perform args s).1 = (a.perform args s').1 := by
  cases a with
  | count | store | load => cases ha
  | argument i =>
    simp only [perform]
    split <;> rfl
  | pick cases =>
    simp only [perform]
    split
    · split <;> rfl
    · rfl
  | _ => rfl

theorem World.stateless {w : World}
    (hw : w.scripts.all (fun s => s.2.keepsNothing) = true) : w.host.Stateless := by
  intro f args s s'
  simp only [host, perform]
  cases hl : w.scripts.lookup f.owner with
  | none => rfl
  | some script =>
    have hscript := List.all_eq_true.mp hw _ (mem_of_lookup hl)
    cases script with
    | actions as =>
      refine Action.fst_perform ?_ args s s'
      cases ha : as[f.place]? with
      | none => rfl
      | some a => exact List.all_eq_true.mp hscript a (List.mem_of_getElem? ha)
    | rules cases =>
      cases args with
      | nil => rfl
      | cons v r =>
        dsimp only
        split
        · next c hc =>
          exact Action.fst_perform
            (List.all_eq_true.mp hscript c (List.mem_of_find?_eq_some hc)) (v :: r) s s'
        · rfl

/-! ### What entries bind and refer to -/

namespace RequestEntry

/-- The names that an entry binds for the entries after it. -/
def binds (e : RequestEntry) : List Value :=
  ((Request.entrySlots 0 e).filter Slot.lasts).map (·.name)

/-- A statement of an entry, at any depth, refers to a variable. -/
def RefersTo (e : RequestEntry) (x : String) : Prop :=
  ∃ s ∈ Request.entryStatements 0 e, s.RefersTo x

/-- No name that one of two entries binds is bound by the other one, or is a variable that it refers
to. -/
structure Independent (e₁ e₂ : RequestEntry) : Prop where
  binds : ∀ x ∈ e₁.binds, ∀ y ∈ e₂.binds, Value.sameKey x y = false
  left : ∀ x, e₁.RefersTo x → ∀ y ∈ e₂.binds, Value.sameKey y (.str x) = false
  right : ∀ x, e₂.RefersTo x → ∀ y ∈ e₁.binds, Value.sameKey y (.str x) = false

/-- The names do not depend on where the entry stands. -/
theorem names_entrySlots (i : Nat) (e : RequestEntry) :
    ((Request.entrySlots i e).filter Slot.lasts).map (·.name) = e.binds := by
  cases e with
  | declare n v | invalid key => rfl
  | leaf key s =>
    have hl : ∀ j, ((Answer.boundNames key).map fun name => (⟨[j], .statement, name⟩ : Slot)).filter
        Slot.lasts = (Answer.boundNames key).map fun name => ⟨[j], .statement, name⟩ := by
      intro j
      refine List.filter_eq_self.mpr ?_
      intro s hs
      obtain ⟨name, -, rfl⟩ := List.mem_map.mp hs
      rfl
    simp only [binds, Request.entrySlots, hl, List.map_map]
    rfl
  | scope key body =>
    simp only [binds, Request.entrySlots, List.filter_map, List.map_map]
    rfl

theorem refersTo_of_mem {s : Statement} (hs : s ∈ Request.entryStatements i e)
    (hx : s.RefersTo x) : e.RefersTo x := by
  cases e with
  | declare n v | invalid key => cases hs
  | leaf key t =>
    obtain rfl := List.mem_singleton.mp hs
    exact ⟨_, List.mem_singleton_self _, hx⟩
  | scope key body =>
    rcases List.mem_cons.mp hs with rfl | hs
    · exact ⟨_, List.mem_cons_self, hx⟩
    · obtain ⟨t, ht, rfl⟩ := List.mem_map.mp hs
      exact ⟨t.under 0, List.mem_cons_of_mem _ (List.mem_map_of_mem ht), hx⟩

end RequestEntry

namespace Dict

variable {α : Type} {es fs : List (Value × α)} {key : Value}

/-- Where two lists have no key in common, it makes no difference which one comes first. -/
theorem last?_or_comm (hd : ∀ a ∈ es, ∀ b ∈ fs, Value.sameKey a.1 b.1 = false) :
    (last? key es).or (last? key fs) = (last? key fs).or (last? key es) := by
  cases hes : last? key es with
  | none => simp
  | some v =>
    have hfs : last? key fs = none := by
      refine last?_eq_none_iff.mpr ?_
      intro b hb
      by_contra hne
      have hsome : ¬ ∀ a ∈ es, Value.sameKey a.1 key = false := by
        rw [← last?_eq_none_iff, hes]
        simp
      refine hsome fun a ha => ?_
      rw [Value.sameKey_comm, ← Value.sameKey_congr (by simpa using hne), Value.sameKey_comm]
      exact hd a ha b hb
    rw [hfs]
    simp

end Dict

/-- Contexts that give all variables the same values agree for all statements. -/
theorem Agree.of_get? {ss : List Statement} (hc : ∀ x, Dict.get? x context' = Dict.get? x context) :
    Agree ss context context' := by
  intro s hs x hx
  rw [hc]

/-! ### Places that are exchanged -/

namespace Place

/-- Entries `i` and `i + 1` of a node change places. -/
def swap (i : Nat) : Place → Place
  | [] => []
  | j :: p => (if j = i then i + 1 else if j = i + 1 then i else j) :: p

/-- Places in the scope at `i` are changed, and no others. -/
def within (i : Nat) (f : Place → Place) : Place → Place
  | [] => []
  | j :: p => if j = i then j :: f p else j :: p

/-- Entries `i` and `i + 1` of the node in the scope at a place change places. -/
def exchange : Place → Nat → Place → Place
  | [], i => swap i
  | j :: node, i => within j (exchange node i)

theorem exchange_nil (node : Place) (i : Nat) : exchange node i [] = [] := by
  cases node <;> rfl

end Place

/-- A scope of a request, without its entries. -/
structure Frame where
  before : Request
  key : Value
  after : Request

namespace Request

/-- A request with some entries in a scope within scopes. -/
def enclose : List Frame → Request → Request
  | [], es => es
  | s :: r, es => s.before ++ .scope s.key (enclose r es) :: s.after

/-- Where the scope of such entries stands. -/
def nodePlace (frames : List Frame) : Place := frames.map (·.before.length)

theorem statementsFrom_place_lt {es : List RequestEntry} {s : Statement}
    (hs : s ∈ statementsFrom i es) : ∃ j p, i ≤ j ∧ j < i + es.length ∧ s.place = j :: p := by
  induction es generalizing i with
  | nil => cases hs
  | cons e r ih =>
    rw [List.length_cons]
    rcases List.mem_append.mp hs with hs | hs
    · obtain ⟨p, hp⟩ := entryStatements_place hs
      exact ⟨i, p, by omega, by omega, hp⟩
    · obtain ⟨j, p, hij, hj, hp⟩ := ih hs
      exact ⟨j, p, by omega, by omega, hp⟩

end Request

/-! ### Histories that differ by an exchange -/

/-- The same statement, at the place that `f` gives: evaluated in the same scope, with the same
arguments, to the same value and with the same records. -/
structure Visit.Mirrors (g : Setting σ) (f : Place → Place) (v v' : Visit σ) : Prop where
  statement : v'.toStatement = { v.toStatement with place := f v.place }
  scope : v'.scope = v.scope
  args : v'.args.map (Argument.value v'.context) = v.args.map (Argument.value v.context)
  value : (v'.exec g).1 = (v.exec g).1
  records : v'.records g = v.records g

theorem Visit.mirrors_of_args (hs : g.host.Stateless)
    (hst : v'.toStatement = { v.toStatement with place := f v.place }) (hsc : v'.scope = v.scope)
    (hargs : v'.args.map (Argument.value v'.context) = v.args.map (Argument.value v.context)) :
    v.Mirrors g f v' := by
  have hv : v.Related (Machine.Alongside v.before.events v'.before.events)
      { v' with toStatement := v.toStatement } := by
    refine ⟨rfl, hsc, ?_, Machine.alongside v.before v'.before⟩
    rw [← hargs, hst]
    rfl
  have hx : Visit.exec g { v' with toStatement := v.toStatement } = v'.exec g := by
    rw [exec, exec, hst]
  obtain ⟨hend, new, hn, hn'⟩ := (Setting.simulates_of_stateless hs _ _).visit hv
  rw [hx] at hend hn'
  refine ⟨hst, hsc, hargs, hend.symm, ?_⟩
  rw [records, records, hn, hn', List.drop_left, List.drop_left]

/-- Two histories that came through, of the same statements up to their places and their order, and
which leave the same values under all names. -/
structure History.Mirrors (g : Setting σ) (f : Place → Place) (h h' : History σ) : Prop where
  fault : h.fault = none ∧ h'.fault = none
  visits : ∃ vs, vs.Perm h'.visits ∧ List.Forall₂ (Visit.Mirrors g f) h.visits vs
  results : ∀ x, Dict.last? x h'.results = Dict.last? x h.results
  lasting : ∀ x, Dict.last? x h'.lasting = Dict.last? x h.lasting

namespace History

theorem mem_lasting_of_mem_results {a : Value × Value} (ha : a ∈ h.results) : a ∈ h.lasting := by
  obtain ⟨b, hb, rfl⟩ := List.mem_map.mp ha
  obtain ⟨hb, hans⟩ := List.mem_filter.mp hb
  refine List.mem_map_of_mem (List.mem_filter.mpr ⟨hb, ?_⟩)
  rw [Slot.lasts, hans, Bool.true_or]

theorem fault_andThen_eq_none_iff :
    (h.andThen h').fault = none ↔ h.fault = none ∧ h'.fault = none := by
  cases hf : h.fault with
  | some f => simp [andThen_of_fault hf, hf]
  | none => simp [andThen_of_none hf]

theorem Mirrors.andThen (hh : h.Mirrors g f h') (hk : k.Mirrors g f k') :
    (h.andThen k).Mirrors g f (h'.andThen k') := by
  obtain ⟨vs, hvs, hvis⟩ := hh.visits
  obtain ⟨ws, hws, hwis⟩ := hk.visits
  refine ⟨⟨fault_andThen_eq_none_iff.mpr ⟨hh.fault.1, hk.fault.1⟩,
    fault_andThen_eq_none_iff.mpr ⟨hh.fault.2, hk.fault.2⟩⟩, ⟨vs ++ ws, ?_, ?_⟩, ?_, ?_⟩
  · rw [andThen_of_none hh.fault.2]
    exact hvs.append hws
  · rw [andThen_of_none hh.fault.1]
    exact List.rel_append hvis hwis
  · intro x
    rw [results_andThen hh.fault.1, results_andThen hh.fault.2, Dict.last?_append,
      Dict.last?_append, hh.results, hk.results]
  · intro x
    rw [lasting_andThen hh.fault.1, lasting_andThen hh.fault.2, Dict.last?_append,
      Dict.last?_append, hh.lasting, hk.lasting]

/-- Two histories without a name in common can change places. -/
theorem Mirrors.swapped (hh : h.Mirrors g f h') (hk : k.Mirrors g f k')
    (hd : ∀ a ∈ h.lasting, ∀ b ∈ k.lasting, Value.sameKey a.1 b.1 = false) :
    (h.andThen k).Mirrors g f (k'.andThen h') := by
  obtain ⟨vs, hvs, hvis⟩ := hh.visits
  obtain ⟨ws, hws, hwis⟩ := hk.visits
  refine ⟨⟨fault_andThen_eq_none_iff.mpr ⟨hh.fault.1, hk.fault.1⟩,
    fault_andThen_eq_none_iff.mpr ⟨hk.fault.2, hh.fault.2⟩⟩, ⟨vs ++ ws, ?_, ?_⟩, ?_, ?_⟩
  · rw [andThen_of_none hk.fault.2]
    exact (hvs.append hws).trans List.perm_append_comm
  · rw [andThen_of_none hh.fault.1]
    exact List.rel_append hvis hwis
  · intro x
    rw [results_andThen hh.fault.1, results_andThen hk.fault.2, Dict.last?_append,
      Dict.last?_append, hh.results, hk.results]
    exact Dict.last?_or_comm fun a ha b hb =>
      hd a (mem_lasting_of_mem_results ha) b (mem_lasting_of_mem_results hb)
  · intro x
    rw [lasting_andThen hh.fault.1, lasting_andThen hk.fault.2, Dict.last?_append,
      Dict.last?_append, hh.lasting, hk.lasting]
    exact Dict.last?_or_comm hd

theorem Mirrors.inScope (hh : h.Mirrors g f h') (hv : v.Mirrors g (Place.within i f) v')
    (hp : ∀ b ∈ h.bindings, b.place ≠ []) (hp' : ∀ b ∈ h'.bindings, b.place ≠ []) :
    (h.inScope v i).Mirrors g (Place.within i f) (h'.inScope v' i) := by
  obtain ⟨vs, hvs, hvis⟩ := hh.visits
  refine ⟨hh.fault, ⟨v' :: vs.map (Visit.under i), (hvs.map _).cons v', ?_⟩, ?_, ?_⟩
  · refine List.Forall₂.cons hv (List.rel_map ?_ hvis)
    intro u u' hu
    refine ⟨?_, hu.scope, hu.args, hu.value, hu.records⟩
    rw [Visit.under_toStatement, Visit.under_toStatement, hu.statement]
    simp [Statement.under, Place.within]
  · intro x
    rw [results_inScope, results_inScope, hh.results]
  · intro x
    rw [lasting_inScope hp, lasting_inScope hp', hh.results]

/-- Histories of the same entries at the same places. -/
theorem Related.mirrors {a b : List Event} (hh : h.Related (Machine.Alongside a b) h')
    (hs : g.host.Stateless) (hf : h.fault = none) (hp : ∀ v ∈ h.visits, f v.place = v.place) :
    h.Mirrors g f h' := by
  have hall : ∀ {vs vs' : List (Visit σ)},
      List.Forall₂ (Visit.Related (Machine.Alongside a b)) vs vs' →
        (∀ v ∈ vs, f v.place = v.place) → List.Forall₂ (Visit.Mirrors g f) vs vs' := by
    intro vs vs' hvs hp
    induction hvs with
    | nil => exact List.Forall₂.nil
    | @cons v v' vs vs' hv _ ih =>
      refine List.Forall₂.cons (Visit.mirrors_of_args hs ?_ hv.scope hv.args)
        (ih fun u hu => hp u (List.mem_cons_of_mem v hu))
      rw [hp v List.mem_cons_self, hv.statement]
  refine ⟨⟨hf, hh.fault.trans hf⟩, ⟨h'.visits, List.Perm.refl _, hall hh.visits hp⟩, ?_, ?_⟩
  · intro x
    rw [results, results, hh.bindings]
  · intro x
    rw [History.lasting, History.lasting, hh.bindings]

end History

theorem place_ne_nil {es : List RequestEntry} {b : Binding}
    (hb : b ∈ (historyFrom g scope context i es m).bindings) : b.place ≠ [] := by
  obtain ⟨j, p, -, hp⟩ := bindings_place hb
  rw [hp]
  exact List.cons_ne_nil j p

/-- The history of an entry, also at another place of its node, and in another context that agrees
for its statements. -/
theorem entryHistory_mirrors (hs : g.host.Stateless) (hf : ∀ p, f (i :: p) = j :: p)
    (hc : Agree (Request.entryStatements i e) context context')
    (hn : (entryHistory g scope context i e m).fault = none) :
    (entryHistory g scope context i e m).Mirrors g f (entryHistory g scope context' j e m') := by
  have hsim := Setting.simulates_of_stateless hs
  cases e with
  | declare n v | invalid key =>
    exact ⟨⟨rfl, rfl⟩, ⟨[], List.Perm.refl _, List.Forall₂.nil⟩, fun _ => rfl, fun _ => rfl⟩
  | leaf key s =>
    have hv : (Visit.ofLeaf scope context i key s m).Mirrors g f
        (Visit.ofLeaf scope context' j key s m') := by
      refine Visit.mirrors_of_args hs ?_ rfl (hc.args (List.mem_singleton_self _)).symm
      simp only [Visit.ofLeaf, hf]
    obtain ⟨w, m₁, hw, ⟨f, m₂, -, hh⟩ | ⟨es, m₂, hp, hh⟩⟩ :=
      entryHistory_leaf g scope context i key s m
    · rw [hh] at hn
      cases hn
    obtain ⟨w', m₁', hw', hh'⟩ := entryHistory_leaf g scope context' j key s m'
    have hvalue := hv.value
    rw [hw, hw'] at hvalue
    cases hvalue
    have hparts := ((hsim m₁.events m₁'.events).host.parts key w m₁ m₁'
      (Machine.alongside m₁ m₁')).1
    rw [hp] at hparts
    obtain ⟨f, m₂', hp', -⟩ | ⟨es', m₂', hp', hh'⟩ := hh' <;> rw [hp'] at hparts <;> cases hparts
    rw [hh, hh']
    refine ⟨⟨rfl, rfl⟩, ⟨_, List.Perm.refl _, List.Forall₂.cons hv List.Forall₂.nil⟩, ?_, ?_⟩
    · intro x
      rw [History.results, History.results, filter_ofLeaf fun _ _ => rfl,
        filter_ofLeaf fun _ _ => rfl, pairs_ofLeaf, pairs_ofLeaf]
    · intro x
      rw [History.lasting, History.lasting, filter_ofLeaf fun _ _ => rfl,
        filter_ofLeaf fun _ _ => rfl, pairs_ofLeaf, pairs_ofLeaf]
  | scope key body =>
    have hv : (Visit.ofKey scope context i key m).Mirrors g f
        (Visit.ofKey scope context' j key m') := by
      refine Visit.mirrors_of_args hs ?_ rfl (hc.args List.mem_cons_self).symm
      simp only [Visit.ofKey, hf]
    have hbody : Agree ((Request.statementsFrom 0 body).map (Statement.under i)) context context' :=
      fun s hs => hc s (List.mem_cons_of_mem _ hs)
    obtain ⟨w, m₁, k, hw, -, hh⟩ := entryHistory_scope g scope context i key body m
    obtain ⟨w', m₁', k', hw', -, hh'⟩ := entryHistory_scope g scope context' j key body m'
    have hvalue := hv.value
    rw [hw, hw'] at hvalue
    cases hvalue
    have hrel := historyFrom_related (hsim _ _) (Scope.ofValue g.host.objects w) 0 body
      hbody.of_under (Machine.alongside { m₁ with logged := k } { m₁' with logged := k' })
    rw [hh] at hn
    rw [hh, hh']
    refine ⟨⟨hn, hrel.fault.trans hn⟩,
      ⟨_, List.Perm.refl _, List.Forall₂.cons hv (List.rel_map ?_ hrel.visits)⟩, ?_, ?_⟩
    · intro u u' hu
      refine Visit.mirrors_of_args hs ?_ hu.scope hu.args
      rw [Visit.under_toStatement, Visit.under_toStatement, hu.statement]
      simp only [Statement.under, hf]
    · intro x
      rw [History.results_inScope, History.results_inScope, History.results, History.results,
        hrel.bindings]
    · intro x
      rw [History.lasting_inScope fun b hb => place_ne_nil hb,
        History.lasting_inScope fun b hb => place_ne_nil hb, History.results,
        History.results, hrel.bindings]

section Exchange

variable {before after : Request}

/-- What stands before and after a part of a node is answered alike where the part is. -/
theorem historyFrom_mirrors (mid mid' : Request) (hs : g.host.Stateless)
    (hlen : mid'.length = mid.length)
    (hf : ∀ j p, j < before.length ∨ before.length + mid.length ≤ j → f (j :: p) = j :: p)
    (hmid : ∀ (context context' : Dict Value) (m m' : Machine σ),
      (∀ x, Dict.get? x context' = Dict.get? x context) →
        (historyFrom g scope context before.length mid m).fault = none →
          (historyFrom g scope context before.length mid m).Mirrors g f
            (historyFrom g scope context' before.length mid' m'))
    (hc : ∀ x, Dict.get? x context' = Dict.get? x context)
    (hn : (historyFrom g scope context 0 (before ++ (mid ++ after)) m).fault = none) :
    (historyFrom g scope context 0 (before ++ (mid ++ after)) m).Mirrors g f
      (historyFrom g scope context' 0 (before ++ (mid' ++ after)) m') := by
  have hsame : ∀ i es context context' m m',
      (∀ x, Dict.get? x context' = Dict.get? x context) →
        (historyFrom g scope context i es m).fault = none →
          (∀ k, i ≤ k → k < i + es.length → ∀ p, f (k :: p) = k :: p) →
            (historyFrom g scope context i es m).Mirrors g f
              (historyFrom g scope context' i es m') := by
    intro i es context context' m m' hc hn hk
    refine (historyFrom_related (Setting.simulates_of_stateless hs m.events m'.events) scope i es
      (Agree.of_get? hc) (Machine.alongside m m')).mirrors hs hn ?_
    intro v hv
    obtain ⟨k, p, hik, hki, hp⟩ := Request.statementsFrom_place_lt
      ((historyFrom_follows g scope context i es m).mem_statements hv)
    rw [hp, hk k hik hki]
  have hgrow : ∀ {h h' : History σ} {context context' : Dict Value}, h.Mirrors g f h' →
      (∀ x, Dict.get? x context' = Dict.get? x context) →
        ∀ x, Dict.get? x (Dict.insertAll context' h'.lasting) =
          Dict.get? x (Dict.insertAll context h.lasting) := by
    intro h h' context context' hh hc x
    rw [Dict.get?_insertAll, Dict.get?_insertAll, hh.lasting, hc]
  rw [historyFrom_append, historyFrom_append] at hn ⊢
  rw [historyFrom_append g scope context', historyFrom_append g scope _ _ mid' after, hlen]
  simp only [Nat.zero_add] at hn ⊢
  obtain ⟨hn₁, hn₂⟩ := History.fault_andThen_eq_none_iff.mp hn
  obtain ⟨hn₂, hn₃⟩ := History.fault_andThen_eq_none_iff.mp hn₂
  have hbefore := hsame _ _ _ _ m m' hc hn₁ fun k _ hk p => hf k p (Or.inl (by omega))
  have hmiddle := hmid _ _ _ (historyFrom g scope context' 0 before m').machine
    (hgrow hbefore hc) hn₂
  exact hbefore.andThen (hmiddle.andThen (hsame _ _ _ _ _ _
    (hgrow hmiddle (hgrow hbefore hc)) hn₃ fun k hk _ p => hf k p (Or.inr hk)))

theorem historyFrom_singleton (g : Setting σ) (scope : Scope) (context : Dict Value) (i : Nat)
    (e : RequestEntry) (m : Machine σ) :
    historyFrom g scope context i [e] m = entryHistory g scope context i e m := by
  rw [historyFrom, historyFrom]
  cases hf : (entryHistory g scope context i e m).fault with
  | some f => rw [History.andThen_of_fault hf]
  | none =>
    rw [History.andThen_of_none hf, List.append_nil, List.append_nil, ← hf]

theorem binds_of_mem_lasting {a : Value × Value}
    (ha : a ∈ (entryHistory g scope context i e m).lasting) : a.1 ∈ e.binds := by
  obtain ⟨b, hb, rfl⟩ := List.mem_map.mp ha
  obtain ⟨hb, hlasts⟩ := List.mem_filter.mp hb
  rw [← RequestEntry.names_entrySlots i e]
  exact List.mem_map_of_mem (f := (·.name)) (List.mem_filter.mpr
    ⟨(entryHistory_follows g scope context i e m).mem_slots hb, hlasts⟩)

/-- Two entries of a node that do not depend on each other. -/
theorem pair_mirrors (hs : g.host.Stateless) (hind : RequestEntry.Independent e₁ e₂)
    (hc : ∀ x, Dict.get? x context' = Dict.get? x context)
    (hn : (historyFrom g scope context i [e₁, e₂] m).fault = none) :
    (historyFrom g scope context i [e₁, e₂] m).Mirrors g (Place.swap i)
      (historyFrom g scope context' i [e₂, e₁] m') := by
  rw [historyFrom, historyFrom_singleton] at hn ⊢
  rw [historyFrom, historyFrom_singleton]
  obtain ⟨hn₁, hn₂⟩ := History.fault_andThen_eq_none_iff.mp hn
  have hunseen : ∀ {e e' : RequestEntry} {j k x c m},
      (∀ x, e.RefersTo x → ∀ y ∈ e'.binds, Value.sameKey y (.str x) = false) →
        ∀ s ∈ Request.entryStatements j e, s.RefersTo x →
          Dict.last? (.str x) (entryHistory g scope c k e' m).lasting = none := by
    intro e e' j k x c m hmiss s hs hx
    refine Dict.last?_eq_none_iff.mpr fun a ha => ?_
    exact hmiss x (RequestEntry.refersTo_of_mem hs hx) a.1 (binds_of_mem_lasting ha)
  have hfirst : (entryHistory g scope context i e₁ m).Mirrors g (Place.swap i)
      (entryHistory g scope
        (Dict.insertAll context' (entryHistory g scope context' i e₂ m').lasting)
        (i + 1) e₁ (entryHistory g scope context' i e₂ m').machine) := by
    refine entryHistory_mirrors hs (fun p => by simp [Place.swap]) ?_ hn₁
    intro s hs x hx
    rw [Dict.get?_insertAll, hunseen hind.left s hs hx, hc]
    rfl
  have hsecond : (entryHistory g scope (Dict.insertAll context
        (entryHistory g scope context i e₁ m).lasting) (i + 1) e₂
        (entryHistory g scope context i e₁ m).machine).Mirrors g (Place.swap i)
      (entryHistory g scope context' i e₂ m') := by
    refine entryHistory_mirrors hs (fun p => by simp [Place.swap]) ?_ hn₂
    intro s hs x hx
    rw [Dict.get?_insertAll, hunseen hind.right s hs hx, hc]
    rfl
  exact hfirst.swapped hsecond fun a ha b hb =>
    hind.binds a.1 (binds_of_mem_lasting ha) b.1 (binds_of_mem_lasting hb)

/-- Two such entries in a scope within scopes. -/
theorem enclose_mirrors (hs : g.host.Stateless) (hind : RequestEntry.Independent e₁ e₂)
    (frames : List Frame) (before after : Request)
    (hc : ∀ x, Dict.get? x context' = Dict.get? x context)
    (hn : (historyFrom g scope context 0 (Request.enclose frames (before ++ e₁ :: e₂ :: after))
      m).fault = none) :
    (historyFrom g scope context 0 (Request.enclose frames (before ++ e₁ :: e₂ :: after))
        m).Mirrors g (Place.exchange (Request.nodePlace frames) before.length)
      (historyFrom g scope context' 0 (Request.enclose frames (before ++ e₂ :: e₁ :: after))
        m') := by
  induction frames generalizing scope context context' m m' with
  | nil =>
    refine historyFrom_mirrors [e₁, e₂] [e₂, e₁] hs rfl ?_
      (fun _ _ _ _ hc hn => pair_mirrors hs hind hc hn) hc hn
    intro j p hj
    have hj₁ : j ≠ before.length := by
      simp only [List.length_cons, List.length_nil] at hj
      omega
    have hj₂ : j ≠ before.length + 1 := by
      simp only [List.length_cons, List.length_nil] at hj
      omega
    simp [Request.nodePlace, Place.exchange, Place.swap, hj₁, hj₂]
  | cons s r ih =>
    refine historyFrom_mirrors [.scope s.key _] [.scope s.key _] hs rfl ?_ ?_ hc hn
    · intro j p hj
      have hne : j ≠ s.before.length := by
        simp only [List.length_singleton] at hj
        omega
      simp [Request.nodePlace, Place.exchange, Place.within, hne]
    · intro context context' m m' hc hn
      rw [historyFrom_singleton] at hn ⊢
      rw [historyFrom_singleton]
      obtain ⟨w, m₁, k, hw, -, hh⟩ :=
        entryHistory_scope g scope context s.before.length s.key _ m
      obtain ⟨w', m₁', k', hw', -, hh'⟩ :=
        entryHistory_scope g scope context' s.before.length s.key
          (Request.enclose r (before ++ e₂ :: e₁ :: after)) m'
      have hv : (Visit.ofKey scope context s.before.length s.key m).Mirrors g
          (Place.exchange (Request.nodePlace (s :: r)) before.length)
          (Visit.ofKey scope context' s.before.length s.key m') := by
        refine Visit.mirrors_of_args hs ?_ rfl ?_
        · simp [Visit.ofKey, Request.nodePlace, Place.exchange, Place.within, Place.exchange_nil]
        · exact ((Agree.of_get? hc).args (List.mem_singleton_self _)).symm
      have hvalue := hv.value
      rw [hw, hw'] at hvalue
      cases hvalue
      rw [hh] at hn
      rw [hh, hh']
      exact (ih hc hn).inScope hv (fun b hb => place_ne_nil hb) fun b hb => place_ne_nil hb

end Exchange

/-- Two entries next to each other in a node, at any depth, can change places if none of them binds
a name that the other one binds or refers to, and the host gives the same whatever its state. Then
the answer has the same values under all names, and all statements of the request, each at its new
place, are evaluated with the same arguments to the same values, and call the same. -/
theorem independent_siblings_commute {root : Value} {d : Dict Value} (hs : g.host.Stateless)
    (hind : RequestEntry.Independent e₁ e₂) (frames : List Frame) (before after : Request)
    {request exchanged : Request}
    (hr : request = Request.enclose frames (before ++ e₁ :: e₂ :: after))
    (hx : exchanged = Request.enclose frames (before ++ e₂ :: e₁ :: after))
    (hd : (Run.exec (answerBy g root context request) m).1 = .ok d) :
    ∃ d', (Run.exec (answerBy g root context exchanged) m).1 = .ok d' ∧
      (∀ x, Dict.get? x d' = Dict.get? x d) ∧
      (history g root context request m).visits.map (·.toStatement) = request.statements ∧
      ∃ vs, vs.Perm (history g root context exchanged m).visits ∧
        List.Forall₂ (Visit.Mirrors g (Place.exchange (Request.nodePlace frames) before.length))
          (history g root context request m).visits vs := by
  have hn := (answerBy_ok_iff g root context request m).mp ⟨d, hd⟩
  have hh : (history g root context request m).Mirrors g
      (Place.exchange (Request.nodePlace frames) before.length)
      (history g root context exchanged m) := by
    subst hr hx
    exact enclose_mirrors hs hind frames before after (fun _ => rfl) hn
  rw [exec_answerBy, History.outcome_of_none hn] at hd
  cases hd
  refine ⟨Dict.ofList (history g root context exchanged m).results, ?_, ?_,
    ((history_follows g root context request m).complete hn).1, hh.visits⟩
  · rw [exec_answerBy, History.outcome_of_none hh.fault.2]
  · intro x
    rw [Dict.get?_ofList, Dict.get?_ofList, hh.results]

/-- A shelf, and a page, whose functions keep nothing. -/
def stillWorld : World where
  objects :=
    [("shelf", .provider [Sample.method "page" .any, Sample.method "echo" .any] "shelf"),
      ("page", .provider [Sample.method "title" .empty, Sample.method "echo" .any] "page")]
  scripts :=
    [("shelf", .actions [.give (.object "page"), .echo]),
      ("page", .actions [.give (.str "The first page"), .echo])]

theorem stateless_stillWorld : stillWorld.host.Stateless :=
  World.stateless (by decide +kernel)

/-- A title and a scope, which refers to a variable from before them, in the scope of a page. -/
theorem Sample.title_and_scope_commute :
    let title : RequestEntry := .leaf (.str "t") "title()"
    let echoes : RequestEntry := .scope (.str "echo($\x7bwho\x7d)") [.leaf (.str "u") "count()"]
    let frames : List Frame := [⟨[.declare "who" (.str "Ann")], .str "page()", []⟩]
    ∃ d d', (Run.exec (answerBy ⟨stillWorld.host, none⟩ (.object "shelf") []
        (Request.enclose frames [title, echoes])) World.initial).1 = .ok d ∧
      (Run.exec (answerBy ⟨stillWorld.host, none⟩ (.object "shelf") []
        (Request.enclose frames [echoes, title])) World.initial).1 = .ok d' ∧
      (∀ x, Dict.get? x d' = Dict.get? x d) ∧ d' ≠ d := by
  intro title echoes frames
  have hechoes : ∀ s ∈ Request.entryStatements 0 echoes, ∀ a ∈ s.args,
      a = Argument.reference "who" := by
    decide +kernel
  have hind : RequestEntry.Independent title echoes := by
    refine ⟨by decide +kernel, ?_, ?_⟩
    · rintro x ⟨s, hs, -, ha⟩
      obtain rfl := List.mem_singleton.mp hs
      have hargs : Statement.args ⟨[0], .str "t", .str "title()", .data⟩ = [] := by
        decide +kernel
      rw [hargs] at ha
      cases ha
    · rintro x ⟨s, hs, -, ha⟩
      obtain rfl : x = "who" := Argument.reference_injective (hechoes s hs _ ha)
      decide +kernel
  have hd : (Run.exec (answerBy ⟨stillWorld.host, none⟩ (.object "shelf") []
      (Request.enclose frames [title, echoes])) World.initial).1 =
        .ok [(.str "t", .str "The first page"), (.str "u", .error CallError.methodAccess)] := by
    decide +kernel
  obtain ⟨d', hd', hget, -⟩ :=
    independent_siblings_commute stateless_stillWorld hind frames [] [] rfl rfl hd
  refine ⟨_, d', hd, hd', hget, ?_⟩
  rintro rfl
  revert hd'
  decide +kernel

end CallTree
