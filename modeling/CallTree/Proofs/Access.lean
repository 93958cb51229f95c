import CallTree.Proofs.History
import CallTree.Sample

/-! Which functions of the host a request invokes: only those that are listed where a statement
stands and may be used in its way, each statement at most one, in document order. -/
namespace CallTree

variable {σ : Type} {m m₁ : Machine σ} {i n : Nat} {g : Setting σ} {scope : Scope}
  {context : Dict Value} {v : Visit σ} {h h' : History σ} {w provider : Value}

def Event.isInvocation : Event → Bool
  | .invoke .. => true
  | _ => false

theorem Host.not_isInvocation_callEvent (h : Host σ) (f : FunctionRef) (args : List Value) :
    (h.callEvent f args).isInvocation = false := by
  rw [callEvent]
  split <;> rfl

/-- What a function of the host leaves in the records is neither an invocation by a statement nor
the reading of a property. -/
theorem Host.not_isInvocation_and_not_isRead {host : Host σ} {target : Value} {args : List Value}
    {e : Event} (he : e ∈ host.records target args) :
    e.isInvocation = false ∧ e.isRead = false := by
  cases target with
  | function f =>
    simp only [records] at he
    rcases hs : host.objects.signature? f with _ | s
    · simp [hs] at he
    · by_cases ha : s.accepts args.length
      · obtain rfl : e = host.callEvent f args := by simpa [hs, ha] using he
        rw [callEvent]
        split <;> exact ⟨rfl, rfl⟩
      · simp [hs, ha] at he
  | object name =>
    simp only [records] at he
    split at he
    · obtain rfl := List.mem_singleton.mp he
      exact ⟨rfl, rfl⟩
    · split at he
      · obtain rfl := List.mem_singleton.mp he
        exact ⟨rfl, rfl⟩
      · cases he
    · obtain rfl := List.mem_singleton.mp he
      exact ⟨rfl, rfl⟩
    · cases he
  | _ => cases he

theorem Setting.not_isInvocation_and_not_isRead {seen : List Value} {e : Event}
    (he : e ∈ seen.flatMap g.hookRecords) : e.isInvocation = false ∧ e.isRead = false := by
  obtain ⟨arg, -, he⟩ := List.mem_flatMap.mp he
  unfold hookRecords at he
  split at he
  · cases he
  · exact Host.not_isInvocation_and_not_isRead he

theorem Setting.filter_hookRecords (g : Setting σ) (seen : List Value) :
    (seen.flatMap g.hookRecords).filter Event.isInvocation = [] := by
  refine List.filter_eq_nil_iff.mpr ?_
  intro e he
  simp [(not_isInvocation_and_not_isRead he).1]

namespace Visit

/-- What an evaluation adds to the records. -/
def records (g : Setting σ) (v : Visit σ) : List Event :=
  (v.exec g).2.events.drop v.before.events.length

@[simp] theorem records_under (i : Nat) (v : Visit σ) :
    (v.under i).records g = v.records g := rfl

/-- The invocation that a statement makes where `provider` lists the callables: of the entry under
the name in the statement, if it may be used in the way of the statement. -/
structure Invokes (g : Setting σ) (provider : Value) (v : Visit σ) (name : String) (entry : Entry)
    (args : List Value) : Prop where
  named : ∃ s call, v.text = .str s ∧ Call.ofStatement? s = some call ∧ call.name = name
  listed : ∃ table, Table.ofValue g.host.objects provider = .ok table ∧
    Dict.get? (.str name) table = some entry
  allowed : v.mode = .data ∧ entry.data = true ∨ v.mode = .path ∧ entry.path = true
  recorded : ∃ seen : List Value, v.records g = seen.flatMap g.hookRecords ++
    .invoke provider v.mode name entry args :: g.host.records entry.target args

/-- The evaluation of a statement invokes nothing, or one entry. -/
theorem records_cases (hm : v.mode = .data ∨ v.mode = .path)
    (hs : v.scope = Scope.ofValue g.host.objects provider) :
    (v.exec g).2.events = v.before.events ++ v.records g ∧
      ((∃ seen : List Value, v.records g = seen.flatMap g.hookRecords) ∨
        ∃ name entry args, v.Invokes g provider name entry args) := by
  have key : ∀ es, (v.exec g).2.events = v.before.events ++ es → v.records g = es := by
    intro es he
    rw [records, he, List.drop_left]
  rcases g.evaluate_cases v.scope v.text v.context hm with ⟨e, he⟩ | ⟨call, entry, hc⟩
  · have hx : (v.exec g).2.events = v.before.events ++ [] := by
      rw [exec, he, Run.exec_pure, List.append_nil]
    rw [key [] hx]
    exact ⟨hx, Or.inl ⟨[], rfl⟩⟩
  · have he := g.evaluate_of_calls hc v.context
    obtain ⟨table, s, ht, hs', hcall, hentry, hallow⟩ := hc
    obtain ⟨w, n, hw⟩ := Setting.exec_contain (g.invoke v.scope v.mode call.name entry
      (call.args.map (Argument.value v.context))) v.before
    have hx : (v.exec g).2.events = (Run.exec (g.invoke v.scope v.mode call.name entry
        (call.args.map (Argument.value v.context))) v.before).2.events := by
      rw [exec, he, hw]
    obtain ⟨seen, -, hi | ⟨given, -, hi⟩⟩ := g.events_invoke v.scope v.mode call.name entry
      (call.args.map (Argument.value v.context)) v.before
    · rw [hi] at hx
      rw [key _ hx]
      exact ⟨hx, Or.inl ⟨seen, rfl⟩⟩
    · rw [hi] at hx
      have hp : v.scope.provider = provider := by rw [hs, Scope.ofValue_provider]
      refine ⟨by rw [key _ hx]; exact hx, Or.inr ⟨call.name, entry, given, ?_, ?_, ?_, seen, ?_⟩⟩
      · exact ⟨s, call, hs', hcall, rfl⟩
      · exact ⟨table, Scope.table_of_callables (hs ▸ ht), hentry⟩
      · rcases hm with hm | hm
        · exact Or.inl ⟨hm, by simpa [hm, Entry.allows] using hallow⟩
        · exact Or.inr ⟨hm, by simpa [hm, Entry.allows] using hallow⟩
      · rw [key _ hx, hp]

/-- An evaluation reads no property. -/
theorem filter_records (hm : v.mode = .data ∨ v.mode = .path)
    (hs : v.scope = Scope.ofValue g.host.objects provider) :
    (v.records g).filter (fun e => !e.isRead) = v.records g := by
  have hr : ∀ e ∈ v.records g, e.isRead = false := by
    intro e he
    obtain ⟨-, ⟨seen, hr⟩ | ⟨name, entry, args, hi⟩⟩ := records_cases hm hs
    · rw [hr] at he
      exact (Setting.not_isInvocation_and_not_isRead he).2
    · obtain ⟨seen, hr⟩ := hi.recorded
      rw [hr] at he
      rcases List.mem_append.mp he with he | he
      · exact (Setting.not_isInvocation_and_not_isRead he).2
      · rcases List.mem_cons.mp he with rfl | he
        · rfl
        · exact (Host.not_isInvocation_and_not_isRead he).2
  refine List.filter_eq_self.mpr ?_
  intro e he
  rw [hr e he]
  rfl

/-- The only invocation in the records of a statement that makes one is its own. -/
theorem Invokes.filter_records {name : String} {entry : Entry} {args : List Value}
    (hi : v.Invokes g provider name entry args) :
    (v.records g).filter Event.isInvocation = [.invoke provider v.mode name entry args] := by
  obtain ⟨seen, hr⟩ := hi.recorded
  have ht : (g.host.records entry.target args).filter Event.isInvocation = [] := by
    refine List.filter_eq_nil_iff.mpr ?_
    intro e he
    simp [(Host.not_isInvocation_and_not_isRead he).1]
  rw [hr, List.filter_append, g.filter_hookRecords, List.nil_append,
    List.filter_cons_of_pos rfl, ht]

end Visit

namespace History

/-- From `m` on, a history leaves the records of its statements one after the other, and those of
properties. -/
def Recorded (g : Setting σ) (m : Machine σ) (h : History σ) : Prop :=
  ∃ new, h.machine.events = m.events ++ new ∧
    new.filter (fun e => !e.isRead) = h.visits.flatMap (Visit.records g)

/-- The provider of the scope that a place is in: the root, or what the key of the scope gave. -/
def Provides (g : Setting σ) (root : Value) (h : History σ) (p : Place) (provider : Value) : Prop :=
  (∃ j, p = [j] ∧ provider = root) ∨
    ∃ u ∈ h.visits, ∃ j m', p = u.place ++ [j] ∧ u.mode = .path ∧ u.exec g = (.ok provider, m')

/-- Each statement is evaluated where the provider of its scope lists its callables. -/
def Scoped (g : Setting σ) (root : Value) (h : History σ) : Prop :=
  ∀ v ∈ h.visits, ∃ provider, h.Provides g root v.place provider ∧
    v.scope = Scope.ofValue g.host.objects provider

theorem Recorded.andThen (hh : h.Recorded g m) (hh' : h'.Recorded g h.machine) :
    (h.andThen h').Recorded g m := by
  cases hf : h.fault with
  | some f =>
    rw [andThen_of_fault hf]
    exact hh
  | none =>
    obtain ⟨new, he, hn⟩ := hh
    obtain ⟨new', he', hn'⟩ := hh'
    rw [andThen_of_none hf]
    refine ⟨new ++ new', ?_, ?_⟩
    · simp only [he', he, List.append_assoc]
    · simp only [List.filter_append, hn, hn', List.flatMap_append]

theorem Recorded.inScope (hh : h.Recorded g { m₁ with logged := n })
    (he : m₁.events = v.before.events ++ v.records g)
    (hr : (v.records g).filter (fun e => !e.isRead) = v.records g) (i : Nat) :
    (h.inScope v i).Recorded g v.before := by
  obtain ⟨new, hn, hf⟩ := hh
  refine ⟨v.records g ++ new, ?_, ?_⟩
  · simp only [History.inScope, hn, he, List.append_assoc]
  · simp only [History.inScope, List.filter_append, hr, hf, List.flatMap_cons, List.flatMap_map,
      Visit.records_under]

theorem Scoped.andThen (hh : h.Scoped g w) (hh' : h'.Scoped g w) :
    (h.andThen h').Scoped g w := by
  have mono : ∀ {k : History σ} {p : Place} {provider : Value},
      (∀ u ∈ k.visits, u ∈ (h.andThen h').visits) → k.Provides g w p provider →
        (h.andThen h').Provides g w p provider := by
    intro k p provider hsub hp
    rcases hp with hp | ⟨u, hu, hp⟩
    · exact Or.inl hp
    · exact Or.inr ⟨u, hsub u hu, hp⟩
  intro v hv
  rcases mem_visits_andThen.mp hv with hv | ⟨hf, hv⟩
  · obtain ⟨provider, hp, hs⟩ := hh v hv
    exact ⟨provider, mono (fun u hu => mem_visits_andThen.mpr (Or.inl hu)) hp, hs⟩
  · obtain ⟨provider, hp, hs⟩ := hh' v hv
    exact ⟨provider, mono (fun u hu => mem_visits_andThen.mpr (Or.inr ⟨hf, hu⟩)) hp, hs⟩

/-- The scope under a key belongs to the value of the key. -/
theorem Scoped.inScope (hh : h.Scoped g w) (hv : v.exec g = (.ok w, m₁)) (hm : v.mode = .path)
    (hp : v.place = [i]) (hs : v.scope = Scope.ofValue g.host.objects provider) :
    (h.inScope v i).Scoped g provider := by
  intro u hu
  rcases mem_visits_inScope.mp hu with rfl | ⟨u', hu', rfl⟩
  · exact ⟨provider, Or.inl ⟨i, hp, rfl⟩, hs⟩
  · obtain ⟨provider', hq, hs'⟩ := hh u' hu'
    refine ⟨provider', Or.inr ?_, hs'⟩
    rcases hq with ⟨j, hj, rfl⟩ | ⟨t, ht, j, m', hj, htm, hte⟩
    · refine ⟨v, mem_visits_inScope.mpr (Or.inl rfl), j, m₁, ?_, hm, hv⟩
      rw [Visit.under_toStatement, Statement.under, hj, hp]
      rfl
    · refine ⟨t.under i, mem_visits_inScope.mpr (Or.inr ⟨t, ht, rfl⟩), j, m', ?_, htm, hte⟩
      rw [Visit.under_toStatement, Visit.under_toStatement, Statement.under, Statement.under, hj]
      rfl

end History

open History in
mutual
theorem entryHistory_scoped (g : Setting σ) (provider : Value) (context : Dict Value) (i : Nat)
    (e : RequestEntry) (m : Machine σ) :
    (entryHistory g (Scope.ofValue g.host.objects provider) context i e m).Scoped g provider := by
  match e with
  | .declare n v | .invalid key =>
    intro v hv
    cases hv
  | .leaf key s =>
    intro v hv
    obtain ⟨w, m₁, -, ⟨f, m₂, -, hh⟩ | ⟨es, m₂, -, hh⟩⟩ :=
      entryHistory_leaf g (Scope.ofValue g.host.objects provider) context i key s m
    all_goals
      rw [hh] at hv
      obtain rfl := List.mem_singleton.mp hv
      exact ⟨provider, Or.inl ⟨i, rfl, rfl⟩, rfl⟩
  | .scope key body =>
    obtain ⟨w, m₁, n, hw, -, hh⟩ :=
      entryHistory_scope g (Scope.ofValue g.host.objects provider) context i key body m
    rw [hh]
    exact (historyFrom_scoped g w context 0 body _).inScope hw rfl rfl rfl

theorem historyFrom_scoped (g : Setting σ) (provider : Value) (context : Dict Value) (i : Nat)
    (es : List RequestEntry) (m : Machine σ) :
    (historyFrom g (Scope.ofValue g.host.objects provider) context i es m).Scoped g provider := by
  match es with
  | [] =>
    intro v hv
    cases hv
  | e :: r =>
    exact (entryHistory_scoped g provider context i e m).andThen
      (historyFrom_scoped g provider _ (i + 1) r _)
end

/-- Taking a value apart adds nothing to the records but the reading of properties. -/
theorem History.Recorded.leaf {key : Value} (hh : h.visits = [v])
    (he : m₁.events = v.before.events ++ v.records g)
    (hr : (v.records g).filter (fun e => !e.isRead) = v.records g)
    (hp : (Run.exec (Answer.parts g.host key w) m₁).2 = h.machine) :
    h.Recorded g v.before := by
  obtain ⟨es, hes, hread⟩ := Answer.onlyReads_parts g.host key w m₁
  rw [hp, he] at hes
  refine ⟨v.records g ++ es, by rw [hes, List.append_assoc], ?_⟩
  have hn : es.filter (fun e => !e.isRead) = [] := by
    refine List.filter_eq_nil_iff.mpr ?_
    intro e he
    rw [hread e he]
    simp
  rw [List.filter_append, hr, hn, hh, List.append_nil, List.flatMap_singleton]

open History in
mutual
theorem entryHistory_recorded (g : Setting σ) (provider : Value) (context : Dict Value) (i : Nat)
    (e : RequestEntry) (m : Machine σ) :
    (entryHistory g (Scope.ofValue g.host.objects provider) context i e m).Recorded g m := by
  match e with
  | .declare n v | .invalid key => exact ⟨[], by simp [entryHistory], rfl⟩
  | .leaf key s =>
    have hs : (Visit.ofLeaf (Scope.ofValue g.host.objects provider) context i key s m).scope =
      Scope.ofValue g.host.objects provider := rfl
    have hr := (Visit.records_cases (Or.inl rfl) hs).1
    obtain ⟨w, m₁, hw, ⟨f, m₂, hp, hh⟩ | ⟨es, m₂, hp, hh⟩⟩ :=
      entryHistory_leaf g (Scope.ofValue g.host.objects provider) context i key s m
    all_goals
      rw [hw] at hr
      rw [hh]
      exact Recorded.leaf rfl hr (Visit.filter_records (Or.inl rfl) hs)
        (congrArg Prod.snd hp)
  | .scope key body =>
    obtain ⟨w, m₁, n, hw, -, hh⟩ :=
      entryHistory_scope g (Scope.ofValue g.host.objects provider) context i key body m
    have hs : (Visit.ofKey (Scope.ofValue g.host.objects provider) context i key m).scope =
      Scope.ofValue g.host.objects provider := rfl
    have hr := (Visit.records_cases (Or.inr rfl) hs).1
    rw [hw] at hr
    rw [hh]
    exact (historyFrom_recorded g w context 0 body _).inScope hr
      (Visit.filter_records (Or.inr rfl) hs) i

theorem historyFrom_recorded (g : Setting σ) (provider : Value) (context : Dict Value) (i : Nat)
    (es : List RequestEntry) (m : Machine σ) :
    (historyFrom g (Scope.ofValue g.host.objects provider) context i es m).Recorded g m := by
  match es with
  | [] => exact ⟨[], by simp [historyFrom], rfl⟩
  | e :: r =>
    exact (entryHistory_recorded g provider context i e m).andThen
      (historyFrom_recorded g provider _ (i + 1) r _)
end

section Request

variable (g : Setting σ) (root : Value) (context : Dict Value) (request : Request) (m : Machine σ)

/-- Properties apart, the records of an answer are those of the statements that were evaluated, in
document order. Each of these is a statement of the request, and it invokes nothing, or one entry
that is listed under its name by the provider of its scope and that may be used in its way. -/
theorem invocations_are_allowed_in_order :
    ∃ new, (Run.exec (answerBy g root context request) m).2.events = m.events ++ new ∧
      new.filter (fun e => !e.isRead) =
        (history g root context request m).visits.flatMap (Visit.records g) ∧
      (history g root context request m).visits.Pairwise (fun u v => u.place < v.place) ∧
      ∀ v ∈ (history g root context request m).visits, v.toStatement ∈ request.statements ∧
        ∃ provider, (history g root context request m).Provides g root v.place provider ∧
          ((∃ seen : List Value, v.records g = seen.flatMap g.hookRecords ∧
              (v.records g).filter Event.isInvocation = []) ∨
            ∃ name entry args, v.Invokes g provider name entry args ∧
              (v.records g).filter Event.isInvocation =
                [.invoke provider v.mode name entry args]) := by
  obtain ⟨n, hb⟩ := Scope.exec_bind g root m
  have hrec : (history g root context request m).Recorded g { m with logged := n } := by
    rw [history, hb]
    exact historyFrom_recorded g root context 0 request _
  obtain ⟨new, hnew, hf⟩ := hrec
  have hsorted := (Request.statementsFrom_sorted 0 request).sublist
    (history_follows g root context request m).statements.sublist
  refine ⟨new, by rw [exec_answerBy, hnew], hf, ?_, ?_⟩
  · rw [List.pairwise_map] at hsorted
    exact hsorted
  · intro v hv
    have hmem := (history_follows g root context request m).mem_statements hv
    obtain ⟨provider, hp, hs⟩ := historyFrom_scoped g root context 0 request _ v hv
    refine ⟨hmem, provider, hp, ?_⟩
    obtain ⟨-, ⟨seen, hr⟩ | ⟨name, entry, args, hi⟩⟩ :=
      Visit.records_cases (Request.mode_of_mem hmem) hs
    · exact Or.inl ⟨seen, hr, by rw [hr, g.filter_hookRecords]⟩
    · exact Or.inr ⟨name, entry, args, hi, hi.filter_records⟩

end Request

/-- The title is asked of the page, which the statement before it gave. -/
theorem Sample.title_is_invoked_on_the_page :
    let g : Setting Store := ⟨Sample.world.host, none⟩
    let h := history g (.object "notebook") [] Sample.request World.initial
    ∃ v ∈ h.visits, v.toStatement ∈ Sample.request.statements ∧
      v.toStatement = ⟨[2, 1], .str "t", .str "title()", .data⟩ ∧
      ∃ provider, h.Provides g (.object "notebook") v.place provider ∧
        ∃ name entry args, v.Invokes g provider name entry args := by
  intro g h
  have hat : (h.visits[2]?.map fun v =>
      (v.toStatement, ((v.records g).filter Event.isInvocation).length)) =
        some (⟨[2, 1], .str "t", .str "title()", .data⟩, 1) := by
    decide +kernel
  obtain ⟨v, hv, he⟩ := Option.map_eq_some_iff.mp hat
  obtain ⟨hs, hone⟩ := Prod.mk.inj he
  have hmem : v ∈ h.visits := List.mem_of_getElem? hv
  obtain ⟨new, -, -, -, hall⟩ := invocations_are_allowed_in_order g (.object "notebook") []
    Sample.request World.initial
  obtain ⟨hst, provider, hp, ⟨seen, -, hnil⟩ | ⟨name, entry, args, hi, -⟩⟩ := hall v hmem
  · rw [hnil] at hone
    cases hone
  · exact ⟨v, hmem, hst, hs, provider, hp, name, entry, args, hi⟩

end CallTree
