import CallTree.Proofs.History
import CallTree.Sample

/-! Poisoned scopes: where an error stands in the place of a provider, every statement has that
error for its value, in all scopes below as well, and the host is left alone. -/
namespace CallTree

variable {σ : Type} {m : Machine σ} {i : Nat} {g : Setting σ} {scope : Scope}
  {context : Dict Value} {v : Visit σ} {e : CallError} {h h' : History σ} {ts : List Slot}

namespace Scope

theorem poisoned_eq_some_iff : scope.poisoned = some e ↔ scope.callables = .error e := by
  unfold poisoned
  cases scope.callables <;> simp

/-- A scope is poisoned by the error that it is bound to, or else because its provider cannot be
asked. -/
theorem poisoned_ofValue_iff (os : Objects) (provider : Value) :
    (ofValue os provider).poisoned = some e ↔ provider = .error e ∨
      (∃ f, Table.ofValue os provider = .error f) ∧ e = CallError.methodError := by
  rw [poisoned_eq_some_iff]
  cases provider with
  | error e' => simp [ofValue, Table.ofValue]
  | _ =>
    simp only [ofValue, reduceCtorEq, false_or]
    generalize Table.ofValue os _ = t
    cases t <;> simp [eq_comm]

end Scope

theorem Setting.evaluate_of_poisoned (hs : scope.poisoned = some e) (statement : Value)
    (mode : Mode) (context : Dict Value) :
    g.evaluate scope statement mode context = pure (.error e) := by
  simp only [evaluate, Scope.poisoned_eq_some_iff.mp hs]

/-- An error is taken apart into itself, without a look at the host. -/
theorem Answer.exec_parts_of_error (host : Host σ) (key : Value) (m : Machine σ) :
    Run.exec (parts host key (.error e)) m =
      (.ok ((boundNames key).map fun name => (name, .error e)), m) := by
  unfold parts boundNames
  cases destructuring? key with
  | none => rfl
  | some paths =>
    have hp : boundPart host (.error e) = fun p => pure (lastName p, .error e) := by
      funext p
      rw [boundPart, part, pure_bind]
    simp only [hp, List.mapM_pure, Run.exec_pure, List.map_map, Function.comp_def]

/-- What a name is bound to where every statement has the error `e` for its value. -/
def Origin.valueBy (e : CallError) : Origin → Value
  | .declaration v => v
  | .statement => .error e
  | .invalid => .error CallError.invalidStatement

/-- The kind of entry that binds a name of the answer last. -/
def Request.lastOrigin? (request : Request) (k : Value) : Option Origin :=
  Dict.last? k ((request.slots.filter Slot.answered).map fun s => (s.name, s.origin))

namespace History

/-- A history that comes to its end and leaves the machine as it was, where all statements have the
error `e` for their value. -/
structure Poisoned (e : CallError) (m : Machine σ) (h : History σ) : Prop where
  completed : h.fault = none
  untouched : h.machine = m
  values : ∀ b ∈ h.bindings, b.value = b.origin.valueBy e

theorem Poisoned.inScope (hh : h.Poisoned e m) (v : Visit σ) (i : Nat) :
    (h.inScope v i).Poisoned e m := by
  refine ⟨hh.completed, hh.untouched, ?_⟩
  intro b hb
  obtain ⟨b', hb', rfl⟩ := List.mem_map.mp hb
  exact hh.values b' hb'

theorem Poisoned.andThen (hh : h.Poisoned e m) (hh' : h'.Poisoned e h.machine) :
    (h.andThen h').Poisoned e m := by
  rw [andThen_of_none hh.completed]
  refine ⟨hh'.completed, hh'.untouched.trans hh.untouched, ?_⟩
  intro b hb
  rcases List.mem_append.mp hb with hb | hb
  · exact hh.values b hb
  · exact hh'.values b hb

/-- What is bound in the answer depends on the request and the error only. -/
theorem Poisoned.results_eq (hh : h.Poisoned e m) (ht : h.bindings.map (·.toSlot) = ts) :
    h.results = (ts.filter Slot.answered).map fun s => (s.name, s.origin.valueBy e) := by
  rw [← ht, List.filter_map, List.map_map, results]
  refine List.map_congr_left ?_
  intro b hb
  exact congrArg (Prod.mk b.name) (hh.values b (List.mem_of_mem_filter hb))

end History

open History in
mutual
theorem entryHistory_poisoned {scope : Scope} (hs : scope.poisoned = some e)
    (context : Dict Value) (i : Nat) (entry : RequestEntry) (m : Machine σ) :
    (entryHistory g scope context i entry m).Poisoned e m := by
  match entry with
  | .declare n v | .invalid key =>
    refine ⟨rfl, rfl, ?_⟩
    intro b hb
    obtain rfl := List.mem_singleton.mp hb
    rfl
  | .leaf key s =>
    obtain ⟨w, m₁, hw, hh⟩ := entryHistory_leaf g scope context i key s m
    rw [Visit.exec_ofLeaf, g.evaluate_of_poisoned hs, Run.exec_pure] at hw
    cases hw
    rw [Answer.exec_parts_of_error] at hh
    obtain ⟨f, m₂, hp, -⟩ | ⟨es, m₂, hp, hh⟩ := hh
    · cases hp
    · cases hp
      rw [hh]
      refine ⟨rfl, rfl, ?_⟩
      intro b hb
      simp only [Binding.ofLeaf, List.map_map, List.mem_map] at hb
      obtain ⟨name, -, rfl⟩ := hb
      rfl
  | .scope key body =>
    obtain ⟨w, m₁, n, hw, hb, hh⟩ := entryHistory_scope g scope context i key body m
    rw [Visit.exec_ofKey, g.evaluate_of_poisoned hs, Run.exec_pure] at hw
    cases hw
    -- The scope below is bound to the error, which takes no listing and so logs nothing.
    have hchild : (Scope.ofValue g.host.objects (.error e)).poisoned = some e :=
      (Scope.poisoned_ofValue_iff g.host.objects (.error e)).mpr (Or.inl rfl)
    have hm : { m with logged := n } = m := (congrArg Prod.snd hb).symm
    rw [hh, hm]
    exact (historyFrom_poisoned hchild context 0 body m).inScope _ i

/-- In a poisoned scope all that is asked has the error for its value, at any depth. -/
theorem historyFrom_poisoned {scope : Scope} (hs : scope.poisoned = some e)
    (context : Dict Value) (i : Nat) (es : List RequestEntry) (m : Machine σ) :
    (historyFrom g scope context i es m).Poisoned e m := by
  match es with
  | [] =>
    refine ⟨rfl, rfl, ?_⟩
    intro b hb
    cases hb
  | entry :: r =>
    exact (entryHistory_poisoned hs context i entry m).andThen
      (historyFrom_poisoned hs _ (i + 1) r _)
end

/-- A scope is poisoned when it is bound to an error, or to a provider that fails when it is asked
for its callables. Then each statement has that error for its value, whatever it says, and each
request is answered: a name has the error if a statement binds it last, and else the error for
entries that are no statements. None of this changes the machine: nothing of the host runs, and
nothing is recorded or logged. -/
theorem poison_is_terminal (g : Setting σ) (provider : Value) (m : Machine σ) :
    ∃ scope m₀, Run.exec (Scope.bind g provider) m = (.ok scope, m₀) ∧ ∀ e : CallError,
      (scope.poisoned = some e ↔ provider = .error e ∨
        (∃ f, Table.ofValue g.host.objects provider = .error f) ∧ e = CallError.methodError) ∧
      (scope.poisoned = some e →
        (∀ statement mode context m₁,
          Run.exec (g.evaluate scope statement mode context) m₁ = (.ok (.error e), m₁)) ∧
        ∀ context (request : Request) m₁, ∃ d,
          Run.exec (Answer.answer g scope context request) m₁ = (.ok d, m₁) ∧
          Dict.keys d = Dict.firstKeys request.names ∧
          ∀ k, Dict.get? k d = (request.lastOrigin? k).map (Origin.valueBy e)) := by
  obtain ⟨n, hb⟩ := Scope.exec_bind g provider m
  refine ⟨_, _, hb, ?_⟩
  intro e
  refine ⟨Scope.poisoned_ofValue_iff g.host.objects provider, ?_⟩
  intro hs
  constructor
  · intro statement mode context m₁
    rw [g.evaluate_of_poisoned hs, Run.exec_pure]
  · intro context request m₁
    have hh := historyFrom_poisoned (g := g) hs context 0 request m₁
    have hslots := ((historyFrom_follows g (Scope.ofValue g.host.objects provider) context 0 request
      m₁).complete hh.completed).2
    have hresults := hh.results_eq hslots
    have hx := exec_answerEntries g (Scope.ofValue g.host.objects provider) context [] 0 request m₁
    rw [History.outcome_of_none hh.completed, hh.untouched, hresults] at hx
    refine ⟨_, hx, ?_, ?_⟩
    · rw [← Dict.ofList, Dict.keys_ofList, List.map_map]
      rfl
    · intro k
      rw [← Dict.ofList, Dict.get?_ofList, Request.lastOrigin?, ← Dict.last?_map,
        List.map_map]
      rfl

/-- A provider that fails when it is asked for its callables. -/
def muteWorld : World := ⟨[("mute", .lister .fails)], []⟩

/-- Names that a page and a pattern would bind get the error of the mute provider as well. -/
theorem Sample.mute_provider_poisons_request :
    let g : Setting Store := ⟨muteWorld.host, none⟩
    ∃ scope m₀, Run.exec (Scope.bind g (.object "mute")) World.initial = (.ok scope, m₀) ∧
      scope.poisoned = some CallError.methodError ∧ ∃ d,
        Run.exec (Answer.answer g scope [] Sample.request) m₀ = (.ok d, m₀) ∧
        Dict.keys d = [.str "n", .str "t", .int 1, .str "last"] ∧
        Dict.get? (.str "t") d = some (.error CallError.methodError) ∧
        Dict.get? (.str "last") d = some (.error CallError.methodError) ∧
        Dict.get? (.int 1) d = some (.error CallError.invalidStatement) := by
  intro g
  obtain ⟨scope, m₀, hb, hall⟩ := poison_is_terminal g (.object "mute") World.initial
  obtain ⟨hiff, hterminal⟩ := hall CallError.methodError
  have hs : scope.poisoned = some CallError.methodError :=
    hiff.mpr (Or.inr ⟨⟨.failed, rfl⟩, rfl⟩)
  obtain ⟨d, hd, hkeys, hget⟩ := (hterminal hs).2 [] Sample.request m₀
  refine ⟨scope, m₀, hb, hs, d, hd, ?_, ?_, ?_, ?_⟩
  · rw [hkeys]
    decide +kernel
  all_goals
    rw [hget]
    decide +kernel

end CallTree
