import CallTree.Proofs.Evaluation
import CallTree.Proofs.Place

/-! Histories of answers: the statements that were evaluated, and the names that were bound. -/
namespace CallTree

variable {σ : Type} {m m' : Machine σ} {i : Nat}

/-- The evaluation of a statement: its scope, the variables that it sees, and the machine that it
starts from. -/
structure Visit (σ : Type) extends Statement where
  scope : Scope
  context : Dict Value
  before : Machine σ

/-- A name, and what an entry bound to it. -/
structure Binding extends Slot where
  value : Value

namespace Visit

def exec (g : Setting σ) (v : Visit σ) : Except Fault Value × Machine σ :=
  Run.exec (g.evaluate v.scope v.text v.mode v.context) v.before

/-- The visit of a leaf at `i`. -/
def ofLeaf (scope : Scope) (context : Dict Value) (i : Nat) (key : Value) (s : String)
    (m : Machine σ) : Visit σ :=
  ⟨⟨[i], key, .str s, .data⟩, scope, context, m⟩

/-- The visit of the key of a scope at `i`. -/
def ofKey (scope : Scope) (context : Dict Value) (i : Nat) (key : Value) (m : Machine σ) :
    Visit σ :=
  ⟨⟨[i], key, key, .path⟩, scope, context, m⟩

def under (i : Nat) (v : Visit σ) : Visit σ := { v with toStatement := v.toStatement.under i }

theorem exec_ofLeaf (g : Setting σ) (scope : Scope) (context : Dict Value) (i : Nat) (key : Value)
    (s : String) (m : Machine σ) :
    (ofLeaf scope context i key s m).exec g =
      Run.exec (g.evaluate scope (.str s) .data context) m := rfl

theorem exec_ofKey (g : Setting σ) (scope : Scope) (context : Dict Value) (i : Nat) (key : Value)
    (m : Machine σ) :
    (ofKey scope context i key m).exec g = Run.exec (g.evaluate scope key .path context) m := rfl

@[simp] theorem under_toStatement (i : Nat) (v : Visit σ) :
    (v.under i).toStatement = v.toStatement.under i := rfl

end Visit

namespace Binding

def under (i : Nat) (b : Binding) : Binding := { b with toSlot := b.toSlot.under i }

def pair (b : Binding) : Value × Value := (b.name, b.value)

/-- What a leaf at `i` binds. -/
def ofLeaf (i : Nat) (es : List (Value × Value)) : List Binding :=
  es.map fun e => ⟨⟨[i], .statement, e.1⟩, e.2⟩

@[simp] theorem under_toSlot (i : Nat) (b : Binding) :
    (b.under i).toSlot = b.toSlot.under i := rfl

end Binding

/-- What happened while entries were answered, and the fault that ended it, if one did. -/
structure History (σ : Type) where
  visits : List (Visit σ)
  bindings : List Binding
  fault : Option Fault
  machine : Machine σ

namespace History

/-- The first history, and the second one where the first came to no fault. -/
def andThen (h h' : History σ) : History σ :=
  match h.fault with
  | some _ => h
  | none => ⟨h.visits ++ h'.visits, h.bindings ++ h'.bindings, h'.fault, h'.machine⟩

/-- The history of a scope, which begins with the statement for its provider. -/
def inScope (v : Visit σ) (i : Nat) (h : History σ) : History σ :=
  ⟨v :: h.visits.map (Visit.under i), h.bindings.map (Binding.under i), h.fault, h.machine⟩

def halted (v : Visit σ) (f : Fault) (m : Machine σ) : History σ := ⟨[v], [], some f, m⟩

/-- What was bound in the answer. -/
def results (h : History σ) : List (Value × Value) :=
  (h.bindings.filter fun b => b.answered).map Binding.pair

/-- What the entries after these can see. -/
def lasting (h : History σ) : List (Value × Value) :=
  (h.bindings.filter fun b => b.lasts).map Binding.pair

/-- How a run ends that has this history, where `a` is its value. -/
def outcome {α : Type} (h : History σ) (a : α) : Except Fault α :=
  match h.fault with
  | some f => .error f
  | none => .ok a

end History

mutual
/-- The history of one entry. Places are those in the node of the entry, which is at `i`. -/
def entryHistory (g : Setting σ) (scope : Scope) (context : Dict Value) (i : Nat) :
    RequestEntry → Machine σ → History σ
  | .declare n v, m => ⟨[], [⟨⟨[i], .declaration v, .str n⟩, v⟩], none, m⟩
  | .leaf key s, m =>
    let visit := Visit.ofLeaf scope context i key s m
    match visit.exec g with
    | (.error f, m') => .halted visit f m'
    | (.ok v, m') => match Run.exec (Answer.parts g.host key v) m' with
      | (.error f, m'') => .halted visit f m''
      | (.ok es, m'') => ⟨[visit], Binding.ofLeaf i es, none, m''⟩
  | .scope key body, m =>
    let visit := Visit.ofKey scope context i key m
    match visit.exec g with
    | (.error f, m') => .halted visit f m'
    | (.ok v, m') => match Run.exec (Scope.bind g v) m' with
      | (.error f, m'') => .halted visit f m''
      | (.ok child, m'') => (historyFrom g child context 0 body m'').inScope visit i
  | .invalid key, m => ⟨[], [⟨⟨[i], .invalid, key⟩, .error CallError.invalidStatement⟩], none, m⟩

/-- The history of entries that are numbered from `i` on. -/
def historyFrom (g : Setting σ) (scope : Scope) (context : Dict Value) (i : Nat) :
    List RequestEntry → Machine σ → History σ
  | [], m => ⟨[], [], none, m⟩
  | e :: r, m =>
    let h := entryHistory g scope context i e m
    h.andThen (historyFrom g scope (Dict.insertAll context h.lasting) (i + 1) r h.machine)
end

theorem Visit.exec_ok (g : Setting σ) (v : Visit σ) (hm : v.mode = .data ∨ v.mode = .path) :
    ∃ w m', v.exec g = (.ok w, m') :=
  g.evaluate_ok v.scope v.text v.context hm v.before

section Entries

variable (g : Setting σ) (scope : Scope) (context : Dict Value) (i : Nat)

/-- A leaf is evaluated, and its value is taken apart or breaks. -/
theorem entryHistory_leaf (key : Value) (s : String) (m : Machine σ) :
    ∃ v m₁, (Visit.ofLeaf scope context i key s m).exec g = (.ok v, m₁) ∧
      ((∃ f m₂, Run.exec (Answer.parts g.host key v) m₁ = (.error f, m₂) ∧
          entryHistory g scope context i (.leaf key s) m =
            .halted (Visit.ofLeaf scope context i key s m) f m₂) ∨
        ∃ es m₂, Run.exec (Answer.parts g.host key v) m₁ = (.ok es, m₂) ∧
          entryHistory g scope context i (.leaf key s) m =
            ⟨[Visit.ofLeaf scope context i key s m], Binding.ofLeaf i es, none, m₂⟩) := by
  obtain ⟨v, m₁, hv⟩ := (Visit.ofLeaf scope context i key s m).exec_ok g (Or.inl rfl)
  refine ⟨v, m₁, hv, ?_⟩
  rcases hp : Run.exec (Answer.parts g.host key v) m₁ with ⟨f | es, m₂⟩
  · exact Or.inl ⟨f, m₂, rfl, by simp only [entryHistory, hv, hp]⟩
  · exact Or.inr ⟨es, m₂, rfl, by simp only [entryHistory, hv, hp]⟩

/-- The key of a scope is evaluated, and the entries are answered by what it gives. -/
theorem entryHistory_scope (key : Value) (body : List RequestEntry) (m : Machine σ) :
    ∃ v m₁ n, (Visit.ofKey scope context i key m).exec g = (.ok v, m₁) ∧
      Run.exec (Scope.bind g v) m₁ =
        (.ok (Scope.ofValue g.host.objects v), { m₁ with logged := n }) ∧
      entryHistory g scope context i (.scope key body) m =
        (historyFrom g (Scope.ofValue g.host.objects v) context 0 body
          { m₁ with logged := n }).inScope (Visit.ofKey scope context i key m) i := by
  obtain ⟨v, m₁, hv⟩ := (Visit.ofKey scope context i key m).exec_ok g (Or.inr rfl)
  obtain ⟨n, hb⟩ := Scope.exec_bind g v m₁
  exact ⟨v, m₁, n, hv, hb, by simp only [entryHistory, hv, hb]⟩

end Entries

namespace History

variable {h h' : History σ} {v w : Visit σ} {b : Binding} {f : Fault} {ss ss' : List Statement}
  {ts ts' : List Slot}

theorem andThen_of_fault (hf : h.fault = some f) : h.andThen h' = h := by
  simp only [andThen, hf]

theorem andThen_of_none (hf : h.fault = none) :
    h.andThen h' =
      ⟨h.visits ++ h'.visits, h.bindings ++ h'.bindings, h'.fault, h'.machine⟩ := by
  simp only [andThen, hf]

theorem mem_visits_andThen :
    v ∈ (h.andThen h').visits ↔ v ∈ h.visits ∨ h.fault = none ∧ v ∈ h'.visits := by
  cases hf : h.fault with
  | none => simp [andThen_of_none hf]
  | some f => simp [andThen_of_fault hf]

theorem mem_bindings_andThen :
    b ∈ (h.andThen h').bindings ↔ b ∈ h.bindings ∨ h.fault = none ∧ b ∈ h'.bindings := by
  cases hf : h.fault with
  | none => simp [andThen_of_none hf]
  | some f => simp [andThen_of_fault hf]

theorem mem_visits_inScope :
    v ∈ (h.inScope w i).visits ↔ v = w ∨ ∃ u ∈ h.visits, u.under i = v := by
  simp [inScope]

/-- A history goes through statements and names in their order, and to their end unless there is a
fault. -/
structure Follows (h : History σ) (ss : List Statement) (ts : List Slot) : Prop where
  statements : h.visits.map (·.toStatement) <+: ss
  slots : h.bindings.map (·.toSlot) <+: ts
  complete : h.fault = none →
    h.visits.map (·.toStatement) = ss ∧ h.bindings.map (·.toSlot) = ts

theorem Follows.mem_statements (hh : h.Follows ss ts) (hv : v ∈ h.visits) :
    v.toStatement ∈ ss :=
  hh.statements.subset (List.mem_map_of_mem (f := (·.toStatement)) hv)

theorem Follows.mem_slots (hh : h.Follows ss ts) (hb : b ∈ h.bindings) : b.toSlot ∈ ts :=
  hh.slots.subset (List.mem_map_of_mem (f := (·.toSlot)) hb)

theorem follows_of_eq (hs : h.visits.map (·.toStatement) = ss)
    (ht : h.bindings.map (·.toSlot) = ts) : h.Follows ss ts :=
  ⟨hs ▸ List.prefix_rfl, ht ▸ List.prefix_rfl, fun _ => ⟨hs, ht⟩⟩

theorem Follows.inScope (hh : h.Follows ss ts) (v : Visit σ) (i : Nat) :
    (h.inScope v i).Follows (v.toStatement :: ss.map (Statement.under i))
      (ts.map (Slot.under i)) := by
  have hv : (h.visits.map (Visit.under i)).map (·.toStatement) =
      (h.visits.map (·.toStatement)).map (Statement.under i) := by
    rw [List.map_map, List.map_map]
    rfl
  have hb : (h.bindings.map (Binding.under i)).map (·.toSlot) =
      (h.bindings.map (·.toSlot)).map (Slot.under i) := by
    rw [List.map_map, List.map_map]
    rfl
  refine ⟨?_, ?_, ?_⟩
  · simp only [History.inScope, List.map_cons, hv]
    exact (List.prefix_cons_inj _).mpr (hh.statements.map _)
  · simp only [History.inScope, hb]
    exact hh.slots.map _
  · intro hf
    obtain ⟨hs, ht⟩ := hh.complete hf
    simp only [History.inScope, List.map_cons, hv, hb, hs, ht, and_self]

theorem Follows.andThen (hh : h.Follows ss ts) (hh' : h'.Follows ss' ts') :
    (h.andThen h').Follows (ss ++ ss') (ts ++ ts') := by
  cases hf : h.fault with
  | some f =>
    rw [andThen_of_fault hf]
    refine ⟨hh.statements.trans (List.prefix_append ..), hh.slots.trans (List.prefix_append ..), ?_⟩
    intro hn
    rw [hf] at hn
    cases hn
  | none =>
    obtain ⟨hs, ht⟩ := hh.complete hf
    rw [andThen_of_none hf]
    refine ⟨?_, ?_, ?_⟩
    · simp only [List.map_append, hs]
      exact (List.prefix_append_right_inj ss).mpr hh'.statements
    · simp only [List.map_append, ht]
      exact (List.prefix_append_right_inj ts).mpr hh'.slots
    · intro hf'
      obtain ⟨hs', ht'⟩ := hh'.complete hf'
      simp only [List.map_append, hs, ht, hs', ht', and_self]

end History

open History in
mutual
theorem entryHistory_follows (g : Setting σ) (scope : Scope) (context : Dict Value) (i : Nat)
    (e : RequestEntry) (m : Machine σ) :
    (entryHistory g scope context i e m).Follows (Request.entryStatements i e)
      (Request.entrySlots i e) := by
  match e with
  | .declare n v | .invalid key => exact follows_of_eq rfl rfl
  | .leaf key s =>
    obtain ⟨v, m₁, -, ⟨f, m₂, -, hh⟩ | ⟨es, m₂, hp, hh⟩⟩ :=
      entryHistory_leaf g scope context i key s m
    · rw [hh]
      exact ⟨List.prefix_rfl, List.nil_prefix, fun hf => by cases hf⟩
    · rw [hh]
      refine follows_of_eq rfl ?_
      simp only [Binding.ofLeaf, Request.entrySlots, ← Answer.keys_parts hp, List.map_map]
      rfl
  | .scope key body =>
    obtain ⟨v, m₁, n, -, -, hh⟩ := entryHistory_scope g scope context i key body m
    rw [hh]
    exact (historyFrom_follows g _ context 0 body _).inScope _ i

/-- Entries are answered in the order of the request. -/
theorem historyFrom_follows (g : Setting σ) (scope : Scope) (context : Dict Value) (i : Nat)
    (es : List RequestEntry) (m : Machine σ) :
    (historyFrom g scope context i es m).Follows (Request.statementsFrom i es)
      (Request.slotsFrom i es) := by
  match es with
  | [] => exact follows_of_eq rfl rfl
  | e :: r =>
    exact (entryHistory_follows g scope context i e m).andThen
      (historyFrom_follows g scope _ (i + 1) r _)
end

namespace History

variable {h h' : History σ} {v : Visit σ} {α : Type}

theorem outcome_of_none (hf : h.fault = none) (a : α) : h.outcome a = .ok a := by
  simp only [outcome, hf]

theorem outcome_of_fault {f : Fault} (hf : h.fault = some f) (a : α) : h.outcome a = .error f := by
  simp only [outcome, hf]

theorem results_andThen (hf : h.fault = none) :
    (h.andThen h').results = h.results ++ h'.results := by
  simp only [andThen_of_none hf, results, List.filter_append, List.map_append]

theorem results_inScope : (h.inScope v i).results = h.results := by
  simp only [inScope, results, List.filter_map, List.map_map]
  rfl

/-- Declarations inside a scope do not last after it. -/
theorem lasting_inScope (hp : ∀ b ∈ h.bindings, b.place ≠ []) :
    (h.inScope v i).lasting = h.results := by
  have hl : ∀ b ∈ h.bindings, (b.under i).lasts = b.answered := by
    intro b hb
    have hne : (b.under i).place.length ≠ 1 := by
      simp [Binding.under, Slot.under, hp b hb]
    simp only [Slot.lasts, beq_eq_false_iff_ne.mpr hne, Bool.or_false]
    rfl
  simp only [lasting, results, inScope, List.filter_map, List.map_map, Function.comp_def]
  rw [List.filter_congr hl]
  rfl

end History

theorem bindings_place {g : Setting σ} {scope : Scope} {context : Dict Value}
    {es : List RequestEntry} {b : Binding}
    (hb : b ∈ (historyFrom g scope context i es m).bindings) :
    ∃ j p, i ≤ j ∧ b.place = j :: p := by
  exact Request.slotsFrom_place ((historyFrom_follows g scope context i es m).mem_slots hb)

theorem pairs_ofLeaf (i : Nat) (es : List (Value × Value)) :
    (Binding.ofLeaf i es).map Binding.pair = es := by
  rw [Binding.ofLeaf, List.map_map]
  exact List.map_id es

theorem filter_ofLeaf {p : Binding → Bool}
    (hp : ∀ name v, p ⟨⟨[i], .statement, name⟩, v⟩ = true) (es : List (Value × Value)) :
    (Binding.ofLeaf i es).filter p = Binding.ofLeaf i es := by
  refine List.filter_eq_self.mpr ?_
  intro b hb
  obtain ⟨e, -, rfl⟩ := List.mem_map.mp hb
  exact hp e.1 e.2

/-- All that an entry binds is bound in the answer, unless the entry is a declaration. -/
theorem lasting_eq_results (g : Setting σ) (scope : Scope) (context : Dict Value) (i : Nat)
    {e : RequestEntry} (he : ∀ n v, e ≠ .declare n v) (m : Machine σ) :
    (entryHistory g scope context i e m).lasting =
      (entryHistory g scope context i e m).results := by
  cases e with
  | declare n v => exact (he n v rfl).elim
  | leaf key s =>
    obtain ⟨v, m₁, -, ⟨f, m₂, -, hh⟩ | ⟨es, m₂, -, hh⟩⟩ :=
      entryHistory_leaf g scope context i key s m
    · rw [hh]
      rfl
    · rw [hh, History.lasting, History.results, filter_ofLeaf fun _ _ => rfl,
        filter_ofLeaf fun _ _ => rfl]
  | scope key body =>
    obtain ⟨v, m₁, n, -, -, hh⟩ := entryHistory_scope g scope context i key body m
    rw [hh, History.results_inScope, History.lasting_inScope]
    intro b hb
    obtain ⟨j, p, -, hp⟩ := bindings_place hb
    rw [hp]
    exact List.cons_ne_nil j p
  | invalid key => rfl

open Answer History in
mutual
theorem exec_answerEntry (g : Setting σ) (scope : Scope) (context : Dict Value) (i : Nat)
    (e : RequestEntry) (m : Machine σ) :
    Run.exec (answerEntry g scope context e) m =
      ((entryHistory g scope context i e m).outcome
        (Dict.ofList (entryHistory g scope context i e m).lasting),
        (entryHistory g scope context i e m).machine) := by
  match e with
  | .declare n v | .invalid key => rfl
  | .leaf key s =>
    obtain ⟨v, m₁, hv, hh⟩ := entryHistory_leaf g scope context i key s m
    rw [Visit.exec_ofLeaf] at hv
    rw [answerEntry, Run.exec_bind_ok hv, bindings_eq]
    obtain ⟨f, m₂, hp, hh⟩ | ⟨es, m₂, hp, hh⟩ := hh
    · rw [Run.exec_bind_error hp, hh]
      rfl
    · rw [Run.exec_bind_ok hp, hh, lasting, filter_ofLeaf (fun _ _ => rfl), pairs_ofLeaf]
      rfl
  | .scope key body =>
    have hne : ∀ n v, RequestEntry.scope key body ≠ .declare n v := fun _ _ h => by cases h
    have hl := lasting_eq_results g scope context i hne m
    obtain ⟨v, m₁, n, hv, hb, hh⟩ := entryHistory_scope g scope context i key body m
    rw [Visit.exec_ofKey] at hv
    rw [answerEntry, Run.exec_bind_ok hv, Run.exec_bind_ok hb, hl, hh, results_inScope,
      exec_answerEntries g _ context [] 0 body]
    rfl

/-- Entries are answered as their history says: with what it binds in the answer, or with its
fault. -/
theorem exec_answerEntries (g : Setting σ) (scope : Scope) (context results : Dict Value) (i : Nat)
    (es : List RequestEntry) (m : Machine σ) :
    Run.exec (answerEntries g scope context results es) m =
      ((historyFrom g scope context i es m).outcome
        (Dict.insertAll results (historyFrom g scope context i es m).results),
        (historyFrom g scope context i es m).machine) := by
  match es with
  | [] => rfl
  | e :: r =>
    rw [answerEntries, historyFrom]
    have he := exec_answerEntry g scope context i e m
    cases hf : (entryHistory g scope context i e m).fault with
    | some f =>
      rw [outcome_of_fault hf] at he
      rw [Run.exec_bind_error he, andThen_of_fault hf, outcome_of_fault hf]
    | none =>
      rw [outcome_of_none hf] at he
      rw [Run.exec_bind_ok he, exec_answerEntries g scope _ _ (i + 1) r, results_andThen hf,
        andThen_of_none hf, Dict.insertAll_append, Dict.insertAll_ofList]
      cases e with
      | declare n v => rfl
      | _ =>
        rw [lasting_eq_results g scope context i (fun _ _ h => by cases h)]
        dsimp only
        rw [Dict.insertAll_ofList]
        rfl
end

section Request

variable (g : Setting σ) (root : Value) (context : Dict Value) (request : Request) (m : Machine σ)

/-- The answer to a request by the callables of `root`, where `context` holds variables already. -/
def answerBy : Run σ (Dict Value) := do
  let scope ← Scope.bind g root
  Answer.answer g scope context request

/-- The history of the answer to a request. -/
def history : History σ :=
  historyFrom g (Scope.ofValue g.host.objects root) context 0 request
    (Run.exec (Scope.bind g root) m).2

/-- The answer to a value is that to the request that it is, with no variables before it. -/
theorem run_eq_answerBy {v : Value} (hv : Request.ofValue? g.host.objects v = some request) :
    Answer.run g root v = answerBy g root [] request := by
  simp only [Answer.run, Answer.answerValue, hv, answerBy]

theorem exec_answerBy :
    Run.exec (answerBy g root context request) m =
      ((history g root context request m).outcome
        (Dict.ofList (history g root context request m).results),
        (history g root context request m).machine) := by
  obtain ⟨n, hb⟩ := Scope.exec_bind g root m
  rw [answerBy, Run.exec_bind_ok hb, Answer.answer, exec_answerEntries g _ context [] 0]
  simp only [history, hb, Dict.ofList]

theorem answerBy_error_iff (f : Fault) :
    (Run.exec (answerBy g root context request) m).1 = .error f ↔
      (history g root context request m).fault = some f := by
  rw [exec_answerBy]
  cases hf : (history g root context request m).fault with
  | none => simp [History.outcome_of_none hf]
  | some f' => simp [History.outcome_of_fault hf]

theorem answerBy_ok_iff :
    (∃ d, (Run.exec (answerBy g root context request) m).1 = .ok d) ↔
      (history g root context request m).fault = none := by
  rw [exec_answerBy]
  cases hf : (history g root context request m).fault with
  | none => simp [History.outcome_of_none hf]
  | some f' => simp [History.outcome_of_fault hf]

theorem history_follows :
    (history g root context request m).Follows request.statements request.slots :=
  historyFrom_follows g _ context 0 request _

end Request

end CallTree
