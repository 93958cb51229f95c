import CallTree.Proofs.Bindings
import CallTree.Sample
import Mathlib.Data.List.TakeDrop

/-! Which variables a statement sees: what was bound before it, where declarations stay in the node
that they stand in. -/
namespace CallTree

variable {σ : Type} {m : Machine σ} {i j : Nat} {g : Setting σ} {scope : Scope}
  {context : Dict Value} {v : Visit σ} {h h' : History σ} {p : Place} {ss ss' : List Statement}
  {ts ts' : List Slot}

namespace Slot

variable {α : Type} {f : α → Slot} {l : List α}

theorem filter_visibleAt_before (hl : ∀ a ∈ l, p ≤ (f a).place) :
    l.filter (fun a => (f a).VisibleAt p) = [] := by
  refine List.filter_eq_nil_iff.mpr ?_
  intro a hm hv
  exact not_visibleAt_of_le (hl a hm) (of_decide_eq_true hv)

theorem filter_visibleAt_later (hl : ∀ a ∈ l, ∃ q, (f a).place = i :: q) (hij : i < j) :
    l.filter (fun a => (f a).VisibleAt (j :: p)) = l.filter fun a => (f a).lasts := by
  refine List.filter_congr ?_
  intro a hm
  obtain ⟨q, hq⟩ := hl a hm
  simp only [visibleAt_later hq hij, Bool.decide_eq_true]

end Slot

namespace History

/-- The bindings that can be seen at a place. -/
def visible (p : Place) (h : History σ) : List Binding :=
  h.bindings.filter fun b => b.VisibleAt p

/-- Each statement sees what can be seen at its place, over what was there before; and all names
that can be seen there are bound by then. -/
structure Lexical (context : Dict Value) (ts : List Slot) (h : History σ) : Prop where
  sees : ∀ v ∈ h.visits,
    v.context = Dict.insertAll context ((h.visible v.place).map Binding.pair)
  bound : ∀ v ∈ h.visits,
    (h.visible v.place).map (·.toSlot) = ts.filter fun s => s.VisibleAt v.place

/-- A statement does not see what it binds itself. -/
theorem lexical_of_singleton (hv : h.visits = [v]) (hc : v.context = context)
    (hb : ∀ b ∈ h.bindings, b.place = v.place) (ht : ∀ t ∈ ts, t.place = v.place) :
    h.Lexical context ts := by
  have hvisible : h.visible v.place = [] := Slot.filter_visibleAt_before fun b hm => by
    rw [hb b hm]
  have hslots : ts.filter (fun s => s.VisibleAt v.place) = [] :=
    Slot.filter_visibleAt_before fun t hm => by
      rw [ht t hm]
  constructor
  · intro u hu
    rw [hv] at hu
    obtain rfl := List.mem_singleton.mp hu
    rw [hvisible, hc]
    rfl
  · intro u hu
    rw [hv] at hu
    obtain rfl := List.mem_singleton.mp hu
    rw [hvisible, hslots]
    rfl

theorem Lexical.inScope (hh : h.Lexical context ts) (hv : v.place = [i])
    (hc : v.context = context) : (h.inScope v i).Lexical context (ts.map (Slot.under i)) := by
  have hunder : ∀ q, (h.inScope v i).visible (i :: q) = (h.visible q).map (Binding.under i) := by
    intro q
    simp only [visible, History.inScope, List.filter_map, Function.comp_def,
      Binding.under_toSlot, Slot.visibleAt_under]
  have hkey : (h.inScope v i).visible [i] = [] := by
    refine Slot.filter_visibleAt_before ?_
    intro b hb
    obtain ⟨b', -, rfl⟩ := List.mem_map.mp hb
    exact Place.le_of_scope i b'.place
  constructor
  · intro u hu
    rcases mem_visits_inScope.mp hu with rfl | ⟨w, hw, rfl⟩
    · rw [hv, hkey, hc]
      rfl
    · have hw' := hh.sees w hw
      rw [Visit.under_toStatement, Statement.under, hunder, List.map_map]
      exact hw'
  · intro u hu
    rcases mem_visits_inScope.mp hu with rfl | ⟨w, hw, rfl⟩
    · rw [hv, hkey]
      refine (Slot.filter_visibleAt_before (f := id) ?_).symm
      intro s hs
      obtain ⟨t, -, rfl⟩ := List.mem_map.mp hs
      exact Place.le_of_scope i t.place
    · have hw' := hh.bound w hw
      rw [Visit.under_toStatement, Statement.under, hunder, List.map_map, List.filter_map]
      simp only [Function.comp_def, Slot.visibleAt_under, ← hw', List.map_map]
      rfl

/-- What comes later sees the lasting bindings, and nothing of it can be seen before. -/
theorem Lexical.andThen (hh : h.Lexical context ts)
    (hh' : h'.Lexical (Dict.insertAll context h.lasting) ts')
    (hf : h.Follows ss ts) (hf' : h'.Follows ss' ts')
    (hs : ∀ s ∈ ss, ∃ p, s.place = i :: p) (ht : ∀ t ∈ ts, ∃ p, t.place = i :: p)
    (hs' : ∀ s ∈ ss', ∃ j p, i < j ∧ s.place = j :: p)
    (ht' : ∀ t ∈ ts', ∃ j p, i < j ∧ t.place = j :: p) :
    (h.andThen h').Lexical context (ts ++ ts') := by
  have hle : ∀ {p : Place}, ∀ t ∈ ts', i :: p ≤ t.place := by
    intro p t hm
    obtain ⟨j, q, hij, hq⟩ := ht' t hm
    rw [hq]
    exact le_of_lt (List.cons_lt_cons_iff.mpr (Or.inl hij))
  have hslots : ∀ {p : Place}, (ts ++ ts').filter (fun s => s.VisibleAt (i :: p)) =
      ts.filter fun s => s.VisibleAt (i :: p) := by
    intro p
    have hnil : ts'.filter (fun s => s.VisibleAt (i :: p)) = [] :=
      Slot.filter_visibleAt_before hle
    rw [List.filter_append, hnil, List.append_nil]
  have hfirst : ∀ {p : Place}, (h.andThen h').visible (i :: p) = h.visible (i :: p) := by
    intro p
    cases hn : h.fault with
    | some f => rw [andThen_of_fault hn]
    | none =>
      have hnil : h'.visible (i :: p) = [] :=
        Slot.filter_visibleAt_before fun b hb => hle b.toSlot (hf'.mem_slots hb)
      rw [andThen_of_none hn, visible, List.filter_append, ← visible, ← visible, hnil,
        List.append_nil]
  have hsecond : ∀ {j : Nat} {p : Place}, i < j → h.fault = none →
      (h.andThen h').visible (j :: p) = (h.bindings.filter fun b => b.lasts) ++
        h'.visible (j :: p) := by
    intro j p hij hn
    have hlasts : h.visible (j :: p) = h.bindings.filter fun b => b.lasts :=
      Slot.filter_visibleAt_later (fun b hb => ht b.toSlot (hf.mem_slots hb)) hij
    rw [andThen_of_none hn, visible, List.filter_append, ← visible, ← visible, hlasts]
  constructor
  · intro v hv
    rcases mem_visits_andThen.mp hv with hv | ⟨hn, hv⟩
    · obtain ⟨q, hq⟩ := hs v.toStatement (hf.mem_statements hv)
      have hc := hh.sees v hv
      rw [hq] at hc ⊢
      rw [hfirst, hc]
    · obtain ⟨j, q, hij, hq⟩ := hs' v.toStatement (hf'.mem_statements hv)
      have hc := hh'.sees v hv
      rw [hq] at hc ⊢
      rw [hsecond hij hn, hc, List.map_append, Dict.insertAll_append, lasting]
  · intro v hv
    rcases mem_visits_andThen.mp hv with hv | ⟨hn, hv⟩
    · obtain ⟨q, hq⟩ := hs v.toStatement (hf.mem_statements hv)
      have hc := hh.bound v hv
      rw [hq] at hc ⊢
      rw [hfirst, hc, hslots]
    · obtain ⟨j, q, hij, hq⟩ := hs' v.toStatement (hf'.mem_statements hv)
      have hc := hh'.bound v hv
      have hlasts : ts.filter (fun s => s.VisibleAt (j :: q)) = ts.filter fun s => s.lasts :=
        Slot.filter_visibleAt_later ht hij
      rw [hq] at hc ⊢
      rw [hsecond hij hn, List.map_append, hc, List.filter_append, hlasts,
        ← (hf.complete hn).2, List.filter_map]
      rfl

end History

open History Request in
mutual
theorem entryHistory_lexical (g : Setting σ) (scope : Scope) (context : Dict Value) (i : Nat)
    (e : RequestEntry) (m : Machine σ) :
    (entryHistory g scope context i e m).Lexical context (entrySlots i e) := by
  match e with
  | .declare n v | .invalid key =>
    constructor <;> intro v hv <;> cases hv
  | .leaf key s =>
    have hplace : ∀ t ∈ entrySlots i (.leaf key s), t.place = [i] := by
      intro t ht
      obtain ⟨name, -, rfl⟩ := List.mem_map.mp ht
      rfl
    have hv : (entryHistory g scope context i (.leaf key s) m).visits =
        [Visit.ofLeaf scope context i key s m] := by
      obtain ⟨w, m₁, -, ⟨f, m₂, -, hh⟩ | ⟨es, m₂, -, hh⟩⟩ :=
        entryHistory_leaf g scope context i key s m
      · rw [hh]
        rfl
      · rw [hh]
    exact lexical_of_singleton hv rfl
      (fun b hb => hplace _ ((entryHistory_follows g scope context i _ m).mem_slots hb)) hplace
  | .scope key body =>
    obtain ⟨w, m₁, n, -, -, hh⟩ := entryHistory_scope g scope context i key body m
    rw [hh]
    exact (historyFrom_lexical g _ context 0 body _).inScope rfl rfl

theorem historyFrom_lexical (g : Setting σ) (scope : Scope) (context : Dict Value) (i : Nat)
    (es : List RequestEntry) (m : Machine σ) :
    (historyFrom g scope context i es m).Lexical context (slotsFrom i es) := by
  match es with
  | [] =>
    constructor <;> intro v hv <;> cases hv
  | e :: r =>
    refine (entryHistory_lexical g scope context i e m).andThen
      (historyFrom_lexical g scope _ (i + 1) r _) (entryHistory_follows g scope context i e m)
      (historyFrom_follows g scope _ (i + 1) r _) (fun s => entryStatements_place)
      (fun t => entrySlots_place) ?_ ?_
    · intro s hs
      obtain ⟨j, p, hj, hp⟩ := statementsFrom_place hs
      exact ⟨j, p, by omega, hp⟩
    · intro t ht
      obtain ⟨j, p, hj, hp⟩ := slotsFrom_place ht
      exact ⟨j, p, by omega, hp⟩
end

namespace Argument

/-- The text that stands for the value of a variable. -/
def reference (x : String) : String := String.ofList ('$' :: '\x7b' :: x.toList ++ ['\x7d'])

theorem ofText_reference {x : String} (hx : Text.IsName x.toList) :
    ofText (reference x) = .variable x := by
  obtain ⟨hne, hw⟩ := hx
  have hend : Text.isWord '\x7d' = false := by decide
  have hspan : (x.toList ++ ['\x7d']).span Text.isWord = (x.toList, ['\x7d']) := by
    rw [List.span_eq_takeWhile_dropWhile, List.takeWhile_append_of_pos hw,
      List.dropWhile_append_of_pos hw]
    simp [hend]
  have hname : variableName? (reference x).toList = some x.toList := by
    rw [reference, String.toList_ofList, List.cons_append, List.cons_append]
    simp only [variableName?, hspan]
    simp [hne, AtEnd]
  simp only [ofText, hname, String.ofList_toList]

end Argument

section Request

variable (g : Setting σ) (root : Value) (context : Dict Value) (request : Request) (m : Machine σ)

/-- The answer to a request goes through a history whose statements see what the request has bound
for them: a variable in an argument has the value that was bound last among the names that can be
seen at the place of the statement, or else the one that it had before the request. -/
theorem variables_have_last_visible_value :
    Run.exec (answerBy g root context request) m =
      ((history g root context request m).outcome
        (Dict.ofList (history g root context request m).results),
        (history g root context request m).machine) ∧
    (history g root context request m).Grounded g ∧
    request.slots.Pairwise (fun s t => s.place ≤ t.place) ∧
    ∀ v ∈ (history g root context request m).visits,
      ((history g root context request m).visible v.place).map (·.toSlot) =
        request.slots.filter (fun s => s.VisibleAt v.place) ∧
      (∀ x : String, Text.IsName x.toList →
        Argument.value v.context (Argument.reference x) =
          ((Dict.last? (.str x) (((history g root context request m).visible v.place).map
            Binding.pair)).or (Dict.get? (.str x) context)).getD .null) ∧
      ∀ call entry, Setting.Calls v.scope v.text v.mode call entry →
        v.exec g = Run.exec (Setting.contain (g.invoke v.scope v.mode call.name entry
          (call.args.map (Argument.value v.context)))) v.before := by
  have hlex : (history g root context request m).Lexical context request.slots :=
    historyFrom_lexical g _ context 0 request _
  refine ⟨exec_answerBy g root context request m, history_grounded g root context request m,
    Request.slotsFrom_sorted 0 request, ?_⟩
  intro v hv
  refine ⟨hlex.bound v hv, ?_, ?_⟩
  · intro x hx
    rw [Argument.value, Argument.ofText_reference hx, hlex.sees v hv]
    simp only [Dict.get?_insertAll]
  · intro call entry hc
    rw [Visit.exec, g.evaluate_of_calls hc]

end Request

/-- What a scope declares cannot be seen after it: the last statement sees the first declaration. -/
theorem Sample.variables_after_a_scope :
    let h := history ⟨Sample.world.host, none⟩ (.object "notebook") [] Sample.request World.initial
    ∃ v ∈ h.visits, v.text = .str "echo($\x7bwho\x7d)" ∧
      Argument.value v.context (Argument.reference "who") = .str "Ann" := by
  intro h
  have hat : (h.visits[4]?.map fun v => (v.text, Dict.last? (.str "who")
      ((h.visible v.place).map Binding.pair))) =
        some (.str "echo($\x7bwho\x7d)", some (.str "Ann")) := by
    decide +kernel
  obtain ⟨v, hv, he⟩ := Option.map_eq_some_iff.mp hat
  obtain ⟨htext, hlast⟩ := Prod.mk.inj he
  have hmem : v ∈ h.visits := List.mem_of_getElem? hv
  obtain ⟨-, -, -, hall⟩ := variables_have_last_visible_value ⟨Sample.world.host, none⟩
    (.object "notebook") [] Sample.request World.initial
  obtain ⟨-, hvalue, -⟩ := hall v hmem
  refine ⟨v, hmem, htext, ?_⟩
  rw [hvalue "who" (by decide), hlast]
  rfl

end CallTree
