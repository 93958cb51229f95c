import CallTree.Proofs.History

/-! What the names of an answer are bound to, and by which entry. -/
namespace CallTree

variable {σ : Type} {m : Machine σ} {i : Nat} {g : Setting σ} {scope : Scope}
  {context : Dict Value} {v : Visit σ} {b : Binding} {h h' : History σ} {ss ss' : List Statement}
  {ts ts' : List Slot}

namespace History

/-- What the entry at a place binds. -/
def boundAt (p : Place) (h : History σ) : List (Value × Value) :=
  (h.bindings.filter fun b => b.place = p).map Binding.pair

/-- A name has the value of its declaration, or the error for an entry that is neither a statement
nor a request; or the statement at its place was evaluated, and the names that are bound there are
those that its value gives, in turn. -/
def Accounts (g : Setting σ) (h : History σ) (b : Binding) : Prop :=
  match b.origin with
  | .declaration v => b.value = v
  | .invalid => b.value = .error CallError.invalidStatement
  | .statement => ∃ v ∈ h.visits, v.mode = .data ∧ v.place = b.place ∧ ∃ w m₁ es m₂,
      v.exec g = (.ok w, m₁) ∧ Run.exec (Answer.parts g.host v.key w) m₁ = (.ok es, m₂) ∧
        h.boundAt b.place = es

/-- All names of a history have their values from its entries. -/
def Grounded (g : Setting σ) (h : History σ) : Prop := ∀ b ∈ h.bindings, h.Accounts g b

/-- An account stays one where statements are added, and no names at its place. -/
theorem Accounts.mono (ha : h.Accounts g b) (hv : ∀ v ∈ h.visits, v ∈ h'.visits)
    (hb : h'.boundAt b.place = h.boundAt b.place) : h'.Accounts g b := by
  unfold Accounts at ha ⊢
  split at ha
  · exact ha
  · exact ha
  · obtain ⟨v, hmem, hm, hp, w, m₁, es, m₂, hx, hy, hes⟩ := ha
    exact ⟨v, hv v hmem, hm, hp, w, m₁, es, m₂, hx, hy, hb.trans hes⟩

theorem boundAt_eq_nil {p : Place} (hp : ∀ b ∈ h.bindings, b.place ≠ p) : h.boundAt p = [] := by
  have hnil : (h.bindings.filter fun b => b.place = p) = [] := by
    refine List.filter_eq_nil_iff.mpr ?_
    intro b hb he
    exact hp b hb (of_decide_eq_true he)
  rw [boundAt, hnil]
  rfl

theorem boundAt_andThen (hn : h.fault = none) (p : Place) :
    (h.andThen h').boundAt p = h.boundAt p ++ h'.boundAt p := by
  simp only [boundAt, andThen_of_none hn, List.filter_append, List.map_append]

theorem boundAt_inScope (p : Place) : (h.inScope v i).boundAt (i :: p) = h.boundAt p := by
  simp only [boundAt, inScope, List.filter_map, List.map_map, Function.comp_def,
    Binding.under, Slot.under, List.cons.injEq, true_and]
  rfl

theorem Grounded.inScope (hh : h.Grounded g) (v : Visit σ) (i : Nat) :
    (h.inScope v i).Grounded g := by
  intro b hb
  obtain ⟨b', hb', rfl⟩ := List.mem_map.mp hb
  have ha := hh b' hb'
  obtain ⟨⟨place, origin, name⟩, value⟩ := b'
  cases origin with
  | declaration w | invalid => exact ha
  | statement =>
    obtain ⟨u, hu, hm, hp, w, m₁, es, m₂, hx, hy, hes⟩ := ha
    exact ⟨u.under i, mem_visits_inScope.mpr (Or.inr ⟨u, hu, rfl⟩), hm, congrArg (i :: ·) hp,
      w, m₁, es, m₂, hx, hy, (boundAt_inScope place).trans hes⟩

theorem Grounded.andThen (hh : h.Grounded g) (hh' : h'.Grounded g)
    (hp : ∀ b ∈ h.bindings, ∀ b' ∈ h'.bindings, b.place ≠ b'.place) :
    (h.andThen h').Grounded g := by
  intro b hb
  cases hn : h.fault with
  | some f =>
    rw [andThen_of_fault hn] at hb ⊢
    exact hh b hb
  | none =>
    rcases mem_bindings_andThen.mp hb with hb | ⟨-, hb⟩
    · refine (hh b hb).mono (fun v hv => mem_visits_andThen.mpr (Or.inl hv)) ?_
      rw [boundAt_andThen hn, boundAt_eq_nil (h := h') fun b' hb' he => hp b hb b' hb' he.symm,
        List.append_nil]
    · refine (hh' b hb).mono (fun v hv => mem_visits_andThen.mpr (Or.inr ⟨hn, hv⟩)) ?_
      rw [boundAt_andThen hn, boundAt_eq_nil (h := h) fun b' hb' he => hp b' hb' b hb he,
        List.nil_append]

end History

open History in
mutual
theorem entryHistory_grounded (g : Setting σ) (scope : Scope) (context : Dict Value) (i : Nat)
    (e : RequestEntry) (m : Machine σ) : (entryHistory g scope context i e m).Grounded g := by
  match e with
  | .declare n v | .invalid key =>
    intro b hb
    obtain rfl := List.mem_singleton.mp hb
    rfl
  | .leaf key s =>
    obtain ⟨w, m₁, hw, ⟨f, m₂, hp, hh⟩ | ⟨es, m₂, hp, hh⟩⟩ :=
      entryHistory_leaf g scope context i key s m
    · rw [hh]
      intro b hb
      cases hb
    · rw [hh]
      intro b hb
      obtain ⟨e, -, rfl⟩ := List.mem_map.mp hb
      refine ⟨_, List.mem_singleton_self _, rfl, rfl, w, m₁, es, m₂, hw, hp, ?_⟩
      rw [boundAt, filter_ofLeaf (fun _ _ => decide_eq_true rfl), pairs_ofLeaf]
  | .scope key body =>
    obtain ⟨w, m₁, n, -, -, hh⟩ := entryHistory_scope g scope context i key body m
    rw [hh]
    exact (historyFrom_grounded g _ context 0 body _).inScope _ i

theorem historyFrom_grounded (g : Setting σ) (scope : Scope) (context : Dict Value) (i : Nat)
    (es : List RequestEntry) (m : Machine σ) :
    (historyFrom g scope context i es m).Grounded g := by
  match es with
  | [] =>
    intro b hb
    cases hb
  | e :: r =>
    refine (entryHistory_grounded g scope context i e m).andThen
      (historyFrom_grounded g scope _ (i + 1) r _) ?_
    intro b hb b' hb'
    obtain ⟨p, hp⟩ :=
      Request.entrySlots_place ((entryHistory_follows g scope context i e m).mem_slots hb)
    obtain ⟨j, q, hj, hq⟩ := bindings_place hb'
    rw [hp, hq]
    intro he
    have hij := (List.cons.inj he).1
    omega
end

theorem history_grounded (g : Setting σ) (root : Value) (context : Dict Value) (request : Request)
    (m : Machine σ) : (history g root context request m).Grounded g :=
  historyFrom_grounded g _ context 0 request _

end CallTree
