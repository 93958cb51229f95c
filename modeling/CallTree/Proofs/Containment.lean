import CallTree.Proofs.History
import CallTree.World

/-! What can end the answer to a request: no statement can, but a property that fails while a value
is taken apart does. -/
namespace CallTree

variable {σ : Type} {m m' : Machine σ} {i : Nat} {f f' : Fault} {g : Setting σ} {scope : Scope}
  {context : Dict Value} {v : Visit σ} {h h' : History σ}

/-- The value of a statement is taken apart under its key, and a path of the key comes to a property
that fails with `f`. -/
def Visit.Breaks (g : Setting σ) (f : Fault) (v : Visit σ) : Prop :=
  v.mode = .data ∧ ∃ w m', v.exec g = (.ok w, m') ∧ Answer.BreaksUnder g.host f v.key w m'

theorem Visit.breaks_ofLeaf {key w : Value} {s : String}
    (hv : (Visit.ofLeaf scope context i key s m).exec g = (.ok w, m')) :
    (Visit.ofLeaf scope context i key s m).Breaks g f ↔
      (Run.exec (Answer.parts g.host key w) m').1 = .error f := by
  rw [Answer.exec_parts_error_iff]
  constructor
  · rintro ⟨-, w', m₁, hv', hb⟩
    rw [hv] at hv'
    cases hv'
    exact hb
  · intro hb
    exact ⟨rfl, w, m', hv, hb⟩

namespace History

/-- A history ends in a fault exactly if one of its statements breaks with it, and that is the last
one. -/
structure EndsAtBreak (g : Setting σ) (h : History σ) : Prop where
  of_break : ∀ f, ∀ v ∈ h.visits, v.Breaks g f → h.visits.getLast? = some v ∧ h.fault = some f
  of_fault : ∀ f, h.fault = some f → ∃ v ∈ h.visits, v.Breaks g f

theorem endsAtBreak_of_nil (hv : h.visits = []) (hf : h.fault = none) : h.EndsAtBreak g := by
  constructor
  · intro f v hm
    rw [hv] at hm
    cases hm
  · intro f hf'
    rw [hf] at hf'
    cases hf'

theorem EndsAtBreak.inScope (hh : h.EndsAtBreak g) (hv : v.mode ≠ .data) (i : Nat) :
    (h.inScope v i).EndsAtBreak g := by
  constructor
  · intro f u hu hb
    rcases mem_visits_inScope.mp hu with rfl | ⟨w, hw, rfl⟩
    · exact (hv hb.1).elim
    · obtain ⟨hlast, hfault⟩ := hh.of_break f w hw hb
      refine ⟨?_, hfault⟩
      simp [History.inScope, List.getLast?_cons, List.getLast?_map, hlast]
  · intro f hfault
    obtain ⟨w, hw, hb⟩ := hh.of_fault f hfault
    exact ⟨w.under i, mem_visits_inScope.mpr (Or.inr ⟨w, hw, rfl⟩), hb⟩

theorem EndsAtBreak.andThen (hh : h.EndsAtBreak g) (hh' : h'.EndsAtBreak g) :
    (h.andThen h').EndsAtBreak g := by
  cases hn : h.fault with
  | some f' =>
    rw [andThen_of_fault hn]
    exact hh
  | none =>
    rw [andThen_of_none hn]
    constructor
    · intro f v hv hb
      rcases List.mem_append.mp hv with hv | hv
      · obtain ⟨-, hfault⟩ := hh.of_break f v hv hb
        rw [hn] at hfault
        cases hfault
      · obtain ⟨hlast, hfault⟩ := hh'.of_break f v hv hb
        exact ⟨by simp [List.getLast?_append, hlast], hfault⟩
    · intro f hfault
      obtain ⟨v, hv, hb⟩ := hh'.of_fault f hfault
      exact ⟨v, List.mem_append_right h.visits hv, hb⟩

end History

open History in
mutual
theorem entryHistory_endsAtBreak (g : Setting σ) (scope : Scope) (context : Dict Value) (i : Nat)
    (e : RequestEntry) (m : Machine σ) : (entryHistory g scope context i e m).EndsAtBreak g := by
  match e with
  | .declare n v | .invalid key => exact endsAtBreak_of_nil rfl rfl
  | .leaf key s =>
    obtain ⟨w, m₁, hw, ⟨f', m₂, hp, hh⟩ | ⟨es, m₂, hp, hh⟩⟩ :=
      entryHistory_leaf g scope context i key s m
    · rw [hh]
      constructor
      · intro f v hv hb
        obtain rfl := List.mem_singleton.mp hv
        rw [Visit.breaks_ofLeaf hw, hp] at hb
        cases hb
        exact ⟨rfl, rfl⟩
      · intro f hf
        cases hf
        exact ⟨_, List.mem_singleton_self _, (Visit.breaks_ofLeaf hw).mpr (by rw [hp])⟩
    · rw [hh]
      constructor
      · intro f v hv hb
        obtain rfl := List.mem_singleton.mp hv
        rw [Visit.breaks_ofLeaf hw, hp] at hb
        cases hb
      · intro f hf
        cases hf
  | .scope key body =>
    obtain ⟨w, m₁, n, -, -, hh⟩ := entryHistory_scope g scope context i key body m
    rw [hh]
    exact (historyFrom_endsAtBreak g _ context 0 body _).inScope (by simp [Visit.ofKey]) i

/-- Nothing ends the answer to entries but a value that breaks. -/
theorem historyFrom_endsAtBreak (g : Setting σ) (scope : Scope) (context : Dict Value) (i : Nat)
    (es : List RequestEntry) (m : Machine σ) :
    (historyFrom g scope context i es m).EndsAtBreak g := by
  match es with
  | [] => exact endsAtBreak_of_nil rfl rfl
  | e :: r =>
    exact (entryHistory_endsAtBreak g scope context i e m).andThen
      (historyFrom_endsAtBreak g scope _ (i + 1) r _)
end

section Request

variable (g : Setting σ) (root : Value) (context : Dict Value) (request : Request) (m : Machine σ)

/-- Every statement that is reached has a value, whatever the host does. The answer fails exactly
where a property fails while such a value is taken apart, and then no statement after that one is
reached; otherwise there is an answer, and all statements of the request were evaluated for it. -/
theorem answer_fails_iff_a_value_breaks :
    (∀ v ∈ (history g root context request m).visits, ∃ w m', v.exec g = (.ok w, m')) ∧
    (∀ f, (Run.exec (answerBy g root context request) m).1 = .error f ↔
      ∃ v ∈ (history g root context request m).visits, v.Breaks g f) ∧
    (∀ f, ∀ v ∈ (history g root context request m).visits, v.Breaks g f →
      (history g root context request m).visits.getLast? = some v) ∧
    (history g root context request m).visits.map (·.toStatement) <+: request.statements ∧
    ((∀ f, ∀ v ∈ (history g root context request m).visits, ¬ v.Breaks g f) →
      (∃ d, (Run.exec (answerBy g root context request) m).1 = .ok d) ∧
      (history g root context request m).visits.map (·.toStatement) = request.statements) := by
  have hend : (history g root context request m).EndsAtBreak g :=
    historyFrom_endsAtBreak g _ context 0 request _
  have hfol := history_follows g root context request m
  refine ⟨?_, ?_, ?_, hfol.statements, ?_⟩
  · intro v hv
    exact v.exec_ok g (Request.mode_of_mem (hfol.mem_statements hv))
  · intro f
    rw [answerBy_error_iff]
    constructor
    · exact hend.of_fault f
    · rintro ⟨v, hv, hb⟩
      exact (hend.of_break f v hv hb).2
  · intro f v hv hb
    exact (hend.of_break f v hv hb).1
  · intro hno
    have hn : (history g root context request m).fault = none := by
      cases hf : (history g root context request m).fault with
      | none => rfl
      | some f =>
        obtain ⟨v, hv, hb⟩ := hend.of_fault f hf
        exact (hno f v hv hb).elim
    exact ⟨(answerBy_ok_iff g root context request m).mpr hn, (hfol.complete hn).1⟩

end Request

/-- A provider with a page whose number cannot be read. -/
def tornBook : World where
  objects :=
    [("book", .provider [⟨⟨"page", [⟨true, false⟩], .empty⟩, .method⟩,
        ⟨⟨"title", [⟨true, false⟩], .empty⟩, .method⟩] "book"),
      ("page", .plain [⟨⟨"number", [], .any⟩, .property⟩] "page")]
  scripts :=
    [("book", .actions [.give (.object "page"), .give (.str "T")]), ("page", .actions [.fail])]

/-- A request for the number, and then for the title. -/
def tornRequest : Request :=
  [.leaf (.str "\x7bnumber\x7d") "page()", .leaf (.str "title") "title()"]

/-- The answer fails at the number, and the title is not asked for. -/
theorem tornRequest_fails :
    (Run.exec (answerBy ⟨tornBook.host, none⟩ (.object "book") [] tornRequest)
      World.initial).1 = .error .failed ∧
    (history ⟨tornBook.host, none⟩ (.object "book") [] tornRequest
      World.initial).visits.length = 1 ∧
    tornRequest.statements.length = 2 := by
  decide +kernel

theorem tornRequest_breaks :
    (Run.exec (answerBy ⟨tornBook.host, none⟩ (.object "book") [] tornRequest)
      World.initial).1 = .error .failed ∧
    ∃ v ∈ (history ⟨tornBook.host, none⟩ (.object "book") [] tornRequest World.initial).visits,
      v.Breaks ⟨tornBook.host, none⟩ .failed := by
  have h : (Run.exec (answerBy ⟨tornBook.host, none⟩ (.object "book") [] tornRequest)
      World.initial).1 = .error .failed := by
    decide +kernel
  obtain ⟨-, hiff, -⟩ := answer_fails_iff_a_value_breaks ⟨tornBook.host, none⟩ (.object "book") []
    tornRequest World.initial
  exact ⟨h, (hiff .failed).mp h⟩

end CallTree
