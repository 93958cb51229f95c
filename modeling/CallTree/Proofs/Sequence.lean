import CallTree.Proofs.Bindings
import CallTree.Sample

/-! Requests one after the other. A request is answered as its first entries are, and then, where
their bindings are variables already, the rest. -/
namespace CallTree

variable {σ : Type} {h h' : History σ}

namespace History

theorem andThen_assoc (h h' h'' : History σ) :
    (h.andThen h').andThen h'' = h.andThen (h'.andThen h'') := by
  cases hf : h.fault with
  | some f => rw [andThen_of_fault hf, andThen_of_fault hf, andThen_of_fault hf]
  | none =>
    cases hf' : h'.fault with
    | some f =>
      rw [andThen_of_fault hf', andThen_of_fault]
      rw [andThen_of_none hf]
      exact hf'
    | none =>
      rw [andThen_of_none hf, andThen_of_none hf', andThen_of_none hf, andThen_of_none]
      · simp only [List.append_assoc]
      · exact hf'

theorem lasting_andThen (hf : h.fault = none) :
    (h.andThen h').lasting = h.lasting ++ h'.lasting := by
  simp only [andThen_of_none hf, lasting, List.filter_append, List.map_append]

end History

section Sequence

variable (g : Setting σ) (scope : Scope)

open History in
/-- The entries after the first ones see what lasts of these, and start from their machine. -/
theorem historyFrom_append (context : Dict Value) (i : Nat) (a b : List RequestEntry)
    (m : Machine σ) :
    historyFrom g scope context i (a ++ b) m =
      (historyFrom g scope context i a m).andThen
        (historyFrom g scope (Dict.insertAll context (historyFrom g scope context i a m).lasting)
          (i + a.length) b (historyFrom g scope context i a m).machine) := by
  induction a generalizing context i m with
  | nil => rfl
  | cons e r ih =>
    rw [List.cons_append, historyFrom, historyFrom, ih, ← andThen_assoc]
    cases hf : (entryHistory g scope context i e m).fault with
    | some f =>
      have hfe : (entryHistory g scope context i e m).andThen
          (historyFrom g scope (Dict.insertAll context (entryHistory g scope context i e m).lasting)
            (i + 1) r (entryHistory g scope context i e m).machine) =
          entryHistory g scope context i e m := andThen_of_fault hf
      rw [hfe, andThen_of_fault hf, andThen_of_fault hf]
    | none =>
      rw [lasting_andThen hf, Dict.insertAll_append, List.length_cons, Nat.add_assoc,
        Nat.add_comm 1, andThen_of_none hf]

/-- Answers entries where what they bind is kept apart from the variables around them. -/
def Answer.answerApart (inherited own results : Dict Value) :
    List RequestEntry → Run σ (Dict Value)
  | [] => pure results
  | e :: r => do
    let bound ← answerEntry g scope (Dict.insertAll inherited own) e
    let results := match e with
      | .declare .. => results
      | _ => Dict.insertAll results bound
    answerApart inherited (Dict.insertAll own bound) results r

/-- It makes no difference whether bindings are kept apart or are among the variables around. -/
theorem answerApart_eq (inherited results : Dict Value) (own : List (Value × Value))
    (es : List RequestEntry) :
    Answer.answerApart g scope inherited (Dict.ofList own) results es =
      Answer.answerEntries g scope (Dict.insertAll inherited own) results es := by
  induction es generalizing own results with
  | nil => rfl
  | cons e r ih =>
    rw [Answer.answerApart, Answer.answerEntries, Dict.insertAll_ofList]
    congr 1
    funext bound
    have hown : Dict.insertAll (Dict.ofList own) bound = Dict.ofList (own ++ bound) :=
      (Dict.insertAll_append [] own bound).symm
    rw [hown, ← Dict.insertAll_append]
    exact ih _ _

theorem exec_answer (context : Dict Value) (i : Nat) (request : Request) (m : Machine σ) :
    Run.exec (Answer.answer g scope context request) m =
      ((historyFrom g scope context i request m).outcome
        (Dict.ofList (historyFrom g scope context i request m).results),
        (historyFrom g scope context i request m).machine) :=
  exec_answerEntries g scope context [] i request m

/-- The first entries are answered, and then the others, where what lasts of the first ones is among
the variables. -/
theorem exec_answer_append (context : Dict Value) (a b : Request) (m : Machine σ) :
    Run.exec (Answer.answer g scope context (a ++ b)) m =
      Run.exec (do
        let first ← Answer.answer g scope context a
        let second ← Answer.answer g scope
          (Dict.insertAll context (historyFrom g scope context 0 a m).lasting) b
        pure (Dict.insertAll first second)) m := by
  have ha := exec_answer g scope context 0 a m
  rw [exec_answer g scope context 0 (a ++ b), historyFrom_append]
  generalize historyFrom g scope context 0 a m = h at ha ⊢
  have hb := exec_answer g scope (Dict.insertAll context h.lasting) (0 + a.length) b h.machine
  generalize historyFrom g scope _ _ b h.machine = h' at hb ⊢
  cases hf : h.fault with
  | some f =>
    rw [History.outcome_of_fault hf] at ha
    rw [Run.exec_bind_error ha, History.andThen_of_fault hf, History.outcome_of_fault hf]
  | none =>
    rw [History.outcome_of_none hf] at ha
    have hd : Dict.ofList (h.results ++ h'.results) =
        Dict.insertAll (Dict.ofList h.results) (Dict.ofList h'.results) := by
      rw [Dict.insertAll_ofList, Dict.ofList, Dict.insertAll_append]
      rfl
    rw [Run.exec_bind_ok ha, Run.exec_bind, hb, History.results_andThen hf, hd,
      History.andThen_of_none hf]
    cases hf' : h'.fault with
    | some f => simp only [History.outcome, hf']
    | none => simp only [History.outcome, hf', Run.exec_pure]

/-- A request of two parts is answered as its first part, and after that its second one, where what
the first part has bound is added to the variables: the names of its answer and the declarations of
its own node, in the order in which they were bound. The two answers make up the answer, and a fault
in the first part is the fault of the whole. -/
theorem answer_append (context : Dict Value) (a b : Request) (m : Machine σ) :
    let h := historyFrom g scope context 0 a m
    let bound := (h.bindings.filter fun b => b.answered || b.place.length == 1).map Binding.pair
    Run.exec (Answer.answer g scope context (a ++ b)) m =
        Run.exec (do
          let first ← Answer.answer g scope context a
          let second ← Answer.answer g scope (Dict.insertAll context bound) b
          pure (Dict.insertAll first second)) m ∧
      (∀ f m', Run.exec (Answer.answer g scope context a) m = (.error f, m') →
        Run.exec (Answer.answer g scope context (a ++ b)) m = (.error f, m')) ∧
      Run.exec (Answer.answer g scope context a) m =
        (h.outcome (Dict.ofList h.results), h.machine) ∧
      (h.fault = none → h.bindings.map (·.toSlot) = a.slots) ∧ h.Grounded g ∧
      ∀ results, Answer.answerApart g scope context (Dict.ofList bound) results b =
        Answer.answerEntries g scope (Dict.insertAll context bound) results b := by
  intro h bound
  have hsum := exec_answer_append g scope context a b m
  have hfol := historyFrom_follows g scope context 0 a m
  refine ⟨hsum, ?_, exec_answer g scope context 0 a m, fun hf => (hfol.complete hf).2,
    historyFrom_grounded g scope context 0 a m,
    fun results => answerApart_eq g scope context results bound b⟩
  intro f m' hx
  rw [hsum, Run.exec_bind_error hx]

end Sequence

/-- After the count and the declaration, the page and what follows it see both. -/
theorem Sample.request_in_two_parts :
    let g : Setting Store := ⟨Sample.world.host, none⟩
    let scope := Scope.ofValue g.host.objects (.object "notebook")
    let bound := [(.str "n", .int 1), (.str "who", .str "Ann")]
    Run.exec (Answer.answer g scope [] Sample.request) World.initial =
      Run.exec (do
        let first ← Answer.answer g scope [] (Sample.request.take 2)
        let second ← Answer.answer g scope (Dict.insertAll [] bound) (Sample.request.drop 2)
        pure (Dict.insertAll first second)) World.initial := by
  intro g scope bound
  have hbound : (((historyFrom g scope [] 0 (Sample.request.take 2) World.initial).bindings.filter
      fun b => b.answered || b.place.length == 1).map Binding.pair) = bound := by
    decide +kernel
  obtain ⟨hsum, -⟩ := answer_append g scope [] (Sample.request.take 2) (Sample.request.drop 2)
    World.initial
  rw [List.take_append_drop, hbound] at hsum
  exact hsum

end CallTree
