import CallTree.Proofs.Bindings
import CallTree.Sample

/-! The shape of an answer: flat, in document order, with names that only the request decides. -/
namespace CallTree

variable {σ : Type} {h : History σ}

/-- What is bound in the answer has the names of the request, in their order. -/
theorem History.names_results {request : Request} (hs : h.bindings.map (·.toSlot) = request.slots) :
    h.results.map (·.1) = request.names := by
  rw [Request.names, ← hs, List.filter_map, results, List.map_map, List.map_map]
  rfl

section Request

variable {g : Setting σ} {root : Value} {context : Dict Value} {request : Request} {m : Machine σ}
  {d : Dict Value}

/-- An answer holds what the entries of the request bind, inserted one after the other in document
order, whatever scopes they are in. Its names, and their order, are those of the request, and each
holds what was bound to it last. -/
theorem answer_is_flat (hd : (Run.exec (answerBy g root context request) m).1 = .ok d) :
    d = Dict.ofList (history g root context request m).results ∧
    (history g root context request m).bindings.map (·.toSlot) = request.slots ∧
    (history g root context request m).Grounded g ∧
    Dict.keys d = Dict.firstKeys request.names ∧
    ∀ k, Dict.get? k d = Dict.last? k (history g root context request m).results := by
  have hf := (answerBy_ok_iff g root context request m).mp ⟨d, hd⟩
  rw [exec_answerBy, History.outcome_of_none hf] at hd
  cases hd
  have hs := ((history_follows g root context request m).complete hf).2
  refine ⟨rfl, hs, history_grounded g root context request m, ?_, ?_⟩
  · rw [Dict.keys_ofList, History.names_results hs]
  · intro k
    exact Dict.get?_ofList k _

end Request

/-- The names are there once each, at the places where they first came up. -/
theorem Sample.answer_is_flat_in_notebook :
    (Run.exec (answerBy ⟨Sample.world.host, none⟩ (.object "notebook") [] Sample.request)
        World.initial).1 =
      .ok [(.str "n", .error CallError.methodNotFound), (.str "t", .null),
        (.int 1, .error CallError.invalidStatement), (.str "last", .null)] ∧
    Dict.firstKeys Sample.request.names = [.str "n", .str "t", .int 1, .str "last"] := by
  have hd : (Run.exec (answerBy ⟨Sample.world.host, none⟩ (.object "notebook") [] Sample.request)
        World.initial).1 =
      .ok [(.str "n", .error CallError.methodNotFound), (.str "t", .null),
        (.int 1, .error CallError.invalidStatement), (.str "last", .null)] := by
    decide +kernel
  exact ⟨hd, (answer_is_flat hd).2.2.2.1.symm⟩

end CallTree
