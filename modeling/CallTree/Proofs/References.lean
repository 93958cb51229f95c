import CallTree.Proofs.Call
import CallTree.Proofs.Scoping

/-! Which variables a request refers to. An answer depends on no other part of its context. -/
namespace CallTree

variable {σ : Type} {context context' : Dict Value} {i : Nat} {ss ss' : List Statement}
  {x : String}

/-- The arguments of a statement. It has none if it has no call. -/
def Statement.args (s : Statement) : List String :=
  match s.text with
  | .str t => ((Call.ofStatement? t).map (·.args)).getD []
  | _ => []

/-- An argument of a statement is, as a whole, the reference to a variable. -/
def Statement.RefersTo (s : Statement) (x : String) : Prop :=
  Text.IsName x.toList ∧ Argument.reference x ∈ s.args

def Request.RefersTo (request : Request) (x : String) : Prop :=
  ∃ s ∈ request.statements, s.RefersTo x

/-- Contexts that give the same values to the variables that statements refer to. A variable without
a value has the value null. -/
def Agree (ss : List Statement) (context context' : Dict Value) : Prop :=
  ∀ s ∈ ss, ∀ x, s.RefersTo x →
    (Dict.get? (.str x) context).getD .null = (Dict.get? (.str x) context').getD .null

theorem Statement.trimmed_of_mem_args (s : Statement) {a : String} (ha : a ∈ s.args) :
    Text.Trimmed a.toList := by
  unfold args at ha
  split at ha
  · next t _ =>
    cases hc : Call.ofStatement? t with
    | none => simp [hc] at ha
    | some call => exact (Call.statable_of_ofStatement? hc).trimmed a (by simpa [hc] using ha)
  · cases ha

namespace Argument

theorem reference_injective : Function.Injective reference := by
  intro x y h
  simpa [reference, String.ofList_inj, String.toList_inj] using h

theorem eq_of_variableName? {s n : List Char} (h : variableName? s = some n) :
    Text.IsName n ∧ ∃ rest, s = '$' :: '\x7b' :: n ++ '\x7d' :: rest ∧ AtEnd rest := by
  unfold variableName? at h
  split at h
  · next r =>
    split at h
    · next n' rest hspan =>
      split at h
      · next hn =>
        obtain rfl := Option.some.inj h
        rw [List.span_eq_takeWhile_dropWhile, Prod.mk.injEq] at hspan
        obtain ⟨htake, hdrop⟩ := hspan
        refine ⟨⟨hn.1, ?_⟩, rest, ?_, hn.2⟩
        · intro c hc
          rw [← htake] at hc
          exact List.mem_takeWhile_imp hc
        · rw [← List.takeWhile_append_dropWhile (p := Text.isWord) (l := r), htake, hdrop]
          rfl
      · cases h
    · cases h
  · cases h

/-- An argument of a call that is read as a variable is, as a whole, the reference to it. -/
theorem eq_reference_of_ofText {a : String} (ht : Text.Trimmed a.toList)
    (h : ofText a = .variable x) : Text.IsName x.toList ∧ a = reference x := by
  unfold ofText at h
  split at h
  · next n hn =>
    obtain rfl : String.ofList n = x := Argument.variable.inj h
    obtain ⟨hname, rest, ha, hrest⟩ := eq_of_variableName? hn
    -- An argument is trimmed, so that it cannot end in a line break.
    obtain rfl : rest = [] := by
      refine hrest.resolve_right ?_
      rintro rfl
      have hblank := ht.last '\n' (by rw [ha, List.getLast?_append]; rfl)
      revert hblank
      decide
    rw [String.toList_ofList]
    refine ⟨hname, ?_⟩
    rw [reference, String.toList_ofList, ← ha, String.ofList_toList]
  · cases h

theorem value_congr {a : String} (ht : Text.Trimmed a.toList)
    (h : ∀ x : String, Text.IsName x.toList → a = reference x →
      (Dict.get? (.str x) context).getD .null = (Dict.get? (.str x) context').getD .null) :
    value context a = value context' a := by
  unfold value
  split
  · next x hx =>
    obtain ⟨hname, ha⟩ := eq_reference_of_ofText ht hx
    exact h x hname ha
  · rfl

end Argument

/-- A statement takes nothing from the context but the values of its arguments. -/
theorem Statement.evaluate_congr (s : Statement)
    (hargs : s.args.map (Argument.value context) = s.args.map (Argument.value context'))
    (g : Setting σ) (scope : Scope) :
    g.evaluate scope s.text s.mode context = g.evaluate scope s.text s.mode context' := by
  unfold Setting.evaluate
  split
  · rfl
  · split
    · next t ht =>
      cases hc : Call.ofStatement? t with
      | none => rfl
      | some call =>
        simp only [args, ht, hc, Option.map_some, Option.getD_some] at hargs
        simp only [hargs]
    · rfl

namespace Agree

theorem left (h : Agree (ss ++ ss') context context') : Agree ss context context' :=
  fun s hs => h s (List.mem_append_left ss' hs)

theorem right (h : Agree (ss ++ ss') context context') : Agree ss' context context' :=
  fun s hs => h s (List.mem_append_right ss hs)

theorem of_under (h : Agree (ss.map (Statement.under i)) context context') :
    Agree ss context context' :=
  fun s hs x hx => h (s.under i) (List.mem_map_of_mem hs) x hx

/-- What both contexts get hides what they were. -/
theorem insertAll (h : Agree ss context context') (es : List (Value × Value)) :
    Agree ss (Dict.insertAll context es) (Dict.insertAll context' es) := by
  intro s hs x hx
  rw [Dict.get?_insertAll, Dict.get?_insertAll]
  cases Dict.last? (.str x) es with
  | none => exact h s hs x hx
  | some v => rfl

/-- The arguments of a statement have the same values. -/
theorem args {s : Statement} (h : Agree ss context context') (hs : s ∈ ss) :
    s.args.map (Argument.value context) = s.args.map (Argument.value context') := by
  refine List.map_congr_left ?_
  intro a ha
  refine Argument.value_congr (s.trimmed_of_mem_args ha) ?_
  rintro x hx rfl
  exact h s hs x ⟨hx, ha⟩

theorem evaluate {s : Statement} (h : Agree ss context context') (hs : s ∈ ss) (g : Setting σ)
    (scope : Scope) :
    g.evaluate scope s.text s.mode context = g.evaluate scope s.text s.mode context' :=
  s.evaluate_congr (h.args hs) g scope

end Agree

open Request in
mutual
theorem answerEntry_congr (g : Setting σ) (scope : Scope) (context context' : Dict Value) (i : Nat)
    (e : RequestEntry) (h : Agree (entryStatements i e) context context') :
    Answer.answerEntry g scope context e = Answer.answerEntry g scope context' e := by
  match e with
  | .declare n v | .invalid key => rfl
  | .leaf key s =>
    have he := h.evaluate (List.mem_singleton_self _) g scope
    simp only [Answer.answerEntry, he]
  | .scope key body =>
    have he := h.evaluate List.mem_cons_self g scope
    have hunder : Agree ((statementsFrom 0 body).map (Statement.under i)) context context' :=
      fun s hs => h s (List.mem_cons_of_mem _ hs)
    have hbody := hunder.of_under
    simp only [Answer.answerEntry, he]
    congr 1
    funext provider
    congr 1
    funext child
    exact answerEntries_congr g child context context' [] 0 body hbody

/-- Entries are answered alike in contexts that agree for their statements, as what one entry binds
for the next ones is the same in both. -/
theorem answerEntries_congr (g : Setting σ) (scope : Scope) (context context' results : Dict Value)
    (i : Nat) (es : List RequestEntry) (h : Agree (statementsFrom i es) context context') :
    Answer.answerEntries g scope context results es =
      Answer.answerEntries g scope context' results es := by
  match es with
  | [] => rfl
  | e :: r =>
    have he := answerEntry_congr g scope context context' i e h.left
    rw [Answer.answerEntries, Answer.answerEntries, he]
    congr 1
    funext bound
    exact answerEntries_congr g scope _ _ _ (i + 1) r (h.right.insertAll bound)
end

/-- Two contexts that give the variables that a request refers to the same values make no
difference: the answer is the same or fails in the same way, the same functions of the host run on
the same values, in the same order, and the host and the log are left the same. -/
theorem context_acts_through_references (g : Setting σ) (scope : Scope)
    (context context' : Dict Value) (request : Request) (m : Machine σ)
    (h : ∀ x, request.RefersTo x →
      (Dict.get? (.str x) context).getD .null = (Dict.get? (.str x) context').getD .null) :
    Run.exec (Answer.answer g scope context request) m =
      Run.exec (Answer.answer g scope context' request) m := by
  have hagree : Agree request.statements context context' := by
    intro s hs x hx
    exact h x ⟨s, hs, hx⟩
  have hentries := answerEntries_congr g scope context context' [] 0 request hagree
  rw [Answer.answer, Answer.answer, hentries]

/-- The only variable that statements of the request refer to is null, or has no value. Another one
is there that has the name of a statement. -/
theorem Sample.other_variables_do_not_matter :
    let g : Setting Store := ⟨Sample.world.host, none⟩
    let scope := Scope.ofValue g.host.objects (.object "notebook")
    Run.exec (Answer.answer g scope [(.str "who", .null), (.str "n", .int 7)] Sample.request)
        World.initial =
      Run.exec (Answer.answer g scope [] Sample.request) World.initial := by
  intro g scope
  refine context_acts_through_references g scope _ [] Sample.request World.initial ?_
  rintro x ⟨s, hs, -, ha⟩
  have hall : ∀ s ∈ Sample.request.statements, ∀ a ∈ s.args, a = Argument.reference "who" := by
    decide +kernel
  obtain rfl : x = "who" := Argument.reference_injective (hall s hs _ ha)
  decide

end CallTree
