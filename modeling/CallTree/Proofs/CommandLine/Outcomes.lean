import CallTree.Proofs.Access
import CallTree.Proofs.CommandLine.Documents
import CallTree.Proofs.History

/-! How runs of the command line end: which status they have, and what they print. -/
namespace CallTree.CommandLine

variable {σ : Type} {s : Surroundings σ} {arguments : List String} {o : Options} {config : Config}
  {outcome : Outcome} {p : Prepared} {m m' : Machine σ} {r : Refusal}

open Run

/-- The format of results: the one of the options, or else the one with the name in the environment,
in letters of either case and between blank, which is JSON where no name is set. -/
def PrintsIn (environment : Config.Environment) (o : Options) (format : Format) : Prop :=
  o.format = some format ∨ o.format = none ∧ format.name = String.ofList
    (Text.lower (Text.trim ((Config.setting environment "QERES_FORMAT").getD "json").toList))

/-- All that a run loads before it answers: it has a root, a hook if one is named, and a request. -/
structure Loaded (s : Surroundings σ) (o : Options) (root : Value) (transform : Option Value)
    (es : List (Value × Value)) (m m' : Machine σ) : Prop where
  provider : ∃ m₁, attempt (loadProvider s o.provider) m = (.ok (.ok root), m₁) ∧
    attempt (loadTransform s o.transform) m₁ = (.ok (.ok transform), m')
  request : Loads s o.request es

theorem name_of_ofName? {n : String} {format : Format} (h : Format.ofName? n = some format) :
    format.name = n := by
  have hf := List.find?_some h
  simpa using hf

theorem format_of_ofEnvironment {environment : Config.Environment}
    (h : Config.ofEnvironment environment = .ok config) :
    config.format.name = String.ofList (Text.lower (Text.trim
      ((Config.setting environment "QERES_FORMAT").getD "json").toList)) := by
  unfold Config.ofEnvironment at h
  generalize String.ofList (Text.lower (Text.trim
    ((Config.setting environment "QERES_FORMAT").getD "json").toList)) = n at h ⊢
  cases hf : Format.ofName? n with
  | none =>
    simp only [hf, bind, Except.bind] at h
    split at h
    · cases h
    · split at h <;> cases h
  | some format =>
    simp only [hf, bind, Except.bind, pure, Except.pure] at h
    split at h
    · cases h
      exact name_of_ofName? hf
    · split at h <;> cases h
      exact name_of_ofName? hf

theorem printsIn_getD (hc : Config.ofEnvironment s.environment = .ok config) :
    PrintsIn s.environment o (o.format.getD config.format) := by
  cases ho : o.format with
  | some format => exact Or.inl ho
  | none => exact Or.inr ⟨ho, format_of_ofEnvironment hc⟩

/-! ### Stages -/

theorem onlyReads_readRequest (s : Surroundings σ) (path : String) :
    OnlyReads (readRequest s path) := by
  intro m
  refine ⟨[], ?_, by simp⟩
  rw [List.append_nil, ← attempt]
  rcases loads_or_refuses_or_breaks s path with ⟨es, hl⟩ | ⟨r, hr⟩ | ⟨f, hf⟩
  · rw [attempt_readRequest_of_loads hl]
  · rw [attempt_readRequest_of_refuses hr]
  · rw [attempt_readRequest_of_breaks hf]

/-- What is recorded until a request can be answered: properties are read, and in between the
provider is made if it has to be. -/
structure Loading (s : Surroundings σ) (o : Options) (m : Machine σ) (es : List Event) : Prop where
  parts : ∃ before behind, es = before ++ making s o.provider m ++ behind ∧
    ∀ e ∈ before ++ behind, e.isRead = true

theorem events_prepare (s : Surroundings σ) (o : Options) (m : Machine σ) :
    ∃ es, (attempt (prepare s o) m).2.events = m.events ++ es ∧ Loading s o m es := by
  obtain ⟨before, he, hbefore⟩ := events_loadProvider s o.provider m
  obtain ⟨behind, hbind, hbehind⟩ := events_bind (loadProvider s o.provider) (fun root =>
    (onlyReads_loadTransform s o.transform).bind fun transform =>
      (onlyReads_readRequest s o.request).bind fun request =>
        onlyReads_done (⟨root, transform, request⟩ : Prepared)) m
  refine ⟨before ++ making s o.provider m ++ behind, ?_, before, behind, rfl, ?_⟩
  · rw [prepare, hbind, he]
    simp
  · intro e h
    exact (List.mem_append.mp h).elim (hbefore e) (hbehind e)

/-- The records of loading are of what is read, called or made: no statement came to a call, and the
hook saw nothing. -/
theorem Loading.not_invoke_and_not_transform {es : List Event} (h : Loading s o m es) {e : Event}
    (he : e ∈ es) : e.isInvocation = false ∧ ∀ arg, e ≠ .transform arg := by
  obtain ⟨before, behind, rfl, hreads⟩ := h.parts
  have hread : e ∈ before ++ behind → e.isInvocation = false ∧ ∀ arg, e ≠ .transform arg := by
    intro h
    have hr := hreads e h
    cases e with
    | read name => exact ⟨rfl, nofun⟩
    | _ => cases hr
  rcases List.mem_append.mp he with he | he
  · rcases List.mem_append.mp he with he | he
    · exact hread (List.mem_append_left _ he)
    · unfold making at he
      split at he
      · next v _ =>
        split at he
        · rcases s.host.records_nil v with hn | ⟨name, hn | hn⟩ <;> rw [hn] at he
          · cases he
          · obtain rfl := List.mem_singleton.mp he
            exact ⟨rfl, nofun⟩
          · obtain rfl := List.mem_singleton.mp he
            exact ⟨rfl, nofun⟩
        · cases he
      · cases he
  · exact hread (List.mem_append_right _ he)

theorem readRequest_eq_ok {path : String} {v : Value}
    (h : attempt (readRequest s path) m = (.ok (.ok v), m')) :
    ∃ es, v = .map es ∧ Loads s path es ∧ m' = m := by
  rcases loads_or_refuses_or_breaks s path with ⟨es, hl⟩ | ⟨r, hr⟩ | ⟨f, hf⟩
  · rw [attempt_readRequest_of_loads hl] at h
    cases h
    exact ⟨es, rfl, hl, rfl⟩
  · rw [attempt_readRequest_of_refuses hr] at h
    cases h
  · rw [attempt_readRequest_of_breaks hf] at h
    cases h

/-- What is there for an answer was loaded, and the request is a mapping. -/
theorem prepare_eq_ok (h : attempt (prepare s o) m = (.ok (.ok p), m')) :
    ∃ es, p.request = .map es ∧ Loaded s o p.root p.transform es m m' := by
  obtain ⟨root, m₁, hroot, hbehind⟩ := attempt_bind_eq_ok h
  obtain ⟨transform, m₂, htransform, hbehind⟩ := attempt_bind_eq_ok hbehind
  obtain ⟨request, m₃, hrequest, hend⟩ := attempt_bind_eq_ok hbehind
  obtain ⟨es, rfl, hl, rfl⟩ := readRequest_eq_ok hrequest
  rw [attempt_pure] at hend
  cases hend
  exact ⟨es, rfl, ⟨m₁, hroot, htransform⟩, hl⟩

/-- An answer that was printed is that of the request, and its status tells of errors in it. -/
theorem finish_eq_ok {format : Format} (h : exec (finish s format p) m = (.ok outcome, m')) :
    ∃ result text, exec (Answer.run ⟨s.host, p.transform⟩ p.root p.request) m = (.ok result, m') ∧
      Exchange.print s.host.objects (some format.name) result = .ok text ∧
      outcome = ⟨if (Answer.errors result).isEmpty then 0 else 1, text ++ "\n", []⟩ := by
  obtain ⟨result, m₁, hresult, h⟩ := exec_bind_eq_ok h
  obtain ⟨text, m₂, htext, h⟩ := exec_bind_eq_ok h
  rw [exec_pure] at h
  cases h
  cases hp : Exchange.print s.host.objects (some format.name) result with
  | error f =>
    rw [hp] at htext
    cases htext
  | ok text' =>
    rw [hp] at htext
    cases htext
    exact ⟨result, text, hresult, hp, rfl⟩

/-! ### Runs -/

/-- How runs come to a status: the arguments or the settings are refused, or else something that has
to be loaded is, or else there is an answer. -/
theorem run_eq_ok (hh : Options.ofArguments arguments ≠ .error .help)
    (h : exec (run s arguments) m = (.ok outcome, m')) :
    (outcome.status = 2 ∧ outcome.output = "" ∧ m' = m) ∨
    ∃ o, Options.ofArguments arguments = .ok o ∧
      ((∃ r, outcome = .refused r ∧ attempt (prepare s o) m = (.ok (.error r), m')) ∨
      ∃ config p m₁, Config.ofEnvironment s.environment = .ok config ∧
        attempt (prepare s o) m = (.ok (.ok p), m₁) ∧
        exec (finish s (o.format.getD config.format) p) m₁ = (.ok outcome, m')) := by
  cases ho : Options.ofArguments arguments with
  | error stop =>
    cases stop with
    | help => exact (hh ho).elim
    | misuse =>
      simp only [run, ho, exec_pure] at h
      cases h
      exact Or.inl ⟨rfl, rfl, rfl⟩
  | ok o =>
    cases hc : Config.ofEnvironment s.environment with
    | error f =>
      simp only [run, ho, hc, exec_pure] at h
      cases h
      exact Or.inl ⟨rfl, rfl, rfl⟩
    | ok config =>
      refine Or.inr ⟨o, rfl, ?_⟩
      rw [exec_run ho hc] at h
      rcases hp : attempt (prepare s o) m with ⟨f | r | p, m₁⟩
      · rw [hp] at h
        cases h
      · rw [hp] at h
        cases h
        exact Or.inl ⟨r, rfl, rfl⟩
      · rw [hp] at h
        exact Or.inr ⟨config, p, m₁, rfl, rfl, h⟩

/-- The status of a printed answer tells whether a value in it is an error. -/
theorem status_eq_one_iff (result : Dict Value) :
    (if (Answer.errors result).isEmpty then 0 else 1) = 1 ↔ ∃ b ∈ result, b.2.isError = true := by
  rw [Answer.errors]
  simp

/-- A name has an error in an answer where it was bound to one last, in whatever scope and by
whatever key. -/
theorem errors_of_history {g : Setting σ} {root : Value} {request : Request} {result : Dict Value}
    (h : exec (answerBy g root [] request) m = (.ok result, m')) :
    (∃ b ∈ result, b.2.isError = true) ↔
      ∃ k e, Dict.last? k (history g root [] request m).results = some (.error e) := by
  have hf := (answerBy_ok_iff g root [] request m).mp ⟨result, by rw [h]⟩
  rw [exec_answerBy, History.outcome_of_none hf] at h
  cases h
  refine (Dict.exists_mem_ofList_iff (P := fun v : Value => v.isError = true)).trans ?_
  constructor
  · rintro ⟨k, v, hv, he⟩
    cases v with
    | error e => exact ⟨k, e, hv⟩
    | _ => cases he
  · rintro ⟨k, e, hv⟩
    exact ⟨k, .error e, hv, rfl⟩

end CallTree.CommandLine
