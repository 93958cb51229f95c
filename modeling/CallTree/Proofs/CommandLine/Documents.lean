import CallTree.Proofs.CommandLine.Preparation
import CallTree.Sample

/-! Request documents on the command line: which of them are requests, which are refused, and which
end a run with a fault. -/
namespace CallTree.CommandLine

variable {σ : Type} {s : Surroundings σ} {path text : String} {format : Option Format}
  {m m₁ : Machine σ} {f : Fault} {r : Refusal}

open Run

/-- The text of a request document, and the format that its path shows: text on the input shows
none, and a file has to be text itself. -/
inductive Gives (s : Surroundings σ) : String → String → Option Format → Prop
  | input : Gives s "-" s.input none
  | file {path : String} {bs : List UInt8} {t : List Char} (hp : path ≠ "-")
      (ho : s.files path = .ok bs) (ht : Text.decodeUtf8? bs = some t) :
      Gives s path (String.ofList (Text.unifyBreaks t)) (Format.ofPath? path)

/-- What text stands for, in the format that its path shows or else in the one that it looks
like. -/
def decode (text : String) (format : Option Format) : Except Fault Value :=
  Document.read (format.map Format.name) none (.str text)

/-- A document that is a mapping. -/
def Loads (s : Surroundings σ) (path : String) (es : List (Value × Value)) : Prop :=
  ∃ text format, Gives s path text format ∧ decode text format = .ok (.map es)

/-- Why a document is refused: there is none, it is malformed, or it is something else than a
mapping. -/
inductive Refuses (s : Surroundings σ) (path : String) : Refusal → Prop
  | missing (hp : path ≠ "-") (ho : s.files path = .error .missing) : Refuses s path (.noFile path)
  | malformed {text : String} {format : Option Format} {f : Fault} (hg : Gives s path text format)
      (hd : decode text format = .error f) (hf : isMalformed f = true) : Refuses s path .unreadable
  | otherValue {text : String} {format : Option Format} {v : Value} (hg : Gives s path text format)
      (hd : decode text format = .ok v) (hv : ∀ es, v ≠ .map es) : Refuses s path .notAMapping

/-- Why a document ends a run with a fault: its path leads to no file in another way than that there
is none, the file is not text, or a decoder fails at the text without saying that it is
malformed. -/
inductive Breaks (s : Surroundings σ) (path : String) : Fault → Prop
  | directory (hp : path ≠ "-") (ho : s.files path = .error .directory) : Breaks s path .isDirectory
  | notDirectory (hp : path ≠ "-") (ho : s.files path = .error .notDirectory) :
      Breaks s path .notDirectory
  | unusable (hp : path ≠ "-") (ho : s.files path = .error .unusable) : Breaks s path .badValue
  | notText {bs : List UInt8} (hp : path ≠ "-") (ho : s.files path = .ok bs)
      (ht : Text.decodeUtf8? bs = none) : Breaks s path .badEncoding
  | undocumented {text : String} {format : Option Format} {f : Fault}
      (hg : Gives s path text format) (hd : decode text format = .error f)
      (hf : isMalformed f = false) : Breaks s path f

theorem attempt_readSource (hg : Gives s path text format) (m : Machine σ) :
    attempt (readSource s path) m = (.ok (.ok (text, format)), m) := by
  cases hg with
  | input => simp [readSource]
  | file hp ho ht => simp [readSource, hp, ho, ht]

/-! ### Reading -/

theorem attempt_readRequest_of_loads {es : List (Value × Value)} (h : Loads s path es)
    (m : Machine σ) : attempt (readRequest s path) m = (.ok (.ok (.map es)), m) := by
  obtain ⟨text, format, hg, hd⟩ := h
  rw [readRequest, attempt_bind_ok (attempt_readSource hg m)]
  dsimp only
  rw [← decode, hd]
  rfl

theorem attempt_readRequest_of_refuses (h : Refuses s path r) (m : Machine σ) :
    attempt (readRequest s path) m = (.ok (.error r), m) := by
  cases h with
  | missing hp ho =>
    have hs : attempt (readSource s path) m = (.ok (.error (.noFile path)), m) := by
      simp [readSource, hp, ho]
    rw [readRequest, attempt_bind_refused hs]
  | malformed hg hd hf =>
    rw [readRequest, attempt_bind_ok (attempt_readSource hg m)]
    dsimp only
    rw [← decode, hd]
    dsimp only
    rw [if_pos hf, attempt_throw]
  | @otherValue text format v hg hd hv =>
    rw [readRequest, attempt_bind_ok (attempt_readSource hg m)]
    dsimp only
    rw [← decode, hd]
    cases v with
    | map es => exact (hv es rfl).elim
    | _ => rfl

theorem attempt_readRequest_of_breaks (h : Breaks s path f) (m : Machine σ) :
    attempt (readRequest s path) m = (.error f, m) := by
  -- The file itself is at fault, unless its text came as far as a decoder.
  have hfile : attempt (readSource s path) m = (.error f, m) →
      attempt (readRequest s path) m = (.error f, m) := fun hs => by
    rw [readRequest, attempt_bind_fault hs]
  cases h with
  | directory hp ho => exact hfile (by simp [readSource, hp, ho, attempt_lift])
  | notDirectory hp ho => exact hfile (by simp [readSource, hp, ho, attempt_lift])
  | unusable hp ho => exact hfile (by simp [readSource, hp, ho, attempt_lift])
  | notText hp ho ht => exact hfile (by simp [readSource, hp, ho, ht, attempt_lift])
  | undocumented hg hd hf =>
    rw [readRequest, attempt_bind_ok (attempt_readSource hg m)]
    dsimp only
    rw [← decode, hd]
    dsimp only
    rw [hf, if_neg Bool.false_ne_true, attempt_lift, exec_throw]

theorem not_loads_of_refuses (h : Refuses s path r) (m : Machine σ) (es : List (Value × Value)) :
    ¬ Loads s path es := by
  intro hl
  have hboth := (attempt_readRequest_of_loads hl m).symm.trans (attempt_readRequest_of_refuses h m)
  cases hboth

theorem not_loads_of_breaks (h : Breaks s path f) (m : Machine σ) (es : List (Value × Value)) :
    ¬ Loads s path es := by
  intro hl
  have hboth := (attempt_readRequest_of_loads hl m).symm.trans (attempt_readRequest_of_breaks h m)
  cases hboth

theorem not_breaks_of_refuses (h : Refuses s path r) (m : Machine σ) (f : Fault) :
    ¬ Breaks s path f := by
  intro hf
  have hboth := (attempt_readRequest_of_refuses h m).symm.trans (attempt_readRequest_of_breaks hf m)
  cases hboth

/-- A document is a mapping, or it is refused, or it ends the run with a fault. -/
theorem loads_or_refuses_or_breaks (s : Surroundings σ) (path : String) :
    (∃ es, Loads s path es) ∨ (∃ r, Refuses s path r) ∨ ∃ f, Breaks s path f := by
  have htext : ∀ text format, Gives s path text format →
      (∃ es, Loads s path es) ∨ (∃ r, Refuses s path r) ∨ ∃ f, Breaks s path f := by
    intro text format hg
    cases hd : decode text format with
    | ok v =>
      by_cases hv : ∃ es, v = .map es
      · obtain ⟨es, rfl⟩ := hv
        exact Or.inl ⟨es, text, format, hg, hd⟩
      · exact Or.inr (Or.inl ⟨_, .otherValue hg hd (fun es he => hv ⟨es, he⟩)⟩)
    | error f =>
      cases hf : isMalformed f with
      | true => exact Or.inr (Or.inl ⟨_, .malformed hg hd hf⟩)
      | false => exact Or.inr (Or.inr ⟨f, .undocumented hg hd hf⟩)
  by_cases hp : path = "-"
  · subst hp
    exact htext s.input none .input
  · cases ho : s.files path with
    | ok bs =>
      cases ht : Text.decodeUtf8? bs with
      | some t => exact htext _ _ (.file hp ho ht)
      | none => exact Or.inr (Or.inr ⟨_, .notText hp ho ht⟩)
    | error e =>
      cases e with
      | missing => exact Or.inr (Or.inl ⟨_, .missing hp ho⟩)
      | directory => exact Or.inr (Or.inr ⟨_, .directory hp ho⟩)
      | notDirectory => exact Or.inr (Or.inr ⟨_, .notDirectory hp ho⟩)
      | unusable => exact Or.inr (Or.inr ⟨_, .unusable hp ho⟩)

/-! ### Runs -/

/-- Where a provider is there and no hook is named, the end of a run hangs on the document alone
unless it is a mapping. A fault gets out exactly if the document breaks. If it does not, it is
refused: the status is two, there is one line about the error, and nothing is printed. Whichever of
the two it is, all that ran was on the way to the provider: properties were read, and the provider
was made by one call if what was found stands for what it makes. Documents are read here without the
limits that an interpreter sets to the depth of data and to the digits of a number. -/
theorem documents_are_refused_unless_they_break {arguments : List String} {o : Options}
    {config : Config} {root : Value} (ho : Options.ofArguments arguments = .ok o)
    (ht : o.transform = none) (hc : Config.ofEnvironment s.environment = .ok config)
    (hp : (attempt (loadProvider s o.provider) m).1 = .ok (.ok root))
    (hno : ∀ es, ¬ Loads s o.request es) :
    (∀ f, (exec (run s arguments) m).1 = .error f ↔ Breaks s o.request f) ∧
    ((∀ f, ¬ Breaks s o.request f) → ∃ r, Refuses s o.request r ∧
      (exec (run s arguments) m).1 = .ok ⟨2, "", ["Error: " ++ r.message]⟩) ∧
    (exec (run s arguments) m).2 = (attempt (loadProvider s o.provider) m).2 ∧
    ∃ reads, (exec (run s arguments) m).2.events = m.events ++ reads ++ making s o.provider m ∧
      ∀ e ∈ reads, e.isRead = true := by
  obtain ⟨m₁, hp⟩ : ∃ m₁, attempt (loadProvider s o.provider) m = (.ok (.ok root), m₁) :=
    ⟨_, exec_eq_of_ok hp⟩
  have hprepare : attempt (prepare s o) m = attempt (do
      let request ← readRequest s o.request
      return ⟨root, none, request⟩) m₁ := by
    have htransform : loadTransform s o.transform = pure none := by
      rw [loadTransform, ht]
      rfl
    rw [prepare, attempt_bind_ok hp, htransform, pure_bind]
  have hbreaks : ∀ f, Breaks s o.request f → exec (run s arguments) m = (.error f, m₁) := by
    intro f hf
    rw [exec_run ho hc, hprepare, attempt_bind_fault (attempt_readRequest_of_breaks hf m₁)]
  have hrefuses : ∀ r, Refuses s o.request r →
      exec (run s arguments) m = (.ok (Outcome.refused r), m₁) := by
    intro r hr
    rw [exec_run ho hc, hprepare, attempt_bind_refused (attempt_readRequest_of_refuses hr m₁)]
  have hreads : ∃ reads, m₁.events = m.events ++ reads ++ making s o.provider m ∧
      ∀ e ∈ reads, e.isRead = true := by
    obtain ⟨reads, he, hr⟩ := events_loadProvider s o.provider m
    rw [hp] at he
    exact ⟨reads, he, hr⟩
  rcases loads_or_refuses_or_breaks s o.request with ⟨es, hl⟩ | ⟨r, hr⟩ | ⟨f, hf⟩
  · exact (hno es hl).elim
  · rw [hrefuses r hr, hp]
    refine ⟨?_, fun _ => ⟨r, hr, rfl⟩, rfl, hreads⟩
    intro f
    constructor
    · intro h
      cases h
    · intro hf
      exact (not_breaks_of_refuses hr m₁ f hf).elim
  · rw [hbreaks f hf, hp]
    refine ⟨?_, fun h => (h f hf).elim, rfl, hreads⟩
    intro f'
    constructor
    · intro h
      obtain rfl := Except.error.inj h
      exact hf
    · intro hf'
      rw [← hbreaks f hf, hbreaks f' hf']

/-- A notebook in the module `sample`, with one file under all paths, and text on the input. -/
def notebookSurroundings (file : Except PathFault (List UInt8)) (input : String) :
    Surroundings Store :=
  ⟨Sample.world.host, [("sample", Sample.values)], [], fun _ => file, input⟩

/-- A file that is not text and a directory end the run, though the provider is there. -/
theorem file_of_no_text_breaks :
    (attempt (loadProvider (notebookSurroundings (.ok [0xFF]) "") "sample:notebook")
      World.initial).1 = .ok (.ok (.object "notebook")) ∧
    (∀ es, ¬ Loads (notebookSurroundings (.ok [0xFF]) "") "request.json" es) ∧
    (exec (run (notebookSurroundings (.ok [0xFF]) "") ["request.json", "-p", "sample:notebook"])
      World.initial).1 = .error .badEncoding ∧
    (exec (run (notebookSurroundings (.error .directory) "") [".", "-p", "sample:notebook"])
      World.initial).1 = .error .isDirectory := by
  have hb : Breaks (notebookSurroundings (.ok [0xFF]) "") "request.json" .badEncoding :=
    .notText (by decide) rfl (by decide)
  exact ⟨by decide +kernel, not_loads_of_breaks hb World.initial, by decide +kernel,
    by decide +kernel⟩

/-- A list on the input is refused, and a directory is not. -/
theorem list_is_refused_and_directory_breaks :
    (∃ r, Refuses (notebookSurroundings (.error .directory) "[1]") "-" r ∧
      (exec (run (notebookSurroundings (.error .directory) "[1]") ["-", "-p", "sample:notebook"])
        World.initial).1 = .ok ⟨2, "", ["Error: " ++ r.message]⟩) ∧
    (exec (run (notebookSurroundings (.error .directory) "[1]") [".", "-p", "sample:notebook"])
      World.initial).1 = .error .isDirectory := by
  have hd : decode "[1]" none = .ok (.list [.int 1]) := by decide +kernel
  have hlist : Refuses (notebookSurroundings (.error .directory) "[1]") "-" .notAMapping :=
    .otherValue .input hd (by simp)
  have hdirectory : Breaks (notebookSurroundings (.error .directory) "[1]") "." .isDirectory :=
    .directory (by decide) rfl
  have hc : Config.ofEnvironment (notebookSurroundings (.error .directory) "[1]").environment =
      .ok ⟨Level.warning, .json⟩ := by decide +kernel
  have hp : (attempt (loadProvider (notebookSurroundings (.error .directory) "[1]")
      "sample:notebook") World.initial).1 = .ok (.ok (.object "notebook")) := by decide +kernel
  constructor
  · have ho : Options.ofArguments ["-", "-p", "sample:notebook"] =
        .ok ⟨"-", "sample:notebook", none, none, false⟩ := rfl
    obtain ⟨-, hrefused, -⟩ := documents_are_refused_unless_they_break ho rfl hc hp
      (not_loads_of_refuses hlist World.initial)
    exact hrefused (not_breaks_of_refuses hlist World.initial)
  · have ho : Options.ofArguments [".", "-p", "sample:notebook"] =
        .ok ⟨".", "sample:notebook", none, none, false⟩ := rfl
    obtain ⟨hbreaks, -⟩ := documents_are_refused_unless_they_break ho rfl hc hp
      (not_loads_of_breaks hdirectory World.initial)
    exact (hbreaks .isDirectory).mpr hdirectory

end CallTree.CommandLine
