import CallTree.Proofs.Document.Toml.Headers
import CallTree.Proofs.Document.Toml.Tables

/-! How a document grows while the rows of a text are read. -/
namespace CallTree.Toml

variable {T : String → Prop} {t u : List Char} {d d' d'' : Document} {p q P P' : List String}
  {k : String} {ks ks' : List String} {ps ps' : List (List String)} {es : Entries}

/-! ### Texts of rows -/

theorem Spells.append {rows rows' : List Row} (h : Spells rows t) (h' : Spells rows' u) :
    Spells (rows ++ rows') (t ++ u) := by
  induction h with
  | nil => exact h'
  | blank h ih => exact .blank ih
  | row l h ih =>
    rw [List.append_assoc, List.cons_append, List.cons_append]
    exact .row l ih

theorem applyAll_append (rows rows' : List Row) (d : Document) :
    applyAll (rows ++ rows') d = (applyAll rows d >>= applyAll rows') := by
  induction rows generalizing d with
  | nil => rfl
  | cons l rows ih =>
    rw [List.cons_append, applyAll, applyAll]
    cases l.apply d with
    | error f => rfl
    | ok d => exact ih d

/-- The rows that a text is written from take a document to another one. -/
def Adds (t : List Char) (d d' : Document) : Prop :=
  ∃ rows, Spells rows t ∧ (∀ l ∈ rows, l.IsClean) ∧ applyAll rows d = .ok d'

namespace Adds

theorem nil (d : Document) : Adds [] d d := ⟨[], .nil, by simp, rfl⟩

theorem append (h : Adds t d d') (h' : Adds u d' d'') : Adds (t ++ u) d d'' := by
  obtain ⟨rows, ht, hc, ha⟩ := h
  obtain ⟨rows', hu, hc', ha'⟩ := h'
  refine ⟨rows ++ rows', ht.append hu, fun l hl => ?_, ?_⟩
  · obtain hl | hl := List.mem_append.mp hl
    · exact hc l hl
    · exact hc' l hl
  · rw [applyAll_append, ha]
    exact ha'

theorem blank (h : Adds t d d') : Adds ('\n' :: t) d d' := by
  obtain ⟨rows, ht, h⟩ := h
  exact ⟨rows, .blank ht, h⟩

theorem lineEnd (d : Document) : Adds ['\n'] d d := (nil d).blank

theorem row {l : Row} (hl : l.IsClean) (h : l.apply d = .ok d') :
    Adds (l.chars ++ ['\n']) d d' := by
  refine ⟨[l], .row l .nil, by simpa using hl, ?_⟩
  rw [applyAll, h]
  rfl

theorem read (h : Adds t Document.empty d) : Toml.read t = .ok d.root := by
  obtain ⟨rows, ht, hc, ha⟩ := h
  rw [read_spells ht hc, ha]
  rfl

end Adds

/-! ### Entries of one table -/

/-- What holds of a document while it is read. -/
structure Sound (T : String → Prop) (d : Document) : Prop where
  root : placeAt [] d.root = some .table
  implied : ∀ name ∈ d.implied, T name

theorem Sound.exists_map (h : Sound T d) : ∃ es, d.root = .map es := by
  have hr := h.root
  match hv : d.root with
  | .map es => exact ⟨es, rfl⟩
  | .list xs =>
    rw [hv] at hr
    simp only [placeAt, find?, placeOf, Option.map_some] at hr
    split at hr <;> cases hr
  | .null | .bool _ | .int _ | .float _ | .str _ | .bytes _ | .moment _ | .function _ | .error _
  | .tuple _ | .set _ | .object _ =>
    rw [hv] at hr
    cases hr

theorem sound_empty (T : String → Prop) : Sound T Document.empty := by
  refine ⟨rfl, fun name hn => ?_⟩
  cases hn

/-- The table at `p` has these keys afterwards, and nothing has changed elsewhere. -/
structure Sets (p ks : List String) (d d' : Document) : Prop where
  there : ∀ k ∈ ks, placeAt (p ++ [k]) d'.root ≠ none
  same : ∀ q, (∀ k ∈ ks, ¬p ++ [k] <+: q) → placeAt q d'.root = placeAt q d.root

theorem name_prefix_iff {a b : String} : p ++ [a] <+: p ++ [b] ↔ a = b := by
  simp [List.prefix_append_right_inj]

theorem concat_not_above (hq : q <+: p) (k : String) : ¬p ++ [k] <+: q := by
  intro h
  have hlen := (h.trans hq).length_le
  rw [List.length_append, List.length_singleton] at hlen
  omega

namespace Sets

theorem refl (p : List String) (d : Document) : Sets p [] d d := ⟨by simp, fun _ _ => rfl⟩

theorem trans (h : Sets p ks d d') (h' : Sets p ks' d' d'') : Sets p (ks ++ ks') d d'' := by
  refine ⟨fun k hk => ?_, fun q hq => ?_⟩
  · by_cases hk' : k ∈ ks'
    · exact h'.there k hk'
    · rw [h'.same (p ++ [k]) fun x hx he => hk' (name_prefix_iff.mp he ▸ hx)]
      exact h.there k ((List.mem_append.mp hk).resolve_right hk')
  · rw [h'.same q fun k hk => hq k (List.mem_append_right ks hk),
      h.same q fun k hk => hq k (List.mem_append_left ks' hk)]

theorem above (h : Sets p ks d d') (hq : q <+: p) : placeAt q d'.root = placeAt q d.root :=
  h.same q fun k _ => concat_not_above hq k

theorem isOpen (h : Sets p ks d d') (ho : Open p d.root) : Open p d'.root :=
  fun q hq => h.above hq ▸ ho q hq

theorem none (h : Sets p ks d d') (hk : k ∉ ks) (hn : placeAt (p ++ [k]) d.root = none) :
    placeAt (p ++ [k]) d'.root = none := by
  rw [h.same (p ++ [k]) fun x hx he => hk (name_prefix_iff.mp he ▸ hx), hn]

end Sets

/-- A text that adds keys to the table at `p`, in documents where `C` holds. -/
def AddsKeys (T : String → Prop) (C : Document → Prop) (p ks : List String) (t : List Char) :
    Prop :=
  ∀ d, C d → Sound T d → (∀ k ∈ ks, placeAt (p ++ [k]) d.root = none) →
    ∃ d', Adds t d d' ∧ C d' ∧ Sound T d' ∧ Sets p ks d d'

theorem AddsKeys.nil {C : Document → Prop} (p : List String) : AddsKeys T C p [] [] :=
  fun d hc hs _ => ⟨d, .nil d, hc, hs, .refl p d⟩

theorem AddsKeys.append {C : Document → Prop} (h : AddsKeys T C p ks t) (h' : AddsKeys T C p ks' u)
    (hd : ks.Disjoint ks') : AddsKeys T C p (ks ++ ks') (t ++ u) := by
  intro d hc hs hfree
  obtain ⟨d', ha, hc, hs, hset⟩ := h d hc hs fun k hk => hfree k (List.mem_append_left ks' hk)
  obtain ⟨d'', ha', hc, hs, hset'⟩ := h' d' hc hs fun k hk =>
    hset.none (fun hk' => hd hk' hk) (hfree k (List.mem_append_right ks hk))
  exact ⟨d'', ha.append ha', hc, hs, hset.trans hset'⟩

/-- The table at `p` is the one that lines add to. -/
def AtTable (p : List String) (d : Document) : Prop :=
  ∃ es, Leads d.position p d.root (.map es)

theorem AtTable.isOpen (h : AtTable p d) : Open p d.root := by
  obtain ⟨es, h⟩ := h
  exact h.isOpen fun hf => by cases hf

/-- The line of an entry with a new key. -/
theorem addsKeys_line {x : Inline} (h : (Row.entry k x).IsClean) (p : List String) :
    AddsKeys T (AtTable p) p [k] ((Row.entry k x).chars ++ ['\n']) := by
  rintro d ⟨es, hl⟩ hs hfree
  have hget : Dict.get? (.str k) es = none := by
    have hn := hfree k List.mem_cons_self
    rw [hl.placeAt_name rfl] at hn
    exact Option.map_eq_none_iff.mp hn
  have hc : Dict.contains (.str k) es = false := by rw [Dict.contains, hget]; rfl
  have hhere : d.here = .map es := hl.valueAt
  have happly : (Row.entry k x).apply d =
      .ok (d.set (.map (Dict.insert (.str k) x.toValue es))) := by
    rw [Row.apply, hhere, add, hc]
    rfl
  have hplace : ∀ q, placeAt q (d.set (.map (Dict.insert (.str k) x.toValue es))).root =
      if p ++ [k] <+: q then placeAt (q.drop (p.length + 1)) x.toValue else placeAt q d.root :=
    placeAt_put hl k x.toValue
  refine ⟨_, .row h happly, ⟨_, hl.put k x.toValue⟩, ⟨?_, hs.implied⟩, ⟨?_, fun q hq => ?_⟩⟩
  · rw [hplace, if_neg (concat_not_above (List.nil_prefix) k), hs.root]
  · intro k' hk'
    obtain rfl := List.mem_singleton.mp hk'
    have hdrop : (p ++ [k']).drop (p.length + 1) = [] := List.drop_eq_nil_of_le (by simp)
    rw [hplace, if_pos (List.prefix_refl _), hdrop]
    exact Option.some_ne_none _
  · rw [hplace, if_neg (hq k List.mem_cons_self)]

/-! ### Tables -/

/-- Nothing is below the new paths but what is above them: what is missing there is a table now. -/
def Grows (ps : List (List String)) (d d' : Document) : Prop :=
  ∀ q, (∀ P ∈ ps, ¬P <+: q) → placeAt q d'.root = placeAt q d.root ∨
    placeAt q d.root = none ∧ placeAt q d'.root = some .table ∧ ∃ P ∈ ps, q <+: P

namespace Grows

theorem refl (ps : List (List String)) (d : Document) : Grows ps d d := fun _ _ => .inl rfl

theorem ne_none (h : Grows ps d d') (hq : ∀ P ∈ ps, ¬P <+: q) (hn : placeAt q d.root ≠ none) :
    placeAt q d'.root ≠ none := by
  obtain he | ⟨hn', -⟩ := h q hq
  · rwa [he]
  · exact absurd hn' hn

theorem same (h : Grows ps d d') (hq : ∀ P ∈ ps, ¬P <+: q) (hn : placeAt q d.root ≠ none) :
    placeAt q d'.root = placeAt q d.root := by
  obtain he | ⟨hn', -⟩ := h q hq
  · exact he
  · exact absurd hn' hn

theorem none (h : Grows ps d d') (hq : ∀ P ∈ ps, ¬P <+: q) (hq' : ∀ P ∈ ps, ¬q <+: P)
    (hn : placeAt q d.root = none) : placeAt q d'.root = none := by
  obtain he | ⟨-, -, P, hP, hqP⟩ := h q hq
  · rw [he, hn]
  · exact absurd hqP (hq' P hP)

theorem ne_leaf (h : Grows ps d d') (hq : ∀ P ∈ ps, ¬P <+: q) (hn : placeAt q d.root ≠ some .leaf) :
    placeAt q d'.root ≠ some .leaf := by
  obtain he | ⟨-, ht, -⟩ := h q hq
  · rwa [he]
  · rw [ht]
    decide

theorem of_none (h : Grows ps d d') (hq : ∀ P ∈ ps, ¬P <+: q)
    (hn : placeAt q d'.root = Option.none) :
    placeAt q d.root = Option.none := by
  obtain he | ⟨hn', -⟩ := h q hq
  · rw [← he, hn]
  · exact hn'

/-- Paths may be replaced by paths above them. -/
theorem trans (h : Grows ps d d') (h' : Grows ps' d' d'')
    (hps : ∀ P ∈ ps', ∃ P' ∈ ps, P' <+: P) : Grows ps d d'' := by
  intro q hq
  have hq' : ∀ P ∈ ps', ¬P <+: q := by
    intro P hP hPq
    obtain ⟨P', hP', hle⟩ := hps P hP
    exact hq P' hP' (hle.trans hPq)
  obtain he | ⟨hn, ht, hex⟩ := h q hq
  · obtain he' | ⟨hn', ht', P, hP, hqP⟩ := h' q hq'
    · exact .inl (he'.trans he)
    · obtain ⟨P', hP', hle⟩ := hps P hP
      have hqP' := (List.prefix_or_prefix_of_prefix hqP hle).resolve_right (hq P' hP')
      exact .inr ⟨he ▸ hn', ht', P', hP', hqP'⟩
  · refine .inr ⟨hn, ?_, hex⟩
    rw [h'.same hq' (by rw [ht]; exact Option.some_ne_none _), ht]

theorem append (h : Grows ps d d') (h' : Grows ps' d' d'') : Grows (ps ++ ps') d d'' := by
  intro q hq
  have hl : ∀ P ∈ ps, ¬P <+: q := fun P hP => hq P (List.mem_append_left ps' hP)
  have hr : ∀ P ∈ ps', ¬P <+: q := fun P hP => hq P (List.mem_append_right ps hP)
  obtain he | ⟨hn, ht, P, hP, hqP⟩ := h q hl
  · obtain he' | ⟨hn', ht', P, hP, hqP⟩ := h' q hr
    · exact .inl (he'.trans he)
    · exact .inr ⟨he ▸ hn', ht', P, List.mem_append_right ps hP, hqP⟩
  · refine .inr ⟨hn, ?_, P, List.mem_append_left ps' hP, hqP⟩
    rw [h'.same hr (by rw [ht]; exact Option.some_ne_none _), ht]

/-- Nothing changes but below a path that is there and above all the new ones. -/
theorem below (h : Grows ps d d') (hps : ∀ P' ∈ ps, P <+: P') (hP : placeAt P d.root ≠ Option.none)
    (hq : ¬P <+: q) : placeAt q d'.root = placeAt q d.root := by
  obtain he | ⟨hn, -, P', hP', hqP'⟩ := h q fun P' hP' hle => hq ((hps P' hP').trans hle)
  · exact he
  · have hqP := (List.prefix_or_prefix_of_prefix hqP' (hps P' hP')).resolve_right hq
    exact absurd (placeAt_extended hn hqP) hP

theorem sound (h : Grows ps d d') (hps : [] ∉ ps) (hs : Sound T d)
    (hi : ∀ name ∈ d'.implied, T name) : Sound T d' := by
  refine ⟨?_, hi⟩
  rw [h.same (fun P hP he => hps (List.prefix_nil.mp he ▸ hP)) ?_, hs.root]
  rw [hs.root]
  exact Option.some_ne_none _

end Grows

end CallTree.Toml
