import CallTree.Proofs.Document.Toml.Growth

/-! Tables in tables: their headers and sections, level by level. -/
namespace CallTree.Toml

variable {T : String → Prop} {t u : List Char} {d d' : Document} {p q P : List String} {k : String}
  {ps : List (List String)} {es : Entries} {s : Section} {shown : Prop}

/-! ### Headers -/

/-- A path where a header can make a table. -/
structure Free (T : String → Prop) (P : List String) (d : Document) : Prop where
  none : placeAt P d.root = none
  passable : ∀ q, q <+: P → placeAt q d.root ≠ some .leaf
  named : ∀ q name, q ++ [name] <+: P → placeAt (q ++ [name]) d.root = Option.none → T name

theorem Free.of_grows (h : Free T P d) (hg : Grows ps d d')
    (hps : ∀ P' ∈ ps, ¬P' <+: P ∧ ¬P <+: P') : Free T P d' := by
  have hq : ∀ q, q <+: P → ∀ P' ∈ ps, ¬P' <+: q :=
    fun q hq P' hP' hle => (hps P' hP').1 (hle.trans hq)
  refine ⟨?_, fun q hqP => hg.ne_leaf (hq q hqP) (h.passable q hqP), fun q name hqP hn => ?_⟩
  · exact hg.none (fun P' hP' => (hps P' hP').1) (fun P' hP' => (hps P' hP').2) h.none
  · exact h.named q name hqP (hg.of_none (hq _ hqP) hn)

/-- A name more, behind a path that is free or leads to a table. -/
theorem free_child (hk : T k) (hn : placeAt (P ++ [k]) d.root = none)
    (hpass : ∀ q, q <+: P → placeAt q d.root ≠ some .leaf)
    (hname : ∀ q name, q ++ [name] <+: P → placeAt (q ++ [name]) d.root = none → T name) :
    Free T (P ++ [k]) d := by
  refine ⟨hn, fun q hq => ?_, fun q name hq hqn => ?_⟩
  · obtain rfl | hq := List.prefix_concat_iff.mp hq
    · rw [hn]
      exact nofun
    · exact hpass q hq
  · obtain he | hq := List.prefix_concat_iff.mp hq
    · obtain ⟨-, rfl⟩ := List.append_singleton_inj.mp he
      exact hk
    · exact hname q name hq hqn

theorem adds_header (hP : P ≠ []) (hn : ∀ k ∈ P, IsName k) (hf : Free T P d) (hs : Sound T d) :
    ∃ d', Adds (header (pathText P)) d d' ∧ Sound T d' ∧ Leads d'.position P d'.root (.map []) ∧
      Grows [P] d d' := by
  obtain ⟨es, hroot⟩ := hs.exists_map
  obtain ⟨d', hd, hl, hfill, himp⟩ := Document.enterAll_table (d := { d with position := [] }) hP
    (fun k hk => (hn k hk).1) (.here _) (congrArg openTable hroot) hf.none hf.passable
  have hadds := Adds.row (l := .table P) ⟨hP, hn⟩ hd
  have hgrows : Grows [P] d d' := by
    intro q hq
    have hqP := hq P List.mem_cons_self
    rw [hfill, Document.filled]
    split
    · next h => exact .inr ⟨h.2, rfl, P, List.mem_cons_self, h.1⟩
    · exact .inl rfl
  refine ⟨d', ?_, hgrows.sound (by simpa using hP.symm) hs fun name hname => ?_, hl, hgrows⟩
  · simpa [header, Row.chars] using hadds
  · obtain hname | ⟨q, hq, -, hnone⟩ := himp name hname
    · exact hs.implied name hname
    · exact hf.named q name hq hnone

/-- The header of an array of tables, which has one table more then. -/
theorem adds_arrayHeader (hn : ∀ x ∈ p ++ [k], IsName x) (hk : ¬T k) (ho : Open p d.root)
    (hs : Sound T d)
    (hlast : placeAt (p ++ [k]) d.root = none ∨ placeAt (p ++ [k]) d.root = some .array) :
    ∃ d', Adds (header ('[' :: pathText (p ++ [k]) ++ [']'])) d d' ∧ Sound T d' ∧
      Leads d'.position (p ++ [k]) d'.root (.map []) ∧
      placeAt (p ++ [k]) d'.root = some .array ∧
      ∀ q, ¬p ++ [k] <+: q → placeAt q d'.root = placeAt q d.root := by
  obtain ⟨es, hroot⟩ := hs.exists_map
  have hne : ∀ x ∈ p, x ≠ "" := fun x hx => (hn x (List.mem_append_left _ hx)).1
  have hstart : Leads [] [] d.root (.map es) := hroot ▸ Leads.here d.root
  obtain ⟨d', hd, hl, harray, hsame, himp⟩ := Document.enterAll_array
    (d := { d with position := [] }) hne (hn k (by simp)).1 hstart ho
    (hlast.imp_right fun h => ⟨h, fun hi => hk (hs.implied k hi)⟩)
  have hadds := Adds.row (l := .array (p ++ [k])) ⟨by simp, hn⟩ hd
  refine ⟨d', ?_, ⟨?_, fun name hname => hs.implied name (himp ▸ hname)⟩, hl, harray, hsame⟩
  · simpa [header, Row.chars] using hadds
  · rw [hsame [] (by simp), hs.root]

/-! ### One table -/

/-- The section of a table at `P`: the tables in it are left for later, and the rest is read. -/
structure SectionOk (T : String → Prop) (P : List String) (es : Entries) (s : Section) : Prop where
  tables : s.tables = (tablesIn es).map fun t => (nameText t.1, t.2)
  adds : ∀ d, Leads d.position P d.root (.map []) → Sound T d → ∃ d', Adds s.text d d' ∧
    Sound T d' ∧ Sets P (keysOf .line es ++ keysOf .array es) d d'

/-- A text that leaves room for the tables in the table at `P`, which is there then if it is
shown. -/
def Visits (T : String → Prop) (P : List String) (es : Entries) (shown : Prop) (t : List Char) :
    Prop :=
  ∀ d, Free T P d → Sound T d → ∃ d', Adds t d d' ∧ Sound T d' ∧ Grows [P] d d' ∧
    (∀ k ∈ keysOf .table es, Free T (P ++ [k]) d') ∧ (shown → placeAt P d'.root ≠ none)

theorem IsTable.named (h : IsTable T es) (hk : k ∈ keysOf .table es) : T k := by
  obtain ⟨v, hv, hr⟩ := mem_keysOf.mp hk
  match v with
  | .map sub => exact (h.isTable hv).2.1
  | .null | .bool _ | .int _ | .float _ | .str _ => cases hr
  | .list xs =>
    rw [role] at hr
    split at hr <;> cases hr

theorem visits_nil (h : IsTable T es) (hs : ¬shown) : Visits T P es shown [] := by
  intro d hf hd
  refine ⟨d, .nil d, hd, .refl _ d, fun k hk => ?_, fun h => absurd h hs⟩
  exact free_child (h.named hk) (placeAt_extended hf.none (List.prefix_append P [k])) hf.passable
    hf.named

/-- There is room for tables in a table that has got other keys only. -/
theorem free_of_sets (h : IsTable T es) (hl : Leads d.position P d.root (.map []))
    (hset : Sets P (keysOf .line es ++ keysOf .array es) d d') (hk : k ∈ keysOf .table es) :
    Free T (P ++ [k]) d' := by
  have ho : Open P d.root := hl.isOpen fun hf => by cases hf
  have hk' : k ∉ keysOf .line es ++ keysOf .array es := fun hm =>
    (List.mem_append.mp hm).elim (not_mem_keysOf h.nodup (by decide) hk)
      (not_mem_keysOf h.nodup (by decide) hk)
  refine free_child (h.named hk) (hset.none hk' (hl.placeAt_name rfl k)) (fun q hq => ?_)
    fun q name hq hqn => ?_
  · rw [hset.above hq]
    exact ho.ne_leaf hq
  · rw [hset.above hq] at hqn
    exact absurd hqn (ho.ne_none hq)

theorem visits_section (h : IsTable T es) (hP : P ≠ []) (hn : ∀ k ∈ P, IsName k)
    (hs : SectionOk T P es s) (shown : Prop) :
    Visits T P es shown (header (pathText P) ++ s.text) := by
  intro d hf hd
  obtain ⟨d₁, ha, hd₁, hl, hg⟩ := adds_header hP hn hf hd
  obtain ⟨d₂, ha', hd₂, hset⟩ := hs.adds d₁ hl hd₁
  have hg' : Grows [P] d d₂ := by
    intro q hq
    have hsame : placeAt q d₂.root = placeAt q d₁.root := hset.same q fun k _ hk =>
      hq P List.mem_cons_self ((List.prefix_append P [k]).trans hk)
    rw [hsame]
    exact hg q hq
  refine ⟨d₂, ha.append ha', hd₂, hg', fun k hk => free_of_sets h hl hset hk, fun _ => ?_⟩
  rw [hset.above (List.prefix_refl P)]
  exact hl.placeAt_ne_none (List.prefix_refl P)

theorem Visits.blank (h : Visits T P es shown t) : Visits T P es shown ('\n' :: t) := by
  intro d hf hd
  obtain ⟨d', ha, h⟩ := h d hf hd
  exact ⟨d', ha.blank, h⟩

/-! ### The tables of one level -/

/-- Tables with their paths. -/
abbrev Tables := List (List String × Entries)

/-- Tables at different paths of the same length. -/
structure Level (T : String → Prop) (n : Nat) (ts : Tables) : Prop where
  length : ∀ x ∈ ts, x.1.length = n
  nodup : (ts.map (·.1)).Nodup
  isName : ∀ x ∈ ts, ∀ k ∈ x.1, IsName k
  isTable : ∀ x ∈ ts, IsTable T x.2

/-- The tables in these tables. -/
def deeper (ts : Tables) : Tables :=
  ts.flatMap fun x => (tablesIn x.2).map fun t => (x.1 ++ [t.1], t.2)

/-- A text that leaves room for the tables in the tables of a level. -/
def Walks (T : String → Prop) (p : List String) (ts : Tables) (shown : Entries → Prop)
    (t : List Char) : Prop :=
  ∀ d, (∀ x ∈ ts, Free T (p ++ x.1) d) → Sound T d → ∃ d', Adds t d d' ∧ Sound T d' ∧
    Grows (ts.map (p ++ ·.1)) d d' ∧ (∀ x ∈ deeper ts, Free T (p ++ x.1) d') ∧
    ∀ x ∈ ts, shown x.2 → placeAt (p ++ x.1) d'.root ≠ none

variable {ts : Tables} {x : List String × Entries} {n : Nat} {shown : Entries → Prop}

theorem mem_deeper {y : List String × Entries} : y ∈ deeper ts ↔
    ∃ x ∈ ts, ∃ k, (k, y.2) ∈ tablesIn x.2 ∧ y.1 = x.1 ++ [k] := by
  rw [deeper, List.mem_flatMap]
  constructor
  · rintro ⟨x, hx, hy⟩
    obtain ⟨⟨k, sub⟩, ht, rfl⟩ := List.mem_map.mp hy
    exact ⟨x, hx, k, ht, rfl⟩
  · rintro ⟨x, hx, k, ht, hy⟩
    exact ⟨x, hx, List.mem_map.mpr ⟨_, ht, Prod.ext hy.symm rfl⟩⟩

namespace Level

theorem tail (h : Level T n (x :: ts)) : Level T n ts :=
  ⟨fun y hy => h.length y (List.mem_cons_of_mem x hy), (List.nodup_cons.mp h.nodup).2,
    fun y hy => h.isName y (List.mem_cons_of_mem x hy),
    fun y hy => h.isTable y (List.mem_cons_of_mem x hy)⟩

/-- Tables of a level are not in each other. -/
theorem apart (h : Level T n (x :: ts)) {y : List String × Entries} (hy : y ∈ ts) :
    ¬x.1 <+: y.1 ∧ ¬y.1 <+: x.1 := by
  have hne : x.1 ≠ y.1 := fun he =>
    (List.nodup_cons.mp h.nodup).1 (List.mem_map.mpr ⟨y, hy, he.symm⟩)
  have hlen : x.1.length = y.1.length :=
    (h.length x List.mem_cons_self).trans (h.length y (List.mem_cons_of_mem x hy)).symm
  exact ⟨fun hp => hne (hp.eq_of_length hlen), fun hp => hne (hp.eq_of_length hlen.symm).symm⟩

theorem ne_nil (h : Level T (n + 1) ts) (hx : x ∈ ts) : x.1 ≠ [] := by
  intro he
  have hl := h.length x hx
  rw [he] at hl
  cases hl

theorem deeper (h : Level T n ts) : Level T (n + 1) (deeper ts) := by
  refine ⟨fun y hy => ?_, ?_, fun y hy k hk => ?_, fun y hy => ?_⟩
  · obtain ⟨x, hx, k, -, he⟩ := mem_deeper.mp hy
    rw [he, List.length_append, h.length x hx]
    rfl
  · induction ts with
    | nil => exact List.nodup_nil
    | cons x ts ih =>
      have hmap : (Toml.deeper (x :: ts)).map (·.1) =
          (tablesIn x.2).map (x.1 ++ [·.1]) ++ (Toml.deeper ts).map (·.1) := by
        simp [Toml.deeper]
      have hown : ((tablesIn x.2).map (x.1 ++ [·.1])).Nodup := by
        have hk := nodup_keysOf (h.isTable x List.mem_cons_self).nodup .table
        rw [← keys_tablesIn] at hk
        have hinj := hk.map (f := fun k => x.1 ++ [k]) fun a b he => by simpa using he
        rwa [List.map_map] at hinj
      rw [hmap]
      refine hown.append (ih h.tail) fun q hq hq' => ?_
      obtain ⟨t, -, rfl⟩ := List.mem_map.mp hq
      obtain ⟨y, hy, he⟩ := List.mem_map.mp hq'
      obtain ⟨z, hz, k, -, he'⟩ := mem_deeper.mp hy
      have hxz := (List.append_inj_left' (he'.symm.trans he) rfl)
      exact (h.apart hz).2 (hxz ▸ List.prefix_refl _)
  · obtain ⟨x, hx, k', ht, he⟩ := mem_deeper.mp hy
    rw [he] at hk
    obtain hk | hk := List.mem_append.mp hk
    · exact h.isName x hx k hk
    · obtain rfl := List.mem_singleton.mp hk
      exact ((h.isTable x hx).isTable (mem_tablesIn.mp ht)).1
  · obtain ⟨x, hx, k, ht, -⟩ := mem_deeper.mp hy
    exact ((h.isTable x hx).isTable (mem_tablesIn.mp ht)).2.2

end Level

theorem walks_nil : Walks T p [] shown [] := fun d _ hd =>
  ⟨d, .nil d, hd, .refl _ d, by simp [deeper], by simp⟩

/-- The tables of a level are visited one after the other. -/
theorem walks_cons (hl : Level T n (x :: ts)) (hv : Visits T (p ++ x.1) x.2 (shown x.2) t)
    (hw : Walks T p ts shown u) : Walks T p (x :: ts) shown (t ++ u) := by
  intro d hf hd
  obtain ⟨d₁, ha, hd₁, hg, hchild, hshown⟩ := hv d (hf x List.mem_cons_self) hd
  have hfree : ∀ y ∈ ts, Free T (p ++ y.1) d₁ := by
    intro y hy
    refine (hf y (List.mem_cons_of_mem x hy)).of_grows hg fun P hP => ?_
    obtain rfl := List.mem_singleton.mp hP
    simpa only [List.prefix_append_right_inj] using hl.apart hy
  obtain ⟨d₂, ha', hd₂, hg', hchild', hshown'⟩ := hw d₁ hfree hd₁
  refine ⟨d₂, ha.append ha', hd₂, hg.append hg', fun y hy => ?_, fun y hy hs => ?_⟩
  · obtain ⟨z, hz, k, ht, he⟩ := mem_deeper.mp hy
    obtain rfl | hz := List.mem_cons.mp hz
    · have hk : k ∈ keysOf .table z.2 := keys_tablesIn z.2 ▸ List.mem_map_of_mem ht
      rw [he, ← List.append_assoc]
      refine (hchild k hk).of_grows hg' fun P hP => ?_
      obtain ⟨w, hw, rfl⟩ := List.mem_map.mp hP
      simp only [List.append_assoc, List.prefix_append_right_inj]
      refine ⟨fun hp => ?_, fun hp => (hl.apart hw).1 ((List.prefix_append _ _).trans hp)⟩
      obtain he | hp := List.prefix_concat_iff.mp hp
      · have hlen := congrArg List.length he
        rw [List.length_append, hl.length w (List.mem_cons_of_mem z hw),
          hl.length z List.mem_cons_self] at hlen
        simp at hlen
      · exact (hl.apart hw).2 hp
    · exact hchild' y (mem_deeper.mpr ⟨z, hz, k, ht, he⟩)
  · obtain rfl | hy := List.mem_cons.mp hy
    · refine hg'.ne_none (fun P hP => ?_) (hshown hs)
      obtain ⟨w, hw, rfl⟩ := List.mem_map.mp hP
      rw [List.prefix_append_right_inj]
      exact (hl.apart hw).2
    · exact hshown' y hy hs

end CallTree.Toml
