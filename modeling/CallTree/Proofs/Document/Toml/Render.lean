import CallTree.Proofs.Document.Toml.Sections

/-! A table as a document: which of its keys are there when the document is read. -/
namespace CallTree.Toml

variable {T : String → Prop} {d : Document} {es : Entries} {ts : Tables} {bound m levels : Nat}
  {ss : List (List Char × Section)} {k : String}

/-- The sections of a level below the text so far. -/
def joinSections (done : List Char) (ss : List (List Char × Section)) : List Char :=
  ss.foldl (fun done y =>
    if y.2.text = [] ∧ y.2.tables ≠ [] then done
    else
      let gap := if done = [] ∨ (done.reverse.take 2) = ['\n', '\n'] then [] else ['\n']
      done ++ gap ++ header y.1 ++ y.2.text) done

/-- Of the tables of a level those without tables in them are there. -/
theorem AreSections.join (h : AreSections T [] ts ss) (hl : Level T (m + 1) ts) (done : List Char) :
    ∃ t, joinSections done ss = done ++ t ∧ Walks T [] ts (fun es => tablesIn es = []) t := by
  induction h generalizing done with
  | nil => exact ⟨[], (List.append_nil done).symm, walks_nil⟩
  | @cons x y ts ss hxy h ih =>
    have hx := hl.isTable x List.mem_cons_self
    have hvisit : ∃ t, joinSections done (y :: ss) = joinSections (done ++ t) ss ∧
        Visits T x.1 x.2 (tablesIn x.2 = []) t := by
      by_cases hskip : y.2.text = [] ∧ y.2.tables ≠ []
      · refine ⟨[], ?_, visits_nil hx fun he => hskip.2 (by rw [hxy.2.tables, he]; rfl)⟩
        rw [joinSections, List.foldl_cons, if_pos hskip, List.append_nil]
        rfl
      · have hv := visits_section hx (hl.ne_nil List.mem_cons_self)
          (hl.isName x List.mem_cons_self) hxy.2 (tablesIn x.2 = [])
        rw [← hxy.1] at hv
        by_cases hgap : done = [] ∨ (done.reverse.take 2) = ['\n', '\n']
        · refine ⟨_, ?_, hv⟩
          rw [joinSections, List.foldl_cons, if_neg hskip]
          simp [hgap, joinSections]
        · refine ⟨_, ?_, hv.blank⟩
          rw [joinSections, List.foldl_cons, if_neg hskip]
          simp [hgap, joinSections]
    obtain ⟨t, ht, hv⟩ := hvisit
    obtain ⟨u, hu, hw⟩ := ih hl.tail (done ++ t)
    exact ⟨t ++ u, by rw [ht, hu, List.append_assoc], walks_cons hl hv hw⟩

/-- Every table is there in the end, if not by its own header then by that of a table in it. -/
theorem printTables_ok (hl : Level T (m + 1) ts) (hd : ∀ x ∈ ts, entryDepths x.2 < bound)
    (hlevels : ∀ x ∈ ts, entryDepths x.2 < levels) (done : List Char) :
    ∃ t, printTables bound done levels (labelled ts) = .ok (done ++ t) ∧
      ∀ d, (∀ x ∈ ts, Free T x.1 d) → Sound T d → ∃ d', Adds t d d' ∧ Sound T d' ∧
        Grows (ts.map (·.1)) d d' ∧ ∀ x ∈ ts, placeAt x.1 d'.root ≠ none := by
  induction levels generalizing m ts done with
  | zero =>
    match ts with
    | [] =>
      exact ⟨[], by rw [List.append_nil]; rfl, fun d _ hs => ⟨d, .nil d, hs, .refl _ d, by simp⟩⟩
    | x :: r => exact absurd (hlevels x List.mem_cons_self) (Nat.not_lt_zero _)
  | succ levels ih =>
    match ts with
    | [] =>
      exact ⟨[], by rw [List.append_nil]; rfl, fun d _ hs => ⟨d, .nil d, hs, .refl _ d, by simp⟩⟩
    | x :: r =>
      obtain ⟨ss, hss, hsec⟩ :=
        (printTable_ok (T := T) bound).exists_sections (p := []) (by simp) hl hd
        (f := fun t => do return (t.1, ← printTable bound (t.1 ++ ['.']) t.2)) fun y hy => by
        rw [List.nil_append, ← pathText_point (hl.ne_nil hy)]
        cases printTable bound (pathText y.1 ++ ['.']) y.2 <;> rfl
      obtain ⟨t, ht, hwalk⟩ := hsec.join hl done
      obtain ⟨u, hu, hrun⟩ :=
        ih hl.deeper (entryDepths_deeper fun y hy => (hd y hy).trans (by omega))
        (entryDepths_deeper hlevels) (done ++ t)
      refine ⟨t ++ u, ?_, fun d hf hs => ?_⟩
      · rw [← hsec.collect hl, List.append_assoc] at hu
        rw [printTables]
        · rw [hss, ok_bind, ← hu, ← ht]
          rfl
        · exact List.cons_ne_nil _ _
      · obtain ⟨d₁, ha, hs₁, hg, hfree, hshown⟩ := hwalk d hf hs
        obtain ⟨d₂, ha', hs₂, hg', hthere⟩ := hrun d₁ hfree hs₁
        refine ⟨d₂, ha.append ha', hs₂, hg.trans hg' (exists_above_deeper []), fun y hy => ?_⟩
        by_cases htables : tablesIn y.2 = []
        · refine hg'.ne_none (fun P hP hle => ?_) (hshown y hy htables)
          obtain ⟨z, hz, rfl⟩ := List.mem_map.mp hP
          have hlen := hle.length_le
          rw [hl.deeper.length z hz, hl.length y hy] at hlen
          omega
        · obtain ⟨⟨k, sub⟩, hk⟩ := List.exists_mem_of_ne_nil _ htables
          have hdeep : (y.1 ++ [k], sub) ∈ deeper (x :: r) := mem_deeper.mpr ⟨y, hy, k, hk, rfl⟩
          exact fun hn => hthere _ hdeep (placeAt_extended hn (List.prefix_append _ [k]))

theorem exists_mem_keysOf_iff :
    (∃ v, (k, v) ∈ es ∧ role v ≠ .absent) ↔
      k ∈ keysOf .table es ∨ k ∈ keysOf .line es ++ keysOf .array es := by
  simp only [List.mem_append, mem_keysOf]
  constructor
  · rintro ⟨v, hv, hr⟩
    cases he : role v with
    | absent => exact absurd he hr
    | line => exact .inr (.inl ⟨v, hv, he⟩)
    | array => exact .inr (.inr ⟨v, hv, he⟩)
    | table => exact .inl ⟨v, hv, he⟩
  · rintro (⟨v, hv, he⟩ | ⟨v, hv, he⟩ | ⟨v, hv, he⟩) <;> exact ⟨v, hv, by rw [he]; decide⟩

/-- The keys that are there are those of lines and arrays, and those that headers bring in. -/
theorem key_there_iff {d₁ d₂ : Document}
    (hset : Sets [] (keysOf .line es ++ keysOf .array es) Document.empty d₁)
    (hg : Grows ((inside es).map (·.1)) d₁ d₂)
    (hthere : ∀ x ∈ inside es, placeAt x.1 d₂.root ≠ none) :
    placeAt [k] d₂.root ≠ none ↔ ∃ v, (k, v) ∈ es ∧ role v ≠ .absent := by
  rw [exists_mem_keysOf_iff]
  by_cases hk : k ∈ keysOf .table es
  · refine iff_of_true ?_ (.inl hk)
    rw [← keys_tablesIn] at hk
    obtain ⟨t, ht, rfl⟩ := List.mem_map.mp hk
    exact hthere ([t.1], t.2) (mem_deeper.mpr ⟨_, List.mem_singleton_self _, t.1, ht, rfl⟩)
  · -- the headers of tables leave the other keys alone
    have hapart : ∀ P ∈ (inside es).map (·.1), ¬P <+: [k] ∧ ¬[k] <+: P := by
      intro P hP
      obtain ⟨x, hx, rfl⟩ := List.mem_map.mp hP
      obtain ⟨k', hk', he⟩ := mem_inside hx
      have hne : k' ≠ k := fun he => hk (he ▸ hk')
      simp [he, hne, hne.symm]
    rw [or_iff_right hk]
    constructor
    · intro hplace
      by_contra hm
      have hnone : placeAt [k] d₁.root = none := hset.none (p := []) hm rfl
      exact hplace (hg.none (fun P hP => (hapart P hP).1) (fun P hP => (hapart P hP).2) hnone)
    · exact fun hm => hg.ne_none (fun P hP => (hapart P hP).1) (hset.there k hm)

/-- A table that is read back has all its keys but those of null. -/
theorem render_ok (h : IsTable T es) :
    ∃ text fs, render es = .ok text ∧ read text.toList = .ok (.map fs) ∧
      ∀ k, Dict.contains (.str k) fs = true ↔ ∃ v, (k, v) ∈ es ∧ role v ≠ .absent := by
  have hlt : entryDepths es < entryDepths es + 2 := by omega
  obtain ⟨s, hs, hok⟩ := printTable_ok (entryDepths es + 2) [] es (by simp) h hlt
  have hstart : Leads Document.empty.position [] Document.empty.root (.map []) := .here _
  obtain ⟨d₁, ha₁, hs₁, hset⟩ := hok.adds _ hstart (sound_empty T)
  obtain ⟨t, ht, hrun⟩ := printTables_ok (level_inside h) (entryDepths_inside hlt)
    (entryDepths_inside hlt) s.text
  have hfree : ∀ x ∈ inside es, Free T x.1 d₁ := by
    intro x hx
    obtain ⟨k, hk, he⟩ := mem_inside hx
    exact he ▸ free_of_sets h hstart hset hk
  obtain ⟨d₂, ha₂, hs₂, hg, hthere⟩ := hrun d₁ hfree hs₁
  obtain ⟨fs, hfs⟩ := hs₂.exists_map
  refine ⟨String.ofList (s.text ++ t), fs, ?_, ?_, fun k => ?_⟩
  · have hs' : printTable (entryDepths es + 2) [] es = .ok s := hs
    rw [labelled_inside, ← hok.tables] at ht
    rw [render, hs', ok_bind, ht]
    rfl
  · rw [String.toList_ofList, (ha₁.append ha₂).read, hfs]
  · rw [contains_iff_placeAt, ← hfs]
    exact key_there_iff hset hg hthere

end CallTree.Toml
