import CallTree.Proofs.Document.Toml.Levels

/-! The text of a table, section by section, and what is read from it. -/
namespace CallTree.Toml

variable {T : String → Prop} {d : Document} {p : List String} {k : String} {v : Plain}
  {es : Entries} {ts : Tables} {write : Writer} {n m : Nat} {ss : List (List Char × Section)}

/-! ### The tables of a level -/

/-- What a writer makes of tables that are read back, as far as they are not too deep. -/
def WriterOk (T : String → Prop) (n : Nat) (write : Writer) : Prop :=
  ∀ p es, (∀ k ∈ p, IsName k) → IsTable T es → entryDepths es < n →
    ∃ s, write (frontText p) es = .ok s ∧ SectionOk T p es s

/-- Tables under the texts of their paths. -/
def labelled (ts : Tables) : List (List Char × Entries) := ts.map fun x => (pathText x.1, x.2)

/-- The sections of tables, in order. -/
def AreSections (T : String → Prop) (p : List String) :
    Tables → List (List Char × Section) → Prop :=
  List.Forall₂ fun x y => y.1 = pathText x.1 ∧ SectionOk T (p ++ x.1) x.2 y.2

theorem pathText_concat (hp : p ≠ []) (k : String) :
    pathText (p ++ [k]) = pathText p ++ '.' :: nameText k := by
  rw [← frontText_pathText p (List.cons_ne_nil k []), ← pathText_point hp, pathText_singleton,
    List.append_assoc]
  rfl

theorem Level.nodup_labelled (hl : Level T (m + 1) ts) : ((labelled ts).map (·.1)).Nodup := by
  have hmap : (labelled ts).map (·.1) = (ts.map (·.1)).map pathText := by
    simp [labelled, Function.comp_def]
  rw [hmap]
  refine hl.nodup.map_on fun q hq q' hq' he => ?_
  obtain ⟨x, hx, rfl⟩ := List.mem_map.mp hq
  obtain ⟨y, hy, rfl⟩ := List.mem_map.mp hq'
  exact pathText_injective (hl.isName x hx) (hl.ne_nil hx) (hl.isName y hy) (hl.ne_nil hy) he

/-- The tables in the sections of a level, collected for the next one. -/
theorem AreSections.collect (h : AreSections T p ts ss) (hl : Level T (m + 1) ts) :
    (ss.flatMap fun y => y.2.tables.map fun t => (y.1 ++ '.' :: t.1, t.2)).foldl
      (fun d t => insertTable t.1 t.2 d) [] = labelled (deeper ts) := by
  have hflat : (ss.flatMap fun y => y.2.tables.map fun t => (y.1 ++ '.' :: t.1, t.2)) =
      labelled (deeper ts) := by
    have hne : ∀ x ∈ ts, x.1 ≠ [] := fun x hx => hl.ne_nil hx
    clear hl
    induction h with
    | nil => rfl
    | @cons x y ts ss hxy h ih =>
      have hx := hne x List.mem_cons_self
      have hown : (y.2.tables.map fun t => (y.1 ++ '.' :: t.1, t.2)) =
          labelled ((tablesIn x.2).map fun t => (x.1 ++ [t.1], t.2)) := by
        simp [labelled, hxy.1, hxy.2.tables, pathText_concat hx]
      rw [List.flatMap_cons, hown, ih fun x hx => hne x (List.mem_cons_of_mem _ hx)]
      simp [labelled, deeper]
  rw [hflat, foldl_insertTable]
  · rfl
  · exact hl.deeper.nodup_labelled

/-- The sections of a level can be written. -/
theorem WriterOk.exists_sections (hw : WriterOk T n write) (hpn : ∀ k ∈ p, IsName k)
    (hl : Level T m ts) (hd : ∀ x ∈ ts, entryDepths x.2 < n)
    {f : List Char × Entries → Except Fault (List Char × Section)}
    (hf : ∀ x ∈ ts, f (pathText x.1, x.2) =
      (write (frontText (p ++ x.1)) x.2).map (pathText x.1, ·)) :
    ∃ ss, (labelled ts).mapM f = .ok ss ∧ AreSections T p ts ss := by
  induction ts with
  | nil => exact ⟨[], rfl, .nil⟩
  | cons x ts ih =>
    have hnames : ∀ k ∈ p ++ x.1, IsName k := fun k hk =>
      (List.mem_append.mp hk).elim (hpn k) (hl.isName x List.mem_cons_self k)
    obtain ⟨s, hs, hok⟩ := hw (p ++ x.1) x.2 hnames (hl.isTable x List.mem_cons_self)
      (hd x List.mem_cons_self)
    obtain ⟨ss, hss, h⟩ := ih hl.tail (fun y hy => hd y (List.mem_cons_of_mem x hy))
      fun y hy => hf y (List.mem_cons_of_mem x hy)
    have hx : f (pathText x.1, x.2) = .ok (pathText x.1, s) := by
      rw [hf x List.mem_cons_self, hs]
      rfl
    refine ⟨(pathText x.1, s) :: ss, ?_, .cons ⟨rfl, hok⟩ h⟩
    rw [labelled] at hss
    rw [labelled, List.map_cons, List.mapM_cons, hx, ok_bind, hss]
    rfl

theorem entryDepths_deeper (hd : ∀ x ∈ ts, entryDepths x.2 < n + 1) :
    ∀ y ∈ deeper ts, entryDepths y.2 < n := by
  intro y hy
  obtain ⟨x, hx, k, ht, -⟩ := mem_deeper.mp hy
  have hlt := entryDepths_lt_of_table (mem_tablesIn.mp ht)
  have hle := hd x hx
  omega

theorem exists_above_deeper (p : List String) :
    ∀ P ∈ (deeper ts).map (p ++ ·.1), ∃ P' ∈ ts.map (p ++ ·.1), P' <+: P := by
  intro P hP
  obtain ⟨y, hy, rfl⟩ := List.mem_map.mp hP
  obtain ⟨x, hx, k, -, he⟩ := mem_deeper.mp hy
  refine ⟨p ++ x.1, List.mem_map_of_mem hx, ?_⟩
  rw [he, List.prefix_append_right_inj]
  exact List.prefix_append x.1 [k]

/-! ### Tables in the tables of an array -/

theorem AreSections.walks (h : AreSections T p ts ss) (hp : p ≠ []) (hpn : ∀ k ∈ p, IsName k)
    (hl : Level T (m + 1) ts) :
    Walks T p ts (fun _ => False) (ss.flatMap fun y =>
      if y.2.text = [] then [] else header (pathText p ++ '.' :: y.1) ++ y.2.text) := by
  induction h with
  | nil => exact walks_nil
  | @cons x y ts ss hxy h ih =>
    rw [List.flatMap_cons]
    refine walks_cons hl ?_ (ih hl.tail)
    have hx := hl.isTable x List.mem_cons_self
    split
    · exact visits_nil hx not_false
    · have hpath : pathText p ++ '.' :: y.1 = pathText (p ++ x.1) := by
        rw [hxy.1, ← frontText_pathText p (hl.ne_nil List.mem_cons_self), ← pathText_point hp]
        simp
      rw [hpath]
      refine visits_section hx (List.append_ne_nil_of_left_ne_nil hp _) (fun k hk => ?_) hxy.2 _
      obtain hk | hk := List.mem_append.mp hk
      · exact hpn k hk
      · exact hl.isName x List.mem_cons_self k hk

theorem printLevels_ok (hw : WriterOk T n write) (hp : p ≠ []) (hpn : ∀ k ∈ p, IsName k)
    (hl : Level T (m + 1) ts) (hd : ∀ x ∈ ts, entryDepths x.2 < n) (levels : Nat) :
    ∃ t, printLevels write (pathText p) levels (labelled ts) = .ok t ∧
      ∀ d, (∀ x ∈ ts, Free T (p ++ x.1) d) → Sound T d →
        ∃ d', Adds t d d' ∧ Sound T d' ∧ Grows (ts.map (p ++ ·.1)) d d' := by
  induction levels generalizing m ts with
  | zero => exact ⟨[], rfl, fun d _ hs => ⟨d, .nil d, hs, .refl _ d⟩⟩
  | succ levels ih =>
    match ts with
    | [] => exact ⟨[], rfl, fun d _ hs => ⟨d, .nil d, hs, .refl _ d⟩⟩
    | x :: r =>
      obtain ⟨ss, hss, hsec⟩ := hw.exists_sections hpn hl hd (f := fun t => do
          let s ← write (pathText p ++ '.' :: t.1 ++ ['.']) t.2
          return (t.1, s)) fun y hy => by
        have hfront : pathText p ++ '.' :: pathText y.1 ++ ['.'] = frontText (p ++ y.1) := by
          rw [frontText_append, ← pathText_point hp, ← pathText_point (hl.ne_nil hy)]
          simp
        rw [hfront]
        cases write (frontText (p ++ y.1)) y.2 <;> rfl
      obtain ⟨t, ht, hrun⟩ :=
        ih hl.deeper (entryDepths_deeper fun y hy => (hd y hy).trans (by omega))
      refine ⟨(ss.flatMap fun y =>
        if y.2.text = [] then [] else header (pathText p ++ '.' :: y.1) ++ y.2.text) ++ t, ?_,
        fun d hf hs => ?_⟩
      · rw [← hsec.collect hl] at ht
        rw [printLevels]
        · rw [hss, ok_bind]
          exact congrArg (· >>= fun below => Except.ok (_ ++ below)) ht
        · exact List.cons_ne_nil _ _
      · obtain ⟨d₁, ha, hs₁, hg, hfree, -⟩ := hsec.walks hp hpn hl d hf hs
        obtain ⟨d₂, ha', hs₂, hg'⟩ := hrun d₁ hfree hs₁
        exact ⟨d₂, ha.append ha', hs₂, hg.trans hg' (exists_above_deeper p)⟩

/-! ### Arrays of tables -/

/-- The tables in a table, with their names as paths. -/
def inside (es : Entries) : Tables := deeper [([], es)]

theorem level_inside (h : IsTable T es) : Level T 1 (inside es) := by
  refine Level.deeper ⟨?_, List.nodup_singleton _, ?_, ?_⟩ <;> simp [h]

theorem entryDepths_inside (hd : entryDepths es < n) : ∀ x ∈ inside es, entryDepths x.2 < n := by
  refine entryDepths_deeper fun x hx => ?_
  obtain rfl := List.mem_singleton.mp hx
  exact hd.trans (Nat.lt_succ_self n)

theorem mem_inside {x : List String × Entries} (hx : x ∈ inside es) :
    ∃ k ∈ keysOf .table es, x.1 = [k] := by
  obtain ⟨y, hy, k, ht, he⟩ := mem_deeper.mp hx
  obtain rfl := List.mem_singleton.mp hy
  exact ⟨k, keys_tablesIn es ▸ List.mem_map_of_mem ht, he⟩

theorem labelled_inside (es : Entries) :
    labelled (inside es) = (tablesIn es).map fun t => (nameText t.1, t.2) := by
  rw [labelled, inside, deeper, List.flatMap_singleton, List.map_map]
  exact List.map_congr_left fun t _ => by simp [pathText_singleton]

/-- What a table of an array adds to it. -/
def itemText (path : List Char) (s : Section) (below : List Char) : List Char :=
  header ('[' :: path ++ [']']) ++
    (if s.text.head? = some '[' then '\n' :: s.text else s.text ++ ['\n']) ++ below

theorem printItem_ok (hw : WriterOk T n write) (hpn : ∀ x ∈ p ++ [k], IsName x) (hk : ¬T k)
    (h : IsTable T es) (hd : entryDepths es < n) (levels : Nat) :
    ∃ s below, write (pathText (p ++ [k]) ++ ['.']) es = .ok s ∧
      printLevels write (pathText (p ++ [k])) levels s.tables = .ok below ∧
      ∀ d, Open p d.root → Sound T d →
        (placeAt (p ++ [k]) d.root = none ∨ placeAt (p ++ [k]) d.root = some .array) →
        ∃ d', Adds (itemText (pathText (p ++ [k])) s below) d d' ∧ Sound T d' ∧
          placeAt (p ++ [k]) d'.root = some .array ∧
          ∀ q, ¬p ++ [k] <+: q → placeAt q d'.root = placeAt q d.root := by
  have hne : p ++ [k] ≠ [] := List.append_ne_nil_of_right_ne_nil p (List.cons_ne_nil k [])
  obtain ⟨s, hs, hok⟩ := hw (p ++ [k]) es hpn h hd
  obtain ⟨below, hbelow, hrun⟩ :=
    printLevels_ok hw hne hpn (level_inside h) (entryDepths_inside hd) levels
  rw [← pathText_point hne] at hs
  rw [labelled_inside, ← hok.tables] at hbelow
  refine ⟨s, below, hs, hbelow, fun d ho hsd hplace => ?_⟩
  obtain ⟨d₁, ha₁, hs₁, hl, harray, hsame₁⟩ := adds_arrayHeader hpn hk ho hsd hplace
  obtain ⟨d₂, ha₂, hs₂, hset⟩ := hok.adds d₁ hl hs₁
  have hfree : ∀ x ∈ inside es, Free T (p ++ [k] ++ x.1) d₂ := by
    intro x hx
    obtain ⟨k', hk', he⟩ := mem_inside hx
    exact he ▸ free_of_sets h hl hset hk'
  obtain ⟨d₃, ha₃, hs₃, hg⟩ := hrun d₂ hfree hs₂
  have hown :
      Adds (if s.text.head? = some '[' then '\n' :: s.text else s.text ++ ['\n']) d₁ d₂ := by
    split
    · exact ha₂.blank
    · exact ha₂.append (.lineEnd d₂)
  have harray₂ : placeAt (p ++ [k]) d₂.root = some .array := by
    rw [hset.above (List.prefix_refl _), harray]
  refine ⟨d₃, (ha₁.append hown).append ha₃, hs₃, ?_, fun q hq => ?_⟩
  · rw [hg.same ?_ (by rw [harray₂]; exact Option.some_ne_none _), harray₂]
    intro P hP hle
    obtain ⟨x, hx, rfl⟩ := List.mem_map.mp hP
    obtain ⟨k', -, he⟩ := mem_inside hx
    exact concat_not_above (List.prefix_refl (p ++ [k])) k' (he ▸ hle)
  · rw [hg.below ?_ (by rw [harray₂]; exact Option.some_ne_none _) hq,
      hset.same q fun k' _ hk' => hq ((List.prefix_append _ [k']).trans hk'), hsame₁ q hq]
    intro P hP
    obtain ⟨x, -, rfl⟩ := List.mem_map.mp hP
    exact List.prefix_append _ _

theorem printArray_ok (hw : WriterOk T n write) (hpn : ∀ x ∈ p ++ [k], IsName x) (hk : ¬T k)
    (levels : Nat) {xs : List Plain}
    (hx : ∀ x ∈ xs, ∃ es, x = .map es ∧ IsTable T es ∧ entryDepths es < n) :
    ∃ t, printArray write levels (pathText (p ++ [k])) xs = .ok t ∧
      ∀ d, Open p d.root → Sound T d →
        (placeAt (p ++ [k]) d.root = none ∨ placeAt (p ++ [k]) d.root = some .array) →
        ∃ d', Adds t d d' ∧ Sound T d' ∧
          placeAt (p ++ [k]) d'.root =
            (if xs = [] then placeAt (p ++ [k]) d.root else some .array) ∧
          ∀ q, ¬p ++ [k] <+: q → placeAt q d'.root = placeAt q d.root := by
  induction xs with
  | nil =>
    exact ⟨[], rfl, fun d _ hs _ => ⟨d, .nil d, hs, (if_pos rfl).symm, fun _ _ => rfl⟩⟩
  | cons x r ih =>
    obtain ⟨es, rfl, hes, hd⟩ := hx x List.mem_cons_self
    obtain ⟨s, below, hs, hbelow, hitem⟩ := printItem_ok hw hpn hk hes hd levels
    obtain ⟨t, ht, hrun⟩ := ih fun y hy => hx y (List.mem_cons_of_mem _ hy)
    refine ⟨itemText (pathText (p ++ [k])) s below ++ t, ?_, fun d ho hsd hplace => ?_⟩
    · rw [printArray, itemEntries, ok_bind, hs, ok_bind, hbelow, ok_bind, ht]
      rfl
    · obtain ⟨d₁, ha₁, hs₁, harray, hsame₁⟩ := hitem d ho hsd hplace
      have ho₁ : Open p d₁.root := fun q hq => hsame₁ q (concat_not_above hq k) ▸ ho q hq
      obtain ⟨d₂, ha₂, hs₂, harray₂, hsame₂⟩ := hrun d₁ ho₁ hs₁ (.inr harray)
      refine ⟨d₂, ha₁.append ha₂, hs₂, ?_, fun q hq => (hsame₂ q hq).trans (hsame₁ q hq)⟩
      rw [harray₂, harray, ite_self, if_neg (List.cons_ne_nil _ r)]

/-! ### The entries of a table -/

/-- What the text of an entry with a role, and the entries behind it, add. -/
theorem keysOf_cons (r : Role) (k : String) (v : Plain) (es : Entries) :
    keysOf r ((k, v) :: es) = keysOf r [(k, v)] ++ keysOf r es := by
  rw [keysOf, ← List.singleton_append, List.filter_append, List.map_append]
  rfl

theorem tablesIn_cons (k : String) (v : Plain) (es : Entries) :
    tablesIn ((k, v) :: es) = tablesIn [(k, v)] ++ tablesIn es := by
  rw [tablesIn, ← List.singleton_append, List.filterMap_append]
  rfl

/-- What an entry adds to a section: a line, an array of tables, or a table for later. -/
structure Part.IsOk (T : String → Prop) (p : List String) (k : String) (v : Plain) (part : Part) :
    Prop where
  values : AddsKeys T (AtTable p) p (keysOf .line [(k, v)]) part.values
  arrays : AddsKeys T (fun d => Open p d.root) p (keysOf .array [(k, v)]) part.arrays
  table : part.table.toList = (tablesIn [(k, v)]).map fun t => (nameText t.1, t.2)

theorem keysOf_singleton (r : Role) (k : String) (v : Plain) :
    keysOf r [(k, v)] = if role v = r then [k] else [] := by
  by_cases h : role v = r <;> simp [keysOf, h]

theorem tablesIn_singleton (hr : role v ≠ .table) : tablesIn [(k, v)] = [] := by
  rw [← List.map_eq_nil_iff (f := (·.1)), keys_tablesIn, keysOf_singleton, if_neg hr]

theorem printLine_ok (hv : (Inline.ofPlain v).IsEntry) :
    printLine (keyText k) v = .ok ((Row.entry k (.ofPlain v)).chars ++ ['\n']) := by
  rw [printLine, Inline.printValue_ok v hv, ok_bind]
  simp [Row.chars, pure, Except.pure]

theorem Part.isOk_line (h : (Row.entry k (.ofPlain v)).IsClean) (hr : role v = .line) :
    Part.IsOk T p k v ⟨(Row.entry k (.ofPlain v)).chars ++ ['\n'], [], none⟩ := by
  refine ⟨?_, ?_, ?_⟩
  · rw [keysOf_singleton, if_pos hr]
    exact addsKeys_line h p
  · rw [keysOf_singleton, hr]
    exact .nil p
  · rw [tablesIn_singleton (by rw [hr]; decide)]
    rfl

theorem Part.isOk_array (hw : WriterOk T n write) (hpn : ∀ x ∈ p ++ [k], IsName x)
    (h : IsTable T es) (hd : entryDepths es ≤ n) (levels : Nat) {xs : List Plain}
    (hm : (k, .list xs) ∈ es) (hx : xs.any isMap = true) :
    ∃ t, printArray write levels (pathText (p ++ [k])) xs = .ok t ∧
      Part.IsOk T p k (.list xs) ⟨[], t, none⟩ := by
  have hr : role (.list xs) = .array := if_pos hx
  have hne : xs ≠ [] := by
    rintro rfl
    cases hx
  obtain ⟨-, hk, hitems⟩ := h.isArray hm hx
  have hitems' : ∀ x ∈ xs, ∃ sub, x = .map sub ∧ IsTable T sub ∧ entryDepths sub < n := by
    intro x hxm
    obtain ⟨sub, rfl, hs⟩ := hitems x hxm
    exact ⟨sub, rfl, hs, (entryDepths_lt_of_array hm hxm).trans_le hd⟩
  obtain ⟨t, ht, hrun⟩ := printArray_ok hw hpn hk levels hitems'
  refine ⟨t, ht, ?_, fun d ho hs hfree => ?_, ?_⟩
  · rw [keysOf_singleton, hr]
    exact .nil p
  · rw [keysOf_singleton, if_pos hr] at hfree ⊢
    obtain ⟨d', ha, hs', harray, hsame⟩ := hrun d ho hs (.inl (hfree k List.mem_cons_self))
    rw [if_neg hne] at harray
    refine ⟨d', ha, fun q hq => hsame q (concat_not_above hq k) ▸ ho q hq, hs',
      fun x hx => ?_, fun q hq => hsame q (hq k List.mem_cons_self)⟩
    rw [List.mem_singleton.mp hx, harray]
    exact Option.some_ne_none _
  · rw [tablesIn_singleton (by rw [hr]; decide)]
    rfl

theorem printPart_ok (hw : WriterOk T n write) (hpn : ∀ x ∈ p, IsName x) (h : IsTable T es)
    (hd : entryDepths es ≤ n) (levels : Nat) (hm : (k, v) ∈ es) :
    ∃ name part, printName k = .ok name ∧
      printPart write levels (frontText p) name v = .ok part ∧ part.IsOk T p k v := by
  match v with
  | .null =>
    obtain ⟨name, hname⟩ := h.exists_printName hm
    exact ⟨name, _, hname, rfl, .nil p, .nil p, rfl⟩
  | .map sub =>
    exact ⟨_, _, printName_of_isName (h.isTable hm).1, rfl, .nil p, .nil p, rfl⟩
  | .bool _ | .int _ | .float _ | .str _ =>
    have hl := h.isLine hm rfl
    exact ⟨_, _, hl.1.written,
      congrArg (Except.map fun l => (⟨l, [], none⟩ : Part)) (printLine_ok hl.2.1),
      Part.isOk_line hl rfl⟩
  | .list xs =>
    by_cases hx : xs.any isMap = true
    · have hk := (h.isArray hm hx).1
      have hpk : ∀ x ∈ p ++ [k], IsName x := by
        simpa [or_imp, forall_and] using And.intro hpn hk
      obtain ⟨t, ht, hok⟩ := Part.isOk_array hw hpk h hd levels hm hx
      refine ⟨_, _, printName_of_isName hk, ?_, hok⟩
      rw [printPart, if_pos hx, ← pathText_singleton,
        frontText_pathText p (List.cons_ne_nil k []), ht]
      rfl
    · have hr : role (.list xs) = .line := if_neg hx
      have hl := h.isLine hm hr
      refine ⟨_, _, hl.1.written, ?_, Part.isOk_line hl hr⟩
      rw [printPart, if_neg hx, printLine_ok hl.2.1]
      rfl

/-- The lines of a table come first, and then its arrays of tables. -/
theorem printEntries_ok (hw : WriterOk T n write) (hpn : ∀ x ∈ p, IsName x) (h : IsTable T es)
    (hd : entryDepths es ≤ n) (levels : Nat) {r : Entries} (hr : r <:+ es)
    (values arrays : List Char) (tables : List (List Char × Entries)) :
    ∃ lines below, printEntries write levels (frontText p) values arrays tables r =
        .ok ⟨values ++ lines ++ (arrays ++ below), ((tablesIn r).map fun t =>
          (nameText t.1, t.2)).foldl (fun d t => insertTable t.1 t.2 d) tables⟩ ∧
      AddsKeys T (AtTable p) p (keysOf .line r) lines ∧
      AddsKeys T (fun d => Open p d.root) p (keysOf .array r) below := by
  induction r generalizing values arrays tables with
  | nil => exact ⟨[], [], by rw [printEntries]; simp [tablesIn], .nil p, .nil p⟩
  | cons e r ih =>
    obtain ⟨k, v⟩ := e
    have hm : (k, v) ∈ es := hr.subset List.mem_cons_self
    obtain ⟨name, part, hname, hpart, hok⟩ := printPart_ok hw hpn h hd levels hm
    obtain ⟨lines, below, hrun, hlines, hbelow⟩ :=
      ih ((List.suffix_cons _ r).trans hr) (values ++ part.values) (arrays ++ part.arrays)
        (part.addTable tables)
    have hnodup : (((k, v) :: r).map (·.1)).Nodup := h.nodup.sublist (hr.sublist.map _)
    have hdisjoint : ∀ role, (keysOf role [(k, v)]).Disjoint (keysOf role r) := by
      intro role
      have hkeys := nodup_keysOf hnodup role
      rw [keysOf_cons] at hkeys
      exact List.disjoint_of_nodup_append hkeys
    have htable : part.addTable tables = ((tablesIn [(k, v)]).map fun t =>
        (nameText t.1, t.2)).foldl (fun d t => insertTable t.1 t.2 d) tables := by
      rw [← hok.table, Part.addTable]
      cases part.table <;> rfl
    refine ⟨part.values ++ lines, part.arrays ++ below, ?_, ?_, ?_⟩
    · rw [printEntries_cons, hname, ok_bind, hpart, ok_bind, hrun,
        tablesIn_cons, List.map_append, List.foldl_append, htable]
      simp
    · rw [keysOf_cons]
      exact hok.values.append hlines (hdisjoint .line)
    · rw [keysOf_cons]
      exact hok.arrays.append hbelow (hdisjoint .array)

theorem printTable_ok (n : Nat) : WriterOk T n (printTable n) := by
  induction n with
  | zero => exact fun p es _ _ hd => absurd hd (Nat.not_lt_zero _)
  | succ n ih =>
    intro p es hpn h hd
    obtain ⟨lines, below, hrun, hlines, hbelow⟩ :=
      printEntries_ok ih hpn h (Nat.le_of_lt_succ hd) n (List.suffix_refl es) [] [] []
    refine ⟨_, hrun, ?_, fun d hl hs => ?_⟩
    · have hnodup := (level_inside h).nodup_labelled
      rw [labelled_inside] at hnodup
      exact foldl_insertTable hnodup
    · have hfree : ∀ k, placeAt (p ++ [k]) d.root = none := fun k => hl.placeAt_name rfl k
      obtain ⟨d₁, ha₁, hat, hs₁, hset₁⟩ := hlines d ⟨_, hl⟩ hs fun k _ => hfree k
      obtain ⟨d₂, ha₂, -, hs₂, hset₂⟩ := hbelow d₁ hat.isOpen hs₁ fun k hk =>
        hset₁.none (not_mem_keysOf h.nodup (by decide) hk) (hfree k)
      exact ⟨d₂, ha₁.append ha₂, hs₂, hset₁.trans hset₂⟩

end CallTree.Toml
