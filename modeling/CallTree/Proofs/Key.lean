import CallTree.Key
import CallTree.Proofs.Blank

/-! Keys that take a value apart, as they are written: paths in braces, with commas between them and
blank around each. Reading such keys is the way back, and there are no others. -/
namespace CallTree.Key

open Text

variable {s inner : List Char} {parts : List (List Char)} {path : Path} {paths : List Path}

/-- A path of names, with a point between each two. -/
def writePath (path : Path) : List Char := ['.'].intercalate (path.map String.toList)

/-- Paths with a comma between each two, each path between its own blank. -/
def writePaths (paths : List (Padding × Path)) : List Char :=
  [','].intercalate (paths.map fun p => p.1.around (writePath p.2))

/-- A key for paths: their text in braces, with blank around it. -/
def write (outer : Padding) (paths : List (Padding × Path)) : String :=
  String.ofList (outer.around ('\x7b' :: writePaths paths ++ ['\x7d']))

/-- One name at least, and nothing but names. -/
structure IsPath (path : Path) : Prop where
  ne_nil : path ≠ []
  named : ∀ n ∈ path, IsName n.toList

/-- One path at least, and nothing but paths. -/
structure ArePaths (paths : List Path) : Prop where
  ne_nil : paths ≠ []
  each : ∀ path ∈ paths, IsPath path

theorem splitOn_eq (sep : Char) (s : List Char) : splitOn sep s = s.splitOn sep := by
  rw [List.splitOn_eq_splitOnP]
  induction s with
  | nil => rfl
  | cons c r ih =>
    rw [List.splitOnP_cons_eq_if_modifyHead, splitOn, ih]
    obtain ⟨p, ps, hp⟩ := List.exists_cons_of_ne_nil (List.splitOnP_ne_nil (· == sep) r)
    by_cases hc : c = sep <;> simp [hc, hp]

theorem mem_intercalate_singleton {sep c : Char} (h : c ∈ [sep].intercalate parts) :
    c = sep ∨ ∃ p ∈ parts, c ∈ p := by
  induction parts with
  | nil => simp at h
  | cons p ps ih =>
    cases ps with
    | nil => exact Or.inr ⟨p, List.mem_cons_self, by simpa using h⟩
    | cons q r =>
      rw [List.intercalate_cons_cons] at h
      simp only [List.mem_append, List.mem_singleton] at h
      rcases h with (hp | hsep) | hr
      · exact Or.inr ⟨p, List.mem_cons_self, hp⟩
      · exact Or.inl hsep
      · rcases ih hr with hsep | ⟨x, hx, hc⟩
        · exact Or.inl hsep
        · exact Or.inr ⟨x, List.mem_cons_of_mem p hx, hc⟩

/-! ### One path -/

theorem segments?_eq_some_iff :
    segments? s = some parts ↔
      parts ≠ [] ∧ (∀ p ∈ parts, IsName p) ∧ s = ['.'].intercalate parts := by
  have hdef : segments? s =
      if ∀ p ∈ s.splitOn '.', IsName p then some (s.splitOn '.') else none := by
    rw [← splitOn_eq]
    rfl
  rw [hdef]
  constructor
  · intro h
    split at h
    · next hall =>
      cases h
      exact ⟨List.splitOn_ne_nil '.' s, hall, (List.intercalate_splitOn '.').symm⟩
    · cases h
  · rintro ⟨hne, hall, rfl⟩
    -- A name has no point in it, so the points between names are all there are.
    have hpoint : ∀ p ∈ parts, '.' ∉ p := by
      intro p hp hm
      have hw := (hall p hp).2 '.' hm
      revert hw
      decide
    rw [List.splitOn_intercalate '.' hpoint hne, if_pos hall]

theorem path_of_segments? (h : segments? s = some parts) :
    IsPath (parts.map String.ofList) ∧ s = writePath (parts.map String.ofList) := by
  obtain ⟨hne, hall, rfl⟩ := segments?_eq_some_iff.mp h
  refine ⟨⟨by simpa using hne, ?_⟩, ?_⟩
  · intro n hn
    obtain ⟨p, hp, rfl⟩ := List.mem_map.mp hn
    rw [String.toList_ofList]
    exact hall p hp
  · simp [writePath, Function.comp_def]

theorem segments?_writePath (h : IsPath path) :
    segments? (writePath path) = some (path.map String.toList) := by
  refine segments?_eq_some_iff.mpr ⟨by simpa using h.ne_nil, ?_, rfl⟩
  intro p hp
  obtain ⟨n, hn, rfl⟩ := List.mem_map.mp hp
  exact h.named n hn

theorem isWord_or_eq_point (h : IsPath path) {c : Char} (hc : c ∈ writePath path) :
    isWord c = true ∨ c = '.' := by
  rcases mem_intercalate_singleton hc with rfl | ⟨p, hp, hc⟩
  · exact Or.inr rfl
  · obtain ⟨n, hn, rfl⟩ := List.mem_map.mp hp
    exact Or.inl ((h.named n hn).2 c hc)

theorem comma_not_mem_writePath (h : IsPath path) : ',' ∉ writePath path := by
  intro hc
  have hw := isWord_or_eq_point h hc
  revert hw
  decide

theorem trimmed_writePath (h : IsPath path) : Trimmed (writePath path) := by
  refine trimmed_of_not_blank ?_
  intro c hc
  rcases isWord_or_eq_point h hc with hw | rfl
  · exact isBlank_of_isWord hw
  · decide

/-! ### Keys -/

theorem inBraces?_eq_some_iff :
    inBraces? s = some inner ↔
      ∃ outer : Padding, s = outer.around ('\x7b' :: inner ++ ['\x7d']) := by
  constructor
  · intro h
    have hs := around_trim s
    unfold inBraces? at h
    split at h
    · next r hr =>
      split at h
      · next hlast =>
        obtain ⟨t, rfl⟩ := List.getLast?_eq_some_iff.mp hlast
        obtain rfl : t = inner := by simpa using h
        exact ⟨Padding.of s, by rw [List.cons_append, ← hr, hs]⟩
      · cases h
    · cases h
  · rintro ⟨outer, rfl⟩
    have htrimmed : Trimmed ('\x7b' :: inner ++ ['\x7d']) := by
      constructor
      · intro c hc
        obtain rfl : '\x7b' = c := by simpa using hc
        decide
      · intro c hc
        rw [List.getLast?_concat, Option.some_inj] at hc
        rw [← hc]
        decide
    rw [inBraces?, trim_around outer htrimmed]
    simp

/-- The paths in pieces of text, with the blank that was around each. -/
theorem exists_of_mapM_segments? {pieces : List (List Char)} {found : List (List (List Char))}
    (h : pieces.mapM (fun p => segments? (trim p)) = some found) :
    ∃ paths : List (Padding × Path), paths.map (·.2) = found.map (·.map String.ofList) ∧
      (∀ p ∈ paths, IsPath p.2) ∧ pieces = paths.map fun p => p.1.around (writePath p.2) := by
  induction pieces generalizing found with
  | nil =>
    obtain rfl : [] = found := by simpa using h
    exact ⟨[], rfl, by simp, rfl⟩
  | cons piece pieces ih =>
    rw [List.mapM_cons] at h
    obtain ⟨parts, hparts, h⟩ := Option.bind_eq_some_iff.mp h
    obtain ⟨rest, hrest, h⟩ := Option.bind_eq_some_iff.mp h
    obtain rfl : parts :: rest = found := by simpa using h
    obtain ⟨paths, hmap, hpaths, rfl⟩ := ih hrest
    obtain ⟨hpath, hwrite⟩ := path_of_segments? hparts
    refine ⟨(Padding.of piece, parts.map String.ofList) :: paths, ?_, ?_, ?_⟩
    · simp [hmap]
    · exact List.forall_mem_cons.mpr ⟨hpath, hpaths⟩
    · rw [List.map_cons, ← hwrite, around_trim]

theorem mapM_segments?_write {paths : List (Padding × Path)} (h : ∀ p ∈ paths, IsPath p.2) :
    (paths.map fun p => p.1.around (writePath p.2)).mapM (fun p => segments? (trim p)) =
      some (paths.map fun p => p.2.map String.toList) := by
  induction paths with
  | nil => rfl
  | cons p paths ih =>
    obtain ⟨hp, hpaths⟩ := List.forall_mem_cons.mp h
    rw [List.map_cons, List.mapM_cons, trim_around p.1 (trimmed_writePath hp),
      segments?_writePath hp, ih hpaths]
    rfl

theorem splitOn_writePaths {paths : List (Padding × Path)} (hne : paths ≠ [])
    (h : ∀ p ∈ paths, IsPath p.2) :
    splitOn ',' (writePaths paths) = paths.map fun p => p.1.around (writePath p.2) := by
  rw [splitOn_eq, writePaths, List.splitOn_intercalate ',' ?_ (by simpa using hne)]
  intro piece hpiece hc
  obtain ⟨p, hp, rfl⟩ := List.mem_map.mp hpiece
  have hblank : ∀ {b : List Char}, AllBlank b → ',' ∉ b := by
    intro b hb hm
    have hcomma := hb ',' hm
    revert hcomma
    decide
  rw [Padding.around, List.mem_append, List.mem_append] at hc
  rcases hc with (hc | hc) | hc
  · exact hblank p.1.before_blank hc
  · exact comma_not_mem_writePath (h p hp) hc
  · exact hblank p.1.after_blank hc

theorem destructuring?_write {paths : List (Padding × Path)} (h : ArePaths (paths.map (·.2)))
    (outer : Padding) : destructuring? (write outer paths) = some (paths.map (·.2)) := by
  have hne : paths ≠ [] := by simpa using h.ne_nil
  have hpaths : ∀ p ∈ paths, IsPath p.2 := fun p hp => h.each p.2 (List.mem_map_of_mem hp)
  have hinner : inBraces? (write outer paths).toList = some (writePaths paths) :=
    inBraces?_eq_some_iff.mpr ⟨outer, by rw [write, String.toList_ofList]⟩
  rw [destructuring?, paths?, hinner]
  dsimp only
  rw [splitOn_writePaths hne hpaths, mapM_segments?_write hpaths]
  simp [Function.comp_def]

theorem exists_write_of_destructuring? {key : String} (h : destructuring? key = some paths) :
    ∃ outer written, ArePaths paths ∧ written.map (·.2) = paths ∧ key = write outer written := by
  rw [destructuring?, paths?] at h
  obtain ⟨found, hfound, rfl⟩ := Option.map_eq_some_iff.mp h
  split at hfound
  · next inner hinner =>
    obtain ⟨outer, houter⟩ := inBraces?_eq_some_iff.mp hinner
    obtain ⟨written, hmap, hpaths, hpieces⟩ := exists_of_mapM_segments? hfound
    rw [splitOn_eq] at hpieces
    have hne : written ≠ [] := by
      rintro rfl
      exact List.splitOn_ne_nil ',' inner hpieces
    have hwritten : writePaths written = inner := by
      rw [writePaths, ← hpieces, List.intercalate_splitOn]
    refine ⟨outer, written, ⟨?_, ?_⟩, hmap, ?_⟩
    · rw [← hmap]
      simpa using hne
    · rw [← hmap]
      intro path hpath
      obtain ⟨p, hp, rfl⟩ := List.mem_map.mp hpath
      exact hpaths p hp
    · rw [write, hwritten, ← houter, String.ofList_toList]
  · cases hfound

/-- A key is taken for paths exactly if it is written for them: in braces, with a comma between each
two of them, and blank wherever it likes but inside a path. What is read are just these paths, so
that paths which are written are read again; any other key is plain. -/
theorem destructuring_keys_round_trip :
    (∀ key paths, destructuring? key = some paths ↔ ArePaths paths ∧
      ∃ outer written, written.map (·.2) = paths ∧ key = write outer written) ∧
    (∀ outer written, ArePaths (written.map (·.2)) →
      destructuring? (write outer written) = some (written.map (·.2))) ∧
    ∀ key, destructuring? key = none ↔
      ¬ ∃ outer written, ArePaths (written.map (·.2)) ∧ key = write outer written := by
  refine ⟨?_, ?_, ?_⟩
  · intro key paths
    constructor
    · intro h
      obtain ⟨outer, written, hpaths, hmap, hkey⟩ := exists_write_of_destructuring? h
      exact ⟨hpaths, outer, written, hmap, hkey⟩
    · rintro ⟨hpaths, outer, written, rfl, rfl⟩
      exact destructuring?_write hpaths outer
  · intro outer written h
    exact destructuring?_write h outer
  · intro key
    rw [Option.eq_none_iff_forall_ne_some]
    constructor
    · rintro hnone ⟨outer, written, hpaths, rfl⟩
      exact hnone _ (destructuring?_write hpaths outer)
    · intro hno paths h
      obtain ⟨outer, written, hpaths, rfl, hkey⟩ := exists_write_of_destructuring? h
      exact hno ⟨outer, written, hpaths, hkey⟩

/-- No paths, an empty path, a blank inside a path and an empty name. -/
example :
    ["\x7b\x7d", "\x7ba,\x7d", "\x7ba b\x7d", "\x7ba..b\x7d"].map destructuring? =
      [none, none, none, none] := by
  decide +kernel

/-- Blank before the braces, around the first path, and after the last one. -/
theorem padded_paths_round_trip :
    write ⟨['\t'], [], by decide, by decide⟩
        [(⟨['\t'], ['\t'], by decide, by decide⟩, ["a"]),
          (⟨[], ['\n'], by decide, by decide⟩, ["b", "c"])] = "\t\x7b\ta\t,b.c\n\x7d" ∧
      destructuring? "\t\x7b\ta\t,b.c\n\x7d" = some [["a"], ["b", "c"]] := by
  have hw : write ⟨['\t'], [], by decide, by decide⟩
      [(⟨['\t'], ['\t'], by decide, by decide⟩, ["a"]),
        (⟨[], ['\n'], by decide, by decide⟩, ["b", "c"])] = "\t\x7b\ta\t,b.c\n\x7d" := by
    decide +kernel
  have hnames : ∀ path ∈ [["a"], ["b", "c"]], path ≠ [] ∧ ∀ n ∈ path, IsName n.toList := by
    decide +kernel
  have hpaths : ArePaths [["a"], ["b", "c"]] :=
    ⟨by decide, fun path hp => ⟨(hnames path hp).1, (hnames path hp).2⟩⟩
  refine ⟨hw, ?_⟩
  rw [← hw]
  exact destructuring_keys_round_trip.2.1 _ _ hpaths

end CallTree.Key
