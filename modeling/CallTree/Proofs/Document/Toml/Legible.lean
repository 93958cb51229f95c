import CallTree.Proofs.Document.Toml.Entry
import CallTree.Proofs.Document.Toml.Unescape

/-! Which texts and which entries are read again, told by their characters. -/
namespace CallTree.Toml
open scoped Number

variable {c m : Char} {w : Nat} {k s : String} {t u v : List Char} {forms : List (Char × Nat)}
  {x : Inline}

theorem ne_backslash_of_isNumbered (h : IsNumbered c) : c ≠ '\\' := by
  rintro rfl
  exact absurd h.1 (by decide)

theorem stands_of_not_numbered (h : ¬IsNumbered c) : Stands forms c (Text.escapeChar '"' c) := by
  obtain ⟨hc, he⟩ | ⟨d, hd, he⟩ | ⟨hn, -⟩ := escapeChar_cases c
  · rw [he]
    exact .plain (ne_of_isClean hc).2
  · rw [he]
    exact .short d hd
  · exact absurd hn h

/-- No number from `0x100` on is written by two digits. -/
theorem stands_of_numbered (h : IsNumbered c → 0x100 ≤ c.toNat) :
    Stands longForms c (Text.escapeChar '"' c) := by
  obtain ⟨hc, he⟩ | ⟨d, hd, he⟩ | ⟨hc, m, w, hm, hn, he⟩ := escapeChar_cases c <;> rw [he]
  · exact .plain (ne_of_isClean hc).2
  · exact .short d hd
  · have hlarge := h hc
    refine .number m w ?_ (ne_backslash_of_isNumbered hc) hn
    obtain hx | hm := List.mem_cons.mp hm
    · cases hx
      omega
    · exact hm

theorem written_escapes (h : ∀ c ∈ t, Stands forms c (Text.escapeChar '"' c)) :
    Written forms t (escapes t) := by
  induction t with
  | nil => exact .nil
  | cons c t ih =>
    rw [escapes_cons]
    exact .cons (h c List.mem_cons_self) (ih fun x hx => h x (List.mem_cons_of_mem c hx))

theorem Written.concat (h : Written forms t u) (hc : c ≠ '\\') :
    Written forms (t ++ [c]) (u ++ [c]) := by
  induction h with
  | nil => exact .cons (k := [c]) (.plain hc) .nil
  | cons hk _ ih =>
    rw [List.append_assoc]
    exact .cons hk ih

theorem inQuotes_of_escapes (h : Text.split ['\\', 'x'] (escapes s.toList) = [escapes s.toList]) :
    inQuotes s = escapes s.toList := by
  rw [inQuotes, printString_of_escapes h]
  exact inner_quoted (escapes s.toList)

/-! ### Texts -/

/-- Nothing stands behind the quote that closes a string. -/
theorem endsClosed_of_isInside (h : isInside false u = true) :
    endsClosed false false 0 (Text.split ['"'] (u ++ ['"'])) = true := by
  -- each piece before the last ends with the backslash of its quote
  induction hn : u.length using Nat.strong_induction_on generalizing u with
  | _ n ih =>
    rw [Text.split_eq_splitOn]
    by_cases hq : '"' ∈ u
    · obtain ⟨a, b, rfl, ha⟩ := List.eq_append_cons_of_mem hq
      have he := endsEscaped_of_quote h
      have hs : isInside (Text.escapedAfter []) (a ++ '"' :: b) = true := h
      have hb : isInside false b = true := (isInside_cons.mp (isInside_append hs)).2.2
      simp only [List.length_append, List.length_cons] at hn
      have hrest := ih b.length (by omega) hb rfl
      rw [Text.split_eq_splitOn] at hrest
      rw [List.append_assoc, List.cons_append, List.splitOn_append_cons_self_of_not_mem ha]
      cases a with
      | nil => cases he
      | cons c a =>
        rw [endsClosed.eq_def]
        simp only [he, hrest, if_true]
    · have he := endsEscaped_of_isInside h
      rw [List.splitOn_append_cons_self_of_not_mem hq]
      cases u with
      | nil => rfl
      | cons c u => simp [endsClosed, he]

theorem not_infix_quoted (hm : m ≠ '"') (h : ¬['\\', m] <:+: t) :
    ¬['\\', m] <:+: '"' :: (t ++ ['"']) := by
  intro hi
  obtain hp | hi := List.infix_cons_iff.mp hi
  · cases (List.cons_prefix_cons.mp hp).1
  obtain hs | hi := List.infix_concat_iff.mp hi
  · obtain hn | ⟨r, hr, -⟩ := List.suffix_concat_iff.mp hs
    · cases hn
    · have hlast := congrArg List.getLast? hr
      rw [List.getLast?_concat] at hlast
      exact hm (Option.some.inj hlast)
  · exact h hi

theorem readQuoted_ok (hi : isInside false u = true) (hw : Written longForms t u)
    (hu : ¬['\\', 'u'] <:+: t) (hU : ¬['\\', 'U'] <:+: t) :
    ∃ r, readQuoted '"' ('"' :: (u ++ ['"'])) = .ok r := by
  have hwhole : Written longForms ('"' :: (t ++ ['"'])) ('"' :: (u ++ ['"'])) :=
    .cons (k := ['"']) (.plain (by decide)) (hw.concat (by decide))
  obtain ⟨p, r, hp, hknown⟩ := hwhole.knownEscapes_eq
  obtain ⟨v₁, h₁, hw₁⟩ := hwhole.replaceCodePoints_ok (by decide) (by decide) (by decide)
    (not_infix_quoted (by decide) hu)
  obtain ⟨v₂, h₂, hw₂⟩ := hw₁.replaceCodePoints_ok (by decide) (by decide) (by decide)
    (not_infix_quoted (by decide) hU)
  have hclosed := endsClosed_of_isInside hi
  cases u with
  | nil => exact ⟨[], rfl⟩
  | cons c u =>
    have hc : c ≠ '"' := fun hc => head?_ne_quote hi (congrArg some hc)
    obtain ⟨q, qs, hs⟩ := Text.exists_split ['"'] (u ++ ['"'])
    have hparts : Text.split ['"'] (c :: u ++ ['"']) = (c :: q) :: qs := by
      have hnot : ¬['"'] <+: c :: (u ++ ['"']) := fun h => hc (List.cons_prefix_cons.mp h).1.symm
      rw [List.cons_append, Text.split_cons (List.cons_ne_nil _ _) hnot, hs, List.modifyHead_cons]
    rw [hparts] at hclosed
    rw [readQuoted]
    simp only [hparts, hclosed, hp, List.drop_succ_cons, List.drop_zero, hknown, h₁, h₂,
      hw₂.unescape_eq, Bool.not_true, Bool.false_eq_true, if_true, if_false, ok_bind]
    exact ⟨_, rfl⟩

/-- Text is read again if no character of it is written by two digits, and no backslash in it
stands before the mark of an escape by number. -/
theorem isText_of_numbered (hl : ∀ c ∈ s.toList, IsNumbered c → 0x100 ≤ c.toNat)
    (hm : ∀ f ∈ numberForms, ¬['\\', f.1] <:+: s.toList) : IsText s := by
  have hw := written_escapes fun c hc => stands_of_numbered (hl c hc)
  have hsplit := hw.split_eq longForms_subset (m := 'x') (w := 2) (by decide) (by decide)
    (hm ('x', 2) (by decide))
  have hi := isInside_escapes s.toList
  obtain ⟨r, hr⟩ := readQuoted_ok hi hw (hm ('u', 4) (by decide)) (hm ('U', 8) (by decide))
  have hstring : stringText s = '"' :: (escapes s.toList ++ ['"']) := by
    rw [stringText, inQuotes_of_escapes hsplit]
  refine ⟨by rw [hstring, printString_of_escapes hsplit], ?_, ?_⟩
  · rwa [inQuotes_of_escapes hsplit]
  · rw [readText, hstring, hr]
    rfl

theorem isText_of_isClean (h : ∀ c ∈ s.toList, isClean c = true) : IsText s := by
  refine isText_of_numbered (fun c hc hn => ?_) fun f _ hi => ?_
  · have hp := h c hc
    simp only [isClean, Bool.and_eq_true, hn.1] at hp
    cases hp.1.1
  · exact (ne_of_isClean (h '\\' (hi.subset List.mem_cons_self))).2 rfl

/-! ### Keys -/

theorem Written.not_mem (h : Written [] t u) (hc : c ∉ '\\' :: shortForms.map Prod.fst)
    (ht : c ∉ t) : c ∉ u := by
  induction h with
  | nil => exact ht
  | cons hk _ ih =>
    rw [List.mem_cons, not_or] at hc ht
    rw [List.mem_append, not_or]
    refine ⟨?_, ih ht.2⟩
    cases hk with
    | plain _ => simpa using ht.1
    | short d hd =>
      rintro (_ | ⟨_, hm⟩)
      · exact hc.1 rfl
      · obtain rfl := List.mem_singleton.mp hm
        exact hc.2 (List.mem_map.mpr ⟨_, hd, rfl⟩)
    | number m w hm => cases hm

theorem Written.count_quote (h : Written [] t u) : u.count '"' = t.count '"' := by
  induction h with
  | nil => rfl
  | cons hk _ ih =>
    rw [List.count_append, ih, List.count_cons, Nat.add_comm]
    congr 1
    cases hk with
    | plain _ => simp [List.count_singleton]
    | short d hd =>
      have hall : ∀ e ∈ shortForms, (e.1 == '"') = (e.2 == '"') := by
        simp only [shortForms, List.forall_mem_cons]
        decide
      simp [List.count_cons, hall _ hd]
    | number m w hm => cases hm

theorem trimmed_keyText (hk : IsKey k) : Text.Trimmed (keyText k) := by
  rw [keyText]
  split
  · next hb => exact Text.trimmed_of_not_blank fun c hc => (hk.isBare hb c hc).not_blank
  · exact trimmed_quoted (inQuotes k)

theorem readKey_bare (hb : ∀ c ∈ k.toList, IsBare c) (hk : k.toList ≠ []) :
    readKey k.toList = .ok ([], k) := by
  have hpoint : k.toList.contains '.' = false := by
    rw [List.contains_eq_mem, decide_eq_false_iff_not]
    exact fun hm => (hb _ hm).ne (by decide)
  obtain ⟨c, r, hc⟩ := List.exists_cons_of_ne_nil hk
  have hne := (hb c (hc ▸ List.mem_cons_self)).ne
  have hq : isQuote c = false := by
    simp only [List.mem_cons, not_or] at hne
    simp [isQuote, hne.1, hne.2.1]
  rw [readKey.eq_def, hpoint, if_neg (by decide), hc]
  simp only [hq, Bool.false_eq_true, false_and, if_false]
  rw [← hc, String.ofList_toList]

theorem readKey_quoted (hp : '.' ∉ u) (hu : unescape u = .ok k.toList) :
    readKey ('"' :: (u ++ ['"'])) = .ok ([], k) := by
  have hpoint : ('"' :: (u ++ ['"'])).contains '.' = false := by
    simpa [List.contains_eq_mem] using hp
  have hlast : ('"' :: (u ++ ['"'])).getLast? = some '"' :=
    List.getLast?_append_of_ne_nil ('"' :: u) (List.cons_ne_nil '"' [])
  have hquote : isQuote '"' ∧ ('"' :: (u ++ ['"'])).getLast? = some '"' := ⟨rfl, hlast⟩
  rw [readKey.eq_def, hpoint, if_neg (by decide)]
  simp only [hquote, and_self, if_true, inner_quoted, hu, ok_bind, String.ofList_toList]
  rfl

/-- A key is read again if no character of it is written by number, it has no point, and no
backslash in it stands before an `x`. -/
theorem isKey_of_not_numbered (hn : ∀ c ∈ k.toList, ¬IsNumbered c) (hp : '.' ∉ k.toList)
    (hx : ¬['\\', 'x'] <:+: k.toList) (hl : k.toList.getLast? ≠ some '\n') : IsKey k := by
  have hw : Written [] k.toList (escapes k.toList) :=
    written_escapes fun c hc => stands_of_not_numbered (hn c hc)
  have hsplit := hw.split_eq (List.nil_subset _) (m := 'x') (w := 2) (by decide) (by simp) hx
  have hin := inQuotes_of_escapes hsplit
  by_cases hb : isBareName k = true
  · have hbare := isBare_of_getLast?_ne hl hb
    obtain ⟨c, r, hc⟩ := exists_cons_of_isBareName hb
    have hkey : keyText k = k.toList := if_pos hb
    refine ⟨by rw [printName, hkey, if_pos hb], by rwa [if_pos hb], ?_⟩
    rw [hkey]
    exact readKey_bare hbare (hc ▸ List.cons_ne_nil c r)
  · have hkey : keyText k = '"' :: (escapes k.toList ++ ['"']) := by
      rw [keyText, if_neg hb, stringText, hin]
    refine ⟨by rw [printName, hkey, if_neg hb, printString_of_escapes hsplit], ?_, ?_⟩
    · rw [if_neg hb, hin]
      exact isInside_escapes k.toList
    · rw [hkey]
      exact readKey_quoted (hw.not_mem (by decide) hp) hw.unescape_eq

/-! ### Entries -/

mutual
theorem keepsUnquoted_chars (x : Inline) : KeepsUnquoted x.chars := by
  match x with
  | .bool true | .bool false => exact keepsUnquoted_of_not_mem (by decide)
  | .int _ | .float _ =>
    refine keepsUnquoted_of_not_mem fun hm => ?_
    exact absurd (numeric_chars (by trivial) _ hm) (by decide)
  | .text u => exact keepsUnquoted_quote _
  | .list xs =>
    have ho : KeepsUnquoted ['['] := keepsUnquoted_of_not_mem (by decide)
    have hc : KeepsUnquoted [']'] := keepsUnquoted_of_not_mem (by decide)
    exact ho.append ((keepsUnquoted_itemChars xs).append hc)

theorem keepsUnquoted_itemChars (xs : List Inline) : KeepsUnquoted (Inline.itemChars xs) := by
  match xs with
  | [] => exact fun _ ht => ht
  | x :: xs =>
    have hsp : KeepsUnquoted [' '] := keepsUnquoted_of_not_mem (by decide)
    have hcm : KeepsUnquoted [','] := keepsUnquoted_of_not_mem (by decide)
    exact (hsp.append (keepsUnquoted_chars x)).append (hcm.append (keepsUnquoted_itemChars xs))
end

theorem keepsUnquoted_keyText (hk : IsKey k) : KeepsUnquoted (keyText k) := by
  rw [keyText]
  split
  · next hb =>
    refine keepsUnquoted_of_not_mem fun hm => ?_
    exact (hk.isBare hb _ hm).ne (by simp)
  · exact keepsUnquoted_quote _

/-- The line of an entry is cut behind a key with its quotes in pairs. -/
theorem isCut_of_even (hk : IsKey k) (heq : '=' ∉ keyText k)
    (hq : (keyText k).count '"' % 2 = 0) (x : Inline) : IsCut k x := by
  have hline : (Row.entry k x).chars =
      (keyText k ++ [' ']) ++ ('=' :: [] ++ (' ' :: x.chars)) := by
    simp [Row.chars]
  have hunq : IsUnquoted (Row.entry k x).chars := by
    have hsep : KeepsUnquoted [' ', '=', ' '] := keepsUnquoted_of_not_mem (by decide)
    have hall := (keepsUnquoted_keyText hk).append (hsep.append (keepsUnquoted_chars x))
    have h := hall [] List.not_mem_nil
    rwa [List.append_nil] at h
  have hcount : placesUpToUnquoted ['='] false (quoteParts (Row.entry k x).chars) = 1 := by
    rw [quoteParts_of_isUnquoted hunq]
    have h₁ := places_of_even hq heq [] ([' ', '=', ' '] ++ x.chars)
    have h₂ := places_append (a := [' ']) (c := '=') (by decide) (by decide) []
      (['='] ++ (' ' :: x.chars))
    exact h₁.trans (h₂.trans (places_self (by decide) (' ' :: x.chars)))
  have hcut : Text.splitAtMost ['='] 1 (Row.entry k x).chars =
      [keyText k ++ [' '], ' ' :: x.chars] := by
    rw [hline, Text.splitAtMost_append (by simpa using heq)]
    rfl
  have htrim : Text.trim (keyText k ++ [' ']) = keyText k :=
    Text.trim_concat rfl (trimmed_keyText hk)
  have hvtrim : Text.trim (' ' :: x.chars) = x.chars := Text.trim_cons rfl (trimmed_chars x)
  have hvalue : canBeValue (' ' :: x.chars) = true := rfl
  have hunder : withoutUnderscores (' ' :: x.chars) = ' ' :: x.chars := rfl
  rw [IsCut, entryOf]
  simp only [hcount, hcut]
  rw [cutEntry]
  simp [hvalue, hunder, Text.join, htrim, hvtrim]

/-- An entry is read again with each value that can be read, if its key is as above, has no equals
sign, and has its quotes in pairs. -/
theorem isClean_entry (hn : ∀ c ∈ k.toList, ¬IsNumbered c ∧ c ≠ '.' ∧ c ≠ '=')
    (hx : ¬['\\', 'x'] <:+: k.toList) (hl : k.toList.getLast? ≠ some '\n')
    (hq : k.toList.count '"' % 2 = 0) (h : x.IsEntry) : (Row.entry k x).IsClean := by
  have hk := isKey_of_not_numbered (fun c hc => (hn c hc).1) (fun hc => (hn _ hc).2.1 rfl) hx hl
  have heq : '=' ∉ k.toList := fun hc => (hn _ hc).2.2 rfl
  refine ⟨hk, h, ?_⟩
  by_cases hb : isBareName k = true
  · have hkey : keyText k = k.toList := if_pos hb
    exact isCut_of_even hk (hkey ▸ heq) (hkey ▸ hq) x
  · have hw : Written [] k.toList (escapes k.toList) :=
      written_escapes fun c hc => stands_of_not_numbered (hn c hc).1
    have hsplit := hw.split_eq (List.nil_subset _) (m := 'x') (w := 2) (by decide) (by simp) hx
    have hkey : keyText k = '"' :: (escapes k.toList ++ ['"']) := by
      rw [keyText, if_neg hb, stringText, inQuotes_of_escapes hsplit]
    have hnot := hw.not_mem (c := '=') (by decide) heq
    refine isCut_of_even hk ?_ ?_ x
    · simpa [hkey] using hnot
    · rw [hkey, List.count_cons_self, List.count_append, hw.count_quote, List.count_singleton_self]
      omega

theorem IsName.isClean_entry (hk : IsName k) (h : x.IsEntry) : (Row.entry k x).IsClean := by
  have hclean := hk.isClean
  refine Toml.isClean_entry (fun c hc => ⟨fun hn => ?_, (hk.2 c hc).2.1, (hk.2 c hc).2.2.1⟩)
    (fun hi => ?_) hk.getLast?_ne ?_ h
  · have hp := isPrintable_of_isClean (hclean c hc)
    rw [hn.1] at hp
    cases hp
  · exact (ne_of_isClean (hclean '\\' (hi.subset List.mem_cons_self))).2 rfl
  · rw [List.count_eq_zero_of_not_mem fun hm => (ne_of_isClean (hclean _ hm)).1 rfl]

end CallTree.Toml
