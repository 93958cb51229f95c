import CallTree.Document.Toml.Table
import CallTree.Proofs.Document.Toml.Lines
import CallTree.Proofs.Document.Toml.Value

/-! The rows of a TOML document, read one by one. -/
namespace CallTree.Toml
open scoped Number

variable {c q : Char} {k : String} {a s t line : List Char} {x : Inline} {xs : List Inline}
  {p : List String} {l : Row} {n : Nat} {more : List Char}

/-! ### The characters of rows -/

theorem isPrintable_of_isClean (h : isClean c = true) : Text.isPrintable c = true := by
  simp only [isClean, Bool.and_eq_true] at h
  exact h.1.1

theorem isPrintable_quoted (h : ∀ c ∈ t, Text.isPrintable c = true) :
    ∀ c ∈ '"' :: (t ++ ['"']), Text.isPrintable c = true := by
  intro c hc
  rw [List.mem_cons, List.mem_append, List.mem_singleton] at hc
  obtain rfl | hc | rfl := hc
  · rfl
  · exact h c hc
  · rfl

theorem isPrintable_of_numeric : ∀ c ∈ numericChars, Text.isPrintable c = true := by decide

theorem isPrintable_of_isBare (h : IsBare c) : Text.isPrintable c = true :=
  forall_of_isBare (P := fun c => Text.isPrintable c = true) (by decide) h

mutual
theorem isPrintable_chars (x : Inline) (h : x.IsEntry) :
    ∀ c ∈ x.chars, Text.isPrintable c = true := by
  match x with
  | .bool true | .bool false => decide
  | .int _ | .float _ =>
    exact fun c hc => isPrintable_of_numeric c (numeric_chars (by trivial) c hc)
  | .text u => exact isPrintable_quoted (isPrintable_of_isInside (IsText.inside h))
  | .list xs =>
    intro c hc
    rw [Inline.chars, List.mem_cons, List.mem_append, List.mem_singleton] at hc
    obtain rfl | hc | rfl := hc
    · rfl
    · exact isPrintable_itemChars xs h.2 c hc
    · rfl

theorem isPrintable_itemChars (xs : List Inline) (h : Inline.AreItems xs) :
    ∀ c ∈ Inline.itemChars xs, Text.isPrintable c = true := by
  match xs with
  | [] => simp [Inline.itemChars]
  | x :: xs =>
    intro c hc
    rw [Inline.itemChars, List.mem_cons, List.mem_append, List.mem_cons] at hc
    obtain rfl | hc | rfl | hc := hc
    · rfl
    · exact isPrintable_chars x h.1.isEntry c hc
    · rfl
    · exact isPrintable_itemChars xs h.2 c hc
end

theorem isPrintable_keyText (hk : IsKey k) : ∀ c ∈ keyText k, Text.isPrintable c = true := by
  rw [keyText]
  split
  · next hb => exact fun c hc => isPrintable_of_isBare (hk.isBare hb c hc)
  · next hb => exact isPrintable_quoted (isPrintable_of_isInside (hk.isInside hb))

theorem isPrintable_nameText (hk : IsName k) : ∀ c ∈ nameText k, Text.isPrintable c = true := by
  intro c hc
  obtain rfl | hc := mem_nameText hc
  · rfl
  · exact isPrintable_of_isClean (hk.isClean c hc)

theorem isPrintable_pathText (hp : ∀ k ∈ p, IsName k) :
    ∀ c ∈ pathText p, Text.isPrintable c = true := by
  induction p with
  | nil => simp [pathText, Text.join]
  | cons k p ih =>
    have hk := isPrintable_nameText (hp k List.mem_cons_self)
    by_cases h : p = []
    · rwa [h, pathText_singleton]
    · intro c hc
      rw [pathText_cons k h, List.mem_append, List.mem_cons] at hc
      obtain hc | rfl | hc := hc
      · exact hk c hc
      · rfl
      · exact ih (fun x hx => hp x (List.mem_cons_of_mem k hx)) c hc

theorem lineEnd_not_mem_chars (hl : l.IsClean) : '\n' ∉ l.chars := by
  have hw : ¬Text.isPrintable '\n' = true := by decide
  match l with
  | .entry k x =>
    have hk : '\n' ∉ keyText k := fun hm => hw (isPrintable_keyText hl.1 _ hm)
    have hx : '\n' ∉ x.chars := fun hm => hw (isPrintable_chars x hl.2.1 _ hm)
    simp [Row.chars, hk, hx]
  | .table p | .array p =>
    have hp : '\n' ∉ pathText p := fun hm => hw (isPrintable_pathText hl.2 _ hm)
    simp [Row.chars, hp]

/-! ### Separators outside of quotes -/

/-- How many places of a separator lead to the first one outside of quotes. -/
def places (sep s : List Char) : Nat := placesUpToUnquoted sep false (s.splitOn '"')

theorem places_append (hq : '"' ∉ a) (hc : c ∉ a) (more t : List Char) :
    places (c :: more) (a ++ t) = places (c :: more) t := by
  obtain ⟨p, ps, hp⟩ := List.exists_cons_of_ne_nil (List.splitOn_ne_nil '"' t)
  have hcut := Text.cut?_append_of_not_mem hc more p
  rw [places, Text.splitOn_append_of_not_mem hq, places, hp, List.modifyHead_cons,
    placesUpToUnquoted, placesUpToUnquoted, hcut]
  cases hs : Text.cut? (c :: more) p with
  | some _ => rfl
  | none =>
    rw [hs] at hcut
    simp [Text.occurrences_of_cut? hs, Text.occurrences_of_cut? hcut]

theorem places_append_of_quote {a' : List Char} (hq : '"' ∉ a) (hc : c ∉ a) (hq' : '"' ∉ a')
    (hc' : c ∉ a') (more t : List Char) :
    places (c :: more) (a ++ '"' :: (a' ++ '"' :: t)) = places (c :: more) t := by
  have hcut := Text.cut?_of_not_mem hc more
  have hcut' := Text.cut?_of_not_mem hc' more
  rw [places, List.splitOn_append_cons_self_of_not_mem hq,
    List.splitOn_append_cons_self_of_not_mem hq', placesUpToUnquoted, placesUpToUnquoted,
    Text.occurrences_of_cut? hcut, Text.occurrences_of_cut? hcut']
  simp [hcut, places]

/-- Behind quotes in pairs, text is outside of quotes again. -/
theorem places_of_even (he : a.count '"' % 2 = 0) (hc : c ∉ a) (more t : List Char) :
    places (c :: more) (a ++ t) = places (c :: more) t := by
  -- two quotes at a time
  induction hn : a.length using Nat.strong_induction_on generalizing a with
  | _ n ih =>
    by_cases hq : '"' ∈ a
    · obtain ⟨b, r, rfl, hb⟩ := List.eq_append_cons_of_mem hq
      rw [List.count_append, List.count_eq_zero_of_not_mem hb, List.count_cons_self] at he
      have hr : '"' ∈ r := List.count_pos_iff.mp (by omega)
      obtain ⟨b', r', rfl, hb'⟩ := List.eq_append_cons_of_mem hr
      rw [List.count_append, List.count_eq_zero_of_not_mem hb', List.count_cons_self] at he
      simp only [List.mem_append, List.mem_cons, not_or] at hc
      simp only [List.length_append, List.length_cons] at hn
      have hcut := places_append_of_quote hb hc.1 hb' hc.2.2.1 more (r' ++ t)
      have hrest := ih r'.length (by omega) (by omega) hc.2.2.2.2 rfl
      simpa using hcut.trans hrest
    · exact places_append hq hc more t

theorem count_nameText (hk : IsName k) : (nameText k).count '"' % 2 = 0 := by
  have hd : '"' ∉ k.toList := fun hm => (ne_of_isClean (hk.isClean _ hm)).1 rfl
  rw [nameText]
  split
  · rw [List.count_eq_zero_of_not_mem hd]
  · simp [quotedText, List.count_eq_zero_of_not_mem hd]

theorem count_pathText (hp : ∀ k ∈ p, IsName k) : (pathText p).count '"' % 2 = 0 := by
  induction p with
  | nil => simp [pathText, Text.join]
  | cons k p ih =>
    have hk := count_nameText (hp k List.mem_cons_self)
    by_cases h : p = []
    · rwa [h, pathText_singleton]
    · have hr := ih fun x hx => hp x (List.mem_cons_of_mem k hx)
      rw [pathText_cons k h, List.count_append, List.count_cons_of_ne (by decide)]
      omega

theorem places_self (hq : '"' ∉ c :: more) (t : List Char) :
    places (c :: more) (c :: more ++ t) = 1 := by
  obtain ⟨p, ps, hp⟩ := List.exists_cons_of_ne_nil (List.splitOn_ne_nil '"' t)
  rw [places, Text.splitOn_append_of_not_mem hq, hp, List.modifyHead_cons, placesUpToUnquoted,
    Text.cut?_self]
  rfl

/-- No single quote stands before the first double quote. -/
def IsUnquoted (s : List Char) : Prop := '\'' ∉ s.takeWhile (· != '"')

/-- Text that can be put before any other one. -/
def KeepsUnquoted (s : List Char) : Prop := ∀ t, IsUnquoted t → IsUnquoted (s ++ t)

theorem KeepsUnquoted.append (hs : KeepsUnquoted s) (ht : KeepsUnquoted t) :
    KeepsUnquoted (s ++ t) := fun u hu => by
  rw [List.append_assoc]
  exact hs _ (ht u hu)

theorem keepsUnquoted_of_not_mem (h : '\'' ∉ s) : KeepsUnquoted s := by
  induction s with
  | nil => exact fun t ht => ht
  | cons c s ih =>
    rw [List.mem_cons, not_or] at h
    intro t ht
    have hr := ih h.2 t ht
    unfold IsUnquoted at hr ⊢
    rw [List.cons_append, List.takeWhile_cons]
    split
    · simpa [h.1] using hr
    · exact List.not_mem_nil

theorem keepsUnquoted_quote (s : List Char) : KeepsUnquoted ('"' :: s) := by
  intro t _
  rw [IsUnquoted, List.cons_append, List.takeWhile_cons_of_neg (by simp)]
  exact List.not_mem_nil

theorem keepsUnquoted_nameText (hk : IsName k) : KeepsUnquoted (nameText k) := by
  rw [nameText]
  split
  · next hb =>
    refine keepsUnquoted_of_not_mem fun hm => ?_
    exact (isBare_of_isBareName hk hb _ hm).ne (by simp)
  · exact keepsUnquoted_quote _

theorem keepsUnquoted_pathText (hp : ∀ k ∈ p, IsName k) : KeepsUnquoted (pathText p) := by
  induction p with
  | nil =>
    intro t ht
    simpa [pathText, Text.join] using ht
  | cons k p ih =>
    have hk := keepsUnquoted_nameText (hp k List.mem_cons_self)
    by_cases h : p = []
    · rwa [h, pathText_singleton]
    · have hd : KeepsUnquoted ['.'] := keepsUnquoted_of_not_mem (by decide)
      rw [pathText_cons k h]
      exact hk.append (hd.append (ih fun x hx => hp x (List.mem_cons_of_mem k hx)))

theorem head?_splitOn (c : Char) (s : List Char) :
    (s.splitOn c).head? = some (s.takeWhile (· != c)) := by
  induction s with
  | nil => rfl
  | cons d s ih =>
    rw [List.splitOn_cons_eq_if_modifyHead, List.takeWhile_cons]
    by_cases hd : d = c
    · simp [hd]
    · rw [if_neg (by simpa using hd), List.head?_modifyHead, ih]
      simp [hd]

/-- Then the line is cut at double quotes only. -/
theorem quoteParts_of_isUnquoted (h : IsUnquoted line) : quoteParts line = line.splitOn '"' := by
  obtain ⟨p, ps, hp⟩ := List.exists_cons_of_ne_nil (List.splitOn_ne_nil '"' line)
  have hhead := head?_splitOn '"' line
  rw [hp, List.head?_cons, Option.some.injEq] at hhead
  have hs : '\'' ∉ p := hhead ▸ h
  have hout : ∀ ps, quoteParts.outside (p :: ps) = p :: ps := by
    intro ps
    rw [quoteParts.outside, Text.split, Text.splitAtMost_of_not_mem hs]
    rfl
  rw [quoteParts, Text.split_eq_splitOn, hp]
  cases ps with
  | nil => exact hout []
  | cons q ps => simp [hs, hout]

/-! ### Entries -/

theorem trimmed_nameText (hk : IsName k) : Text.Trimmed (nameText k) := by
  rw [nameText]
  split
  · next hb =>
    exact Text.trimmed_of_not_blank fun c hc => (isBare_of_isBareName hk hb c hc).not_blank
  · exact trimmed_quoted k.toList

theorem getLast?_chars_list (xs : List Inline) : (Inline.list xs).chars.getLast? = some ']' :=
  List.getLast?_append_of_ne_nil ('[' :: Inline.itemChars xs) (List.cons_ne_nil ']' [])

/-- A value begins with no quote, or with one quote and something else. -/
theorem exists_cons_of_isQuote (hx : x.IsEntry) (hlen : ¬x.chars.length < 3) (h : x.chars = c :: t)
    (hc : isQuote c = true) : ∃ d r, t = d :: r ∧ d ≠ c := by
  match x with
  | .bool true | .bool false | .list _ => cases h; cases hc
  | .int _ | .float _ =>
    have hn : c ∈ numericChars := numeric_chars (by trivial) c (h ▸ List.mem_cons_self)
    rw [isQuote_of_numeric c hn] at hc
    cases hc
  | .text u =>
    rw [Inline.chars, stringText, List.cons.injEq] at h
    obtain ⟨rfl, rfl⟩ := h
    match hu : inQuotes u with
    | [] => simp [Inline.chars, stringText, hu] at hlen
    | d :: r =>
      refine ⟨d, r ++ ['"'], rfl, ?_⟩
      rintro rfl
      exact head?_ne_quote (IsText.inside hx) (by rw [hu]; rfl)

/-- No value on a line goes on over the next ones. -/
theorem opensString_chars (hx : x.IsEntry) : opensString x.chars = .ok false := by
  by_cases hlen : x.chars.length < 3
  · rw [opensString, if_pos hlen]
    rfl
  have hopen : ¬(x.chars.head? = some '[' ∧ x.chars.getLast? ≠ some ']' ∧
      beginsWithString (Text.inner x.chars) = true) := by
    rintro ⟨hh, hl, -⟩
    match x with
    | .list xs => exact hl (getLast?_chars_list xs)
    | .bool true | .bool false | .text _ => cases hh
    | .int _ | .float _ =>
      have hn := numeric_chars (by trivial) _ (List.mem_of_head? hh)
      exact absurd hn (by decide)
  obtain ⟨c, t, ht, -⟩ := exists_cons_chars x
  have hthree := exists_cons_of_isQuote hx hlen ht
  rw [opensString, if_neg hlen, if_neg hopen, ht]
  cases hq : isQuote c with
  | false => simp [hq, pure, Except.pure, bind, Except.bind]
  | true =>
    obtain ⟨d, r, rfl, hd⟩ := hthree hq
    simp [hq, hd, pure, Except.pure, bind, Except.bind]

/-! ### Headers -/

theorem closeName_quotedText (k : String) (r : List (List Char)) :
    closeName (quotedText k) r = .ok (quotedText k, r) := by
  have htrim : Text.trim (quotedText k) = quotedText k :=
    Text.trim_eq_self_iff.mpr (trimmed_quoted k.toList)
  have hlast : (quotedText k).getLast? = some '"' :=
    List.getLast?_append_of_ne_nil ('"' :: k.toList) (List.cons_ne_nil '"' [])
  have hclosed : isClosedName (quotedText k) = true := by
    simp only [isClosedName, htrim, hlast]
    simp [quotedText]
  cases r <;> rw [closeName, if_pos hclosed, htrim]

theorem headerNames_map_nameText (hp : ∀ k ∈ p, IsName k) :
    headerNames p.length (p.map nameText) = .ok p := by
  induction p with
  | nil => rfl
  | cons k p ih =>
    have hk := hp k List.mem_cons_self
    have htrim : Text.trim (nameText k) = nameText k :=
      Text.trim_eq_self_iff.mpr (trimmed_nameText hk)
    have hr := ih fun x hx => hp x (List.mem_cons_of_mem k hx)
    rw [List.map_cons, List.length_cons, headerNames, htrim]
    by_cases hb : isBareName k = true
    · have hall := isBare_of_isBareName hk hb
      obtain ⟨c, s, hs⟩ := hk.exists_cons
      have hc := (hall c (hs ▸ List.mem_cons_self)).ne
      have hq : (nameText k).head?.any isQuote = false := by
        simp only [List.mem_cons, not_or] at hc
        rw [nameText, if_pos hb, hs]
        simp [isQuote, hc.1, hc.2.1]
      have hbare : nameText k ≠ [] ∧ (nameText k).all isBareKeyChar = true := by
        rw [nameText, if_pos hb]
        exact ⟨by rw [hs]; exact List.cons_ne_nil c s, List.all_eq_true.mpr hall⟩
      rw [if_neg (by simp [hq]), if_pos hbare, hr, nameText, if_pos hb, String.ofList_toList]
      rfl
    · have hn : nameText k = quotedText k := if_neg hb
      have hq : (quotedText k).head?.any isQuote = true := rfl
      rw [hn, if_pos hq, closeName_quotedText, ok_bind]
      simp only [hr, inner_quotedText, String.ofList_toList]
      rfl

theorem point_not_mem_nameText (hk : IsName k) : '.' ∉ nameText k := by
  intro hm
  obtain hc | hc := mem_nameText hm
  · cases hc
  · exact (hk.2 _ hc).2.1 rfl

theorem splitOn_pathText (hp : ∀ k ∈ p, IsName k) (hne : p ≠ []) :
    (pathText p).splitOn '.' = p.map nameText := by
  rw [pathText, Text.join, List.splitOn_intercalate '.' ?_ (by simpa using hne)]
  intro n hn
  obtain ⟨k, hk, rfl⟩ := List.mem_map.mp hn
  exact point_not_mem_nameText (hp k hk)

/-- The names of a header are those that it was written from. -/
theorem readHeader_pathText (hp : ∀ k ∈ p, IsName k) (hne : p ≠ []) (more : List Char)
    (hq : '"' ∉ more) (hs : '\'' ∉ more) :
    readHeader (']' :: more) (pathText p ++ (']' :: more)) = .ok p := by
  have hunq : IsUnquoted (pathText p ++ (']' :: more)) := by
    have hall := (keepsUnquoted_pathText hp).append (keepsUnquoted_of_not_mem (s := ']' :: more)
      (by simpa using hs)) [] List.not_mem_nil
    rwa [List.append_nil] at hall
  have hcount :
      placesUpToUnquoted (']' :: more) false (quoteParts (pathText p ++ (']' :: more))) = 1 := by
    rw [quoteParts_of_isUnquoted hunq]
    have h₁ := places_of_even (count_pathText hp) (bracket_not_mem_pathText hp) more
      (']' :: more ++ [])
    have h₂ := places_self (by simpa using hq : '"' ∉ ']' :: more) []
    rw [List.append_nil] at h₁ h₂
    exact h₁.trans h₂
  have hcut :
      Text.splitAtMost (']' :: more) 1 (pathText p ++ (']' :: more)) = [pathText p, []] := by
    have h := Text.splitAtMost_append (bracket_not_mem_pathText hp) more [] 0
    rw [List.append_nil] at h
    exact h
  have hjoin : Text.join (']' :: more) [pathText p] = pathText p := by simp [Text.join]
  rw [readHeader]
  simp only [hcount, hcut]
  rw [if_neg (by simp [Text.trim, Text.trimLeft, Text.trimRight])]
  simp only [List.dropLast, hjoin, Text.split_eq_splitOn, splitOn_pathText hp hne, List.length_map]
  exact headerNames_map_nameText hp

/-! ### Rows -/

/-- What a row does to a document. -/
def Row.apply : Row → Document → Read Document
  | .entry k x, d => do return d.set (← add k x.toValue d.here)
  | .table p, d => { d with position := [] }.enterAll false p
  | .array p, d => { d with position := [] }.enterAll true p

def applyAll : List Row → Document → Read Document
  | [], d => .ok d
  | l :: rows, d => do applyAll rows (← l.apply d)

theorem exists_cons_row (hl : l.IsClean) :
    ∃ c s, l.chars = c :: s ∧ Text.isBlank c = false := by
  match l with
  | .entry k x =>
    obtain ⟨c, s, hs, hc⟩ := exists_cons_keyText hl.1
    refine ⟨c, _, by rw [Row.chars, hs]; rfl, ?_⟩
    obtain rfl | hc := hc
    · rfl
    · exact hc.not_blank
  | .table _ | .array _ => exact ⟨'[', _, rfl, rfl⟩

theorem trimmed_row (hl : l.IsClean) : Text.Trimmed l.chars := by
  obtain ⟨c, s, hs, hc⟩ := exists_cons_row hl
  refine ⟨fun d hd => ?_, fun d hd => ?_⟩
  · rw [hs] at hd
    cases hd
    exact hc
  · match l with
    | .entry k x =>
      obtain ⟨c, t, ht, -⟩ := exists_cons_chars x
      have hlast : (Row.entry k x).chars.getLast? = x.chars.getLast? := by
        rw [Row.chars, ← List.append_assoc,
          List.getLast?_append_of_ne_nil _ (ht ▸ List.cons_ne_nil c t)]
      exact (trimmed_chars x).last d (hlast ▸ hd)
    | .table p =>
      have hlast : (Row.table p).chars.getLast? = some ']' :=
        List.getLast?_append_of_ne_nil ('[' :: pathText p) (List.cons_ne_nil ']' [])
      cases hlast.symm.trans hd
      rfl
    | .array p =>
      have hlast : (Row.array p).chars.getLast? = some ']' :=
        List.getLast?_append_of_ne_nil ('[' :: '[' :: pathText p) (List.cons_ne_nil ']' [']'])
      cases hlast.symm.trans hd
      rfl

theorem assign_entry (hl : (Row.entry k x).IsClean) (hn : x.chars.length < n) (t : Value) :
    assign (value n) t (Row.entry k x).chars = (add k x.toValue t).map fun t => (t, none) := by
  obtain ⟨hk, hx, hcut⟩ := hl
  have hv := value_chars x hx n hn _ wellSpaced_chars
  rw [assign, hcut, ok_bind]
  simp only [hk.read, ok_bind, inTable, opensString_chars hx, hv, if_false, Bool.false_eq_true]
  cases add k x.toValue t <;> rfl

theorem readLine_entry (hl : (Row.entry k x).IsClean) (d : Document) :
    readLine (Row.entry k x).chars d = ((Row.entry k x).apply d).map (⟨·, none⟩) := by
  obtain ⟨c, s, hs, hc⟩ := exists_cons_keyText hl.1
  have hline : (Row.entry k x).chars = c :: (s ++ ([' ', '=', ' '] ++ x.chars)) := by
    rw [Row.chars, hs]
    rfl
  have hne : c ≠ '[' ∧ c ≠ '\x7b' := by
    obtain rfl | hc := hc
    · decide
    · exact forall_of_isBare (P := fun c => c ≠ '[' ∧ c ≠ '\x7b') (by decide) hc
  have hequals : (Row.entry k x).chars.contains '=' = true := by
    simp [Row.chars]
  have hassign := assign_entry hl (n := (Row.entry k x).chars.length + 1)
    (by simp only [Row.chars, List.length_append]; omega) d.here
  rw [readLine.eq_def]
  split
  · next h => exact absurd (List.cons.inj (hline.symm.trans h)).1 hne.1
  · next h => exact absurd (List.cons.inj (hline.symm.trans h)).1 hne.1
  · next h => exact absurd (List.cons.inj (hline.symm.trans h)).1 hne.1
  · next h => exact absurd (List.cons.inj (hline.symm.trans h)).1 hne.2
  · rw [if_pos hequals, hassign, Row.apply]
    cases add k x.toValue d.here <;> rfl

theorem readLine_table (hp : ∀ k ∈ p, IsName k) (hne : p ≠ []) (d : Document) :
    readLine (Row.table p).chars d = ((Row.table p).apply d).map (⟨·, none⟩) := by
  obtain ⟨c, s, hs, hc⟩ := exists_cons_pathText hne hp
  have hh := readHeader_pathText hp hne [] List.not_mem_nil List.not_mem_nil
  have hne' : c ≠ '[' := by
    obtain rfl | hc := hc
    · decide
    · exact forall_of_isBare (P := fun c => c ≠ '[') (by decide) hc
  have hline : (Row.table p).chars = '[' :: c :: (s ++ [']']) := by
    rw [Row.chars, hs]
    rfl
  rw [readLine.eq_def]
  split
  · next h => cases hline.symm.trans h
  · next h => exact absurd (List.cons.inj (List.cons.inj (hline.symm.trans h)).2).1 hne'
  · next h =>
    obtain rfl := (List.cons.inj h).2
    rw [hh, ok_bind, Row.apply]
    cases Document.enterAll false p { d with position := [] } <;> rfl
  · next h => cases hline.symm.trans h
  · next h _ => exact (h _ hline).elim

theorem readLine_array (hp : ∀ k ∈ p, IsName k) (hne : p ≠ []) (d : Document) :
    readLine (Row.array p).chars d = ((Row.array p).apply d).map (⟨·, none⟩) := by
  have hh := readHeader_pathText hp hne [']'] (by decide) (by decide)
  rw [Row.chars, readLine, hh, ok_bind, Row.apply]
  cases Document.enterAll true p { d with position := [] } <;> rfl

/-- A row is read as what it does. -/
theorem step_row (hl : l.IsClean) (d : Document) :
    step l.chars ⟨d, none⟩ = (l.apply d).map (⟨·, none⟩) := by
  obtain ⟨c, s, hs, -⟩ := exists_cons_row hl
  have htrim : Text.trim l.chars = l.chars := Text.trim_eq_self_iff.mpr (trimmed_row hl)
  have hne : l.chars ≠ [] := by rw [hs]; exact List.cons_ne_nil c s
  rw [step]
  simp only [htrim, if_neg hne]
  match l with
  | .entry k x => exact readLine_entry hl d
  | .table p => exact readLine_table hl.2 hl.1 d
  | .array p => exact readLine_array hl.2 hl.1 d

theorem steps_spells {rows : List Row} (h : Spells rows t) (hr : ∀ l ∈ rows, l.IsClean)
    (d : Document) :
    steps (t.splitOn '\n') ⟨d, none⟩ = (applyAll rows d).map (⟨·, none⟩) := by
  induction h generalizing d with
  | nil => rfl
  | blank h ih =>
    rename_i rows t
    have hsplit : ('\n' :: t).splitOn '\n' = [] :: t.splitOn '\n' :=
      List.splitOn_append_cons_self_of_not_mem List.not_mem_nil t
    rw [hsplit, steps]
    exact ih hr d
  | row l h ih =>
    have hl := hr l List.mem_cons_self
    rw [List.splitOn_append_cons_self_of_not_mem (lineEnd_not_mem_chars hl), steps, step_row hl,
      applyAll]
    cases hd : l.apply d with
    | error f => rfl
    | ok d' => exact ih (fun x hx => hr x (List.mem_cons_of_mem l hx)) d'

/-- A document that is written from rows is read row by row. -/
theorem read_spells {rows : List Row} (h : Spells rows t) (hr : ∀ l ∈ rows, l.IsClean) :
    read t = (applyAll rows Document.empty).map (·.root) := by
  rw [read, lines_spells h hr, ok_bind, steps_spells h hr]
  cases applyAll rows Document.empty <;> rfl

end CallTree.Toml
