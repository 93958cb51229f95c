import CallTree.Proofs.Digits
import CallTree.Proofs.Document.Toml.Strings
import CallTree.Proofs.Hex

/-! The escapes in the strings of a TOML document: how they are written, and how they are read. -/
namespace CallTree.Toml
open scoped Number

variable {c d m : Char} {w : Nat} {s t k more : List Char}

/-! ### The ways in which characters are written -/

/-- Escapes of one character, with the character that each stands for. -/
def shortForms : List (Char × Char) :=
  [('t', '\t'), ('n', '\n'), ('r', '\r'), ('"', '"'), ('\\', '\\')]

/-- Escapes by number, with the number of digits of each. -/
def numberForms : List (Char × Nat) := [('x', 2), ('u', 4), ('U', 8)]

/-- A character that is written by its number. -/
def IsNumbered (c : Char) : Prop := Text.isPrintable c = false ∧ c ∉ ['\t', '\n', '\r']

instance (c : Char) : Decidable (IsNumbered c) :=
  inferInstanceAs (Decidable (Text.isPrintable c = false ∧ c ∉ ['\t', '\n', '\r']))

theorem eq_ofNat {n : Nat} (h : c.toNat = n) : c = Char.ofNat n := by
  rw [← h, Char.ofNat_toNat]

theorem toNat_lt (c : Char) : c.toNat < 0x110000 := by
  rcases c.valid with h | h
  · exact Nat.lt_trans h (by decide)
  · exact h.2

theorem escapeControl_cases (hp : Text.isPrintable c = false) :
    (∃ d, (d, c) ∈ shortForms ∧ Text.escapeControl c.toNat = ['\\', d]) ∨
    IsNumbered c ∧ ∃ m w, (m, w) ∈ numberForms ∧ c.toNat < 16 ^ w ∧
      Text.escapeControl c.toNat = '\\' :: m :: Text.hex w c.toNat := by
  have hlt := toNat_lt c
  rw [Text.escapeControl]
  split
  · next h => exact .inl ⟨'t', by rw [eq_ofNat h]; decide, rfl⟩
  split
  · next h => exact .inl ⟨'n', by rw [eq_ofNat h]; decide, rfl⟩
  split
  · next h => exact .inl ⟨'r', by rw [eq_ofNat h]; decide, rfl⟩
  next ht hn hr =>
  have hc : IsNumbered c := by
    refine ⟨hp, fun hm => ?_⟩
    simp only [List.mem_cons, List.not_mem_nil, or_false] at hm
    obtain rfl | rfl | rfl := hm
    · exact ht rfl
    · exact hn rfl
    · exact hr rfl
  refine .inr ⟨hc, ?_⟩
  split
  · exact ⟨'x', 2, by decide, by omega, rfl⟩
  split
  · exact ⟨'u', 4, by decide, by omega, rfl⟩
  · exact ⟨'U', 8, by decide, by omega, rfl⟩

/-- A character is written as it is, by another one behind a backslash, or by its number. -/
theorem escapeChar_cases (c : Char) :
    (isClean c = true ∧ Text.escapeChar '"' c = [c]) ∨
    (∃ d, (d, c) ∈ shortForms ∧ Text.escapeChar '"' c = ['\\', d]) ∨
    IsNumbered c ∧ ∃ m w, (m, w) ∈ numberForms ∧ c.toNat < 16 ^ w ∧
      Text.escapeChar '"' c = '\\' :: m :: Text.hex w c.toNat := by
  unfold Text.escapeChar
  split
  · next h =>
    rw [Bool.or_eq_true, beq_iff_eq, beq_iff_eq] at h
    obtain rfl | rfl := h
    · exact .inr (.inl ⟨'"', by decide, rfl⟩)
    · exact .inr (.inl ⟨'\\', by decide, rfl⟩)
  · next h =>
    rw [Bool.or_eq_true, beq_iff_eq, beq_iff_eq, not_or] at h
    split
    · next hp => exact .inl ⟨by simp [isClean, hp, h.1, h.2], rfl⟩
    · next hp => exact .inr (escapeControl_cases (eq_false_of_ne_true hp))

theorem escapeChar_of_isClean (h : isClean c = true) : Text.escapeChar '"' c = [c] := by
  obtain ⟨hq, hb⟩ := ne_of_isClean h
  simp only [isClean, Bool.and_eq_true] at h
  simp [Text.escapeChar, hq, hb, h.1.1]

theorem isClean_of_mem_hex {n : Nat} (h : n < 16 ^ (w + 1)) :
    ∀ x ∈ Text.hex (w + 1) n, isClean x = true :=
  Text.forall_of_mem_hex (by decide) h

theorem exists_succ_of_mem_numberForms (h : (m, w) ∈ numberForms) :
    ∃ v, w = v + 1 ∧ isClean m = true := by
  simp only [numberForms, List.mem_cons, Prod.mk.injEq, List.not_mem_nil, or_false] at h
  obtain ⟨rfl, rfl⟩ | ⟨rfl, rfl⟩ | ⟨rfl, rfl⟩ := h
  · exact ⟨1, rfl, by decide⟩
  · exact ⟨3, rfl, by decide⟩
  · exact ⟨7, rfl, by decide⟩

/-- Behind the backslash of an escape by number there is no other one, nor a quote. -/
theorem isClean_of_number (h : (m, w) ∈ numberForms) (hn : c.toNat < 16 ^ w) :
    ∀ x ∈ m :: Text.hex w c.toNat, isClean x = true := by
  obtain ⟨v, rfl, hm⟩ := exists_succ_of_mem_numberForms h
  simpa using And.intro hm (isClean_of_mem_hex hn)

/-! ### Writing -/

/-- Text with its escapes, as it stands between double quotes. -/
def escapes (t : List Char) : List Char := t.flatMap (Text.escapeChar '"')

theorem escapes_cons (c : Char) (t : List Char) :
    escapes (c :: t) = Text.escapeChar '"' c ++ escapes t := List.flatMap_cons

theorem escapes_of_isClean (h : ∀ c ∈ t, isClean c = true) : escapes t = t := by
  rw [escapes, List.flatMap_congr fun c hc => escapeChar_of_isClean (h c hc),
    List.flatMap_singleton']

theorem isInside_escaped (h : Text.isPrintable d = true) (more : List Char) :
    isInside false ('\\' :: d :: more) = isInside false more := by
  have hb : Text.isPrintable '\\' = true := by decide
  simp [isInside, hb, h]

theorem isPrintable_of_mem_shortForms (h : (d, c) ∈ shortForms) : Text.isPrintable d = true := by
  have hall : ∀ e ∈ shortForms, Text.isPrintable e.1 = true := by
    simp only [shortForms, List.forall_mem_cons]
    decide
  exact hall _ h

theorem isInside_escapes (t : List Char) : isInside false (escapes t) = true := by
  induction t with
  | nil => rfl
  | cons c t ih =>
    rw [escapes_cons]
    obtain ⟨hc, he⟩ | ⟨d, hd, he⟩ | ⟨-, m, w, hm, hn, he⟩ := escapeChar_cases c
    · rw [he, isInside_append_of_isClean (by simpa using hc), ih]
    · have hp := isPrintable_of_mem_shortForms hd
      rw [he, List.cons_append, List.cons_append, isInside_escaped hp]
      exact ih
    · have hclean := isClean_of_number hm hn
      have hp := hclean m List.mem_cons_self
      simp only [isClean, Bool.and_eq_true] at hp
      rw [he, List.cons_append, List.cons_append, isInside_escaped hp.1.1,
        isInside_append_of_isClean fun x hx => hclean x (List.mem_cons_of_mem m hx), ih]

/-- In single quotes only the quotes are written in another way. -/
theorem escapeChar_single (c : Char) : Text.escapeChar '\'' c =
    if c = '\'' then ['\\', '\''] else if c = '"' then ['"'] else Text.escapeChar '"' c := by
  by_cases hs : c = '\''
  · subst hs
    rfl
  by_cases hd : c = '"'
  · subst hd
    rfl
  rw [if_neg hs, if_neg hd]
  simp [Text.escapeChar, hs, hd]

theorem replace_append_of_not_mem {a new : List Char} (h : c ∉ a) (more s : List Char) :
    Text.replace (c :: more) new (a ++ s) = a ++ Text.replace (c :: more) new s := by
  induction a with
  | nil => rfl
  | cons x a ih =>
    rw [List.mem_cons, not_or] at h
    rw [List.cons_append, Text.replace_cons (List.cons_ne_nil c more) ?_, ih h.2]
    · rfl
    · rw [List.cons_prefix_cons]
      exact fun hp => h.1 hp.1

theorem head?_flatMap_escapeChar (t : List Char) :
    (t.flatMap (Text.escapeChar '\'')).head? ≠ some '\'' := by
  match t with
  | [] => simp
  | c :: t =>
    rw [List.flatMap_cons, escapeChar_single]
    split
    · simp
    split
    · simp
    · next hs _ =>
      obtain ⟨-, he⟩ | ⟨d, -, he⟩ | ⟨-, m, w, -, -, he⟩ := escapeChar_cases c <;> rw [he]
      · simpa using hs
      · simp
      · simp

theorem quote_not_mem_escapeChar (h : c ≠ '"') : '"' ∉ Text.escapeChar '"' c := by
  obtain ⟨-, he⟩ | ⟨d, hd, he⟩ | ⟨-, m, w, hm, hn, he⟩ := escapeChar_cases c <;> rw [he]
  · simpa using Ne.symm h
  · have hall : ∀ e ∈ shortForms, e.1 = '"' → e.2 = '"' := by
      simp only [shortForms, List.forall_mem_cons]
      decide
    intro hq
    simp only [List.mem_cons, List.not_mem_nil, or_false] at hq
    obtain hq | hq := hq
    · cases hq
    · exact h (hall _ hd hq.symm)
  · intro hq
    obtain hq | hq := List.mem_cons.mp hq
    · cases hq
    · exact (ne_of_isClean (isClean_of_number hm hn _ hq)).1 rfl

/-- The single quotes of text in single quotes lose their backslashes. -/
theorem replace_single (c : Char) {s : List Char} (hs : s.head? ≠ some '\'') :
    Text.replace ['\\', '\''] ['\''] (Text.escapeChar '\'' c ++ s) =
      (if c = '"' then ['"'] else Text.escapeChar '"' c) ++
        Text.replace ['\\', '\''] ['\''] s := by
  have hne : ['\\', '\''] ≠ [] := List.cons_ne_nil _ _
  have hfirst : ∀ d r, d ≠ '\'' → ¬['\\', '\''] <+: '\\' :: d :: r := fun d r hd => by
    simpa [List.cons_prefix_cons] using Ne.symm hd
  rw [escapeChar_single]
  by_cases hq : c = '\''
  · subst hq
    exact Text.replace_append_self hne ['\''] s
  rw [if_neg hq]
  by_cases hd : c = '"'
  · subst hd
    exact replace_append_of_not_mem (by decide) ['\''] s
  rw [if_neg hd]
  obtain ⟨hc, he⟩ | ⟨d, hd, he⟩ | ⟨-, m, w, hm, hn, he⟩ := escapeChar_cases c <;> rw [he]
  · exact replace_append_of_not_mem (by simpa using (ne_of_isClean hc).2.symm) ['\''] s
  · have hall : ∀ e ∈ shortForms, e.1 ≠ '\'' := by
      simp only [shortForms, List.forall_mem_cons]
      decide
    have hsecond : ¬['\\', '\''] <+: d :: s := by
      rw [List.cons_prefix_cons]
      rintro ⟨-, r, rfl⟩
      exact hs rfl
    rw [List.cons_append, List.cons_append, List.nil_append,
      Text.replace_cons hne (hfirst d s (hall _ hd)), Text.replace_cons hne hsecond]
    rfl
  · have hclean := isClean_of_number hm hn
    have hb : '\\' ∉ m :: Text.hex w c.toNat := fun hx => (ne_of_isClean (hclean _ hx)).2 rfl
    have hm' : m ≠ '\'' := by
      rintro rfl
      simp [numberForms] at hm
    rw [List.cons_append, List.cons_append, Text.replace_cons hne (hfirst m _ hm'),
      ← List.cons_append, replace_append_of_not_mem hb]
    rfl

/-- Text in single quotes becomes text in double quotes. -/
theorem replace_quotes (t : List Char) :
    Text.replace ['"'] ['\\', '"'] (Text.replace ['\\', '\''] ['\'']
      (t.flatMap (Text.escapeChar '\''))) = escapes t := by
  have hsingle : Text.replace ['\\', '\''] ['\''] (t.flatMap (Text.escapeChar '\'')) =
      t.flatMap fun c => if c = '"' then ['"'] else Text.escapeChar '"' c := by
    induction t with
    | nil => exact Text.replace_nil _ _
    | cons c t ih =>
      rw [List.flatMap_cons, replace_single c (head?_flatMap_escapeChar t), ih, List.flatMap_cons]
  rw [hsingle]
  clear hsingle
  induction t with
  | nil => exact Text.replace_nil _ _
  | cons c t ih =>
    rw [List.flatMap_cons, escapes_cons]
    split
    · next h =>
      subst h
      rw [Text.replace_append_self (List.cons_ne_nil _ _), ih]
      rfl
    · next h => rw [replace_append_of_not_mem (quote_not_mem_escapeChar h), ih]

/-- Unless there is an escape by two digits in it, a text is written with the escapes of double
quotes. -/
theorem printString_of_escapes {s : String}
    (h : Text.split ['\\', 'x'] (escapes s.toList) = [escapes s.toList]) :
    printString s = .ok ('"' :: (escapes s.toList ++ ['"'])) := by
  have hbody : (if (Text.quoted s.toList).head? = some '\'' then
      Text.replace ['"'] ['\\', '"'] (Text.replace ['\\', '\''] ['\'']
        (Text.inner (Text.quoted s.toList)))
      else Text.inner (Text.quoted s.toList)) = escapes s.toList := by
    have hinner : ∀ (q : Char) (t : List Char), Text.inner (q :: t ++ [q]) = t := fun q t => by
      simp [Text.inner]
    rw [Text.quoted, hinner]
    by_cases hq : Text.quoteFor (s.toList.contains '\'') (s.toList.contains '"') = '\''
    · rw [hq, if_pos (by rfl), replace_quotes]
    · have hd : Text.quoteFor (s.toList.contains '\'') (s.toList.contains '"') = '"' := by
        unfold Text.quoteFor at hq ⊢
        split at hq
        · next h => rw [if_pos h]
        · exact absurd rfl hq
      rw [hd, if_neg (by simp)]
      rfl
  rw [printString]
  simp only [hbody, h]
  rfl

end CallTree.Toml
