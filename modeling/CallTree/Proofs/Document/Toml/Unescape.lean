import CallTree.Proofs.Document.Toml.Escapes

/-! Reading the escapes in the strings of a TOML document. -/
namespace CallTree.Toml

variable {c d m : Char} {w : Nat} {s t k : List Char} {forms : List (Char × Nat)}

/-- Escapes by number that can be read. -/
def longForms : List (Char × Nat) := [('u', 4), ('U', 8)]

/-- The ways in which a character can stand in a string that has escapes by number of some forms. -/
inductive Stands (forms : List (Char × Nat)) (c : Char) : List Char → Prop
  | plain (h : c ≠ '\\') : Stands forms c [c]
  | short (d : Char) (h : (d, c) ∈ shortForms) : Stands forms c ['\\', d]
  | number (m : Char) (w : Nat) (h : (m, w) ∈ forms) (hc : c ≠ '\\') (hn : c.toNat < 16 ^ w) :
      Stands forms c ('\\' :: m :: Text.hex w c.toNat)

/-- Text `t` is written as `s`, character by character. -/
inductive Written (forms : List (Char × Nat)) : List Char → List Char → Prop
  | nil : Written forms [] []
  | cons {c : Char} {k t s : List Char} (h : Stands forms c k) (hs : Written forms t s) :
      Written forms (c :: t) (k ++ s)

/-! ### Where escapes begin -/

theorem ne_of_mem_numberForms (h : (m, w) ∈ numberForms) :
    m ≠ '\\' ∧ ∀ e ∈ shortForms, e.1 ≠ m := by
  have hall : ∀ f ∈ numberForms, f.1 ≠ '\\' ∧ ∀ e ∈ shortForms, e.1 ≠ f.1 := by
    simp only [numberForms, shortForms, List.forall_mem_cons]
    decide
  exact hall _ h

theorem Stands.endsEscaped (hf : forms ⊆ numberForms) (h : Stands forms c k) :
    Text.endsEscaped k = false := by
  cases h with
  | plain h => exact Text.endsEscaped_concat h []
  | short d h =>
    by_cases hd : d = '\\'
    · subst hd
      rfl
    · exact Text.endsEscaped_concat hd ['\\']
  | number m w h hc hn =>
    have hclean := isClean_of_number (hf h) hn
    obtain hnil | ⟨a, d, hd⟩ := (m :: Text.hex w c.toNat).eq_nil_or_concat
    · cases hnil
    · rw [hd, List.concat_eq_append] at hclean ⊢
      exact Text.endsEscaped_concat (ne_of_isClean (hclean d (by simp))).2 ('\\' :: a)

theorem Written.head? (h : Written forms t s) (hm : m ≠ '\\') (hs : s.head? = some m) :
    t.head? = some m := by
  cases h with
  | nil => cases hs
  | cons h _ =>
    cases h with
    | plain _ => exact hs
    | short d _ => exact absurd (Option.some.inj hs).symm hm
    | number => exact absurd (Option.some.inj hs).symm hm

/-- A character that is not written by number of the form `m` belongs to a piece as a whole. -/
theorem Stands.split_append (h : Stands forms c k) (hf : forms ⊆ numberForms)
    (hm : (m, w) ∈ numberForms) (hne : ∀ f ∈ forms, f.1 ≠ m)
    (hs : c = '\\' → s.head? ≠ some m) :
    Text.split ['\\', m] (k ++ s) = (Text.split ['\\', m] s).modifyHead (k ++ ·) := by
  obtain ⟨hb, hshort⟩ := ne_of_mem_numberForms hm
  have hnil : ['\\', m] ≠ [] := List.cons_ne_nil _ _
  have hfirst : ∀ d r, d ≠ m → ¬['\\', m] <+: '\\' :: d :: r := fun d r hd => by
    simpa [List.cons_prefix_cons] using Ne.symm hd
  cases h with
  | plain h => exact Text.split_append_of_not_mem (by simpa using Ne.symm h) [m] s
  | short d h =>
    have hsecond : ¬['\\', m] <+: d :: s := by
      rw [List.cons_prefix_cons]
      rintro ⟨rfl, r, rfl⟩
      have hall : ∀ e ∈ shortForms, e.1 = '\\' → e.2 = '\\' := by
        simp only [shortForms, List.forall_mem_cons]
        decide
      exact hs (hall _ h rfl) rfl
    rw [List.cons_append, List.cons_append, List.nil_append,
      Text.split_cons hnil (hfirst d s (hshort _ h)), Text.split_cons hnil hsecond,
      List.modifyHead_modifyHead]
    rfl
  | number m' w' h hc hn =>
    have hclean := isClean_of_number (hf h) hn
    have hnot : '\\' ∉ m' :: Text.hex w' c.toNat := fun hx => (ne_of_isClean (hclean _ hx)).2 rfl
    have happ := Text.split_append_of_not_mem hnot [m] s
    rw [List.cons_append, List.cons_append, Text.split_cons hnil (hfirst m' _ (hne _ h)),
      ← List.cons_append, happ, List.modifyHead_modifyHead]
    rfl

/-- Before the mark of an escape stands no backslash that is a character of the text. -/
theorem Written.head?_ne (h : Written forms t s) (hm : (m, w) ∈ numberForms)
    (ht : ¬['\\', m] <:+: c :: t) : c = '\\' → s.head? ≠ some m := by
  rintro rfl hs
  have hhead := h.head? (ne_of_mem_numberForms hm).1 hs
  obtain ⟨r, rfl⟩ : ∃ r, t = m :: r := by
    cases t with
    | nil => cases hhead
    | cons x r => exact ⟨r, by rw [Option.some.inj hhead]⟩
  exact ht ⟨[], r, rfl⟩

theorem not_infix_of_cons (h : ¬k <:+: c :: t) : ¬k <:+: t :=
  fun hk => h (hk.trans (List.suffix_cons c t).isInfix)

/-- Text without escapes of a form is not cut. -/
theorem Written.split_eq (h : Written forms t s) (hf : forms ⊆ numberForms)
    (hm : (m, w) ∈ numberForms) (hne : ∀ f ∈ forms, f.1 ≠ m) (ht : ¬['\\', m] <:+: t) :
    Text.split ['\\', m] s = [s] := by
  induction h with
  | nil => rfl
  | cons hk hs ih =>
    rw [hk.split_append hf hm hne (hs.head?_ne hm ht), ih (not_infix_of_cons ht)]
    rfl

/-! ### Escapes by number -/

theorem digitValue?_digitChar : ∀ d < 16, (Number.digitValue? 16 d.digitChar).isSome = true := by
  decide

/-- The number of a character is that of no half of a pair. -/
theorem readCodePoint_hex (h : (m, w) ∈ longForms) (hn : c.toNat < 16 ^ w) :
    readCodePoint (Text.hex w c.toNat) = .ok c := by
  have hlt := toNat_lt c
  have hhalf : c.toNat < 0xd800 ∨ 0xdfff < c.toNat := c.valid.imp_right And.left
  have hall : ∀ v, c.toNat < 16 ^ (v + 1) →
      (Text.hex (v + 1) c.toNat).all (fun c => (Number.digitValue? 16 c).isSome) = true :=
    fun v hv => List.all_eq_true.mpr (Text.forall_of_mem_hex digitValue?_digitChar hv)
  simp only [longForms, List.mem_cons, Prod.mk.injEq, List.not_mem_nil, or_false] at h
  obtain ⟨rfl, rfl⟩ | ⟨rfl, rfl⟩ := h
  · have hvalue := Text.ofDigits_hex hn
    have hd : ∀ d < 16, d.digitChar.toLower = 'd' → d = 13 := by decide
    have hseven : ∀ d < 8, '0' ≤ d.digitChar ∧ d.digitChar ≤ '7' := by decide
    have hfirst := hd (c.toNat / 4096) (by omega)
    rw [readCodePoint.eq_def, hall 3 hn]
    rw [Text.hex_four hn] at hvalue ⊢
    simp only [hvalue, Bool.not_true, Bool.false_eq_true, if_false, Char.ofNat_toNat]
    split
    · next h => rw [if_pos (hseven _ (by have := hfirst h; omega))]
    · rfl
  · have hvalue := Text.ofDigits_hex hn
    rw [readCodePoint.eq_def, hall 7 hn]
    rw [Text.hex_of_lt (by omega)] at hvalue ⊢
    simp only [hvalue, Bool.not_true, Bool.false_eq_true, if_false, Char.ofNat_toNat]
    rw [if_neg (by decide), if_pos hlt]

theorem codePoints_cons (h : (m, w) ∈ longForms) (hn : c.toNat < 16 ^ w) {p u : List Char}
    {r : List (List Char)} (hr : codePoints ['\\', m] w false r = .ok u) :
    codePoints ['\\', m] w false ((Text.hex w c.toNat ++ p) :: r) = .ok (c :: (p ++ u)) := by
  have hlen : (Text.hex w c.toNat).length = w := by
    simp only [longForms, List.mem_cons, Prod.mk.injEq, List.not_mem_nil, or_false] at h
    obtain ⟨rfl, rfl⟩ | ⟨rfl, rfl⟩ := h <;> exact Text.length_hex hn
  rw [codePoints, List.take_left' hlen, List.drop_left' hlen, readCodePoint_hex h hn]
  simp only [bind, Except.bind, hr]
  rfl

theorem longForms_subset : longForms ⊆ numberForms := by decide

/-- Escapes by number of one form are replaced by their characters. -/
theorem Written.replaceCodePoints_ok (h : Written ((m, w) :: forms) t s) (hm : (m, w) ∈ longForms)
    (hf : forms ⊆ numberForms) (hne : ∀ f ∈ forms, f.1 ≠ m) (ht : ¬['\\', m] <:+: t) :
    ∃ s', replaceCodePoints ['\\', m] w s = .ok s' ∧ Written forms t s' := by
  have hm' := longForms_subset hm
  -- every piece ends with no open escape, so each mark stands for a character
  have hsplit : ∃ p r u, Text.split ['\\', m] s = p :: r ∧ Text.endsEscaped p = false ∧
      codePoints ['\\', m] w false r = .ok u ∧ Written forms t (p ++ u) := by
    induction h with
    | nil => exact ⟨[], [], [], rfl, rfl, rfl, .nil⟩
    | @cons c k t s hk hs ih =>
      obtain ⟨p, r, u, hp, he, hr, hu⟩ := ih (not_infix_of_cons ht)
      have hkeep : Stands forms c k → ∃ p r u, Text.split ['\\', m] (k ++ s) = p :: r ∧
          Text.endsEscaped p = false ∧ codePoints ['\\', m] w false r = .ok u ∧
          Written forms (c :: t) (p ++ u) := fun hk => by
        refine ⟨k ++ p, r, u, ?_, ?_, hr, ?_⟩
        · rw [hk.split_append hf hm' hne (hs.head?_ne hm' ht), hp]
          rfl
        · rw [Text.endsEscaped_append (hk.endsEscaped hf), he]
        · rw [List.append_assoc]
          exact .cons hk hu
      cases hk with
      | plain h => exact hkeep (.plain h)
      | short d h => exact hkeep (.short d h)
      | number m' w' h hc hn =>
        obtain h | h := List.mem_cons.mp h
        · cases h
          have hnot : '\\' ∉ Text.hex w c.toNat := fun hx =>
            (ne_of_isClean (isClean_of_number hm' hn _ (List.mem_cons_of_mem m hx))).2 rfl
          have hread : Written forms (c :: t) ([c] ++ (p ++ u)) := .cons (.plain hc) hu
          refine ⟨[], (Text.hex w c.toNat ++ p) :: r, c :: (p ++ u), ?_, rfl,
            codePoints_cons hm hn hr, hread⟩
          have hnil : ['\\', m] ≠ [] := List.cons_ne_nil _ _
          have hself := Text.split_append_self hnil (Text.hex w c.toNat ++ s)
          rw [Text.split_append_of_not_mem hnot, hp] at hself
          exact hself
        · exact hkeep (.number m' w' h hc hn)
  obtain ⟨p, r, u, hp, he, hr, hu⟩ := hsplit
  refine ⟨p ++ u, ?_, hu⟩
  rw [replaceCodePoints, hp]
  simp only [he, hr]
  rfl

/-! ### Short escapes -/

theorem unescape_cons (h : c ≠ '\\') (s : List Char) :
    unescape (c :: s) = (unescape s).map (c :: ·) := by
  rw [unescape.eq_def]
  split <;> simp_all

theorem Written.unescape_eq (h : Written [] t s) : unescape s = .ok t := by
  induction h with
  | nil => rfl
  | cons hk hs ih =>
    cases hk with
    | plain h =>
      rw [List.singleton_append, unescape_cons h, ih]
      rfl
    | short d h =>
      rw [List.cons_append, List.singleton_append, unescape, ih]
      simp only [shortForms, List.mem_cons, Prod.mk.injEq, List.not_mem_nil, or_false] at h
      obtain ⟨rfl, rfl⟩ | ⟨rfl, rfl⟩ | ⟨rfl, rfl⟩ | ⟨rfl, rfl⟩ | ⟨rfl, rfl⟩ := h <;> rfl
    | number m w h => cases h

/-- All escapes that are written are known. -/
theorem Written.knownEscapes_eq (h : Written longForms t s) :
    ∃ p r, Text.split ['\\'] s = p :: r ∧ knownEscapes false r = true := by
  have hnil : ['\\'] ≠ [] := List.cons_ne_nil _ _
  induction h with
  | nil => exact ⟨[], [], rfl, rfl⟩
  | @cons c k t s hk hs ih =>
    obtain ⟨p, r, hp, hr⟩ := ih
    have hback : ∀ s, Text.split ['\\'] ('\\' :: s) = [] :: Text.split ['\\'] s :=
      Text.split_append_self hnil
    cases hk with
    | plain h =>
      refine ⟨c :: p, r, ?_, hr⟩
      rw [Text.split_append_of_not_mem (by simpa using Ne.symm h), hp]
      rfl
    | short d h =>
      rw [List.cons_append, hback]
      by_cases hd : d = '\\'
      · subst hd
        rw [List.singleton_append, hback, hp]
        refine ⟨_, _, rfl, ?_⟩
        cases p <;> simpa [knownEscapes] using hr
      · have hall : ∀ e ∈ shortForms, e.1 ≠ '\\' → (shortEscapes.lookup e.1).isSome = true := by
          simp only [shortForms, List.forall_mem_cons]
          decide
        rw [Text.split_append_of_not_mem (by simpa using Ne.symm hd), hp]
        refine ⟨_, _, rfl, ?_⟩
        have hknown := hall _ h hd
        simp only [List.modifyHead_cons, List.singleton_append, knownEscapes, hknown, hr]
        rfl
    | number m w h hc hn =>
      have hclean := isClean_of_number (longForms_subset h) hn
      have hnot : '\\' ∉ m :: Text.hex w c.toNat := fun hx => (ne_of_isClean (hclean _ hx)).2 rfl
      have hknown : (m == 'u' || m == 'U') = true := by
        have hall : ∀ f ∈ longForms, (f.1 == 'u' || f.1 == 'U') = true := by
          simp only [longForms, List.forall_mem_cons]
          decide
        exact hall _ h
      rw [List.cons_append, hback, Text.split_append_of_not_mem hnot, hp]
      refine ⟨_, _, rfl, ?_⟩
      simp only [List.modifyHead_cons, List.cons_append, knownEscapes, Bool.or_assoc, hr]
      rw [← Bool.or_assoc (m == 'u'), hknown]
      simp

end CallTree.Toml
