import CallTree.Proofs.Blank
import CallTree.Proofs.Document.Toml.Inline
import CallTree.Proofs.Layout
import CallTree.Proofs.Split

/-! Numbers on one line are read as numbers. -/
namespace CallTree.Toml
open scoped Number
open NumberLayout (AreDigits IsExponent IsUnsigned isUnsigned_layout)

variable {c : Char} {t v : List Char} {n : Nat} {negative : Bool} {x : Inline}

/-! ### The characters of numbers -/

def numericChars : List Char := "0123456789-+.einfa".toList

theorem numeric_of_isDigit (h : c.isDigit = true) : c ∈ numericChars :=
  Number.forall_of_isDigit (P := (· ∈ numericChars)) (by decide) h

theorem numeric_exponent (h : IsExponent t) : ∀ c ∈ t, c ∈ numericChars := by
  obtain ⟨sign, ds, rfl, hs, hds⟩ := h
  intro c hc
  obtain rfl | rfl | hc := by simpa using hc
  · decide
  · obtain rfl | rfl := hs <;> decide
  · exact numeric_of_isDigit (hds.2 c hc)

theorem numeric_unsigned (h : IsUnsigned t) : ∀ c ∈ t, c ∈ numericChars := by
  intro c hc
  cases h with
  | pointed hw h0 hp =>
    rw [List.mem_append, List.mem_cons] at hc
    obtain hc | rfl | hc := hc
    · exact numeric_of_isDigit (hw.2 c hc)
    · decide
    · exact numeric_of_isDigit (hp.2 c hc)
  | scaled hd h0 hp hx =>
    rw [List.mem_cons, List.mem_append] at hc
    obtain rfl | hc | hc := hc
    · exact numeric_of_isDigit hd
    · obtain rfl | ⟨q, rfl, hq⟩ := hp
      · cases hc
      · obtain rfl | hc := List.mem_cons.mp hc
        · decide
        · exact numeric_of_isDigit (hq.2 c hc)
    · exact numeric_exponent hx c hc

/-- The texts of numbers with a point: words, or digits behind a sign or none. -/
theorem render_cases (x : Binary64) :
    (numberLayout.render x).toList ∈ ["nan".toList, "inf".toList, "-inf".toList] ∨
      ∃ t, IsUnsigned t ∧
        ((numberLayout.render x).toList = t ∨ (numberLayout.render x).toList = '-' :: t) := by
  rw [NumberLayout.render]
  split
  · exact .inl (by decide)
  · simp only [String.toList_ofList]
    by_cases hi : x.isInfinite = true
    · rw [if_pos hi]
      cases x.isNegative <;> exact .inl (by decide)
    · rw [if_neg hi]
      refine .inr ⟨_, isUnsigned_layout numberLayout x.shortest, ?_⟩
      cases x.isNegative
      · exact .inl rfl
      · exact .inr rfl

theorem numeric_chars (h : x.IsNumber) : ∀ c ∈ x.chars, c ∈ numericChars := by
  intro c hc
  cases x with
  | int n =>
    obtain rfl | hc := Number.isDigit_of_mem_toString hc
    · decide
    · exact numeric_of_isDigit hc
  | float y =>
    have hwords : ∀ w ∈ ["nan".toList, "inf".toList, "-inf".toList], ∀ c ∈ w,
        c ∈ numericChars := by decide
    rw [Inline.chars] at hc
    obtain hw | ⟨t, ht, he | he⟩ := render_cases y
    · exact hwords _ hw c hc
    · exact numeric_unsigned ht c (he ▸ hc)
    · rw [he] at hc
      obtain rfl | hc := List.mem_cons.mp hc
      · decide
      · exact numeric_unsigned ht c hc
  | _ => exact h.elim

theorem exists_cons_unsigned (h : IsUnsigned t) :
    ∃ c d r, t = c :: d :: r ∧ c.isDigit = true ∧ (c = '0' → d = '.') := by
  cases h with
  | @pointed w p hw h0 hp =>
    obtain ⟨hne, hw⟩ := hw
    obtain ⟨c, w, rfl⟩ := List.exists_cons_of_ne_nil hne
    have hc := hw c List.mem_cons_self
    cases w with
    | nil => exact ⟨c, '.', p, rfl, hc, fun _ => rfl⟩
    | cons d w =>
      refine ⟨c, d, w ++ '.' :: p, rfl, hc, ?_⟩
      rintro rfl
      cases h0 rfl
  | @scaled c p x hc h0 hp hx =>
    obtain ⟨sign, ds, rfl, -⟩ := hx
    obtain rfl | ⟨q, rfl, hq⟩ := hp
    · exact ⟨c, 'e', sign :: ds, rfl, hc, fun h => (h0 h).elim⟩
    · exact ⟨c, '.', _, rfl, hc, fun h => (h0 h).elim⟩

/-- The first character of a number is of no other value. -/
theorem exists_cons_number (h : x.IsNumber) :
    ∃ c t, x.chars = c :: t ∧ (c ∈ ['-', 'i', 'n'] ∨ c.isDigit = true) := by
  cases x with
  | int n =>
    obtain ⟨c, cs, hcs, hc⟩ := Number.exists_cons_toDigits n.natAbs
    rw [Inline.chars, Number.toList_toString_int, hcs]
    split
    · exact ⟨_, _, rfl, .inl (by decide)⟩
    · exact ⟨_, _, rfl, .inr hc⟩
  | float y =>
    rw [Inline.chars]
    obtain hw | ⟨t, ht, he | he⟩ := render_cases y
    · simp only [List.mem_cons, List.not_mem_nil, or_false] at hw
      obtain hw | hw | hw := hw <;> exact ⟨_, _, hw, .inl (by decide)⟩
    · obtain ⟨c, d, r, rfl, hc, -⟩ := exists_cons_unsigned ht
      exact ⟨c, d :: r, he, .inr hc⟩
    · exact ⟨'-', t, he, .inl (by decide)⟩
  | _ => exact h.elim

theorem exists_cons_numeric (h : x.IsNumber) :
    ∃ c t, x.chars = c :: t ∧ c ∈ numericChars := by
  obtain ⟨c, t, ht, -⟩ := exists_cons_number h
  exact ⟨c, t, ht, numeric_chars h c (ht ▸ List.mem_cons_self)⟩

/-! ### Words -/

/-- Lower case begins with the first letter in lower case. -/
theorem exists_lower_cons (h : c.toNat < 128) (r : List Char) :
    ∃ t, Text.lower (c :: r) = c.toLower :: t := by
  have hs : (c.toNat == 0x3A3) = false := by
    rw [beq_eq_false_iff_ne]
    omega
  exact ⟨_, by rw [Text.lower, Text.lowerAfter, hs, Text.lowerChar, if_pos h]; rfl⟩

/-- No word that begins with another letter is the text in lower case. -/
theorem not_contains_lower {words : List String} (h : c.toNat < 128)
    (hw : ∀ w ∈ words, w.toList.head? ≠ some c.toLower) (r : List Char) :
    words.contains (String.ofList (Text.lower (c :: r))) = false := by
  obtain ⟨t, ht⟩ := exists_lower_cons h r
  rw [ht, List.contains_eq_mem, decide_eq_false_iff_not]
  intro hm
  exact hw _ hm (by rw [String.toList_ofList]; rfl)

/-! ### Digits -/

/-- Digits are read up to what is no digit. -/
theorem digitRun_append {r : List Char} (h : ∀ c ∈ t, c.isDigit = true)
    (hr : ∀ c ∈ r.head?, Number.digitValue? 10 c = none ∧ c ≠ '_') :
    Number.digitRun 10 (t ++ r) = (t, r) := by
  induction t with
  | nil =>
    match r with
    | [] => rfl
    | [c] => simp [Number.digitRun, (hr c rfl).1]
    | c :: d :: r => simp [Number.digitRun, (hr c rfl).1]
  | cons c t ih =>
    have hc := Number.digitValue?_of_isDigit (h c List.mem_cons_self)
    have ht := ih fun x hx => h x (List.mem_cons_of_mem c hx)
    match hrest : t ++ r with
    | [] =>
      obtain ⟨rfl, rfl⟩ := List.append_eq_nil_iff.mp hrest
      simp [Number.digitRun, hc]
    | d :: s =>
      have hd : d ≠ '_' := by
        rintro rfl
        cases t with
        | nil => exact (hr '_' (by rw [List.nil_append] at hrest; rw [hrest]; rfl)).2 rfl
        | cons e t =>
          cases hrest
          exact absurd (h '_' (by simp)) (by decide)
      rw [hrest] at ht
      rw [List.cons_append, hrest, Number.digitRun]
      simp [hc, hd, ht]

theorem digitRun_of_isDigit (h : ∀ c ∈ t, c.isDigit = true) : Number.digitRun 10 t = (t, []) := by
  have hrun := digitRun_append (r := []) h nofun
  rwa [List.append_nil] at hrun

theorem splitSign_of_isDigit (h : c.isDigit = true) (t : List Char) :
    Number.splitSign (c :: t) = (false, c :: t) := by
  have hne : c ≠ '-' ∧ c ≠ '+' :=
    Number.forall_of_isDigit (P := fun c => c ≠ '-' ∧ c ≠ '+') (by decide) h
  unfold Number.splitSign
  split
  · next he => cases he; exact absurd rfl hne.1
  · next he => cases he; exact absurd rfl hne.2
  · rfl

theorem plainText_of_numeric (h : ∀ c ∈ t, c ∈ numericChars) : Number.plainText t = t := by
  have hchar : ∀ c ∈ numericChars, Number.plainChar c = c ∧ Text.isBlank c = false := by decide
  have hmap : t.map Number.plainChar = t :=
    (List.map_congr_left fun c hc => (hchar c (h c hc)).1).trans (List.map_id t)
  rw [Number.plainText, hmap]
  exact Text.trim_eq_self_iff.mpr
    (Text.trimmed_of_not_blank fun c hc => (hchar c (h c hc)).2)

theorem readPlainInt?_toDigits (n : Nat) :
    Number.readPlainInt? (Nat.toDigits 10 n) = some n := by
  by_cases hn : n = 0
  · subst hn
    rfl
  · obtain ⟨c, cs, hcs, -⟩ := Number.exists_cons_toDigits n
    have h0 := Number.head?_toDigits hn
    have hrun := digitRun_of_isDigit fun c hc => Number.isDigit_of_mem_toDigits (n := n) hc
    have hv := Number.ofDigits_toDigits n
    rw [hcs] at h0 hrun hv ⊢
    unfold Number.readPlainInt?
    split
    · next he => cases he; exact absurd rfl h0
    · next he => cases he; exact absurd rfl h0
    · rw [Number.readDigits?, hrun]
      simp only [hv]

theorem readInt?_toDigits (n : Nat) : Number.readInt? (Nat.toDigits 10 n) = some (n : Int) := by
  obtain ⟨c, cs, hcs, hc⟩ := Number.exists_cons_toDigits n
  have hplain := plainText_of_numeric fun c hc =>
    numeric_of_isDigit (Number.isDigit_of_mem_toDigits (n := n) hc)
  have hint := readPlainInt?_toDigits n
  rw [Number.readInt?, hplain]
  rw [hcs] at hint ⊢
  rw [splitSign_of_isDigit hc]
  simp only [hint]
  rfl

/-- A number of digits, with a sign or without. -/
theorem number_of_sign {v : List Char} {negative : Bool}
    (h : Number.splitSign v = (negative, Nat.toDigits 10 n)) :
    number true v = .ok (.int (if negative then -(n : Int) else n), .int) := by
  obtain ⟨c, cs, hcs, hc⟩ := Number.exists_cons_toDigits n
  have hnot : ∀ x : Char, x.isDigit = false → x ∉ Nat.toDigits 10 n := fun x hx hm =>
    absurd (Number.isDigit_of_mem_toDigits hm) (by simp [hx])
  have hfilter : (Nat.toDigits 10 n).filter (· != '_') = Nat.toDigits 10 n := by
    rw [List.filter_eq_self]
    intro x hx
    have hne : x ≠ '_' := by rintro rfl; exact hnot '_' rfl hx
    simp [hne]
  have hfloat : isFloatText (Nat.toDigits 10 n) = false := by
    simp [isFloatText, hnot '.' rfl, hnot 'e' rfl, hnot 'E' rfl]
  have hword : ["inf", "nan"].contains (String.ofList (Text.lower (Nat.toDigits 10 n))) =
      false := by
    have hlow : c.toNat < 128 ∧ c.toLower ≠ 'i' ∧ c.toLower ≠ 'n' := Number.forall_of_isDigit
      (P := fun c => c.toNat < 128 ∧ c.toLower ≠ 'i' ∧ c.toLower ≠ 'n') (by decide) hc
    rw [hcs]
    refine not_contains_lower hlow.1 ?_ cs
    simp [hlow.2.1.symm, hlow.2.2.symm]
  rw [number]
  simp only [h, hfilter, hfloat, hword, readInt?_toDigits, Bool.not_true, if_false,
    Bool.false_eq_true]
  rfl

theorem number_toString (n : Int) : number true (toString n).toList = .ok (.int n, .int) := by
  obtain ⟨c, cs, hcs, hc⟩ := Number.exists_cons_toDigits n.natAbs
  rw [Number.toList_toString_int]
  split
  · rw [number_of_sign rfl, if_pos rfl]
    have hn : -(n.natAbs : Int) = n := by omega
    rw [hn]
  · rw [number_of_sign (hcs ▸ splitSign_of_isDigit hc cs :
        Number.splitSign (Nat.toDigits 10 n.natAbs) = (false, Nat.toDigits 10 n.natAbs)),
      if_neg (by decide)]
    have hn : (n.natAbs : Int) = n := by omega
    rw [hn]

/-! ### Numbers with a point or an exponent -/

theorem readExponent?_isSome (h : IsExponent t) : (Number.readExponent? t).isSome = true := by
  obtain ⟨sign, ds, rfl, hs, hne, hds⟩ := h
  have hrun := digitRun_of_isDigit hds
  obtain ⟨d, ds, rfl⟩ := List.exists_cons_of_ne_nil hne
  obtain rfl | rfl := hs <;> simp [Number.readExponent?, Number.splitSign, hrun]

theorem readUnsigned?_isSome (h : IsUnsigned t) (negative : Bool) :
    (Number.readUnsigned? negative t).isSome = true := by
  cases h with
  | @pointed w p hw h0 hp =>
    have hpoint : ∀ c ∈ ('.' :: p).head?, Number.digitValue? 10 c = none ∧ c ≠ '_' := by
      simp; decide
    have hrun := digitRun_append hw.2 hpoint
    have hpart := digitRun_of_isDigit hp.2
    simp [Number.readUnsigned?, hrun, hpart, hp.1, Number.readExponent?]
  | @scaled c p x hc h0 hp hx =>
    obtain ⟨e, he⟩ := Option.isSome_iff_exists.mp (readExponent?_isSome hx)
    obtain ⟨sign, ds, rfl, -⟩ := hx
    have hletter : ∀ c ∈ ('e' :: sign :: ds).head?, Number.digitValue? 10 c = none ∧ c ≠ '_' := by
      simp; decide
    have hone : ∀ x ∈ [c], x.isDigit = true := by simpa using hc
    obtain rfl | ⟨q, rfl, hq⟩ := hp
    · have hrun := digitRun_append hone hletter
      rw [List.singleton_append] at hrun
      simp [Number.readUnsigned?, hrun, he]
    · have hpoint : ∀ c ∈ ('.' :: (q ++ 'e' :: sign :: ds)).head?,
          Number.digitValue? 10 c = none ∧ c ≠ '_' := by
        simp; decide
      have hrun := digitRun_append hone hpoint
      have hpart := digitRun_append hq.2 hletter
      rw [List.singleton_append] at hrun
      simp [Number.readUnsigned?, hrun, hpart, he]

theorem readFloat?_isSome (h : IsUnsigned t) : (Number.readFloat? t).isSome = true := by
  obtain ⟨c, d, r, rfl, hc, -⟩ := exists_cons_unsigned h
  have hword : c.toLower ≠ 'i' ∧ c.toLower ≠ 'n' :=
    Number.forall_of_isDigit (P := fun c => c.toLower ≠ 'i' ∧ c.toLower ≠ 'n') (by decide) hc
  rw [Number.readFloat?, plainText_of_numeric (numeric_unsigned h), splitSign_of_isDigit hc]
  have hne : ∀ (w : Char) (ws : List Char), c.toLower ≠ w →
      (c :: d :: r).map Char.toLower ≠ w :: ws := fun w ws hw he => hw (List.cons.inj he).1
  have hinf := fun ws => hne 'i' ws hword.1
  have hnan : (c :: d :: r).map Char.toLower ≠ "nan".toList := hne 'n' ['a', 'n'] hword.2
  dsimp only
  rw [if_neg fun he => he.elim (hinf _) (hinf _), if_neg hnan]
  exact readUnsigned?_isSome h false

theorem isFloatText_unsigned (h : IsUnsigned t) : isFloatText t = true := by
  have hx : 'x' ∉ t := fun hm => absurd (numeric_unsigned h _ hm) (by decide)
  cases h with
  | pointed hw h0 hp => simp [isFloatText]
  | scaled hc h0 hp hx' =>
    obtain ⟨sign, ds, rfl, -⟩ := hx'
    have hxc : ∀ t : List Char, 'x' ∉ t → t.contains 'x' = false := fun t ht => by simpa using ht
    rw [isFloatText, hxc _ hx]
    simp

/-- There are digits behind each point. -/
theorem dropWhile_unsigned (h : IsUnsigned t) : t.dropWhile (· != '.') ≠ ['.'] := by
  have hpoint : ∀ c, c.isDigit = true → (c != '.') = true := fun c hc =>
    Number.forall_of_isDigit (P := fun c => (c != '.') = true) (by decide) hc
  have hcut : ∀ u v : List Char, (∀ c ∈ u, c.isDigit = true) →
      (u ++ '.' :: v).dropWhile (· != '.') = '.' :: v := fun u v hu => by
    rw [List.dropWhile_append_of_pos fun c hc => hpoint c (hu c hc)]
    rfl
  cases h with
  | pointed hw h0 hp =>
    rw [hcut _ _ hw.2]
    exact fun he => hp.1 (List.cons.inj he).2
  | @scaled c p x hc h0 hp hx =>
    obtain ⟨sign, ds, rfl, hs, hds⟩ := hx
    obtain rfl | ⟨q, rfl, hq⟩ := hp
    · have hnone : ∀ d ∈ c :: 'e' :: sign :: ds, (d != '.') = true := by
        intro d hd
        simp only [List.mem_cons] at hd
        obtain hd | hd | hd | hd := hd
        · exact hd ▸ hpoint c hc
        · exact hd ▸ rfl
        · obtain rfl | rfl := hs <;> exact hd ▸ rfl
        · exact hpoint d (hds.2 d hd)
      have hdrop : (c :: 'e' :: sign :: ds).dropWhile (· != '.') = [] :=
        List.dropWhile_eq_nil_iff.mpr hnone
      rw [List.nil_append, hdrop]
      exact (List.cons_ne_nil _ _).symm
    · have hd := hcut [c] (q ++ 'e' :: sign :: ds) (by simpa using hc)
      rw [List.singleton_append] at hd
      rw [List.cons_append, hd]
      exact fun he => List.append_ne_nil_of_left_ne_nil hq.1 _ (List.cons.inj he).2

theorem number_unsigned (h : IsUnsigned t) (hs : Number.splitSign v = (negative, t)) :
    number true v = .ok (.float (if negative then fromZero ((Number.readFloat? t).getD .nan)
      else (Number.readFloat? t).getD .nan), .float) := by
  obtain ⟨y, hy⟩ := Option.isSome_iff_exists.mp (readFloat?_isSome h)
  have hfilter : t.filter (· != '_') = t := by
    rw [List.filter_eq_self]
    intro c hc
    have hne : ∀ c ∈ numericChars, (c != '_') = true := by decide
    exact hne c (numeric_unsigned h c hc)
  have hhead : t.head?.any Char.isDigit = true := by
    obtain ⟨c, d, r, rfl, hc, -⟩ := exists_cons_unsigned h
    exact hc
  rw [number]
  simp only [hs, hfilter, isFloatText_unsigned h, dropWhile_unsigned h, hhead, hy, Bool.not_true,
    if_true, if_false, Bool.false_eq_true, or_self, Option.getD_some]
  rfl

theorem number_render (x : Binary64) :
    number true (numberLayout.render x).toList = .ok (.float (readNumber x), .float) := by
  rw [readNumber]
  obtain hw | ⟨t, ht, he | he⟩ := render_cases x
  · simp only [List.mem_cons, List.not_mem_nil, or_false] at hw
    obtain hw | hw | hw := hw <;> rw [hw] <;> rfl
  · obtain ⟨c, d, r, rfl, hc, -⟩ := exists_cons_unsigned ht
    have hs := splitSign_of_isDigit hc (d :: r)
    rw [he, number_unsigned ht hs, hs]
  · have hs : Number.splitSign ('-' :: t) = (true, t) := rfl
    rw [he, number_unsigned ht hs, hs]

/-! ### Dates -/

theorem readClock?_of_numeric (h : ∀ c ∈ t, c ∈ numericChars) : readClock? t = none := by
  rw [readClock?]
  refine if_neg ?_
  rintro ⟨-, hcolon, -⟩
  exact absurd (h _ (List.mem_of_getElem? hcolon)) (by decide)

theorem readDate?_of_not_mem (h : '-' ∉ t.drop 1) : readDate? t = none := by
  have hminus : (t.drop 1).contains '-' = false := by simpa using h
  rw [readDate?]
  simp only [hminus, Bool.not_false, if_true]
  rfl

/-- No year has a point or a letter behind its first digit. -/
theorem readDate?_of_year (h : natOf? (t.take 4) = none) : readDate? t = none := by
  rw [readDate?]
  simp only [h]
  split <;> rfl

theorem natOf?_eq_none {r : List Char} (hc : c.isDigit = true) {m : Char}
    (hm : m = '.' ∨ m = 'e') (hs : Number.splitSign v = (negative, c :: m :: r))
    (hv : ∀ c ∈ v, c ∈ numericChars) : natOf? v = none := by
  have hone : ∀ x ∈ [c], x.isDigit = true := by simpa using hc
  have hrun := digitRun_append (r := m :: r) hone (by obtain rfl | rfl := hm <;> simp <;> decide)
  rw [List.singleton_append] at hrun
  rw [natOf?, Number.readDecimalInt?, plainText_of_numeric hv, hs]
  simp only [Number.readDigits?, hrun]
  rfl

theorem readDate?_unsigned (h : IsUnsigned t) :
    readDate? t = none ∧ readDate? ('-' :: t) = none := by
  cases h with
  | @pointed w p hw h0 hp =>
    have hnot : '-' ∉ w ++ '.' :: p := by
      intro hm
      rw [List.mem_append, List.mem_cons] at hm
      obtain hm | hm | hm := hm
      · cases hw.2 _ hm
      · cases hm
      · cases hp.2 _ hm
    exact ⟨readDate?_of_not_mem fun hm => hnot (List.mem_of_mem_drop hm),
      readDate?_of_not_mem hnot⟩
  | @scaled c p x hc h0 hp hx =>
    have hnum := numeric_unsigned (.scaled hc h0 hp hx)
    obtain ⟨m, r, hr, hm⟩ : ∃ m r, p ++ x = m :: r ∧ (m = '.' ∨ m = 'e') := by
      obtain ⟨sign, ds, rfl, -⟩ := hx
      obtain rfl | ⟨q, rfl, hq⟩ := hp
      · exact ⟨_, _, rfl, .inr rfl⟩
      · exact ⟨_, _, rfl, .inl rfl⟩
    rw [hr] at hnum ⊢
    have hsign : Number.splitSign ('-' :: c :: m :: r.take 1) = (true, c :: m :: r.take 1) := rfl
    refine ⟨readDate?_of_year (natOf?_eq_none hc hm (splitSign_of_isDigit hc _) fun d hd => ?_),
      readDate?_of_year (natOf?_eq_none hc hm hsign fun d hd => ?_)⟩
    · exact hnum d (List.mem_of_mem_take hd)
    · obtain rfl | hd := List.mem_cons.mp (List.mem_of_mem_take hd)
      · decide
      · exact hnum d hd

/-! ### Values -/

/-- Text that begins like no word is read by its first character. -/
theorem value_cons (hc : c.toNat < 128) (ht : c.toLower ≠ 't') (hf : c.toLower ≠ 'f') (n : Nat)
    (spaced : Bool) (t : List Char) :
    value (n + 1) spaced (c :: t) =
      (if isQuote c then do return (.str (String.ofList (← readQuoted c (c :: t))), .text)
      else if c = '[' then do
        return (.list (← items (value n) none (← itemTexts (Text.inner (c :: t)))), .array)
      else if c = '\x7b' then do return (← inlineTable (value n) (c :: t) (.map []), .inlineTable)
      else match readClock? (c :: t) with
        | some t => if t.isValid then .ok (.moment (.clock t), .clock) else malformed
        | none => match readDate? (c :: t) with
          | some d => .ok (.moment d, .date)
          | none => number spaced (c :: t)) := by
  have htrue : c :: t ≠ "true".toList := by rintro ⟨⟩; exact ht rfl
  have hfalse : c :: t ≠ "false".toList := by rintro ⟨⟩; exact hf rfl
  have hword : ["true", "false"].contains (String.ofList (Text.lower (c :: t))) ≠ true :=
    Bool.eq_false_iff.mp (not_contains_lower hc (by simp [ht.symm, hf.symm]) t)
  rw [value.eq_def]
  change (if c :: t = "true".toList then _ else _) = _
  rw [if_neg htrue, if_neg hfalse]
  exact if_neg hword

theorem number_chars (h : x.IsNumber) :
    number true x.chars = .ok (x.toValue, x.kind) := by
  cases x with
  | int n => exact number_toString n
  | float y => exact number_render y
  | _ => exact h.elim

theorem readDate?_chars (h : x.IsNumber) : readDate? x.chars = none := by
  cases x with
  | int n =>
    refine readDate?_of_not_mem ?_
    have hd : '-' ∉ Nat.toDigits 10 n.natAbs := fun hm => by
      cases Number.isDigit_of_mem_toDigits hm
    rw [Inline.chars, Number.toList_toString_int]
    split
    · exact hd
    · exact fun hm => hd (List.mem_of_mem_drop hm)
  | float y =>
    rw [Inline.chars]
    obtain hw | ⟨t, ht, he | he⟩ := render_cases y
    · simp only [List.mem_cons, List.not_mem_nil, or_false] at hw
      obtain hw | hw | hw := hw <;> rw [hw] <;> rfl
    · rw [he]
      exact (readDate?_unsigned ht).1
    · rw [he]
      exact (readDate?_unsigned ht).2
  | _ => exact h.elim

theorem value_number (h : x.IsNumber) (n : Nat) :
    value (n + 1) true x.chars = .ok (x.toValue, x.kind) := by
  have hclock := readClock?_of_numeric (numeric_chars h)
  have hdate := readDate?_chars h
  have hnumber := number_chars h
  obtain ⟨c, s, hs, hc⟩ := exists_cons_number h
  have hfirst : c.toNat < 128 ∧ c.toLower ≠ 't' ∧ c.toLower ≠ 'f' ∧ isQuote c = false ∧ c ≠ '[' ∧
      c ≠ '\x7b' := by
    obtain hc | hc := hc
    · have hall : ∀ c ∈ ['-', 'i', 'n'], c.toNat < 128 ∧ c.toLower ≠ 't' ∧ c.toLower ≠ 'f' ∧
          isQuote c = false ∧ c ≠ '[' ∧ c ≠ '\x7b' := by decide
      exact hall c hc
    · exact Number.forall_of_isDigit (P := fun c => c.toNat < 128 ∧ c.toLower ≠ 't' ∧
        c.toLower ≠ 'f' ∧ isQuote c = false ∧ c ≠ '[' ∧ c ≠ '\x7b') (by decide) hc
  obtain ⟨hlt, ht, hf, hq, hl, hb⟩ := hfirst
  rw [hs] at hclock hdate hnumber ⊢
  rw [value_cons hlt ht hf]
  simp only [hq, hl, hb, hclock, hdate, hnumber, if_false, Bool.false_eq_true]

/-! ### Spacing -/

/-- No number of more digits begins with a zero. -/
theorem ne_zero_of_toString {i : Int} {d : Char} {r : List Char}
    (h : (toString i).toList = c :: d :: r) : c ≠ '0' ∧ (c = '-' → d ≠ '0') := by
  rw [Number.toList_toString_int] at h
  split at h
  · next hi =>
    rw [List.cons.injEq] at h
    obtain ⟨rfl, h⟩ := h
    have h0 := Number.head?_toDigits (n := i.natAbs) (by omega)
    rw [h] at h0
    exact ⟨by decide, fun _ hd => h0 (congrArg some hd)⟩
  · have hc : c.isDigit = true := Number.isDigit_of_mem_toDigits (h ▸ List.mem_cons_self)
    refine ⟨?_, ?_⟩
    · have h0 : i.natAbs ≠ 0 := by
        intro h0
        rw [h0] at h
        cases h
      rintro rfl
      exact Number.head?_toDigits h0 (by rw [h]; rfl)
    · rintro rfl
      cases hc

theorem wellSpaced_of_numeric (hv : ∀ c ∈ v, c ∈ numericChars) (hne : v ≠ [])
    (hplus : v.head? ≠ some '+') (hzero : ∀ d r, v = '0' :: d :: r → d = '.')
    (hminus : ∀ r, v = '-' :: '0' :: r → r = [] ∨ r.head? = some '.') :
    wellSpaced (' ' :: v) = true := by
  have hblank : ∀ c ∈ numericChars, Text.isBlank c = false := by decide
  have htrim : Text.trim (' ' :: v) = v :=
    Text.trim_cons rfl (Text.trimmed_of_not_blank fun c hc => hblank c (hv c hc))
  have hunder : '_' ∉ v := fun hm => absurd (hv _ hm) (by decide)
  have hcut : ∀ sep, '_' ∈ sep → Text.cut? sep v = none := fun sep hs =>
    Text.cut?_of_mem hs hunder
  unfold wellSpaced
  rw [htrim]
  split
  · exact absurd rfl hne
  · next c =>
    have hc : c ≠ '_' := by rintro rfl; exact hunder List.mem_cons_self
    simp [hc]
  · next c d r =>
    have hc : c ≠ '_' := by rintro rfl; exact hunder List.mem_cons_self
    have hp : c ≠ '+' := by rintro rfl; exact hplus rfl
    have hlast : (c :: d :: r).getLast? ≠ some '_' := fun hl => hunder (List.mem_of_getLast? hl)
    have hbehind : Text.cut? ['_', '_'] (d :: r) = none :=
      Text.cut?_of_mem (by decide) fun hm => hunder (List.mem_cons_of_mem c hm)
    have hz : ¬(c = '0' ∧ (!(['.', 'o', 'b', 'x'].contains d)) = true) := by
      rintro ⟨rfl, hd⟩
      rw [hzero d r rfl] at hd
      cases hd
    simp only [hc, hlast, hcut ['_', '.'] (by decide), hcut ['.', '_'] (by decide),
      hcut ['_', '_'] (by decide), hz, hp, hbehind, Option.isSome_none, Option.isNone_none,
      Bool.false_eq_true, or_self, false_or, if_false]
    split
    · next hm =>
      subst hm
      rw [if_neg]
      rintro ⟨rfl, hr, hh⟩
      exact (hminus r rfl).elim hr hh
    · rfl

theorem wellSpaced_chars (h : x.IsNumber) :
    wellSpaced (' ' :: x.chars) = true := by
  have hv := numeric_chars h
  obtain ⟨c, t, ht, hc⟩ := exists_cons_number h
  have hne : x.chars ≠ [] := ht ▸ List.cons_ne_nil c t
  have hplus : x.chars.head? ≠ some '+' := by
    rw [ht]
    rintro ⟨⟩
    obtain hc | hc := hc
    · exact absurd hc (by decide)
    · cases hc
  cases x with
  | int i =>
    refine wellSpaced_of_numeric hv hne hplus (fun d r hd => ?_) fun r hr => ?_
    · exact absurd rfl (ne_zero_of_toString hd).1
    · cases r with
      | nil => exact .inl rfl
      | cons e r => exact absurd rfl ((ne_zero_of_toString hr).2 rfl)
  | float y =>
    rw [Inline.chars] at hv hne hplus ⊢
    obtain hw | ⟨t, ht, he | he⟩ := render_cases y
    · simp only [List.mem_cons, List.not_mem_nil, or_false] at hw
      obtain hw | hw | hw := hw <;> rw [hw] <;> rfl
    · obtain ⟨c, d, r, rfl, hc, h0⟩ := exists_cons_unsigned ht
      rw [he] at hv hne hplus ⊢
      refine wellSpaced_of_numeric hv hne hplus (fun d r hd => ?_) fun r hr => ?_
      · cases hd
        exact h0 rfl
      · cases hr
        cases hc
    · obtain ⟨c, d, r, rfl, hc, h0⟩ := exists_cons_unsigned ht
      rw [he] at hv hne hplus ⊢
      refine wellSpaced_of_numeric hv hne hplus (fun d r hd => ?_) fun r hr => ?_
      · cases hd
      · cases hr
        exact .inr (by rw [h0 rfl]; rfl)
  | _ => exact h.elim

end CallTree.Toml
