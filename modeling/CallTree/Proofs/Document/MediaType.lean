import CallTree.Document.MediaType
import CallTree.Proofs.Blank

/-! The charset that a media type names, as its grammar has it: the value of the first parameter
for a charset. -/
namespace CallTree.MediaType

open Text

variable {s t v word r name : List Char} {c : Char}

/-- The word for a charset, its letters of any size. A long s is an s as well. -/
def IsCharsetWord (word : List Char) : Prop :=
  List.Forall₂ (fun small c => c.toLower = small ∨ (small = 's' ∧ c = 'ſ')) "charset".toList word

/-- Text begins with a parameter for a charset. Blank can stand around the equals sign, and the
value goes on for as long as it can. -/
inductive ParameterAt : List Char → List Char → Prop
  | intro {word before after value rest : List Char} (hw : IsCharsetWord word)
      (hb : AllBlank before) (ha : AllBlank after) (hv : value ≠ [])
      (hin : ∀ c ∈ value, inValue c = true) (hend : ∀ c, rest.head? = some c → inValue c = false) :
      ParameterAt (word ++ (before ++ '=' :: (after ++ (value ++ rest)))) value

/-- The value of the first parameter for a charset that is anywhere in a text. -/
def FirstParameter (t value : List Char) : Prop :=
  ∃ pre s, t = pre ++ s ∧ ParameterAt s value ∧
    ∀ pre' s' value', t = pre' ++ s' → ParameterAt s' value' → pre.length ≤ pre'.length

/-- A media type names a charset. Quotes around the name do not matter. -/
def Names (mediaType : Option String) (name : List Char) : Prop :=
  ∃ t value, mediaType = some t ∧ FirstParameter t.toList value ∧ unquote value = name

/-! ### One parameter -/

theorem dropWord?_eq_some_iff {small : List Char} :
    dropWord? small s = some r ↔ ∃ word, s = word ++ r ∧
      List.Forall₂ (fun small c => c.toLower = small ∨ (small = 's' ∧ c = 'ſ')) small word := by
  induction small generalizing s with
  | nil =>
    rw [dropWord?, Option.some.injEq]
    constructor
    · rintro rfl
      exact ⟨[], rfl, .nil⟩
    · rintro ⟨word, rfl, hw⟩
      cases hw
      rfl
  | cons l small ih =>
    cases s with
    | nil =>
      simp only [dropWord?, reduceCtorEq, false_iff]
      rintro ⟨word, hs, hw⟩
      obtain ⟨rfl, rfl⟩ := List.append_eq_nil_iff.mp hs.symm
      cases hw
    | cons c s =>
      rw [dropWord?]
      constructor
      · intro h
        split at h
        · next hc =>
          obtain ⟨word, rfl, hw⟩ := ih.mp h
          exact ⟨c :: word, rfl, .cons hc hw⟩
        · cases h
      · rintro ⟨word, hs, hw⟩
        cases hw with
        | cons hc hw =>
          obtain ⟨rfl, rfl⟩ := List.cons_eq_cons.mp hs
          rw [if_pos hc]
          exact ih.mpr ⟨_, rfl, hw⟩

theorem isBlank_of_inValue (h : inValue c = true) : isBlank c = false := by
  simp only [inValue, Bool.and_eq_true, Bool.not_eq_true'] at h
  exact h.1

/-- The first character of a value, and so of what begins with one, is no blank. -/
theorem not_isBlank_head? (hv : v ≠ []) (hin : ∀ c ∈ v, inValue c = true) (rest : List Char) :
    ∀ c, (v ++ rest).head? = some c → isBlank c = false := by
  obtain ⟨c, v, rfl⟩ := List.exists_cons_of_ne_nil hv
  intro d hd
  cases hd
  exact isBlank_of_inValue (hin c List.mem_cons_self)

theorem takeWhile_value {rest : List Char} (hin : ∀ c ∈ v, inValue c = true)
    (hend : ∀ c, rest.head? = some c → inValue c = false) :
    (v ++ rest).takeWhile inValue = v := by
  rw [List.takeWhile_append_of_pos hin]
  cases rest with
  | nil => exact List.append_nil v
  | cons c rest => rw [List.takeWhile_cons, hend c rfl, if_neg Bool.false_ne_true, List.append_nil]

/-- How a value is read: behind the word, blank, the equals sign and blank. -/
theorem charsetAt?_eq_some : charsetAt? s = some v ↔
    ∃ r r', dropWord? "charset".toList s = some r ∧ trimLeft r = '=' :: r' ∧
      (trimLeft r').takeWhile inValue = v ∧ v ≠ [] := by
  unfold charsetAt?
  rw [Option.bind_eq_bind, Option.bind_eq_some_iff]
  refine exists_congr fun r => ?_
  constructor
  · rintro ⟨hr, h⟩
    split at h
    · next r' hr' =>
      split at h
      · cases h
      · next hne =>
        cases h
        exact ⟨r', hr, hr', rfl, hne⟩
    · cases h
  · rintro ⟨r', hr, hr', rfl, hne⟩
    refine ⟨hr, ?_⟩
    rw [hr']
    split
    · next h =>
      cases h
      split
      · next h => exact absurd h hne
      · rfl
    · next h => exact (h r' rfl).elim

/-- Text is what it begins with for as long as a condition holds, and what does not. -/
theorem exists_takeWhile (p : Char → Bool) (s : List Char) :
    ∃ rest, s = s.takeWhile p ++ rest ∧ ∀ c, rest.head? = some c → p c = false := by
  refine ⟨s.dropWhile p, List.takeWhile_append_dropWhile.symm, ?_⟩
  intro c hc
  have hne := List.head?_dropWhile_not p s
  rw [hc] at hne
  simpa using hne

/-- A value is read where a parameter stands, and nowhere else. -/
theorem charsetAt?_eq_some_iff : charsetAt? s = some v ↔ ParameterAt s v := by
  rw [charsetAt?_eq_some]
  constructor
  · rintro ⟨r, r', hr, he, hv, hne⟩
    obtain ⟨word, rfl, hw⟩ := dropWord?_eq_some_iff.mp hr
    obtain ⟨rest, hs, hend⟩ := exists_takeWhile inValue (trimLeft r')
    have hr : r = r.takeWhile isBlank ++ '=' :: (r'.takeWhile isBlank ++ (v ++ rest)) := by
      rw [← hv, ← hs, trimLeft, List.takeWhile_append_dropWhile, ← he, trimLeft,
        List.takeWhile_append_dropWhile]
    rw [hr]
    refine .intro hw (fun _ hc => List.mem_takeWhile_imp hc)
      (fun _ hc => List.mem_takeWhile_imp hc) hne ?_ hend
    rw [← hv]
    exact fun _ hc => List.mem_takeWhile_imp hc
  · intro h
    cases h with
    | @intro word before after _ rest hw hb ha hv hin hend =>
      refine ⟨before ++ '=' :: (after ++ (v ++ rest)), after ++ (v ++ rest),
        dropWord?_eq_some_iff.mpr ⟨word, rfl, hw⟩, ?_, ?_, hv⟩
      · refine dropWhile_isBlank_append hb ?_
        intro c hc
        cases hc
        rfl
      · rw [trimLeft, dropWhile_isBlank_append ha (not_isBlank_head? hv hin rest),
          takeWhile_value hin hend]

/-! ### The first parameter -/

theorem not_parameterAt_nil (v : List Char) : ¬ ParameterAt [] v := by
  rw [← charsetAt?_eq_some_iff]
  simp [charsetAt?, dropWord?]

theorem firstParameter_cons_iff : FirstParameter (c :: t) v ↔
    ParameterAt (c :: t) v ∨ (∀ v', ¬ ParameterAt (c :: t) v') ∧ FirstParameter t v := by
  constructor
  · rintro ⟨pre, s, he, hp, hmin⟩
    cases pre with
    | nil =>
      rw [he]
      exact Or.inl hp
    | cons d pre =>
      obtain ⟨rfl, rfl⟩ := List.cons_eq_cons.mp he
      refine Or.inr ⟨fun v' hv' => absurd (hmin [] _ v' rfl hv') (by simp), pre, s, rfl, hp, ?_⟩
      intro pre' s' v' he' hp'
      have := hmin (c :: pre') s' v' (by rw [he']; rfl) hp'
      simpa using this
  · rintro (hp | ⟨hno, pre, s, rfl, hp, hmin⟩)
    · exact ⟨[], c :: t, rfl, hp, fun _ _ _ _ _ => Nat.zero_le _⟩
    · refine ⟨c :: pre, s, rfl, hp, ?_⟩
      intro pre' s' v' he' hp'
      cases pre' with
      | nil =>
        obtain rfl : s' = c :: (pre ++ s) := he'.symm
        exact absurd hp' (hno v')
      | cons d pre' =>
        obtain ⟨rfl, hr⟩ := List.cons_eq_cons.mp he'
        exact Nat.succ_le_succ (hmin pre' s' v' hr hp')

theorem firstCharset?_eq_some_iff : firstCharset? t = some v ↔ FirstParameter t v := by
  induction t with
  | nil =>
    rw [firstCharset?]
    refine iff_of_false (by simp) ?_
    rintro ⟨pre, s, he, hp, -⟩
    obtain ⟨rfl, rfl⟩ := List.append_eq_nil_iff.mp he.symm
    exact not_parameterAt_nil v hp
  | cons c t ih =>
    rw [firstCharset?, firstParameter_cons_iff]
    simp only [← charsetAt?_eq_some_iff, ← ih]
    cases h : charsetAt? (c :: t) with
    | some v' => simp
    | none => simp

/-- What a media type names is the value of its first parameter for a charset. -/
theorem charsetName?_eq_some_iff (mediaType : Option String) (name : List Char) :
    (mediaType.bind fun t => charsetName? t.toList) = some name ↔ Names mediaType name := by
  simp only [Option.bind_eq_some_iff, charsetName?, Option.map_eq_some_iff,
    firstCharset?_eq_some_iff, Names]
  constructor
  · rintro ⟨t, ht, value, hv, hn⟩
    exact ⟨t, value, ht, hv, hn⟩
  · rintro ⟨t, value, ht, hv, hn⟩
    exact ⟨t, ht, value, hv, hn⟩

theorem Names.unique {mediaType : Option String} {name' : List Char} (h : Names mediaType name)
    (h' : Names mediaType name') : name = name' := by
  rw [← charsetName?_eq_some_iff] at h h'
  exact Option.some.inj (h.symm.trans h')

/-! ### Quotes -/

/-- Nothing is taken from the front of text that does not have the character. -/
theorem dropWhile_of_not_mem (h : c ∉ s) : s.dropWhile (· == c) = s := by
  cases s with
  | nil => rfl
  | cons d s =>
    have hd : ¬ (d == c) = true := by
      simp only [beq_iff_eq]
      rintro rfl
      exact h List.mem_cons_self
    rw [List.dropWhile_cons, if_neg hd]

theorem stripChar_of_not_mem (h : c ∉ s) : stripChar c s = s := by
  rw [stripChar, dropWhile_of_not_mem h, dropWhile_of_not_mem (by simpa using h),
    List.reverse_reverse]

theorem stripChar_around (h : c ∉ s) : stripChar c (c :: (s ++ [c])) = s := by
  have hfront : (c :: (s ++ [c])).dropWhile (· == c) = (s ++ [c]).dropWhile (· == c) := by simp
  have hr : c ∉ s.reverse := by simpa using h
  cases s with
  | nil => simp [stripChar]
  | cons d s =>
    have hd : (d == c) = false := beq_eq_false_iff_ne.mpr (List.ne_of_not_mem_cons h).symm
    have hkeep : (d :: s ++ [c]).dropWhile (· == c) = d :: s ++ [c] := by simp [hd]
    have hback : (c :: (d :: s).reverse).dropWhile (· == c) = (d :: s).reverse := by
      rw [List.dropWhile_cons, if_pos (beq_self_eq_true c), dropWhile_of_not_mem hr]
    rw [stripChar, hfront, hkeep, List.reverse_append, List.reverse_singleton,
      List.singleton_append, hback, List.reverse_reverse]

/-- A name that has no quotes may stand without quotes, or between quotes of either kind. -/
inductive Quoted (name : List Char) : List Char → Prop
  | bare : Quoted name name
  | double : Quoted name ('"' :: (name ++ ['"']))
  | single : Quoted name ('\'' :: (name ++ ['\'']))

theorem Quoted.unquote_eq (h : Quoted name v) (hd : '"' ∉ name) (hs : '\'' ∉ name) :
    unquote v = name := by
  cases h with
  | bare => rw [unquote, stripChar_of_not_mem hd, stripChar_of_not_mem hs]
  | double => rw [unquote, stripChar_around hd, stripChar_of_not_mem hs]
  | single =>
    have hn : '"' ∉ '\'' :: (name ++ ['\'']) := by simp [hd]
    rw [unquote, stripChar_of_not_mem hn, stripChar_around hs]

end CallTree.MediaType
