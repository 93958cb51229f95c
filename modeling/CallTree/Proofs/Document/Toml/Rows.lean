import CallTree.Proofs.Document.Toml.Inline

/-! The rows of a TOML document: entries, and headers of tables and of arrays of tables. -/
namespace CallTree.Toml
open scoped Number

variable {k : String} {c : Char}

inductive Row
  | entry (k : String) (x : Inline)
  | table (p : List String)
  | array (p : List String)

/-- The names that lead to a table, with points between them. -/
def pathText (p : List String) : List Char := Text.join ['.'] (p.map nameText)

def Row.chars : Row → List Char
  | .entry k x => keyText k ++ ([' ', '=', ' '] ++ x.chars)
  | .table p => '[' :: (pathText p ++ [']'])
  | .array p => '[' :: '[' :: (pathText p ++ [']', ']'])

/-- A character of a name without quotes. -/
def IsBare (c : Char) : Prop := (c.isAlphanum || c == '_' || c == '-') = true

instance (c : Char) : Decidable (IsBare c) :=
  inferInstanceAs (Decidable ((c.isAlphanum || c == '_' || c == '-') = true))

/-- A key of an entry that is read again. -/
structure IsKey (k : String) : Prop where
  written : printName k = .ok (keyText k)
  inside : if isBareName k then ∀ c ∈ k.toList, IsBare c else isInside false (inQuotes k) = true
  read : readKey (keyText k) = .ok ([], k)

instance (k : String) : Decidable (IsKey k) :=
  decidable_of_iff (printName k = .ok (keyText k) ∧
      (if isBareName k then ∀ c ∈ k.toList, IsBare c else isInside false (inQuotes k) = true) ∧
      readKey (keyText k) = .ok ([], k))
    ⟨fun h => ⟨h.1, h.2.1, h.2.2⟩, fun h => ⟨h.written, h.inside, h.read⟩⟩

/-- Whether the line of an entry is cut behind its key. -/
def IsCut (k : String) (x : Inline) : Prop :=
  entryOf (Row.entry k x).chars = .ok (keyText k, x.chars, wellSpaced (' ' :: x.chars))

instance (k : String) (x : Inline) : Decidable (IsCut k x) :=
  inferInstanceAs (Decidable (_ = _))

/-- A row that is read as what it is. -/
def Row.IsClean : Row → Prop
  | .entry k x => IsKey k ∧ x.IsEntry ∧ IsCut k x
  | .table p | .array p => p ≠ [] ∧ ∀ k ∈ p, IsName k

instance : DecidablePred Row.IsClean
  | .entry k x => inferInstanceAs (Decidable (IsKey k ∧ x.IsEntry ∧ IsCut k x))
  | .table p | .array p => inferInstanceAs (Decidable (p ≠ [] ∧ ∀ k ∈ p, IsName k))

/-- The text of rows, each on a line, with blank lines anywhere. -/
inductive Spells : List Row → List Char → Prop
  | nil : Spells [] []
  | blank {rows : List Row} {t : List Char} (h : Spells rows t) : Spells rows ('\n' :: t)
  | row (l : Row) {rows : List Row} {t : List Char} (h : Spells rows t) :
      Spells (l :: rows) (l.chars ++ '\n' :: t)

theorem IsBare.ne (h : IsBare c) :
    c ∉ ['"', '\'', '#', '[', ']', '\n', '\r', '=', '.', ' ', '\t'] := by
  intro hc
  have hall : ∀ c ∈ ['"', '\'', '#', '[', ']', '\n', '\r', '=', '.', ' ', '\t'], ¬IsBare c := by
    decide
  exact hall c hc h

theorem IsBare.toNat_lt (h : IsBare c) : c.toNat < 128 := by
  have hle : ∀ d : Char, d.toNat < 128 → c.val ≤ d.val → c.toNat < 128 := fun d hd hc =>
    Nat.lt_of_le_of_lt (UInt32.le_iff_toNat_le.mp hc) hd
  change (((c.isUpper || c.isLower) || c.isDigit) || c == '_' || c == '-') = true at h
  simp only [Bool.or_eq_true, beq_iff_eq] at h
  obtain (((h | h) | h) | rfl) | rfl := h
  · exact hle 'Z' (by decide) (of_decide_eq_true h).2
  · exact hle 'z' (by decide) (of_decide_eq_true (Bool.and_eq_true_iff.mp h).2)
  · exact hle '9' (by decide) (of_decide_eq_true (Bool.and_eq_true_iff.mp h).2)
  · decide
  · decide

/-- What holds of each bare character of ASCII. -/
theorem forall_of_isBare {P : Char → Prop}
    (hP : ∀ n < 128, IsBare (Char.ofNat n) → P (Char.ofNat n)) (h : IsBare c) : P c := by
  have hc := hP c.toNat h.toNat_lt
  rw [Char.ofNat_toNat] at hc
  exact hc h

theorem IsBare.not_blank (h : IsBare c) : Text.isBlank c = false :=
  forall_of_isBare (P := fun c => Text.isBlank c = false) (by decide) h

theorem isBare_of_getLast?_ne (hn : k.toList.getLast? ≠ some '\n') (h : isBareName k = true) :
    ∀ c ∈ k.toList, IsBare c := by
  simp only [isBareName, hn, if_false, Bool.and_eq_true, List.all_eq_true] at h
  exact h.2

theorem IsName.getLast?_ne (hk : IsName k) : k.toList.getLast? ≠ some '\n' := fun hl =>
  absurd (hk.isClean _ (List.mem_of_getLast? hl)) (by decide)

theorem isBare_of_isBareName (hk : IsName k) (h : isBareName k = true) :
    ∀ c ∈ k.toList, IsBare c := isBare_of_getLast?_ne hk.getLast?_ne h

theorem IsName.exists_cons (hk : IsName k) : ∃ c s, k.toList = c :: s := by
  match hs : k.toList with
  | [] => exact absurd (String.toList_eq_nil_iff.mp hs) hk.1
  | c :: s => exact ⟨c, s, rfl⟩

theorem pathText_singleton (k : String) : pathText [k] = nameText k := by
  simp [pathText, Text.join]

theorem pathText_cons {p : List String} (k : String) (h : p ≠ []) :
    pathText (k :: p) = nameText k ++ '.' :: pathText p := by
  obtain ⟨k', p, rfl⟩ := List.exists_cons_of_ne_nil h
  simp [pathText, Text.join]

namespace IsKey

theorem isBare (hk : IsKey k) (hb : isBareName k = true) : ∀ c ∈ k.toList, IsBare c := by
  have hi := hk.inside
  rwa [if_pos hb] at hi

theorem isInside (hk : IsKey k) (hb : ¬isBareName k = true) :
    Toml.isInside false (inQuotes k) = true := by
  have hi := hk.inside
  rwa [if_neg hb] at hi

end IsKey

theorem exists_cons_of_isBareName (hb : isBareName k = true) : ∃ c s, k.toList = c :: s := by
  refine List.exists_cons_of_ne_nil fun hn => ?_
  rw [isBareName, hn] at hb
  cases hb

/-- A key begins neither with a bracket nor with blank. -/
theorem exists_cons_keyText (hk : IsKey k) :
    ∃ c s, keyText k = c :: s ∧ (c = '"' ∨ IsBare c) := by
  by_cases hb : isBareName k = true
  · obtain ⟨c, s, hs⟩ := exists_cons_of_isBareName hb
    exact ⟨c, s, by rw [keyText, if_pos hb, hs],
      .inr (hk.isBare hb c (hs ▸ List.mem_cons_self))⟩
  · exact ⟨'"', _, by rw [keyText, if_neg hb]; rfl, .inl rfl⟩

/-- A name begins neither with a bracket nor with blank. -/
theorem exists_cons_nameText (hk : IsName k) :
    ∃ c s, nameText k = c :: s ∧ (c = '"' ∨ IsBare c) := by
  by_cases hb : isBareName k = true
  · obtain ⟨c, s, hs⟩ := hk.exists_cons
    exact ⟨c, s, by rw [nameText, if_pos hb, hs],
      .inr (isBare_of_isBareName hk hb c (hs ▸ List.mem_cons_self))⟩
  · exact ⟨'"', _, by rw [nameText, if_neg hb]; rfl, .inl rfl⟩

theorem exists_cons_pathText {p : List String} (hp : p ≠ []) (hk : ∀ k ∈ p, IsName k) :
    ∃ c s, pathText p = c :: s ∧ (c = '"' ∨ IsBare c) := by
  obtain ⟨k, p, rfl⟩ := List.exists_cons_of_ne_nil hp
  obtain ⟨c, s, hs, hc⟩ := exists_cons_nameText (hk k List.mem_cons_self)
  by_cases h : p = []
  · exact ⟨c, s, by rw [h, pathText_singleton, hs], hc⟩
  · exact ⟨c, _, by rw [pathText_cons k h, hs]; rfl, hc⟩

theorem mem_nameText (h : c ∈ nameText k) : c = '"' ∨ c ∈ k.toList := by
  unfold nameText at h
  split at h
  · exact .inr h
  · simpa [quotedText, or_comm, or_left_comm] using h

theorem bracket_not_mem_pathText {p : List String} (hk : ∀ k ∈ p, IsName k) : ']' ∉ pathText p := by
  induction p with
  | nil => simp [pathText, Text.join]
  | cons k p ih =>
    have hn : ']' ∉ nameText k := by
      intro hm
      obtain hc | hc := mem_nameText hm
      · cases hc
      · exact ((hk k List.mem_cons_self).2 _ hc).2.2.2 rfl
    by_cases h : p = []
    · rwa [h, pathText_singleton]
    · have hp := ih fun x hx => hk x (List.mem_cons_of_mem k hx)
      simp [pathText_cons k h, hn, hp]

end CallTree.Toml
