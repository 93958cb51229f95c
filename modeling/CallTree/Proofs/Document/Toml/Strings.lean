import CallTree.Document.Toml.Printer
import CallTree.Document.Toml.Value
import CallTree.Proofs.Split

/-! Strings of a TOML document: what is written for a text, and which texts are read again. -/
namespace CallTree

namespace Text

variable {c : Char} {a done : List Char}

theorem escapedAfter_cons (c : Char) (done : List Char) :
    escapedAfter (c :: done) = (c == '\\' && !escapedAfter done) := by
  by_cases hc : c = '\\'
  · rw [escapedAfter, List.takeWhile_cons_of_pos (by simpa using hc), List.length_cons]
    unfold escapedAfter
    rcases Nat.mod_two_eq_zero_or_one (done.takeWhile (· == '\\')).length with h | h <;>
      simp [hc, h, Nat.add_mod]
  · simp [escapedAfter, hc]

/-- What is in front of another character than a backslash escapes nothing behind it. -/
theorem escapedAfter_append (h : ∃ c ∈ a, c ≠ '\\') (done : List Char) :
    escapedAfter (a ++ done) = escapedAfter a := by
  induction a with
  | nil =>
    obtain ⟨_, hm, -⟩ := h
    cases hm
  | cons c a ih =>
    rw [List.cons_append, escapedAfter_cons, escapedAfter_cons]
    by_cases hc : c = '\\'
    · rw [ih (by simpa [hc] using h)]
    · rw [beq_eq_false_iff_ne.mpr hc, Bool.false_and, Bool.false_and]

theorem head?_of_escapedAfter (h : escapedAfter done = true) : done.head? = some '\\' := by
  match done with
  | [] => cases h
  | c :: r =>
    rw [escapedAfter_cons, Bool.and_eq_true, beq_iff_eq] at h
    rw [h.1]
    rfl

theorem endsEscaped_append (h : endsEscaped a = false) (b : List Char) :
    endsEscaped (a ++ b) = endsEscaped b := by
  have hr : ∀ r, escapedAfter (r ++ a.reverse) = escapedAfter r := by
    intro r
    induction r with
    | nil => exact h
    | cons c r ih => rw [List.cons_append, escapedAfter_cons, escapedAfter_cons, ih]
  rw [endsEscaped, List.reverse_append, hr, endsEscaped]

theorem endsEscaped_concat (h : c ≠ '\\') (a : List Char) : endsEscaped (a ++ [c]) = false := by
  rw [endsEscaped, List.reverse_append, List.reverse_singleton, List.singleton_append,
    escapedAfter_cons, beq_eq_false_iff_ne.mpr h, Bool.false_and]

end Text

namespace Toml

variable {c : Char} {s : String} {t u v done : List Char} {e : Bool}

/-! ### Between quotes -/

/-- A character that stands in a string as it is. -/
def isClean (c : Char) : Bool := Text.isPrintable c && c != '"' && c != '\\'

theorem ne_of_isClean (h : isClean c = true) : c ≠ '"' ∧ c ≠ '\\' := by
  simp only [isClean, Bool.and_eq_true, bne_iff_ne] at h
  exact ⟨h.1.2, h.2⟩

/-- Whether a text stays between the quotes of a string: it is printable, and each quote in it is
escaped, but not the one behind it. The first argument tells that a backslash in front escapes the
first character. -/
def isInside (escaped : Bool) : List Char → Bool
  | [] => !escaped
  | c :: t => Text.isPrintable c && (c != '"' || escaped) && isInside (c == '\\' && !escaped) t

theorem isInside_cons : isInside e (c :: t) = true ↔
    Text.isPrintable c = true ∧ (c = '"' → e = true) ∧ isInside (c == '\\' && !e) t = true := by
  simp [isInside, and_assoc, imp_iff_not_or]

theorem isPrintable_of_isInside (h : isInside e t = true) :
    ∀ c ∈ t, Text.isPrintable c = true := by
  induction t generalizing e with
  | nil => simp
  | cons c t ih =>
    obtain ⟨hc, -, ht⟩ := isInside_cons.mp h
    simpa using And.intro hc (ih ht)

theorem isInside_append_of_isClean (h : ∀ c ∈ u, isClean c = true) (v : List Char) :
    isInside false (u ++ v) = isInside false v := by
  induction u with
  | nil => rfl
  | cons c u ih =>
    have hc := h c List.mem_cons_self
    obtain ⟨hd, hb⟩ := ne_of_isClean hc
    simp only [isClean, Bool.and_eq_true] at hc
    rw [List.cons_append, isInside, beq_eq_false_iff_ne.mpr hb, Bool.false_and,
      ih fun x hx => h x (List.mem_cons_of_mem c hx)]
    simp [hc.1.1, hd]

theorem isInside_of_isClean (h : ∀ c ∈ t, isClean c = true) : isInside false t = true := by
  rw [← List.append_nil t, isInside_append_of_isClean h]
  rfl

/-- The rest of such a text, as far as the text in front of it escapes. -/
theorem isInside_append (h : isInside (Text.escapedAfter done) (u ++ v) = true) :
    isInside (Text.escapedAfter (u.reverse ++ done)) v = true := by
  induction u generalizing done with
  | nil => exact h
  | cons c u ih =>
    obtain ⟨-, -, hu⟩ := isInside_cons.mp h
    rw [← Text.escapedAfter_cons] at hu
    simpa using ih hu

theorem escapedAfter_of_isInside (h : isInside (Text.escapedAfter done) t = true) :
    Text.escapedAfter (t.reverse ++ done) = false := by
  have hend : isInside (Text.escapedAfter (t.reverse ++ done)) [] = true :=
    isInside_append (by rwa [List.append_nil])
  simpa [isInside] using hend

theorem escapedAfter_of_quote (h : isInside (Text.escapedAfter done) (u ++ '"' :: v) = true) :
    Text.escapedAfter (u.reverse ++ done) = true :=
  (isInside_cons.mp (isInside_append h)).2.1 rfl

theorem endsEscaped_of_isInside (h : isInside false t = true) : Text.endsEscaped t = false := by
  have hs : isInside (Text.escapedAfter []) t = true := h
  have he := escapedAfter_of_isInside hs
  rwa [List.append_nil] at he

theorem endsEscaped_of_quote (h : isInside false (u ++ '"' :: v) = true) :
    Text.endsEscaped u = true := by
  have hs : isInside (Text.escapedAfter []) (u ++ '"' :: v) = true := h
  have he := escapedAfter_of_quote hs
  rwa [List.append_nil] at he

theorem head?_ne_quote (h : isInside false t = true) : t.head? ≠ some '"' := by
  match t with
  | [] => simp
  | c :: t =>
    rintro ⟨⟩
    cases (isInside_cons.mp h).2.1 rfl

/-! ### Strings as they are written -/

/-- What is written for a text between its quotes. -/
def inQuotes (s : String) : List Char := Text.inner ((printString s).toOption.getD [])

/-- What is written for a text. -/
def stringText (s : String) : List Char := '"' :: (inQuotes s ++ ['"'])

/-- What is read again for a text. -/
def readText (s : String) : List Char := (readQuoted '"' (stringText s)).toOption.getD []

/-- A text that is written as one string, and that is read. -/
structure IsText (s : String) : Prop where
  written : printString s = .ok (stringText s)
  inside : isInside false (inQuotes s) = true
  read : readQuoted '"' (stringText s) = .ok (readText s)

instance (s : String) : Decidable (IsText s) :=
  decidable_of_iff (printString s = .ok (stringText s) ∧ isInside false (inQuotes s) = true ∧
      readQuoted '"' (stringText s) = .ok (readText s))
    ⟨fun h => ⟨h.1, h.2.1, h.2.2⟩, fun h => ⟨h.written, h.inside, h.read⟩⟩

theorem inner_quoted (t : List Char) : Text.inner ('"' :: (t ++ ['"'])) = t := by
  simp [Text.inner]

theorem inner_stringText (s : String) : Text.inner (stringText s) = inQuotes s :=
  inner_quoted (inQuotes s)

theorem getLast?_stringText (s : String) : (stringText s).getLast? = some '"' :=
  List.getLast?_append_of_ne_nil ('"' :: inQuotes s) (List.cons_ne_nil '"' [])

end Toml
end CallTree
