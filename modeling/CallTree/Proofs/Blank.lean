import CallTree.Text.Blank
import CallTree.Text.Word
import Mathlib.Data.List.DropRight
import Mathlib.Tactic.ByContra

/-! Text between blank: what trimming takes away, and what it leaves. -/
namespace CallTree.Text

variable {s t b : List Char} {c : Char}

/-- Text that neither begins nor ends with a blank. -/
structure Trimmed (s : List Char) : Prop where
  head : ∀ c, s.head? = some c → isBlank c = false
  last : ∀ c, s.getLast? = some c → isBlank c = false

/-- The blank before and after a text. -/
structure Padding where
  before : List Char
  after : List Char
  before_blank : AllBlank before
  after_blank : AllBlank after

def Padding.around (p : Padding) (s : List Char) : List Char := p.before ++ s ++ p.after

/-- The blank that trimming takes away. -/
def Padding.of (s : List Char) : Padding where
  before := s.takeWhile isBlank
  after := (trimLeft s).rtakeWhile isBlank
  before_blank := fun _ hc => List.mem_takeWhile_imp hc
  after_blank := fun _ hc => List.mem_rtakeWhile_imp hc

theorem isBlank_of_isWord (h : isWord c = true) : isBlank c = false := by
  have hall : ∀ n ∈ blanks, isWord (Char.ofNat n) = false := by decide +kernel
  by_contra hb
  have hc : c.toNat ∈ blanks := by simpa [isBlank] using hb
  have hn := hall c.toNat hc
  rw [Char.ofNat_toNat, h] at hn
  cases hn

theorem dropWhile_isBlank_append (hb : AllBlank b)
    (hs : ∀ c, s.head? = some c → isBlank c = false) : (b ++ s).dropWhile isBlank = s := by
  rw [List.dropWhile_append_of_pos hb]
  cases s with
  | nil => rfl
  | cons c r => simp [hs c rfl]

theorem trimRight_append (hb : AllBlank b) (hs : ∀ c, s.getLast? = some c → isBlank c = false) :
    trimRight (s ++ b) = s := by
  have hr : AllBlank b.reverse := by
    intro c hc
    exact hb c (List.mem_reverse.mp hc)
  rw [trimRight, List.reverse_append, dropWhile_isBlank_append hr (by simpa using hs),
    List.reverse_reverse]

theorem trim_eq_nil (h : AllBlank s) : trim s = [] := by
  rw [trim, trimLeft, List.dropWhile_eq_nil_iff.mpr h]
  rfl

/-- Trimming takes away the blank around a text. -/
theorem trim_around (p : Padding) (hs : Trimmed s) : trim (p.around s) = s := by
  cases s with
  | nil =>
    refine trim_eq_nil ?_
    intro c hc
    rcases List.mem_append.mp hc with hc | hc
    · exact p.before_blank c (by simpa using hc)
    · exact p.after_blank c hc
  | cons c r =>
    have hl : trimLeft (p.before ++ (c :: r ++ p.after)) = c :: r ++ p.after :=
      dropWhile_isBlank_append p.before_blank (by simpa using hs.head)
    rw [Padding.around, List.append_assoc, trim, hl, trimRight_append p.after_blank hs.last]

theorem allBlank_nil : AllBlank [] := fun _ hc => nomatch hc

theorem allBlank_singleton (hc : isBlank c = true) : AllBlank [c] := by
  simpa [AllBlank] using hc

theorem allBlank_space : AllBlank [' '] := allBlank_singleton rfl

theorem trim_cons (hc : isBlank c = true) (hs : Trimmed s) : trim (c :: s) = s := by
  simpa [Padding.around] using trim_around ⟨[c], [], allBlank_singleton hc, allBlank_nil⟩ hs

theorem trim_concat (hc : isBlank c = true) (hs : Trimmed s) : trim (s ++ [c]) = s := by
  simpa [Padding.around] using trim_around ⟨[], [c], allBlank_nil, allBlank_singleton hc⟩ hs

/-- Trimming takes away nothing else. -/
theorem around_trim (s : List Char) : (Padding.of s).around (trim s) = s := by
  have hr : trim s ++ (trimLeft s).rtakeWhile isBlank = trimLeft s :=
    List.rdropWhile_append_rtakeWhile
  rw [Padding.around, List.append_assoc, Padding.of, hr]
  exact List.takeWhile_append_dropWhile

theorem trimmed_trim (s : List Char) : Trimmed (trim s) := by
  constructor
  · intro c hc
    -- Trimming on the right leaves a text with the beginning that it had.
    have hl : (trimLeft s).head? = some c := by
      obtain ⟨r, hr⟩ : trim s <+: trimLeft s := List.rdropWhile_prefix isBlank (trimLeft s)
      rw [← hr, List.head?_append, hc, Option.some_or]
    have hn := List.head?_dropWhile_not isBlank s
    rw [← trimLeft, hl] at hn
    exact hn
  · intro c hc
    have hne : trim s ≠ [] := by
      intro h
      rw [h] at hc
      cases hc
    rw [← (List.getLast_eq_iff_getLast?_eq_some hne).mpr hc]
    exact Bool.eq_false_iff.mpr (List.rdropWhile_last_not isBlank (trimLeft s) hne)

theorem trim_eq_self_iff : trim s = s ↔ Trimmed s := by
  constructor
  · intro h
    exact h ▸ trimmed_trim s
  · intro h
    simpa [Padding.around] using trim_around ⟨[], [], allBlank_nil, allBlank_nil⟩ h

theorem trimmed_of_not_blank (h : ∀ c ∈ s, isBlank c = false) : Trimmed s :=
  ⟨fun c hc => h c (List.mem_of_mem_head? hc), fun c hc => h c (List.mem_of_getLast? hc)⟩

instance (s : List Char) : Decidable (Trimmed s) := decidable_of_iff _ trim_eq_self_iff

theorem trim_eq_nil_iff : trim s = [] ↔ AllBlank s := by
  constructor
  · intro h c hc
    rw [← around_trim s, h, Padding.around, List.append_nil] at hc
    rcases List.mem_append.mp hc with hc | hc
    · exact (Padding.of s).before_blank c hc
    · exact (Padding.of s).after_blank c hc
  · exact trim_eq_nil

end CallTree.Text
