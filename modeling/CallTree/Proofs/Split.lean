import CallTree.Text.Split
import Mathlib.Data.List.Basic

/-! Text cut at separators that the pieces do not have. -/
namespace CallTree.Text

variable {c : Char} {sep old a b s : List Char} {n m : Nat}

theorem cut?_append_of_not_mem (h : c ∉ a) (sep s : List Char) :
    cut? (c :: sep) (a ++ s) = (cut? (c :: sep) s).map fun p => (a ++ p.1, p.2) := by
  induction a with
  | nil => cases hs : cut? (c :: sep) s <;> simp [hs]
  | cons d a ih =>
    rw [List.mem_cons, not_or] at h
    rw [List.cons_append, cut?, if_neg (by simp [h.1]), ih h.2, Option.map_map]
    rfl

theorem cut?_of_not_mem (h : c ∉ s) (sep : List Char) : cut? (c :: sep) s = none := by
  have hs := cut?_append_of_not_mem h sep []
  rwa [List.append_nil] at hs

theorem cut?_self (sep b : List Char) : cut? (c :: sep) (c :: sep ++ b) = some ([], b) := by
  simp [cut?]

theorem cut?_append (h : c ∉ a) (sep b : List Char) :
    cut? (c :: sep) (a ++ (c :: sep ++ b)) = some (a, b) := by
  rw [cut?_append_of_not_mem h, cut?_self, Option.map_some, List.append_nil]

theorem occurrences_of_cut? {sep : List Char} (h : cut? sep s = none) : occurrences sep s = 0 := by
  rw [occurrences, split]
  cases s.length with
  | zero => rfl
  | succ n => rw [splitAtMost, h]; rfl

theorem splitAtMost_of_not_mem (h : c ∉ s) (sep : List Char) (n : Nat) :
    splitAtMost (c :: sep) n s = [s] := by
  cases n with
  | zero => rfl
  | succ n => rw [splitAtMost, cut?_of_not_mem h]

theorem splitAtMost_append (h : c ∉ a) (sep b : List Char) (n : Nat) :
    splitAtMost (c :: sep) (n + 1) (a ++ (c :: sep ++ b)) = a :: splitAtMost (c :: sep) n b := by
  rw [splitAtMost, cut?_append h]

/-- With cuts enough, text is cut at each place. -/
theorem splitAtMost_eq_splitOn (h : s.length ≤ n) : splitAtMost [c] n s = s.splitOn c := by
  induction n generalizing s with
  | zero =>
    obtain rfl := List.eq_nil_of_length_eq_zero (Nat.le_zero.mp h)
    rfl
  | succ n ih =>
    by_cases hc : c ∈ s
    · obtain ⟨a, b, rfl, ha⟩ := List.eq_append_cons_of_mem hc
      have hb : b.length ≤ n := by
        rw [List.length_append, List.length_cons] at h
        omega
      rw [List.splitOn_append_cons_self_of_not_mem ha, ← ih hb]
      exact splitAtMost_append ha [] b n
    · rw [splitAtMost_of_not_mem hc, List.splitOn_eq_singleton hc]

theorem splitOn_append_of_not_mem (h : c ∉ a) (s : List Char) :
    (a ++ s).splitOn c = (s.splitOn c).modifyHead (a ++ ·) := by
  induction a with
  | nil => cases hs : s.splitOn c <;> simp [hs]
  | cons d a ih =>
    rw [List.mem_cons, not_or] at h
    rw [List.cons_append, List.splitOn_cons_eq_if_modifyHead, if_neg (by simp [Ne.symm h.1]),
      ih h.2, List.modifyHead_modifyHead]
    rfl

theorem split_eq_splitOn (c : Char) (s : List Char) : split [c] s = s.splitOn c :=
  splitAtMost_eq_splitOn (Nat.le_refl _)

/-! ### Pieces, and what is put between them -/

theorem eq_of_cut? (h : cut? sep s = some (a, b)) : s = a ++ (sep ++ b) := by
  induction s generalizing a with
  | nil => cases h
  | cons c r ih =>
    rw [cut?] at h
    split at h
    · next hp =>
      cases h
      exact (List.prefix_iff_eq_append.mp (List.isPrefixOf_iff_prefix.mp hp)).symm
    · obtain ⟨⟨a', b'⟩, hr, he⟩ := Option.map_eq_some_iff.mp h
      cases he
      rw [ih hr]
      rfl

theorem cut?_of_mem (hc : c ∈ sep) (hs : c ∉ s) : cut? sep s = none := by
  cases h : cut? sep s with
  | none => rfl
  | some p =>
    rw [eq_of_cut? h] at hs
    exact absurd (List.mem_append_right _ (List.mem_append_left _ hc)) hs

/-- More cuts than there are characters cut no further. -/
theorem splitAtMost_congr (hsep : sep ≠ []) (hn : s.length ≤ n) (hm : s.length ≤ m) :
    splitAtMost sep n s = splitAtMost sep m s := by
  induction n generalizing m s with
  | zero =>
    obtain rfl := List.eq_nil_of_length_eq_zero (Nat.le_zero.mp hn)
    cases m <;> rfl
  | succ n ih =>
    cases m with
    | zero =>
      obtain rfl := List.eq_nil_of_length_eq_zero (Nat.le_zero.mp hm)
      rfl
    | succ m =>
      rw [splitAtMost, splitAtMost]
      cases hc : cut? sep s with
      | none => rfl
      | some p =>
        obtain ⟨a, b⟩ := p
        have hlen := congrArg List.length (eq_of_cut? hc)
        have hpos := List.length_pos_of_ne_nil hsep
        rw [List.length_append, List.length_append] at hlen
        exact congrArg (a :: ·) (ih (by omega) (by omega))

theorem split_of_cut? (hsep : sep ≠ []) (h : cut? sep s = some (a, b)) :
    split sep s = a :: split sep b := by
  have hlen := congrArg List.length (eq_of_cut? h)
  have hpos := List.length_pos_of_ne_nil hsep
  rw [List.length_append, List.length_append] at hlen
  obtain ⟨k, hk⟩ : ∃ k, s.length = k + 1 := ⟨s.length - 1, by omega⟩
  rw [split, hk, splitAtMost, h]
  exact congrArg (a :: ·) (splitAtMost_congr hsep (by omega) (Nat.le_refl _))

theorem split_of_cut?_eq_none (h : cut? sep s = none) : split sep s = [s] := by
  rw [split]
  cases s.length with
  | zero => rfl
  | succ k => rw [splitAtMost, h]

theorem exists_split (sep s : List Char) : ∃ p r, split sep s = p :: r := by
  rw [split]
  cases s.length with
  | zero => exact ⟨s, [], rfl⟩
  | succ k =>
    rw [splitAtMost]
    cases cut? sep s with
    | none => exact ⟨_, _, rfl⟩
    | some p => exact ⟨_, _, rfl⟩

theorem split_append_self (hsep : sep ≠ []) (s : List Char) :
    split sep (sep ++ s) = [] :: split sep s := by
  obtain ⟨c, r, rfl⟩ := List.exists_cons_of_ne_nil hsep
  exact split_of_cut? hsep (cut?_self r s)

/-- A character at which `sep` does not stand belongs to the first piece. -/
theorem split_cons (hsep : sep ≠ []) (h : ¬sep <+: c :: s) :
    split sep (c :: s) = (split sep s).modifyHead (c :: ·) := by
  have hcut : cut? sep (c :: s) = (cut? sep s).map fun p => (c :: p.1, p.2) := by
    rw [cut?, if_neg (by rwa [List.isPrefixOf_iff_prefix])]
  cases hs : cut? sep s with
  | none =>
    rw [hs] at hcut
    rw [split_of_cut?_eq_none hcut, split_of_cut?_eq_none hs]
    rfl
  | some p =>
    rw [hs] at hcut
    rw [split_of_cut? hsep hcut, split_of_cut? hsep hs]
    rfl

theorem split_append_of_not_mem (h : c ∉ a) (more s : List Char) :
    split (c :: more) (a ++ s) = (split (c :: more) s).modifyHead (a ++ ·) := by
  induction a with
  | nil => cases hs : split (c :: more) s <;> simp [hs]
  | cons d a ih =>
    rw [List.mem_cons, not_or] at h
    have hd : ¬c :: more <+: d :: (a ++ s) := fun hp => h.1 (List.cons_prefix_cons.mp hp).1
    rw [List.cons_append, split_cons (List.cons_ne_nil c more) hd, ih h.2,
      List.modifyHead_modifyHead]
    rfl

theorem replace_append_self (h : old ≠ []) (new s : List Char) :
    replace old new (old ++ s) = new ++ replace old new s := by
  obtain ⟨p, r, hs⟩ := exists_split old s
  rw [replace, split_append_self h, replace, hs]
  simp [join]

theorem replace_cons (hold : old ≠ []) (h : ¬old <+: c :: s) (new : List Char) :
    replace old new (c :: s) = c :: replace old new s := by
  obtain ⟨p, r, hs⟩ := exists_split old s
  rw [replace, split_cons hold h, replace, hs]
  cases r <;> simp [join]

theorem replace_nil (old new : List Char) : replace old new [] = [] := by
  simp [replace, split, splitAtMost, join]

end CallTree.Text
