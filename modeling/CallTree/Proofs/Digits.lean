import CallTree.Number.Reading
import CallTree.Text.Quoted
import Mathlib.Data.List.Basic

/-! Whole numbers as digits: what is written for a number is read as the same number. -/
namespace CallTree.Number

variable {n : Nat} {c : Char} {cs : List Char}

/-- What holds of the characters of a list is decided along the list, not by a search through all
characters. -/
scoped instance (priority := high) decidableForallMem (l : List Char) (P : Char → Prop)
    [DecidablePred P] : Decidable (∀ c ∈ l, P c) :=
  List.decidableBAll P l

/-- What holds of each of the ten digits. -/
theorem forall_of_isDigit {P : Char → Prop}
    (hP : ∀ c ∈ ['0', '1', '2', '3', '4', '5', '6', '7', '8', '9'], P c) (h : c.isDigit = true) :
    P c := by
  have hall : ∀ n < 58, 48 ≤ n →
      Char.ofNat n ∈ ['0', '1', '2', '3', '4', '5', '6', '7', '8', '9'] := by decide
  have hc : 48 ≤ c.toNat ∧ c.toNat ≤ 57 := by
    simpa [Char.isDigit, UInt32.le_iff_toNat_le] using h
  refine hP c ?_
  rw [← Char.ofNat_toNat c]
  exact hall c.toNat (by omega) hc.1

theorem digitValue?_of_isDigit (h : c.isDigit = true) :
    digitValue? 10 c = some (c.toNat - '0'.toNat) :=
  forall_of_isDigit (P := fun c => digitValue? 10 c = some (c.toNat - '0'.toNat)) (by decide) h

theorem ofDigits_eq_ofDigitChars (h : ∀ c ∈ cs, c.isDigit = true) :
    ofDigits 10 cs = Nat.ofDigitChars 10 cs 0 := by
  rw [ofDigits, Nat.ofDigitChars_eq_foldl]
  refine List.foldl_ext _ _ 0 ?_
  intro n c hc
  rw [digitValue?_of_isDigit (h c hc), Nat.mul_comm]
  rfl

theorem isDigit_of_mem_toDigits (h : c ∈ Nat.toDigits 10 n) : c.isDigit = true :=
  Nat.isDigit_of_mem_toDigits (by decide) (by decide) h

theorem ofDigits_toDigits (n : Nat) : ofDigits 10 (Nat.toDigits 10 n) = n := by
  rw [ofDigits_eq_ofDigitChars fun c hc => isDigit_of_mem_toDigits hc,
    Nat.ofDigitChars_toDigits (by decide) (by decide)]

theorem exists_cons_toDigits (n : Nat) :
    ∃ c cs, Nat.toDigits 10 n = c :: cs ∧ c.isDigit = true := by
  obtain ⟨c, cs, hcs⟩ := List.exists_cons_of_ne_nil (Nat.toDigits_ne_nil (n := n) (b := 10))
  exact ⟨c, cs, hcs, isDigit_of_mem_toDigits (hcs ▸ List.mem_cons_self)⟩

/-- Only zero is written with a zero in front. -/
theorem head?_toDigits (h : n ≠ 0) : (Nat.toDigits 10 n).head? ≠ some '0' := by
  induction n using Nat.strongRecOn with
  | ind n ih =>
    rw [Nat.toDigits_eq_if (by decide)]
    split
    · next hn =>
      have hall : ∀ d < 10, d ≠ 0 → d.digitChar ≠ '0' := by decide
      simpa using hall n hn h
    · next hn =>
      have hd : n / 10 ≠ 0 := by omega
      obtain ⟨d, ds, hds⟩ :=
        List.exists_cons_of_ne_nil (Nat.toDigits_ne_nil (n := n / 10) (b := 10))
      have hr := ih (n / 10) (by omega) hd
      rw [hds] at hr ⊢
      exact hr

/-- The digits of a whole number, with a minus before those of a negative one. -/
theorem toList_toString_int (n : Int) :
    (toString n).toList =
      if n < 0 then '-' :: Nat.toDigits 10 n.natAbs else Nat.toDigits 10 n.natAbs := by
  rw [Int.toString_eq_repr, Int.repr_eq_if]
  by_cases hn : n < 0
  · rw [if_pos hn, if_neg (by omega), String.toList_append, Nat.toList_repr]
    have ha : (-n).toNat = n.natAbs := by omega
    rw [ha]
    rfl
  · rw [if_neg hn, if_pos (by omega), Nat.toList_repr]
    have ha : n.toNat = n.natAbs := by omega
    rw [ha]

theorem isDigit_of_mem_toString {n : Int} (h : c ∈ (toString n).toList) :
    c = '-' ∨ c.isDigit = true := by
  rw [toList_toString_int] at h
  split at h
  · exact (List.mem_cons.mp h).imp_right isDigit_of_mem_toDigits
  · exact .inr (isDigit_of_mem_toDigits h)

end CallTree.Number
