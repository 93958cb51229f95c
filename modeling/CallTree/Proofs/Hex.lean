import CallTree.Number.Reading
import CallTree.Text.Quoted
import Mathlib.Algebra.Group.Nat.Defs
import Mathlib.Data.List.Basic

/-! Numbers in base sixteen, with zeros in front of them up to a width. -/
namespace CallTree.Text

variable {w n : Nat} {c : Char}

theorem hex_one (h : n < 16) : hex 1 n = [n.digitChar] := by
  rw [hex, Nat.toDigits_of_lt_base h]
  rfl

/-- The last digit is that of the remainder. -/
theorem hex_succ (w n : Nat) : hex (w + 2) n = hex (w + 1) (n / 16) ++ [(n % 16).digitChar] := by
  rw [hex, hex]
  by_cases hn : n < 16
  · rw [Nat.toDigits_of_lt_base hn, Nat.div_eq_of_lt hn, Nat.mod_eq_of_lt hn,
      Nat.toDigits_zero]
    simp [List.replicate_succ']
  · rw [Nat.toDigits_eq_if (by decide) (n := n), if_neg hn, List.length_append]
    simp

theorem length_hex (h : n < 16 ^ (w + 1)) : (hex (w + 1) n).length = w + 1 := by
  induction w generalizing n with
  | zero => rw [hex_one (by simpa using h)]; rfl
  | succ w ih =>
    have hdiv : n / 16 < 16 ^ (w + 1) := Nat.div_lt_of_lt_mul (by rwa [← Nat.pow_succ'])
    rw [hex_succ, List.length_append, ih hdiv]
    rfl

/-- A small number begins with a zero. -/
theorem hex_of_lt (h : n < 16 ^ (w + 1)) : hex (w + 2) n = '0' :: hex (w + 1) n := by
  induction w generalizing n with
  | zero =>
    have hlt : n < 16 := by simpa using h
    rw [hex_succ, Nat.div_eq_of_lt hlt, Nat.mod_eq_of_lt hlt, hex_one hlt]
    rfl
  | succ w ih =>
    have hdiv : n / 16 < 16 ^ (w + 1) := Nat.div_lt_of_lt_mul (by rwa [← Nat.pow_succ'])
    rw [hex_succ, ih hdiv, hex_succ]
    rfl

theorem hex_four (h : n < 16 ^ 4) : hex 4 n = [(n / 4096).digitChar, (n / 256 % 16).digitChar,
    (n / 16 % 16).digitChar, (n % 16).digitChar] := by
  have h₁ : n / 16 / 16 = n / 256 := Nat.div_div_eq_div_mul n 16 16
  have h₂ : n / 256 / 16 = n / 4096 := Nat.div_div_eq_div_mul n 256 16
  rw [hex_succ, hex_succ, hex_succ, h₁, h₂, hex_one (by omega)]
  rfl

theorem exists_digit_of_mem_hex (h : c ∈ hex (w + 1) n) (hn : n < 16 ^ (w + 1)) :
    ∃ d < 16, c = d.digitChar := by
  induction w generalizing n with
  | zero =>
    have hlt : n < 16 := by simpa using hn
    rw [hex_one hlt, List.mem_singleton] at h
    exact ⟨n, hlt, h⟩
  | succ w ih =>
    have hdiv : n / 16 < 16 ^ (w + 1) := Nat.div_lt_of_lt_mul (by rwa [← Nat.pow_succ'])
    rw [hex_succ, List.mem_append, List.mem_singleton] at h
    exact h.elim (fun h => ih h hdiv) fun h => ⟨n % 16, Nat.mod_lt n (by decide), h⟩

/-- What holds of each of the sixteen digits. -/
theorem forall_of_mem_hex {P : Char → Prop} (hP : ∀ d < 16, P d.digitChar)
    (hn : n < 16 ^ (w + 1)) : ∀ c ∈ hex (w + 1) n, P c := by
  intro c hc
  obtain ⟨d, hd, rfl⟩ := exists_digit_of_mem_hex hc hn
  exact hP d hd

theorem ofDigits_hex (h : n < 16 ^ (w + 1)) : Number.ofDigits 16 (hex (w + 1) n) = n := by
  have hdigit : ∀ d < 16, (Number.digitValue? 16 d.digitChar).getD 0 = d := by decide
  induction w generalizing n with
  | zero =>
    have hlt : n < 16 := by simpa using h
    rw [hex_one hlt, Number.ofDigits, List.foldl_cons, List.foldl_nil, hdigit n hlt]
    omega
  | succ w ih =>
    have hdiv : n / 16 < 16 ^ (w + 1) := Nat.div_lt_of_lt_mul (by rwa [← Nat.pow_succ'])
    have hr := ih hdiv
    rw [Number.ofDigits] at hr
    rw [hex_succ, Number.ofDigits, List.foldl_append, hr, List.foldl_cons, List.foldl_nil,
      hdigit _ (Nat.mod_lt n (by decide))]
    omega

end CallTree.Text
