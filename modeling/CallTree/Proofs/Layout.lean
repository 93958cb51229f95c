import CallTree.Number.Shortest
import CallTree.Proofs.Digits
import Mathlib.Data.List.DropRight

/-! The texts of numbers that have a point or an exponent. -/
namespace CallTree.NumberLayout

variable {c : Char} {t : List Char}

def AreDigits (t : List Char) : Prop := t ≠ [] ∧ ∀ c ∈ t, c.isDigit = true

def IsExponent (t : List Char) : Prop :=
  ∃ sign ds, t = 'e' :: sign :: ds ∧ (sign = '-' ∨ sign = '+') ∧ AreDigits ds

/-- The text of a number without a sign. Only before a point it begins with a zero. -/
inductive IsUnsigned : List Char → Prop
  | pointed {w p : List Char} (hw : AreDigits w) (h0 : w.head? = some '0' → w = ['0'])
      (hp : AreDigits p) : IsUnsigned (w ++ '.' :: p)
  | scaled {c : Char} {p x : List Char} (hc : c.isDigit = true) (h0 : c ≠ '0')
      (hp : p = [] ∨ ∃ q, p = '.' :: q ∧ AreDigits q) (hx : IsExponent x) :
      IsUnsigned (c :: (p ++ x))

theorem areDigits_append {u : List Char} (ht : ∀ c ∈ t, c.isDigit = true) (hu : AreDigits u) :
    AreDigits (t ++ u) :=
  ⟨List.append_ne_nil_of_right_ne_nil t hu.1, fun c hc =>
    (List.mem_append.mp hc).elim (ht c) (hu.2 c)⟩

theorem isDigit_of_mem_replicate {n : Nat} (h : c ∈ List.replicate n '0') : c.isDigit = true := by
  rw [List.eq_of_mem_replicate h]
  rfl

/-- The digits of a number begin with no zero, and are some, when the zeros behind them are
dropped. -/
theorem normalDigits_of_ne_zero {d : Decimal} (h : d.digits ≠ 0) :
    AreDigits (normalDigits d).1 ∧ (normalDigits d).1.head? ≠ some '0' := by
  have hkept : (Nat.toDigits 10 d.digits).rdropWhile (· == '0') ≠ [] := by
    rw [Ne, List.rdropWhile_eq_nil_iff]
    intro hall
    obtain ⟨c, cs, hcs, -⟩ := Number.exists_cons_toDigits d.digits
    have hc := hall c (hcs ▸ List.mem_cons_self)
    have h0 := Number.head?_toDigits h
    rw [hcs, List.head?_cons] at h0
    exact h0 (congrArg some (beq_iff_eq.mp hc))
  have hpre := List.rdropWhile_prefix (· == '0') (l := Nat.toDigits 10 d.digits)
  have hdigits : (normalDigits d).1 = (Nat.toDigits 10 d.digits).rdropWhile (· == '0') := by
    have hempty : ((Nat.toDigits 10 d.digits).rdropWhile (· == '0')).isEmpty = false := by
      simpa using hkept
    rw [List.rdropWhile] at hempty ⊢
    simp only [normalDigits, hempty, Bool.false_eq_true, if_false]
  rw [hdigits]
  refine ⟨⟨hkept, fun c hc => ?_⟩, ?_⟩
  · exact Number.isDigit_of_mem_toDigits (hpre.subset hc)
  · obtain ⟨r, hr⟩ := hpre
    have h0 := Number.head?_toDigits h
    rwa [← hr, List.head?_append_of_ne_nil _ hkept] at h0

theorem areDigits_singleton (h : c.isDigit = true) : AreDigits [c] :=
  ⟨List.cons_ne_nil c [], by simpa using h⟩

/-- Between its bounds a number is written with a point, and with an exponent outside. -/
theorem isUnsigned_layout (l : NumberLayout) (d : Decimal) : IsUnsigned (l.layout d) := by
  have hzero : AreDigits ['0'] := areDigits_singleton rfl
  rw [layout]
  by_cases hd : d.digits = 0
  · have h : IsUnsigned (['0'] ++ '.' :: ['0']) := .pointed hzero (fun _ => rfl) hzero
    simp only [if_pos hd]
    exact h
  have hn := normalDigits_of_ne_zero hd
  generalize normalDigits d = q at hn
  obtain ⟨cs, e⟩ := q
  obtain ⟨⟨hne, hcs⟩, h0⟩ := hn
  have hlen := List.length_pos_of_ne_nil hne
  simp only [if_neg hd]
  split
  · split
    · have hp : AreDigits (List.replicate ((cs.length : Int) + e).natAbs '0' ++ cs) :=
        areDigits_append (fun c hc => isDigit_of_mem_replicate hc) ⟨hne, hcs⟩
      exact .pointed hzero (fun _ => rfl) hp
    · next hpoint =>
      split
      · next he =>
        have htake : cs.take ((cs.length : Int) + e).natAbs ≠ [] := by
          rw [Ne, List.take_eq_nil_iff]
          exact fun h => h.elim (by omega) hne
        have hdrop : cs.drop ((cs.length : Int) + e).natAbs ≠ [] := by
          rw [Ne, List.drop_eq_nil_iff]
          omega
        refine .pointed ⟨htake, fun c hc => hcs c (List.mem_of_mem_take hc)⟩ (fun h => ?_)
          ⟨hdrop, fun c hc => hcs c (List.mem_of_mem_drop hc)⟩
        rw [List.head?_take, if_neg (by omega)] at h
        exact absurd h h0
      · have hw : ∀ c ∈ cs ++ List.replicate e.natAbs '0', c.isDigit = true := fun c hc =>
          (List.mem_append.mp hc).elim (hcs c) isDigit_of_mem_replicate
        refine .pointed ⟨List.append_ne_nil_of_left_ne_nil hne _, hw⟩ (fun h => ?_) hzero
        rw [List.head?_append_of_ne_nil _ hne] at h
        exact absurd h h0
  · obtain ⟨c, r, rfl⟩ := List.exists_cons_of_ne_nil hne
    have hc := hcs c List.mem_cons_self
    have hr : ∀ x ∈ r, x.isDigit = true := fun x hx => hcs x (List.mem_cons_of_mem c hx)
    have hc0 : c ≠ '0' := fun h => h0 (congrArg some h)
    have hds : ∀ n x : Nat, AreDigits (List.replicate n '0' ++ Nat.toDigits 10 x) := fun n x =>
      areDigits_append (fun c hc => isDigit_of_mem_replicate hc)
        ⟨Nat.toDigits_ne_nil, fun c hc => Number.isDigit_of_mem_toDigits hc⟩
    have hexp : ∀ x : Int, IsExponent ('e' :: (if x < 0 then '-' else '+') ::
        (List.replicate (l.exponentDigits - (Nat.toDigits 10 x.natAbs).length) '0' ++
          Nat.toDigits 10 x.natAbs)) := fun x =>
      ⟨_, _, rfl, by split <;> simp, hds _ _⟩
    simp only [List.take_one, List.drop_one, List.tail_cons, List.head?_cons, Option.toList_some,
      List.cons_append]
    refine .scaled hc hc0 ?_ (hexp _)
    match r with
    | [] =>
      dsimp only
      split
      · exact .inr ⟨['0'], rfl, hzero⟩
      · exact .inl rfl
    | x :: r => exact .inr ⟨x :: r, rfl, List.cons_ne_nil x r, hr⟩

end CallTree.NumberLayout
