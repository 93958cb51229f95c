import CallTree.Document.Printer
import CallTree.Document.Reader
import CallTree.Proofs.Digits
import CallTree.Proofs.Plain
import Mathlib.Data.List.TakeDrop

/-! JSON text stands for the data that it was printed from, in either layout. -/
namespace CallTree.Json
open scoped Number

variable {n d : Nat} {c : Char} {s r t : List Char} {l : Layout} {p : Plain} {xs : List Plain}
  {es : List (String × Plain)}

/-! ### Strings -/

theorem readHex4?_append (h : readHex4? s = some (n, r)) (t : List Char) :
    readHex4? (s ++ t) = some (n, r ++ t) := by
  match s with
  | [] | [_] | [_, _] | [_, _, _] => cases h
  | _ :: _ :: _ :: _ :: _ =>
    simp only [List.cons_append, readHex4?] at h ⊢
    split at h
    · next hd =>
      cases h
      rw [if_pos hd]
    · cases h

theorem readUnicode?_hex (h : n < 32) (t : List Char) :
    readUnicode? (Text.hex 4 n ++ t) = some (Char.ofNat n, t) := by
  have hall : ∀ n < 32, readHex4? (Text.hex 4 n) = some (n, []) ∧
      Text.isHighSurrogate n = false ∧ Text.isLowSurrogate n = false := by decide
  obtain ⟨hr, hh, hl⟩ := hall n h
  simp [readUnicode?, readHex4?_append hr, Text.ofUnit, hh, hl]

/-- What is behind the backslash of an escape is read as the character that was escaped. -/
theorem readEscape?_of_escape? {e : List Char} (h : escape? c = some e) :
    ∃ f, e = '\\' :: f ∧ ∀ t, readEscape? (f ++ t) = some (c, t) := by
  have hc : c = Char.ofNat c.toNat := (Char.ofNat_toNat c).symm
  unfold escape? at h
  split at h
  · next hq => cases h; subst hq; exact ⟨['"'], rfl, fun t => rfl⟩
  split at h
  · next hq => cases h; subst hq; exact ⟨['\\'], rfl, fun t => rfl⟩
  split at h
  · next hq => cases h; subst hq; exact ⟨['n'], rfl, fun t => rfl⟩
  split at h
  · next hq => cases h; subst hq; exact ⟨['r'], rfl, fun t => rfl⟩
  split at h
  · next hq => cases h; subst hq; exact ⟨['t'], rfl, fun t => rfl⟩
  split at h
  · next hq => cases h; exact ⟨['b'], rfl, fun t => by rw [hc, hq]; rfl⟩
  split at h
  · next hq => cases h; exact ⟨['f'], rfl, fun t => by rw [hc, hq]; rfl⟩
  split at h
  · next hq =>
    cases h
    refine ⟨_, rfl, fun t => ?_⟩
    rw [List.cons_append, readEscape?, readUnicode?_hex hq, ← hc]
  · cases h

theorem plain_of_escape? (h : escape? c = none) : c ≠ '"' ∧ c ≠ '\\' ∧ ¬c.toNat < 32 := by
  grind [escape?]

/-- A printed character is read as itself, whatever is behind it. -/
theorem readString?_printChar (n : Nat) (c : Char) (t : List Char) :
    readString? (n + 1) (printChar c ++ t) = (readString? n t).map fun p => (c :: p.1, p.2) := by
  unfold printChar
  cases he : escape? c with
  | none =>
    obtain ⟨hq, hb, hc⟩ := plain_of_escape? he
    simp only [Option.getD_none, List.cons_append, List.nil_append, readString?, hq, hb, hc,
      if_false]
    cases readString? n t <;> rfl
  | some e =>
    obtain ⟨f, rfl, hf⟩ := readEscape?_of_escape? he
    have hq : '\\' ≠ '"' := by decide
    simp only [Option.getD_some, List.cons_append, readString?, hq, if_false, if_true, hf,
      Option.bind_eq_bind, Option.bind_some]
    cases readString? n t <;> rfl

theorem readString?_printChars (h : s.length < n) (r : List Char) :
    readString? n (s.flatMap printChar ++ '"' :: r) = some (s, r) := by
  induction s generalizing n with
  | nil =>
    obtain ⟨m, rfl⟩ := Nat.exists_eq_add_of_lt h
    rfl
  | cons c s ih =>
    obtain ⟨m, rfl⟩ : ∃ m, n = m + 1 := ⟨n - 1, by omega⟩
    rw [List.flatMap_cons, List.append_assoc, readString?_printChar,
      ih (by simpa using h)]
    rfl

theorem length_le_flatMap_printChar (s : List Char) : s.length ≤ (s.flatMap printChar).length := by
  induction s with
  | nil => exact Nat.zero_le 0
  | cons c s ih =>
    have hc : 0 < (printChar c).length := by
      unfold printChar
      cases he : escape? c with
      | none => exact Nat.one_pos
      | some e =>
        obtain ⟨f, rfl, -⟩ := readEscape?_of_escape? he
        exact Nat.succ_pos _
    rw [List.flatMap_cons, List.length_append, List.length_cons]
    omega

/-! ### Numbers and words -/

/-- Text behind a value, which nothing of the value goes on in. -/
def Ends (r : List Char) : Prop := ∀ c ∈ r.head?, c ∈ [',', '\n', ']', '\x7d']

theorem ends_nil : Ends [] := by simp [Ends]

theorem ends_cons (h : c ∈ [',', '\n', ']', '\x7d']) (r : List Char) : Ends (c :: r) := by
  intro x hx
  cases hx
  exact h

theorem digits_append (hs : ∀ c ∈ s, c.isDigit = true) (hr : Ends r) :
    digits (s ++ r) = (s, r) := by
  have hd : r.takeWhile Char.isDigit = [] ∧ r.dropWhile Char.isDigit = r := by
    match r with
    | [] => exact ⟨rfl, rfl⟩
    | c :: r =>
      have hall : ∀ c ∈ [',', '\n', ']', '\x7d'], ¬c.isDigit = true := by decide
      have hc := hall c (hr c rfl)
      exact ⟨List.takeWhile_cons_of_neg hc, List.dropWhile_cons_of_neg hc⟩
  rw [digits, List.span_eq_takeWhile_dropWhile, List.takeWhile_append_of_pos hs,
    List.dropWhile_append_of_pos hs, hd.1, hd.2, List.append_nil]

theorem readFraction_of_ends (h : Ends r) : readFraction r = ([], r) := by
  match r with
  | [] => rfl
  | c :: r =>
    unfold readFraction
    split
    · next hc =>
      cases hc
      exact absurd (h '.' rfl) (by decide)
    · rfl

theorem readExponent_of_ends (h : Ends r) : readExponent r = (none, r) := by
  match r with
  | [] => rfl
  | c :: r =>
    rw [readExponent, if_neg]
    rintro (rfl | rfl)
    · exact absurd (h 'e' rfl) (by decide)
    · exact absurd (h 'E' rfl) (by decide)

theorem readWhole?_toDigits (n : Nat) (h : Ends r) :
    readWhole? (Nat.toDigits 10 n ++ r) = some (Nat.toDigits 10 n, r) := by
  by_cases hn : n = 0
  · subst hn
    rfl
  · have hd := digits_append (fun c hc => Number.isDigit_of_mem_toDigits (n := n) hc) h
    have h0 := Number.head?_toDigits hn
    obtain ⟨c, cs, hcs⟩ := List.exists_cons_of_ne_nil (Nat.toDigits_ne_nil (n := n) (b := 10))
    rw [hcs] at hd h0 ⊢
    unfold readWhole?
    split
    · next hc =>
      cases hc
      exact absurd rfl h0
    · rw [hd]

theorem readNumber?_minus (m : Nat) (h : Ends r) :
    readNumber? ('-' :: (Nat.toDigits 10 m ++ r)) = some (.int (-(m : Int)), r) := by
  unfold readNumber?
  split
  next negative s hs =>
  split at hs
  · next ht =>
    cases ht
    cases hs
    simp only [readWhole?_toDigits m h, Option.bind_eq_bind, Option.bind_some,
      readFraction_of_ends h, readExponent_of_ends h, and_self, if_true, Number.ofDigits_toDigits]
    rfl
  · next hx => exact absurd rfl (hx _)

theorem readNumber?_digits (m : Nat) (h : Ends r) :
    readNumber? (Nat.toDigits 10 m ++ r) = some (.int m, r) := by
  have hw := readWhole?_toDigits m h
  have hv := Number.ofDigits_toDigits m
  obtain ⟨c, cs, hcs, hc⟩ := Number.exists_cons_toDigits m
  have hminus : c ≠ '-' := by rintro rfl; cases hc
  rw [hcs] at hw hv ⊢
  rw [List.cons_append] at hw ⊢
  unfold readNumber?
  split
  next negative s hs =>
  split at hs
  · next ht => cases ht; exact absurd rfl hminus
  · cases hs
    simp only [hw, Option.bind_eq_bind, Option.bind_some, readFraction_of_ends h,
      readExponent_of_ends h, and_self, if_true, hv]
    rfl

/-- The words begin with letters, or with a minus and a letter. -/
theorem readWord?_of_digit (hc : c.isDigit = true) (s : List Char) :
    readWord? (c :: s) = readNumber? (c :: s) ∧
      readWord? ('-' :: c :: s) = readNumber? ('-' :: c :: s) := by
  have hne : c ≠ 'n' ∧ c ≠ 't' ∧ c ≠ 'f' ∧ c ≠ 'N' ∧ c ≠ 'I' ∧ c ≠ '-' :=
    Number.forall_of_isDigit
      (P := fun c => c ≠ 'n' ∧ c ≠ 't' ∧ c ≠ 'f' ∧ c ≠ 'N' ∧ c ≠ 'I' ∧ c ≠ '-')
      (by decide) hc
  obtain ⟨hn, ht, hf, hN, hI, hm⟩ := hne
  constructor <;>
    simp [readWord?, dropWord?, Ne.symm hn, Ne.symm ht, Ne.symm hf, Ne.symm hN, Ne.symm hI,
      Ne.symm hm]

theorem readWord?_toString (n : Int) (h : Ends r) :
    readWord? ((toString n).toList ++ r) = some (.int n, r) := by
  obtain ⟨c, cs, hcs, hc⟩ := Number.exists_cons_toDigits n.natAbs
  rw [Number.toList_toString_int]
  split
  · next hn =>
    have hr := readNumber?_minus n.natAbs h
    have hz : -(n.natAbs : Int) = n := by omega
    rw [hcs, List.cons_append] at hr
    rw [hcs, List.cons_append, List.cons_append, (readWord?_of_digit hc _).2, hr, hz]
  · next hn =>
    have hr := readNumber?_digits n.natAbs h
    have hz : (n.natAbs : Int) = n := by omega
    rw [hcs, List.cons_append] at hr
    rw [hcs, List.cons_append, (readWord?_of_digit hc _).1, hr, hz]

/-! ### What stands between values -/

theorem skipSpace_cons (h : isSpace c = false) (r : List Char) : skipSpace (c :: r) = c :: r :=
  List.dropWhile_cons_of_neg (by simp [h])

theorem skipSpace_append (h : ∀ c ∈ s, isSpace c = true) (r : List Char) :
    skipSpace (s ++ r) = skipSpace r :=
  List.dropWhile_append_of_pos h

theorem isSpace_of_mem_lineAt (h : c ∈ l.lineAt d) : isSpace c = true := by
  unfold Layout.lineAt at h
  split at h
  · obtain rfl | hc := List.mem_cons.mp h
    · rfl
    · rw [List.eq_of_mem_replicate hc]
      rfl
  · cases h

theorem skipSpace_lineAt (h : isSpace c = false) (l : Layout) (d : Nat) (r : List Char) :
    skipSpace (l.lineAt d ++ c :: r) = c :: r := by
  rw [skipSpace_append fun _ hm => isSpace_of_mem_lineAt hm, skipSpace_cons h]

theorem ends_lineAt (h : Ends r) (l : Layout) (d : Nat) : Ends (l.lineAt d ++ r) := by
  unfold Layout.lineAt
  split
  · exact ends_cons (by decide) _
  · exact h

/-- A separator is a comma and blank. -/
theorem exists_separator (l : Layout) (d : Nat) :
    ∃ g, l.separator d = ',' :: g ∧ ∀ c ∈ g, isSpace c = true := by
  unfold Layout.separator
  split
  · exact ⟨_, rfl, fun _ hm => isSpace_of_mem_lineAt hm⟩
  · exact ⟨[' '], rfl, by decide⟩

/-! ### Values -/

/-- Printed data begins with a character that is neither blank nor a bracket that closes. -/
theorem exists_cons_print (h : p.Every Plain.IsExact) (l : Layout) (d : Nat) :
    ∃ c s, print l d p = c :: s ∧ isSpace c = false ∧ c ≠ ']' := by
  match p with
  | .null | .bool true | .bool false | .str _ | .list [] | .list (_ :: _) | .map []
  | .map (_ :: _) =>
    exact ⟨_, _, rfl, rfl, by decide⟩
  | .float _ => exact h.elim
  | .int n =>
    obtain ⟨c, cs, hcs, hc⟩ := Number.exists_cons_toDigits n.natAbs
    rw [print, Number.toList_toString_int, hcs]
    split
    · exact ⟨_, _, rfl, rfl, by decide⟩
    · have hd : isSpace c = false ∧ c ≠ ']' :=
        Number.forall_of_isDigit (P := fun c => isSpace c = false ∧ c ≠ ']') (by decide) hc
      exact ⟨c, cs, rfl, hd⟩

theorem readValue?_word (h : c ≠ '"' ∧ c ≠ '[' ∧ c ≠ '\x7b') (n : Nat) (s : List Char) :
    readValue? (n + 1) (c :: s) = readWord? (c :: s) := by
  obtain ⟨hq, hl, hm⟩ := h
  rw [readValue?.eq_def]
  simp [hq, hl, hm]

theorem readValue?_int (n : Nat) (m : Int) (h : Ends r) :
    readValue? (n + 1) ((toString m).toList ++ r) = some (.int m, r) := by
  obtain ⟨c, cs, hcs, hc⟩ := Number.exists_cons_toDigits m.natAbs
  have hw := readWord?_toString m h
  rw [Number.toList_toString_int, hcs] at hw ⊢
  split at hw
  · next hm => rw [if_pos hm, ← hw]; exact readValue?_word (by decide) n _
  · next hm =>
    have hd : c ≠ '"' ∧ c ≠ '[' ∧ c ≠ '\x7b' :=
      Number.forall_of_isDigit (P := fun c => c ≠ '"' ∧ c ≠ '[' ∧ c ≠ '\x7b') (by decide) hc
    rw [if_neg hm, ← hw]
    exact readValue?_word hd n _

theorem readString?_printString (s : String) (r : List Char) :
    ∃ t, printString s ++ r = '"' :: t ∧ readString? (t.length + 1) t = some (s.toList, r) := by
  refine ⟨s.toList.flatMap printChar ++ '"' :: r, by simp [printString], ?_⟩
  refine readString?_printChars ?_ r
  have hs := length_le_flatMap_printChar s.toList
  rw [List.length_append]
  omega

theorem printItems_cons (l : Layout) (d : Nat) (x y : Plain) (xs : List Plain) :
    printItems l d (x :: y :: xs) = print l d x ++ l.separator d ++ printItems l d (y :: xs) := rfl

theorem exists_cons_printItems {x : Plain} (h : x.Every Plain.IsExact) (l : Layout) (d : Nat)
    (xs : List Plain) :
    ∃ c s, printItems l d (x :: xs) = c :: s ∧ isSpace c = false ∧ c ≠ ']' := by
  obtain ⟨c, s, hs, hc⟩ := exists_cons_print h l d
  match xs with
  | [] => exact ⟨c, s, hs, hc⟩
  | y :: xs => exact ⟨c, _, by rw [printItems_cons, hs]; rfl, hc⟩

theorem printEntries_cons (l : Layout) (d : Nat) (k k' : String) (v v' : Plain)
    (es : List (String × Plain)) :
    printEntries l d ((k, v) :: (k', v') :: es) = printString k ++ ':' :: ' ' :: print l d v ++
      l.separator d ++ printEntries l d ((k', v') :: es) := rfl

theorem exists_cons_printEntries (l : Layout) (d : Nat) (k : String) (v : Plain)
    (es : List (String × Plain)) : ∃ s, printEntries l d ((k, v) :: es) = '"' :: s := by
  match es with
  | [] | _ :: _ => exact ⟨_, rfl⟩

/-- An entry that a brace follows is the last one. -/
theorem readEntries?_last {v : Plain} (k : String) (hc : isSpace c = false)
    (hv : readValue? n (c :: s) = some (v, t)) (ht : skipSpace t = '\x7d' :: r) :
    readEntries? (n + 1) (printString k ++ ':' :: ' ' :: c :: s) = some ([(k, v)], r) := by
  obtain ⟨u, hu, hk⟩ := readString?_printString k (':' :: ' ' :: c :: s)
  rw [hu, readEntries?]
  simp only [hk, Option.bind_eq_bind, Option.bind_some, skipSpace_cons (rfl : isSpace ':' = false)]
  have hb : skipSpace (' ' :: c :: s) = c :: s := skipSpace_cons hc s
  simp only [hb, hv, Option.bind_some, ht, String.ofList_toList]
  rfl

/-- Behind a comma the entries go on. -/
theorem readEntries?_more {v : Plain} (k : String) (hc : isSpace c = false)
    (hv : readValue? n (c :: s) = some (v, ',' :: t))
    (ht : readEntries? n (skipSpace t) = some (es, r)) :
    readEntries? (n + 1) (printString k ++ ':' :: ' ' :: c :: s) = some ((k, v) :: es, r) := by
  obtain ⟨u, hu, hk⟩ := readString?_printString k (':' :: ' ' :: c :: s)
  rw [hu, readEntries?]
  simp only [hk, Option.bind_eq_bind, Option.bind_some, skipSpace_cons (rfl : isSpace ':' = false)]
  have hb : skipSpace (' ' :: c :: s) = c :: s := skipSpace_cons hc s
  simp only [hb, hv, Option.bind_some, skipSpace_cons (rfl : isSpace ',' = false), ht,
    String.ofList_toList]
  rfl

mutual
/-- Printed data is read as the data, whatever is behind it. -/
theorem readValue?_print (n d : Nat) (r : List Char) (p : Plain) (hx : p.Every Plain.IsExact)
    (hk : p.Every Plain.HasKeysOnce) (hr : Ends r) (hn : (print l d p).length ≤ n) :
    readValue? n (print l d p ++ r) = some (p, r) := by
  obtain ⟨m, rfl⟩ : ∃ m, n = m + 1 := by
    obtain ⟨c, s, hs, -⟩ := exists_cons_print hx l d
    rw [hs, List.length_cons] at hn
    exact ⟨n - 1, by omega⟩
  match p with
  | .null | .bool true | .bool false | .list [] | .map [] => rfl
  | .float _ => exact hx.elim
  | .int i => exact readValue?_int m i hr
  | .str s =>
    obtain ⟨t, ht, hs⟩ := readString?_printString s r
    rw [print, ht, readValue?, hs, Option.map_some, String.ofList_toList]
  | .list (x :: xs) =>
    have hl : (printItems l (d + 1) (x :: xs)).length < m := by
      simp only [print, List.length_append, List.length_cons] at hn
      omega
    have hi := readItems?_print m (d + 1) d r x xs hx.2 hk.2 hl
    obtain ⟨c, s, hs, hc, hb⟩ := exists_cons_printItems hx.2.1 l (d + 1) xs
    have hp : print l d (.list (x :: xs)) ++ r =
        '[' :: (l.lineAt (d + 1) ++
          (printItems l (d + 1) (x :: xs) ++ (l.lineAt d ++ ']' :: r))) := by
      simp [print]
    rw [hs, List.cons_append] at hi
    rw [hp, hs, List.cons_append, readValue?, skipSpace_lineAt hc]
    split
    · next hc' => cases hc'; exact absurd rfl hb
    · rw [hi, Option.map_some]
  | .map ((k, v) :: es) =>
    have hl : (printEntries l (d + 1) ((k, v) :: es)).length < m := by
      simp only [print, List.length_append, List.length_cons] at hn
      omega
    have he := readEntries?_print m (d + 1) d r k v es hx.2 hk.2 hl
    obtain ⟨s, hs⟩ := exists_cons_printEntries l (d + 1) k v es
    have hp : print l d (.map ((k, v) :: es)) ++ r =
        '\x7b' :: (l.lineAt (d + 1) ++ (printEntries l (d + 1) ((k, v) :: es) ++
          (l.lineAt d ++ '\x7d' :: r))) := by
      simp [print]
    rw [hs, List.cons_append] at he
    rw [hp, hs, List.cons_append, readValue?, skipSpace_lineAt rfl]
    split
    · next hc => cases hc
    · rw [he, Option.map_some, Plain.ofEntries_of_nodup hk.1]

/-- Printed items are read as the items, up to the bracket that closes. -/
theorem readItems?_print (n d e : Nat) (r : List Char) (x : Plain) (xs : List Plain)
    (hx : Plain.EveryItem Plain.IsExact (x :: xs))
    (hk : Plain.EveryItem Plain.HasKeysOnce (x :: xs))
    (hn : (printItems l d (x :: xs)).length < n) :
    readItems? n (printItems l d (x :: xs) ++ (l.lineAt e ++ ']' :: r)) = some (x :: xs, r) := by
  obtain ⟨m, rfl⟩ : ∃ m, n = m + 1 := ⟨n - 1, by omega⟩
  match xs with
  | [] =>
    have hv := readValue?_print m d (l.lineAt e ++ ']' :: r) x hx.1 hk.1
      (ends_lineAt (ends_cons (by decide) r) l e) (Nat.lt_succ_iff.mp hn)
    rw [printItems, readItems?, hv]
    simp only [Option.bind_eq_bind, Option.bind_some, skipSpace_lineAt (rfl : isSpace ']' = false)]
    rfl
  | y :: xs =>
    obtain ⟨g, hg, hb⟩ := exists_separator l d
    have hl : (print l d x).length ≤ m ∧ (printItems l d (y :: xs)).length < m := by
      simp only [printItems_cons, hg, List.length_append, List.length_cons] at hn
      omega
    obtain ⟨c, s, hs, hc, -⟩ := exists_cons_printItems hx.2.1 l d xs
    have hi := readItems?_print m d e r y xs hx.2 hk.2 hl.2
    have hv :=
      readValue?_print m d (',' :: (g ++ (printItems l d (y :: xs) ++ (l.lineAt e ++ ']' :: r))))
      x hx.1 hk.1 (ends_cons (by decide) _) hl.1
    have hp : printItems l d (x :: y :: xs) ++ (l.lineAt e ++ ']' :: r) = print l d x ++
        ',' :: (g ++ (printItems l d (y :: xs) ++ (l.lineAt e ++ ']' :: r))) := by
      simp [printItems_cons, hg]
    rw [hp, readItems?, hv]
    simp only [Option.bind_eq_bind, Option.bind_some, skipSpace_cons (rfl : isSpace ',' = false)]
    rw [skipSpace_append hb, hs, List.cons_append, skipSpace_cons hc, ← List.cons_append, ← hs, hi]
    rfl

/-- Printed entries are read as the entries, up to the brace that closes. -/
theorem readEntries?_print (n d e : Nat) (r : List Char) (k : String) (v : Plain)
    (es : List (String × Plain)) (hx : Plain.EveryEntry Plain.IsExact ((k, v) :: es))
    (hk : Plain.EveryEntry Plain.HasKeysOnce ((k, v) :: es))
    (hn : (printEntries l d ((k, v) :: es)).length < n) :
    readEntries? n (printEntries l d ((k, v) :: es) ++ (l.lineAt e ++ '\x7d' :: r)) =
      some ((k, v) :: es, r) := by
  obtain ⟨m, rfl⟩ : ∃ m, n = m + 1 := ⟨n - 1, by omega⟩
  obtain ⟨c, s, hs, hc, -⟩ := exists_cons_print hx.1 l d
  match es with
  | [] =>
    have hl : (print l d v).length ≤ m := by
      simp only [printEntries, List.length_append, List.length_cons] at hn
      omega
    have hv := readValue?_print m d (l.lineAt e ++ '\x7d' :: r) v hx.1 hk.1
      (ends_lineAt (ends_cons (by decide) r) l e) hl
    rw [hs, List.cons_append] at hv
    have hr := readEntries?_last k hc hv (skipSpace_lineAt rfl l e r)
    simpa [printEntries, hs] using hr
  | (k', v') :: es =>
    obtain ⟨g, hg, hb⟩ := exists_separator l d
    have hl : (print l d v).length ≤ m ∧ (printEntries l d ((k', v') :: es)).length < m := by
      simp only [printEntries_cons, hg, List.length_append, List.length_cons] at hn
      omega
    obtain ⟨u, hu⟩ := exists_cons_printEntries l d k' v' es
    have he := readEntries?_print m d e r k' v' es hx.2 hk.2 hl.2
    have hv := readValue?_print m d
      (',' :: (g ++ (printEntries l d ((k', v') :: es) ++ (l.lineAt e ++ '\x7d' :: r))))
      v hx.1 hk.1 (ends_cons (by decide) _) hl.1
    have hg' : skipSpace (g ++ (printEntries l d ((k', v') :: es) ++ (l.lineAt e ++ '\x7d' :: r))) =
        printEntries l d ((k', v') :: es) ++ (l.lineAt e ++ '\x7d' :: r) := by
      rw [skipSpace_append hb, hu, List.cons_append, skipSpace_cons rfl]
    rw [hs, List.cons_append] at hv
    have hr := readEntries?_more k hc hv (hg' ▸ he)
    simpa [printEntries_cons, hs, hg] using hr
end

/-- The text of data is read as the data. -/
theorem read?_print (hx : p.Every Plain.IsExact) (hk : p.Every Plain.HasKeysOnce) (l : Layout) :
    read? (print l 0 p) = some p := by
  obtain ⟨c, s, hs, hc, -⟩ := exists_cons_print hx l 0
  have hv := readValue?_print ((print l 0 p).length + 1) 0 [] p hx hk ends_nil (Nat.le_succ _)
  have hb : skipSpace (print l 0 p) = print l 0 p := by rw [hs, skipSpace_cons hc]
  rw [List.append_nil] at hv
  rw [read?, hb, hv]
  rfl

end CallTree.Json

namespace CallTree.Document

/-- JSON text of a value is read back as the plain form of the value. It is JSON as it stands, so
that the reader has no need of YAML. -/
theorem json_text_is_read_back (os : Objects) (pretty : Bool) (root : String)
    (mediaType : Option String) (v : Value) (h : (Plain.render os v).Every Plain.IsExact) :
    ∃ text, print os (some "json") pretty root v = .ok text ∧
      Json.read? text.toList = some (Plain.render os v) ∧
      read (some "json") mediaType (.str text) = .ok (Plain.render os v).toValue := by
  have hr : Json.read? (Json.render pretty (Plain.render os v)).toList =
      some (Plain.render os v) := by
    rw [Json.render, String.toList_ofList]
    exact Json.read?_print h (Plain.everyKeysOnce_render os v) ⟨pretty⟩
  have hw : formatNamed (some "json") = .ok .json := by decide
  have hf : formatOf (some "json") mediaType (Json.render pretty (Plain.render os v)) = .ok .json :=
    rfl
  refine ⟨Json.render pretty (Plain.render os v), ?_, hr, ?_⟩
  · rw [print, hw]
    rfl
  · rw [read_str, hf]
    simp only [Format.read, hr, bind, Except.bind]

/-- A result with two keys that are the same as text, and with text that JSON escapes. -/
def shelf : Value :=
  .map [(.str "n", .int (-120)), (.int 1, .set [.null, .bool true]), (.str "1", .bytes [0, 65]),
    (.str "e", .error ⟨.methodError, "no \"x\"\n"⟩),
    (.str "o", .tuple [.object "pages", .list [], .map []])]

def pages : Objects := [("pages", .mapping [(.int 7, .value (.str "é"))])]

theorem shelf_is_read_back :
    (Plain.render pages shelf).Every Plain.IsExact ∧ ∃ text,
      print pages (some "json") true rootName shelf = .ok text ∧
      Json.read? text.toList = some (Plain.render pages shelf) ∧
      read (some "json") none (.str text) = .ok (Plain.render pages shelf).toValue := by
  have hx : (Plain.render pages shelf).Every Plain.IsExact := by
    have hr : Plain.render pages shelf = .map [("n", .int (-120)), ("1", .str "b'\\x00A'"),
      ("e", .map [("error", .str "no \"x\"\n"), ("status", .int 500)]),
      ("o", .list [.map [("7", .str "é")], .list [], .map []])] := by rfl
    rw [hr]
    simp [Plain.Every, Plain.EveryItem, Plain.EveryEntry, Plain.IsExact]
  exact ⟨hx, json_text_is_read_back pages true rootName none shelf hx⟩

end CallTree.Document
