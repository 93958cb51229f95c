import CallTree.Proofs.Arguments
import Mathlib.Data.List.Infix

/-! Calls in text: where a statement has one, and how a call is written so that it is read again. -/
namespace CallTree.Call

open Text

variable {s t before name after before' name' after' : List Char} {c : Char}

/-- A bracket opens right after a word character. -/
def Opens (s : List Char) : Prop := ∃ c, isWord c = true ∧ [c, '('] <:+: s

/-- Text cut at the first bracket that opens right after a word character. The name is all of the
word characters before it. -/
structure Cut (s before name after : List Char) : Prop where
  eq : s = before ++ name ++ '(' :: after
  named : IsName name
  maximal : ∀ c, before.getLast? = some c → isWord c = false
  first : ¬ Opens (before ++ name)

/-- Text without the bracket that ends it, if one does. -/
def LessClosing (s t : List Char) : Prop := s = t ++ [')'] ∨ s = t ∧ s.getLast? ≠ some ')'

/-! ### Cutting -/

theorem isWord_opening : isWord '(' = false := by decide

theorem opens_concat (s : List Char) (c : Char) :
    Opens (s ++ [c]) ↔ Opens s ∨ c = '(' ∧ ∃ d, s.getLast? = some d ∧ isWord d = true := by
  constructor
  · rintro ⟨d, hd, hi⟩
    rcases List.infix_concat_iff.mp hi with ⟨r, hr⟩ | hi
    · rw [← List.singleton_append, ← List.append_assoc] at hr
      obtain ⟨hs, hc⟩ := List.append_inj' hr rfl
      exact Or.inr ⟨(List.singleton_inj.mp hc).symm, d, by rw [← hs, List.getLast?_concat], hd⟩
    · exact Or.inl ⟨d, hd, hi⟩
  · rintro (⟨d, hd, hi⟩ | ⟨rfl, d, hs, hd⟩)
    · exact ⟨d, hd, hi.trans (List.prefix_append s [c]).isInfix⟩
    · obtain ⟨r, rfl⟩ := List.getLast?_eq_some_iff.mp hs
      exact ⟨d, hd, r, [], by simp⟩

theorem not_opens_of_word (h : ∀ c ∈ s, isWord c = true) : ¬ Opens s := by
  rintro ⟨c, -, hi⟩
  have hw := h '(' (hi.subset (by simp))
  rw [isWord_opening] at hw
  cases hw

theorem opens_of_name (hn : IsName name) (before after : List Char) :
    Opens (before ++ name ++ '(' :: after) := by
  obtain ⟨r, c, rfl⟩ := (List.eq_nil_or_concat name).resolve_left hn.1
  exact ⟨c, hn.2 c (by simp), before ++ r, after, by simp⟩

theorem Cut.opens (h : Cut s before name after) : Opens s :=
  h.eq ▸ opens_of_name h.named before after

theorem Cut.rtakeWhile_isWord (h : Cut s before name after) :
    (before ++ name).rtakeWhile isWord = name := by
  have hname : ∀ c ∈ name.reverse, isWord c = true := by
    intro c hc
    exact h.named.2 c (List.mem_reverse.mp hc)
  have hbefore : before.reverse.takeWhile isWord = [] := by
    have hm := h.maximal
    rw [← List.head?_reverse] at hm
    cases hr : before.reverse with
    | nil => rfl
    | cons c r =>
      rw [hr] at hm
      simp [hm c rfl]
  rw [List.rtakeWhile, List.reverse_append, List.takeWhile_append_of_pos hname, hbefore,
    List.append_nil, List.reverse_reverse]

/-- No cut comes before another one. -/
theorem Cut.eq_of_prefix (h : Cut s before name after) (h' : Cut s before' name' after')
    (hp : before ++ name <+: before' ++ name') : before ++ name = before' ++ name' := by
  obtain ⟨r, hr⟩ := hp
  cases r with
  | nil => rw [← hr, List.append_nil]
  | cons c r =>
    have he := h.eq.symm.trans h'.eq
    rw [← hr, List.append_assoc (before ++ name)] at he
    obtain ⟨rfl, -⟩ := List.cons.inj (List.append_cancel_left he)
    exact (h'.first (hr ▸ opens_of_name h.named before r)).elim

theorem Cut.unique (h : Cut s before name after) (h' : Cut s before' name' after') :
    before = before' ∧ name = name' ∧ after = after' := by
  have hs : before ++ name <+: s := ⟨'(' :: after, h.eq.symm⟩
  have hs' : before' ++ name' <+: s := ⟨'(' :: after', h'.eq.symm⟩
  have hjoin : before ++ name = before' ++ name' := by
    rcases List.prefix_or_prefix_of_prefix hs hs' with hp | hp
    · exact h.eq_of_prefix h' hp
    · exact (h'.eq_of_prefix h hp).symm
  have hname : name = name' := by rw [← h.rtakeWhile_isWord, hjoin, h'.rtakeWhile_isWord]
  have hafter := h.eq.symm.trans h'.eq
  rw [hjoin] at hafter
  obtain ⟨-, hafter⟩ := List.cons.inj (List.append_cancel_left hafter)
  exact ⟨List.append_cancel_right (hname ▸ hjoin), hname, hafter⟩

/-- Cutting goes on from what was read already: it finds the first bracket that opens right after a
word character, or there is none. -/
theorem cutAfter_spec (read run r : List Char) (hrun : ∀ c ∈ run, isWord c = true)
    (hread : ∀ c, read.head? = some c → isWord c = false)
    (hno : ¬ Opens (read.reverse ++ run.reverse)) :
    match cutAfter read run r with
    | some (before, name, after) => Cut (read.reverse ++ run.reverse ++ r) before name after
    | none => ¬ Opens (read.reverse ++ run.reverse ++ r) := by
  induction r generalizing read run with
  | nil => simpa [cutAfter] using hno
  | cons c r ih =>
    rw [cutAfter]
    by_cases hc : isWord c = true
    · have hnext : ¬ Opens (read.reverse ++ (c :: run).reverse) := by
        rw [List.reverse_cons, ← List.append_assoc, opens_concat, not_or]
        refine ⟨hno, ?_⟩
        rintro ⟨rfl, -⟩
        rw [isWord_opening] at hc
        cases hc
      rw [if_pos hc]
      simpa using ih read (c :: run) (List.forall_mem_cons.mpr ⟨hc, hrun⟩) hread hnext
    rw [if_neg hc]
    by_cases ho : c = '(' ∧ run ≠ []
    · obtain ⟨rfl, hne⟩ := ho
      rw [if_pos ⟨rfl, hne⟩]
      refine ⟨by simp, ⟨by simpa using hne, ?_⟩, ?_, hno⟩
      · intro d hd
        exact hrun d (List.mem_reverse.mp hd)
      · intro d hd
        exact hread d (by rw [← List.getLast?_reverse]; exact hd)
    · have hnext : ¬ Opens ((c :: (run ++ read)).reverse ++ ([] : List Char).reverse) := by
        rw [List.reverse_cons, List.reverse_append, List.reverse_nil, List.append_nil, opens_concat,
          not_or]
        refine ⟨hno, ?_⟩
        rintro ⟨rfl, d, hd, hw⟩
        -- A bracket that is passed over has no word before it, and what was read ends otherwise.
        obtain rfl : run = [] := by
          by_contra hne
          exact ho ⟨rfl, hne⟩
        rw [List.reverse_nil, List.append_nil, List.getLast?_reverse] at hd
        rw [hread d hd] at hw
        cases hw
      have hhead : ∀ d, (c :: (run ++ read)).head? = some d → isWord d = false := by
        intro d hd
        obtain rfl : c = d := by simpa using hd
        exact Bool.eq_false_iff.mpr hc
      rw [if_neg ho]
      simpa using ih (c :: (run ++ read)) [] (by simp) hhead hnext

theorem cut?_spec (s : List Char) :
    match cut? s with
    | some (before, name, after) => Cut s before name after
    | none => ¬ Opens s :=
  cutAfter_spec [] [] s (by simp) (by simp) (not_opens_of_word (by simp))

theorem cut?_eq_some_iff : cut? s = some (before, name, after) ↔ Cut s before name after := by
  have hspec := cut?_spec s
  constructor
  · intro h
    rw [h] at hspec
    exact hspec
  · intro h
    cases hc : cut? s with
    | none =>
      rw [hc] at hspec
      exact (hspec h.opens).elim
    | some p =>
      rw [hc] at hspec
      obtain ⟨rfl, rfl, rfl⟩ := h.unique hspec
      rfl

theorem cut?_eq_none_iff : cut? s = none ↔ ¬ Opens s := by
  have hspec := cut?_spec s
  cases hc : cut? s with
  | none =>
    rw [hc] at hspec
    simpa using hspec
  | some p => simpa using (cut?_eq_some_iff.mp hc).opens

theorem dropClosing_eq_iff : dropClosing s = t ↔ LessClosing s t := by
  unfold dropClosing LessClosing
  split
  · next h =>
    obtain ⟨r, rfl⟩ := List.getLast?_eq_some_iff.mp h
    simp
  · next h =>
    constructor
    · rintro rfl
      exact Or.inr ⟨rfl, h⟩
    · rintro (rfl | ⟨rfl, -⟩)
      · simp at h
      · rfl

/-! ### Reading -/

theorem ofStatement?_eq_none_iff (s : String) :
    ofStatement? s = none ↔ ¬ Opens (trim s.toList) := by
  rw [← cut?_eq_none_iff, ofStatement?, Option.map_eq_none_iff, parse?]
  cases cut? (trim s.toList) <;> simp

/-- The call of a statement is read off where the statement is cut. -/
theorem ofStatement?_of_cut {s : String} (hc : Cut (trim s.toList) before name after)
    (hl : LessClosing (before ++ after) t) :
    ofStatement? s = some ⟨String.ofList name, (splitArguments t).map String.ofList⟩ := by
  rw [ofStatement?, parse?, cut?_eq_some_iff.mpr hc]
  simp only [dropClosing_eq_iff.mpr hl, Option.map_some]

theorem exists_cut_of_ofStatement? {s : String} {call : Call} (h : ofStatement? s = some call) :
    ∃ before name after, Cut (trim s.toList) before name after ∧
      call = ⟨String.ofList name,
        (splitArguments (dropClosing (before ++ after))).map String.ofList⟩ := by
  rw [ofStatement?, Option.map_eq_some_iff] at h
  obtain ⟨p, hp, rfl⟩ := h
  rw [parse?] at hp
  split at hp
  · next before name after hc =>
    cases hp
    exact ⟨before, name, after, cut?_eq_some_iff.mp hc, rfl⟩
  · cases hp

/-- Text is a statement exactly if a bracket opens right after a word character somewhere between
its blank ends. The call is cut out at the first such bracket: the word before it is the name, and
what was around the call, less a closing bracket at its end, is the arguments, between blank, with
their commas escaped. There is one more of them than there are free commas, and none if all of this
is blank. -/
theorem statement_is_cut_at_first_call (s : String) :
    (ofStatement? s = none ↔ ¬ Opens (trim s.toList)) ∧
    (Opens (trim s.toList) → ∃ before name after inner,
      Cut (trim s.toList) before name after ∧ LessClosing (before ++ after) inner) ∧
    ∀ before name after inner, Cut (trim s.toList) before name after →
      LessClosing (before ++ after) inner →
      ∃ call, ofStatement? s = some call ∧ call.name = String.ofList name ∧
        (call.args = [] ↔ AllBlank inner) ∧
        (¬ AllBlank inner → call.args.length = freeCommas inner + 1 ∧
          ∃ args, call.args = args.map (·.2) ∧ inner = writeArguments args) := by
  refine ⟨ofStatement?_eq_none_iff s, ?_, ?_⟩
  · intro ho
    cases hc : cut? (trim s.toList) with
    | none => exact (cut?_eq_none_iff.mp hc ho).elim
    | some p =>
      exact ⟨p.1, p.2.1, p.2.2, dropClosing (p.1 ++ p.2.2), cut?_eq_some_iff.mp hc,
        dropClosing_eq_iff.mp rfl⟩
  · intro before name after inner hc hl
    refine ⟨_, ofStatement?_of_cut hc hl, rfl, ?_, ?_⟩
    · rw [List.map_eq_nil_iff, splitArguments_eq_nil_iff]
    · intro hb
      rw [List.length_map, length_splitArguments hb]
      exact ⟨rfl, writeArguments_of_splitArguments hb⟩

/-- A backslash before the call escapes the comma after it. Of two closing brackets one stays. -/
theorem escape_before_call :
    ∃ call, ofStatement? " \\find(,a), b))" = some call ∧ call.name = "find" ∧
      call.args.length = 2 ∧ ∃ args, call.args = args.map (·.2) ∧
        "\\,a), b)".toList = writeArguments args := by
  have hc : Cut (trim " \\find(,a), b))".toList) ['\\'] "find".toList ",a), b))".toList :=
    cut?_eq_some_iff.mp (by decide +kernel)
  obtain ⟨-, -, hall⟩ := statement_is_cut_at_first_call " \\find(,a), b))"
  have hl : LessClosing (['\\'] ++ ",a), b))".toList) "\\,a), b)".toList :=
    Or.inl (by decide +kernel)
  obtain ⟨call, hs, hname, -, hargs⟩ := hall _ _ _ _ hc hl
  obtain ⟨hlen, hwrite⟩ := hargs (by decide +kernel)
  exact ⟨call, hs, hname.trans (by decide +kernel), hlen.trans (by decide +kernel), hwrite⟩

/-! ### Writing -/

/-- A call that some statement stands for: its name is a word, no argument begins or ends with a
blank, and a single argument is not empty. -/
structure Statable (call : Call) : Prop where
  named : IsName call.name.toList
  trimmed : ∀ a ∈ call.args, Trimmed a.toList
  args_ne : call.args ≠ [""]

/-- A statement for a call, with blank around it and around each argument. -/
def write (outer : Padding) (name : String) (args : List (Padding × String)) : String :=
  String.ofList (outer.around (name.toList ++ '(' :: writeArguments args ++ [')']))

theorem statable_of_ofStatement? {s : String} {call : Call} (h : ofStatement? s = some call) :
    call.Statable := by
  obtain ⟨before, name, after, hc, rfl⟩ := exists_cut_of_ofStatement? h
  refine ⟨by simpa using hc.named, ?_, ?_⟩
  · intro a ha
    obtain ⟨p, hp, rfl⟩ := List.mem_map.mp ha
    rw [String.toList_ofList]
    exact trimmed_of_mem_splitArguments hp
  · intro he
    obtain ⟨p, hp, hempty⟩ := List.map_eq_singleton_iff.mp he
    rw [String.ofList_eq_empty_iff] at hempty
    exact splitArguments_ne_singleton_nil _ (hempty ▸ hp)

/-- What is written is cut where the name was put. -/
theorem cut_write {name : String} (hn : IsName name.toList) (outer : Padding)
    (args : List (Padding × String)) :
    Cut (trim (write outer name args).toList) [] name.toList (writeArguments args ++ [')']) := by
  have htrimmed : Trimmed (name.toList ++ '(' :: writeArguments args ++ [')']) := by
    constructor
    · intro c hc
      obtain ⟨d, r, hd⟩ := List.exists_cons_of_ne_nil hn.1
      obtain rfl : d = c := by simpa [hd] using hc
      exact isBlank_of_isWord (hn.2 d (by simp [hd]))
    · intro c hc
      rw [List.getLast?_concat, Option.some_inj] at hc
      rw [← hc]
      decide
  rw [write, String.toList_ofList, trim_around outer htrimmed]
  exact ⟨by simp, hn, by simp, not_opens_of_word hn.2⟩

theorem ofStatement?_write {name : String} {args : List (Padding × String)}
    (hc : Statable ⟨name, args.map (·.2)⟩) (hs : Separated args) (outer : Padding) :
    ofStatement? (write outer name args) = some ⟨name, args.map (·.2)⟩ := by
  have ht : ∀ a ∈ args, Trimmed a.2.toList := fun a ha =>
    hc.trimmed a.2 (List.mem_map_of_mem ha)
  rw [ofStatement?_of_cut (cut_write hc.named outer args) (Or.inl (List.nil_append _)),
    splitArguments_writeArguments ht hs hc.args_ne]
  simp

/-- No blank at all. -/
def tight : Padding := ⟨[], [], by decide, by decide⟩

/-- A space after the text. -/
def spaced : Padding := ⟨[], [' '], by decide, by decide⟩

theorem separated_spaced (as : List String) : Separated (as.map fun a => (spaced, a)) := by
  intro a ha
  obtain ⟨b, -, rfl⟩ := List.mem_map.mp (List.mem_of_mem_dropLast ha)
  intro _ h
  cases h

theorem toStatement_eq_write (call : Call) :
    toStatement call = write tight call.name (call.args.map fun a => (tight, a)) := by
  have hargs : (call.args.map fun a => (tight, a)).map writeArgument =
      (call.args.map String.toList).map escapeCommas := by
    rw [List.map_map, List.map_map]
    refine List.map_congr_left ?_
    intro a _
    simp [writeArgument, tight, Padding.around]
  rw [toStatement, render, write, writeArguments, hargs]
  simp [tight, Padding.around]

/-- Without any blank a call is read again if none of its arguments meets the comma after it with a
backslash. -/
theorem ofStatement?_toStatement {call : Call} (hc : call.Statable)
    (hb : ∀ a ∈ call.args.dropLast, a.toList.getLast? ≠ some '\\') :
    ofStatement? call.toStatement = some call := by
  have hargs : (call.args.map fun a => (tight, a)).map (·.2) = call.args := by
    rw [List.map_map]
    exact List.map_id call.args
  have hs : Separated (call.args.map fun a => (tight, a)) := by
    intro a ha hl
    rw [← List.map_dropLast] at ha
    obtain ⟨b, hm, rfl⟩ := List.mem_map.mp ha
    exact (hb b hm hl).elim
  have hst : Statable ⟨call.name, (call.args.map fun a => (tight, a)).map (·.2)⟩ := by
    rw [hargs]
    exact hc
  have hw := ofStatement?_write hst hs tight
  rwa [hargs, ← toStatement_eq_write] at hw

/-- Whatever the blank in and around a statement, the call that it was written for is read, as long
as a blank stands between an argument that ends in a backslash and the comma after it. Only calls
that can be written so are ever read; hence a call that was read once is read again from any
statement for it, and there is such a statement for any arguments. -/
theorem statements_round_trip :
    (∀ outer name args, Statable ⟨name, args.map (·.2)⟩ → Separated args →
      ofStatement? (write outer name args) = some ⟨name, args.map (·.2)⟩) ∧
    (∀ s call, ofStatement? s = some call → call.Statable) ∧
    (∀ s call outer args, ofStatement? s = some call → call.args = args.map (·.2) →
      Separated args → ofStatement? (write outer call.name args) = some call) ∧
    ∀ as : List String, ∃ args, as = args.map (·.2) ∧ Separated args := by
  refine ⟨?_, ?_, ?_, ?_⟩
  · intro outer name args hc hs
    exact ofStatement?_write hc hs outer
  · intro s call h
    exact statable_of_ofStatement? h
  · intro s call outer args h hargs hs
    have hc := statable_of_ofStatement? h
    obtain ⟨name, as⟩ := call
    obtain rfl : as = args.map (·.2) := hargs
    exact ofStatement?_write hc hs outer
  · intro as
    refine ⟨as.map fun a => (spaced, a), ?_, separated_spaced as⟩
    rw [List.map_map]
    exact (List.map_id as).symm

/-- An argument that ends in a backslash, one that is empty, and one that is a closing bracket. -/
theorem backslash_before_comma_round_trip :
    write ⟨['\t'], ['\n'], by decide, by decide⟩ "find"
        [(spaced, "a,\\"), (tight, ""), (spaced, ")")] = "\tfind(a\\,\\ ,,) )\n" ∧
      ofStatement? "\tfind(a\\,\\ ,,) )\n" = some ⟨"find", ["a,\\", "", ")"]⟩ := by
  have hw : write ⟨['\t'], ['\n'], by decide, by decide⟩ "find"
      [(spaced, "a,\\"), (tight, ""), (spaced, ")")] = "\tfind(a\\,\\ ,,) )\n" := by
    decide +kernel
  have hc : Statable ⟨"find", ["a,\\", "", ")"]⟩ :=
    ⟨by decide +kernel, by decide +kernel, by decide⟩
  have hs : Separated [(spaced, "a,\\"), (tight, ""), (spaced, ")")] := by decide +kernel
  refine ⟨hw, ?_⟩
  rw [← hw]
  exact statements_round_trip.1 _ "find" _ hc hs

end CallTree.Call
