import CallTree.Document.Toml.Lines
import CallTree.Proofs.Document.Toml.Numbers
import CallTree.Proofs.Document.Toml.Rows
import Mathlib.Data.List.TakeDrop

/-! The lines of a TOML document that was written from clean text: they are those of its text. -/
namespace CallTree.Toml
open scoped Number
namespace Reading

variable {whole rest done s : List Char} {c : Char} {header : Header} {arrays : Int}

/-- At the beginning of a line. -/
def fresh (done : List Char) : Reading := { start with done }

/-- Behind the key of a line, or in a header, outside of strings. -/
def amid (header : Header) (arrays : Int) (done : List Char) : Reading :=
  { start with done, header, arrays, lineStart := false }

/-- In a string. -/
def inString (header : Header) (arrays : Int) (done : List Char) : Reading :=
  { amid header arrays done with quote := some '"' }

/-- In a name, or behind it. -/
def inName (key : KeyState) (quote : Option Char) (done : List Char) : Reading :=
  { amid .none 0 done with key, quote }

/-- No quote and no backslash stands in front. -/
def Calm (whole done : List Char) : Prop := ∀ c ∈ (done ++ whole.reverse).head?, isMark c = false

/-- A character outside of strings that changes nothing. -/
def IsPlain (c : Char) : Prop := c ∉ ['"', '\'', '#', '[', ']', '\n', '\r']

instance (c : Char) : Decidable (IsPlain c) :=
  inferInstanceAs (Decidable (c ∉ ['"', '\'', '#', '[', ']', '\n', '\r']))

/-! ### Quotes -/

theorem behind_of_calm (r : Reading) (h : Calm whole r.done) :
    ∀ c ∈ (r.behind whole).head?, isMark c = false := by
  rw [behind, List.span_eq_takeWhile_dropWhile]
  match hd : r.done with
  | [] => simpa [Calm, hd] using h
  | c :: t =>
    have hc : isMark c = false := h c (by simp [hd])
    simp [hc]

theorem behind_cons_cons (whole : List Char) {r : Reading} {x y : Char}
    (h : r.done = x :: y :: done) :
    ∃ u, r.behind whole = x :: u ∧ (isMark x = true → u.head? = some y) := by
  rw [behind, List.span_eq_takeWhile_dropWhile, h]
  cases hx : isMark x with
  | false => exact ⟨[], by simp [hx], fun hf => by cases hf⟩
  | true =>
    cases hy : isMark y with
    | false => exact ⟨[y], by simp [hx, hy], fun _ => rfl⟩
    | true =>
      cases hd : done.dropWhile isMark with
      | nil =>
        exact ⟨y :: (done.takeWhile isMark ++ whole.reverse), by simp [hx, hy, hd], fun _ => rfl⟩
      | cons z t => exact ⟨y :: (done.takeWhile isMark ++ [z]), by simp [hx, hy, hd], fun _ => rfl⟩

theorem atQuote_open {r : Reading} (h : Calm whole r.done) (hq : r.quote = none) :
    r.atQuote whole '"' = { r with quote := some '"' } := by
  have hb := behind_of_calm r h
  have ht : isThird '"' (r.behind whole) = false := by
    match hr : r.behind whole with
    | [] => rfl
    | c :: t =>
      rw [hr] at hb
      have hc : c ≠ '"' := by rintro rfl; exact absurd (hb '"' rfl) (by decide)
      simp [isThird, List.isPrefixOf, Ne.symm hc]
  have he : Text.escapedAfter (r.behind whole) = false := by
    match hr : r.behind whole with
    | [] => rfl
    | c :: t =>
      rw [hr] at hb
      have hc : c ≠ '\\' := by rintro rfl; exact absurd (hb '\\' rfl) (by decide)
      simp [Text.escapedAfter, hc]
  simp [atQuote, hq, ht, he, turn]

/-- Only what is known of the characters before this one can escape it. -/
theorem escapedAfter_behind (whole : List Char) {r : Reading} (h : ∃ c ∈ r.done, c ≠ '\\') :
    Text.escapedAfter (r.behind whole) = Text.escapedAfter r.done := by
  have hsplit := List.takeWhile_append_dropWhile (p := isMark) (l := r.done)
  rw [behind, List.span_eq_takeWhile_dropWhile]
  cases hd : r.done.dropWhile isMark with
  | nil =>
    rw [hd, List.append_nil] at hsplit
    simp only [hsplit]
    exact Text.escapedAfter_append h _
  | cons c t =>
    have hmark : isMark c = false := by
      simpa [hd] using List.head?_dropWhile_not isMark r.done
    have hc : c ≠ '\\' := by rintro rfl; cases hmark
    have hne : ∃ x ∈ r.done.takeWhile isMark ++ [c], x ≠ '\\' := ⟨c, by simp, hc⟩
    have hdone : r.done.takeWhile isMark ++ [c] ++ t = r.done := by
      rw [List.append_assoc, List.singleton_append, ← hd, hsplit]
    have he := Text.escapedAfter_append hne t
    rw [hdone] at he
    exact he.symm

/-- An escaped quote does not close a string. -/
theorem atQuote_escaped {r : Reading} (he : Text.escapedAfter r.done = true)
    (hd : ∃ c ∈ r.done, c ≠ '\\') (hq : r.quote = some '"') : r.atQuote whole '"' = r := by
  have hb := (escapedAfter_behind whole hd).trans he
  have hhead := Text.head?_of_escapedAfter hb
  have ht : isThird '"' (r.behind whole) = false := by
    match hr : r.behind whole with
    | [] => rfl
    | c :: t =>
      rw [hr] at hhead
      cases hhead
      rfl
  simp [atQuote, hq, ht, hb, hhead]

/-- A quote closes a string if it is not escaped and there are no two quotes before it. -/
theorem atQuote_close {r : Reading} {x y : Char} (h : r.done = x :: y :: done)
    (hy : x = '"' → y ≠ '"') (he : Text.escapedAfter r.done = false)
    (hd : ∃ c ∈ r.done, c ≠ '\\') (hq : r.quote = some '"') :
    r.atQuote whole '"' = { r with quote := none } := by
  obtain ⟨u, hb, hu⟩ := behind_cons_cons whole h
  have ht : isThird '"' (r.behind whole) = false := by
    rw [hb]
    by_cases hc : x = '"'
    · have hyu := hu (by rw [hc]; rfl)
      match u with
      | [] => cases hyu
      | z :: u =>
        obtain rfl : z = y := Option.some.inj hyu
        simp [isThird, List.isPrefixOf, Ne.symm (hy hc)]
    · simp [isThird, List.isPrefixOf, Ne.symm hc]
  have he' := (escapedAfter_behind whole hd).trans he
  simp [atQuote, hq, ht, he', turn]

/-! ### Steps -/

/-- A step outside of keys and comments. -/
theorem step_keyless {r q : Reading} (hk : r.key = .none) (hc : r.comment = false) (hr : c ≠ '\r')
    (hq : r.atQuote whole c = q) :
    r.step whole c rest =
      if c = '#' ∧ q.quote.isNone ∧ q.header = .none then .ok { q.push ' ' with comment := true }
      else if c = '\n' then (q.atBracket c rest).atLineEnd else (q.atBracket c rest).atOther c := by
  obtain ⟨d, k, dot, quote, many, head, arr, com, first⟩ := r
  cases hk
  cases hc
  subst hq
  simp [step, hr, pure, Except.pure, bind, Except.bind]

theorem atQuote_of_ne {r : Reading} (hs : c ≠ '\'') (hd : c ≠ '"') : r.atQuote whole c = r := by
  simp [atQuote, hs, hd]

theorem step_plain (hc : IsPlain c) :
    (amid header arrays done).step whole c rest = .ok (amid header arrays (c :: done)) := by
  simp only [IsPlain, List.mem_cons, List.not_mem_nil, or_false, not_or] at hc
  obtain ⟨hd, hs, hh, ho, hb, hn, hr⟩ := hc
  rw [step_keyless rfl rfl hr (atQuote_of_ne hs hd)]
  simp [amid, start, atBracket, atOther, push, hh, ho, hb, hn]

theorem step_inString (hc : Text.isPrintable c = true)
    (hq : c = '"' → Text.escapedAfter done = true) (hd : ∃ x ∈ done, x ≠ '\\') :
    (inString header arrays done).step whole c rest = .ok (inString header arrays (c :: done)) := by
  have hn : c ≠ '\n' := by rintro rfl; cases hc
  have hr : c ≠ '\r' := by rintro rfl; cases hc
  have hsame : (inString header arrays done).atQuote whole c = inString header arrays done := by
    by_cases he : c = '"'
    · subst he
      exact atQuote_escaped (hq rfl) hd rfl
    · simp [atQuote, he, inString]
  rw [step_keyless rfl rfl hr hsame]
  simp [inString, amid, start, atBracket, atOther, push, hn]

theorem step_open (h : Calm whole done) :
    (amid header arrays done).step whole '"' rest = .ok (inString header arrays ('"' :: done)) := by
  rw [step_keyless rfl rfl (by decide) (atQuote_open h rfl)]
  simp [inString, amid, start, atBracket, atOther, push]

theorem step_close {x y : Char} (hy : x = '"' → y ≠ '"')
    (he : Text.escapedAfter (x :: y :: done) = false) (hd : ∃ c ∈ x :: y :: done, c ≠ '\\') :
    (inString header arrays (x :: y :: done)).step whole '"' rest =
      .ok (amid header arrays ('"' :: x :: y :: done)) := by
  rw [step_keyless rfl rfl (by decide) (atQuote_close rfl hy he hd rfl)]
  simp [inString, amid, start, atBracket, atOther, push]

theorem step_openBracket :
    (amid .none arrays done).step whole '[' rest = .ok (amid .none (arrays + 1) ('[' :: done)) := by
  rw [step_keyless rfl rfl (by decide) (atQuote_of_ne (by decide) (by decide))]
  simp [amid, start, atBracket, atOther, push]

theorem step_closeBracket :
    (amid .none arrays done).step whole ']' rest = .ok (amid .none (arrays - 1) (']' :: done)) := by
  rw [step_keyless rfl rfl (by decide) (atQuote_of_ne (by decide) (by decide))]
  simp [amid, start, atBracket, atOther, push]

/-- The bracket that closes the header of a table. -/
theorem step_closeTable :
    (amid .table 0 done).step whole ']' rest = .ok (amid .none 0 (']' :: done)) := by
  rw [step_keyless rfl rfl (by decide) (atQuote_of_ne (by decide) (by decide))]
  simp [amid, start, atBracket, atOther, push]

theorem step_closeArray :
    (amid .tableArray 0 done).step whole ']' rest =
      .ok (amid (if done.head? = some ']' then .none else .tableArray) 0 (']' :: done)) := by
  rw [step_keyless rfl rfl (by decide) (atQuote_of_ne (by decide) (by decide))]
  by_cases h : done.head? = some ']' <;> simp [amid, start, atBracket, atOther, push, h]

theorem step_lineEnd :
    (amid .none 0 done).step whole '\n' rest = .ok (fresh ('\n' :: done)) := by
  rw [step_keyless rfl rfl (by decide) (atQuote_of_ne (by decide) (by decide))]
  simp [amid, fresh, start, atBracket, atLineEnd, push]

theorem step_blankLine : (fresh done).step whole '\n' rest = .ok (fresh ('\n' :: done)) := by
  rw [step_keyless rfl rfl (by decide) (atQuote_of_ne (by decide) (by decide))]
  simp [fresh, start, atBracket, atLineEnd, push]

theorem step_openTable (h : rest.head? ≠ some '[') :
    (fresh done).step whole '[' rest = .ok (amid .table 0 ('[' :: done)) := by
  rw [step_keyless rfl rfl (by decide) (atQuote_of_ne (by decide) (by decide))]
  simp [amid, fresh, start, atBracket, atOther, push, h]

theorem step_openArray :
    (fresh done).step whole '[' ('[' :: rest) = .ok (amid .tableArray 0 ('[' :: done)) := by
  rw [step_keyless rfl rfl (by decide) (atQuote_of_ne (by decide) (by decide))]
  simp [amid, fresh, start, atBracket, atOther, push]

theorem step_secondBracket :
    (amid .tableArray 0 done).step whole '[' rest = .ok (amid .tableArray 0 ('[' :: done)) := by
  rw [step_keyless rfl rfl (by decide) (atQuote_of_ne (by decide) (by decide))]
  simp [amid, start, atBracket, atOther, push]

/-! ### Names of entries -/

theorem step_firstBare (hc : IsBare c) :
    (fresh done).step whole c rest = .ok (inName .name none (c :: done)) := by
  have hne := hc.ne
  simp only [List.mem_cons, List.not_mem_nil, or_false, not_or] at hne
  obtain ⟨hd, hs, hh, ho, hb, hn, hr, he, -, hsp, ht⟩ := hne
  rw [step_keyless rfl rfl hr (atQuote_of_ne hs hd)]
  simp [inName, amid, fresh, start, atBracket, atOther, push, hh, ho, hb, hn, he, hsp, ht]

theorem step_firstQuote (h : Calm whole done) :
    (fresh done).step whole '"' rest = .ok (inName .name (some '"') ('"' :: done)) := by
  rw [step_keyless rfl rfl (by decide) (atQuote_open h rfl)]
  simp [inName, amid, fresh, start, atBracket, atOther, push]

/-- A step in a key, as far as it goes on. -/
theorem step_of_inKey {r q : Reading} (hk : r.key ≠ .none) (hc : r.comment = false) (hr : c ≠ '\r')
    (hq : r.inKey c rest = .ok (some q)) : r.step whole c rest = .ok (q.push c) := by
  obtain ⟨d, k, dot, quote, many, head, arr, com, first⟩ := r
  cases hc
  simp [step, hr, hk, hq, pure, Except.pure, bind, Except.bind]

theorem goesOn_of_isBare (h : IsBare c) : (isLetterOrDigit c || c == '_' || c == '-') = true :=
  forall_of_isBare (P := fun c => (isLetterOrDigit c || c == '_' || c == '-') = true) (by decide) h

theorem step_bare (hc : IsBare c) :
    (inName .name none done).step whole c rest = .ok (inName .name none (c :: done)) := by
  have hne := hc.ne
  have hb := hc.not_blank
  have hw := goesOn_of_isBare hc
  simp only [List.mem_cons, List.not_mem_nil, or_false, not_or] at hne
  obtain ⟨-, -, -, -, -, hn, hr, -, hp, -, -⟩ := hne
  refine step_of_inKey (q := inName .name none done) (by simp [inName]) rfl hr ?_
  simp [inKey, inName, amid, start, hn, hb, hp, hw, pure, Except.pure, bind, Except.bind]

theorem step_nameEnd :
    (inName .name none done).step whole ' ' rest = .ok (inName .after none (' ' :: done)) := by
  refine step_of_inKey (q := inName .after none done) (by simp [inName]) rfl (by decide) ?_
  rfl

theorem step_inQuotes (hc : Text.isPrintable c = true)
    (hq : c = '"' → Text.escapedAfter done = true) :
    (inName .name (some '"') done).step whole c rest =
      .ok (inName .name (some '"') (c :: done)) := by
  have hn : c ≠ '\n' := by rintro rfl; cases hc
  have hr : c ≠ '\r' := by rintro rfl; cases hc
  refine step_of_inKey (q := inName .name (some '"') done) (by simp [inName]) rfl hr ?_
  have hopen : ¬(c = '"' ∧ Text.escapedAfter done = false) := fun h =>
    Bool.false_ne_true (h.2.symm.trans (hq h.1))
  simp [inKey, inName, amid, start, hn, hopen, pure, Except.pure]

theorem step_quotesEnd (he : Text.escapedAfter done = false) :
    (inName .name (some '"') done).step whole '"' rest =
      .ok (inName .after none ('"' :: done)) := by
  refine step_of_inKey (q := inName .after none done) (by simp [inName]) rfl (by decide) ?_
  simp [inKey, inName, amid, start, he, pure, Except.pure]

theorem step_behindName :
    (inName .after none done).step whole ' ' rest = .ok (inName .after none (' ' :: done)) := by
  refine step_of_inKey (q := inName .after none done) (by simp [inName]) rfl (by decide) ?_
  rfl

theorem step_equals :
    (inName .after none done).step whole '=' rest = .ok (amid .none 0 ('=' :: done)) := by
  rfl

/-! ### Runs -/

variable {r q u : List Char → Reading} {t : List Char} {d : Char}

/-- From one state to another a text is taken over as it is. -/
def Passes (whole : List Char) (r : List Char → Reading) (s : List Char)
    (q : List Char → Reading) (done : List Char) : Prop :=
  ∀ rest, run whole (s ++ rest) (r done) = run whole rest (q (s.reverse ++ done))

theorem run_cons {r q : Reading} (h : r.step whole c rest = .ok q) :
    run whole (c :: rest) r = run whole rest q := by
  rw [run, h]
  rfl

theorem Passes.nil (r : List Char → Reading) (done : List Char) : Passes whole r [] r done :=
  fun _ => rfl

theorem Passes.cons (h : ∀ rest, (r done).step whole c rest = .ok (q (c :: done)))
    (ht : Passes whole q t u (c :: done)) : Passes whole r (c :: t) u done := by
  intro rest
  rw [List.cons_append, run_cons (h _), List.reverse_cons, List.append_assoc]
  exact ht rest

theorem Passes.append (hs : Passes whole r s q done) (ht : Passes whole q t u (s.reverse ++ done)) :
    Passes whole r (s ++ t) u done := by
  intro rest
  rw [List.append_assoc, hs, ht, List.reverse_append, List.append_assoc]

/-- A text of characters that each leave the state as it is. -/
theorem Passes.of_forall
    (h : ∀ c ∈ s, ∀ done rest, (r done).step whole c rest = .ok (r (c :: done)))
    (done : List Char) : Passes whole r s r done := by
  induction s generalizing done with
  | nil => exact .nil r done
  | cons c s ih =>
    exact .cons (h c List.mem_cons_self done) (ih (fun x hx => h x (List.mem_cons_of_mem c hx)) _)

theorem passes_plain (h : ∀ c ∈ s, IsPlain c) (done : List Char) :
    Passes whole (amid header arrays) s (amid header arrays) done :=
  .of_forall (fun c hc _ _ => step_plain (h c hc)) done

theorem passes_inside (h : isInside (Text.escapedAfter done) t = true)
    (hd : ∃ x ∈ done, x ≠ '\\') :
    Passes whole (inString header arrays) t (inString header arrays) done := by
  induction t generalizing done with
  | nil => exact .nil _ _
  | cons c t ih =>
    obtain ⟨hc, hq, ht⟩ := isInside_cons.mp h
    rw [← Text.escapedAfter_cons] at ht
    obtain ⟨x, hx, hne⟩ := hd
    exact .cons (fun _ => step_inString hc hq ⟨x, hx, hne⟩)
      (ih ht ⟨x, List.mem_cons_of_mem c hx, hne⟩)

/-- Before the quote that closes a string, there are no two others. -/
theorem exists_before_close (h : isInside false t = true) (hd : d ≠ '"') (done : List Char) :
    ∃ x y r, t.reverse ++ '"' :: d :: done = x :: y :: r ∧ (x = '"' → y ≠ '"') := by
  obtain rfl | ⟨u, c, rfl⟩ := List.eq_nil_or_concat t
  · exact ⟨'"', d, done, rfl, fun _ => hd⟩
  · rw [List.concat_eq_append] at h
    obtain ⟨y, r, hy⟩ := List.exists_cons_of_ne_nil
      (List.append_ne_nil_of_right_ne_nil u.reverse (List.cons_ne_nil '"' (d :: done)))
    refine ⟨c, y, r, by simp [← hy], ?_⟩
    rintro rfl
    have hs : isInside (Text.escapedAfter ('"' :: d :: done)) (u ++ '"' :: []) = true := h
    have he := Text.head?_of_escapedAfter (escapedAfter_of_quote hs)
    rw [hy] at he
    cases he
    decide

/-- A string, behind any other character than a mark. -/
theorem passes_quoted (h : isInside false t = true) (hd : isMark d = false) (done : List Char) :
    Passes whole (amid header arrays) ('"' :: (t ++ ['"'])) (amid header arrays) (d :: done) := by
  have hcalm : Calm whole (d :: done) := by
    intro c hc
    cases hc
    exact hd
  have hq : d ≠ '"' := by rintro rfl; cases hd
  have hin : isInside (Text.escapedAfter ('"' :: d :: done)) t = true := h
  have hne : ∃ x ∈ '"' :: d :: done, x ≠ '\\' := ⟨'"', List.mem_cons_self, by decide⟩
  have he := escapedAfter_of_isInside hin
  have hne' : ∃ x ∈ t.reverse ++ '"' :: d :: done, x ≠ '\\' := ⟨'"', by simp, by decide⟩
  obtain ⟨x, y, r, hr, hy⟩ := exists_before_close h hq done
  refine .cons (fun _ => step_open hcalm) (.append (passes_inside hin hne) ?_)
  rw [hr] at he hne' ⊢
  exact .cons (fun _ => step_close hy he hne') (.nil _ _)

theorem isPlain_of_numeric : ∀ c ∈ numericChars, IsPlain c := by decide

mutual
theorem passes_chars (x : Inline) (h : x.IsEntry) (d : Char) (hd : isMark d = false) (arrays : Int)
    (done : List Char) :
    Passes whole (amid .none arrays) x.chars (amid .none arrays) (d :: done) := by
  match x with
  | .bool true | .bool false =>
    exact passes_plain (by decide) _
  | .int _ | .float _ =>
    exact passes_plain (fun c hc =>
      isPlain_of_numeric c (numeric_chars (by trivial) c hc)) _
  | .text s => exact passes_quoted (IsText.inside h) hd done
  | .list xs =>
    have hi := passes_itemChars xs h.2 (arrays + 1) ('[' :: d :: done)
    refine .cons (fun _ => step_openBracket) (hi.append (.cons (fun _ => ?_) (.nil _ _)))
    rw [step_closeBracket, Int.add_sub_cancel]

theorem passes_itemChars (xs : List Inline) (h : Inline.AreItems xs) (arrays : Int)
    (done : List Char) :
    Passes whole (amid .none arrays) (Inline.itemChars xs) (amid .none arrays) done := by
  match xs with
  | [] => exact .nil _ _
  | x :: r =>
    have hp : IsPlain ' ' ∧ IsPlain ',' := by decide
    refine .cons (fun _ => step_plain hp.1)
      (.append (passes_chars x h.1.isEntry ' ' rfl arrays done) ?_)
    exact .cons (fun _ => step_plain hp.2) (passes_itemChars r h.2 arrays _)
end

/-! ### Rows -/

theorem isPlain_of_isBare (h : IsBare c) : IsPlain c := by
  have hne := h.ne
  unfold IsPlain
  simp only [List.mem_cons, List.not_mem_nil, or_false, not_or] at hne ⊢
  exact ⟨hne.1, hne.2.1, hne.2.2.1, hne.2.2.2.1, hne.2.2.2.2.1, hne.2.2.2.2.2.1, hne.2.2.2.2.2.2.1⟩

theorem passes_inQuotes (h : isInside (Text.escapedAfter done) t = true) :
    Passes whole (inName .name (some '"')) t (inName .name (some '"')) done := by
  induction t generalizing done with
  | nil => exact .nil _ _
  | cons c t ih =>
    obtain ⟨hc, hq, ht⟩ := isInside_cons.mp h
    rw [← Text.escapedAfter_cons] at ht
    exact .cons (fun _ => step_inQuotes hc hq) (ih ht)

/-- The key of an entry, up to the equals sign behind it. -/
theorem passes_key {k : String} (hk : IsKey k) (h : Calm whole done) :
    Passes whole fresh (keyText k ++ [' ', '=']) (amid .none 0) done := by
  have hend : ∀ done, Passes whole (inName .after none) ['='] (amid .none 0) done :=
    fun done => .cons (fun _ => step_equals) (.nil _ _)
  by_cases hb : isBareName k = true
  · obtain ⟨c, s, hs⟩ := exists_cons_of_isBareName hb
    have hall := hk.isBare hb
    rw [hs] at hall
    have hrest : ∀ c ∈ s, IsBare c := fun c hc => hall c (List.mem_cons_of_mem _ hc)
    rw [keyText, if_pos hb, hs]
    refine .cons (fun _ => step_firstBare (hall c List.mem_cons_self)) (.append (.of_forall
      (fun c hc _ _ => step_bare (hrest c hc)) _) (.cons (fun _ => step_nameEnd) (hend _)))
  · have hin : isInside (Text.escapedAfter ('"' :: done)) (inQuotes k) = true := hk.isInside hb
    rw [keyText, if_neg hb, stringText, List.cons_append, List.append_assoc]
    refine .cons (fun _ => step_firstQuote h) (.append (passes_inQuotes hin) ?_)
    exact .cons (fun _ => step_quotesEnd (escapedAfter_of_isInside hin))
      (.cons (fun _ => step_behindName) (hend _))

theorem passes_nameText {k : String} (hk : IsName k) (hd : isMark d = false) (done : List Char) :
    Passes whole (amid header 0) (nameText k) (amid header 0) (d :: done) := by
  by_cases hb : isBareName k = true
  · rw [nameText, if_pos hb]
    exact passes_plain (fun c hc => isPlain_of_isBare (isBare_of_isBareName hk hb c hc)) _
  · rw [nameText, if_neg hb]
    exact passes_quoted (isInside_of_isClean hk.isClean) hd done

theorem passes_pathText {p : List String} (hp : p ≠ []) (hk : ∀ k ∈ p, IsName k)
    (hd : isMark d = false) (done : List Char) :
    Passes whole (amid header 0) (pathText p) (amid header 0) (d :: done) := by
  induction p generalizing d done with
  | nil => exact absurd rfl hp
  | cons k p ih =>
    have hn : Passes whole (amid header 0) (nameText k) (amid header 0) (d :: done) :=
      passes_nameText (hk k List.mem_cons_self) hd done
    cases p with
    | nil => exact (pathText_singleton k).symm ▸ hn
    | cons k' p =>
      rw [pathText_cons k (List.cons_ne_nil k' p)]
      have hpoint : IsPlain '.' := by decide
      exact hn.append (.cons (fun _ => step_plain hpoint)
        (ih (List.cons_ne_nil k' p) (fun x hx => hk x (List.mem_cons_of_mem k hx)) rfl _))

theorem head?_ne_bracket {p : List String} (h : (Row.table p).IsClean) (t : List Char) :
    (pathText p ++ t).head? ≠ some '[' := by
  obtain ⟨c, s, hs, hc⟩ := exists_cons_pathText h.1 h.2
  rw [hs]
  rintro ⟨⟩
  obtain hc | hc := hc
  · cases hc
  · cases hc

theorem passes_lineEnd (done : List Char) : Passes whole (amid .none 0) ['\n'] fresh done :=
  .cons (fun _ => step_lineEnd) (.nil _ _)

theorem passes_entry {k : String} {x : Inline} (hl : (Row.entry k x).IsClean)
    (h : Calm whole done) :
    Passes whole fresh ((Row.entry k x).chars ++ ['\n']) fresh done := by
  have hsp : IsPlain ' ' := by decide
  have hv : Passes whole (amid .none 0) x.chars (amid .none 0)
      (' ' :: ((keyText k ++ [' ', '=']).reverse ++ done)) := passes_chars x hl.2.1 ' ' rfl 0 _
  have hrow : (Row.entry k x).chars ++ ['\n'] =
      (keyText k ++ [' ', '=']) ++ (' ' :: (x.chars ++ ['\n'])) := by
    simp [Row.chars]
  rw [hrow]
  exact (passes_key hl.1 h).append (.cons (fun _ => step_plain hsp) (hv.append (passes_lineEnd _)))

theorem passes_table {p : List String} (hl : (Row.table p).IsClean) (done : List Char) :
    Passes whole fresh ((Row.table p).chars ++ ['\n']) fresh done := by
  have hp : Passes whole (amid .table 0) (pathText p) (amid .table 0) ('[' :: done) :=
    passes_pathText hl.1 hl.2 rfl done
  have ht := hp.append (.cons (fun _ => step_closeTable) (passes_lineEnd _))
  intro rest
  have hrow : (Row.table p).chars ++ ['\n'] ++ rest =
      '[' :: (pathText p ++ [']', '\n'] ++ rest) := by simp [Row.chars]
  rw [hrow, run_cons (step_openTable (by rw [List.append_assoc]; exact head?_ne_bracket hl _)),
    ht rest]
  simp [Row.chars]

theorem passes_array {p : List String} (hl : (Row.array p).IsClean) (done : List Char) :
    Passes whole fresh ((Row.array p).chars ++ ['\n']) fresh done := by
  have hp : Passes whole (amid .tableArray 0) (pathText p) (amid .tableArray 0)
      ('[' :: '[' :: done) := passes_pathText hl.1 hl.2 rfl _
  have hlast : ((pathText p).reverse ++ '[' :: '[' :: done).head? ≠ some ']' := by
    intro hh
    match hr : (pathText p).reverse with
    | [] => rw [hr] at hh; cases hh
    | c :: t =>
      rw [hr] at hh
      cases hh
      exact bracket_not_mem_pathText hl.2 (List.mem_reverse.mp (hr ▸ List.mem_cons_self))
  -- the first of the two brackets at the end does not close the header yet
  have hclose : ∀ rest, (amid .tableArray 0 ((pathText p).reverse ++ '[' :: '[' :: done)).step whole
      ']' rest = .ok (amid .tableArray 0 (']' :: ((pathText p).reverse ++ '[' :: '[' :: done))) :=
    fun rest => by rw [step_closeArray, if_neg hlast]
  have ht := hp.append (.cons hclose (.cons (fun _ => step_closeArray) (passes_lineEnd _)))
  have ho : Passes whole (amid .tableArray 0) ('[' :: (pathText p ++ [']', ']', '\n'])) fresh
      ('[' :: done) := .cons (fun _ => step_secondBracket) ht
  intro rest
  have hrow : (Row.array p).chars ++ ['\n'] ++ rest =
      '[' :: '[' :: (pathText p ++ [']', ']', '\n'] ++ rest) := by simp [Row.chars]
  rw [hrow, run_cons step_openArray]
  have hr := ho rest
  simpa [Row.chars] using hr

/-- A row and the end of its line. -/
theorem passes_row {l : Row} (hl : l.IsClean) (h : Calm whole done) :
    Passes whole fresh (l.chars ++ ['\n']) fresh done := by
  match l with
  | .entry k x => exact passes_entry hl h
  | .table p => exact passes_table hl done
  | .array p => exact passes_array hl done

/-! ### Documents -/

/-- Where a line begins, it is after the end of another one. -/
theorem calm_of_lineEnd (hw : ∀ c ∈ (done ++ whole.reverse).head?, c = '\n') : Calm whole done := by
  intro c hc
  rw [hw c hc]
  rfl

theorem run_spells {rows : List Row} {t : List Char} (h : Spells rows t)
    (hr : ∀ l ∈ rows, l.IsClean) (hw : ∀ c ∈ (done ++ whole.reverse).head?, c = '\n') :
    run whole t (fresh done) = .ok (fresh (t.reverse ++ done)) := by
  induction h generalizing done with
  | nil => rfl
  | blank h ih =>
    rw [run_cons step_blankLine, ih hr (by simp)]
    simp
  | row l h ih =>
    rename_i rows t
    have hl := passes_row (hr l List.mem_cons_self) (calm_of_lineEnd hw) t
    rw [List.append_assoc] at hl
    rw [← List.singleton_append, hl, ih (fun x hx => hr x (List.mem_cons_of_mem l hx)) (by simp)]
    simp

end Reading

theorem Spells.getLast? {rows : List Row} {t : List Char} (h : Spells rows t) :
    ∀ c ∈ t.getLast?, c = '\n' := by
  have hcons : ∀ t : List Char, (∀ c ∈ t.getLast?, c = '\n') →
      ∀ c ∈ ('\n' :: t).getLast?, c = '\n' := by
    intro t ht c hc
    rw [List.getLast?_cons] at hc
    cases hl : t.getLast? with
    | none => rw [hl] at hc; exact (Option.some.inj hc).symm
    | some d => rw [hl] at hc; exact ht c (hl.trans hc)
  induction h with
  | nil => simp
  | blank h ih => exact hcons _ ih
  | row l h ih =>
    rw [List.getLast?_append_of_ne_nil _ (List.cons_ne_nil _ _)]
    exact hcons _ ih

/-- The lines of a document that is written from rows are those of its text. -/
theorem lines_spells {rows : List Row} {t : List Char} (h : Spells rows t)
    (hr : ∀ l ∈ rows, l.IsClean) : lines t = .ok (t.splitOn '\n') := by
  have hrun : Reading.run t t (Reading.fresh []) = .ok (Reading.fresh (t.reverse ++ [])) :=
    Reading.run_spells h hr (by simpa using h.getLast?)
  have hstart : Reading.start.run t t = .ok (Reading.fresh t.reverse) := by
    rw [List.append_nil] at hrun
    exact hrun
  rw [lines, hstart, ok_bind, if_neg (by simp [Reading.fresh, Reading.start])]
  simp [Reading.fresh, Text.split_eq_splitOn, pure, Except.pure]

end CallTree.Toml
