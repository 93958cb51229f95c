import CallTree.Proofs.Document.Toml.Numbers

/-! Values on one line are read as what they are. -/
namespace CallTree.Toml
open scoped Number

variable {c : Char} {s : String} {r t : List Char} {n : Nat} {x : Inline} {xs : List Inline}

theorem value_stringText (h : IsText s) (n : Nat) (spaced : Bool) :
    value (n + 1) spaced (stringText s) = .ok (.str (String.ofList (readText s)), .text) := by
  have hr := h.read
  rw [stringText] at hr ⊢
  rw [value_cons (by decide) (by decide) (by decide), if_pos (by decide), hr, ok_bind]
  rfl

/-! ### Lists -/

theorem exists_list_of_kind (h : x.kind = .array) : ∃ ys, x = .list ys := by
  cases x with
  | list ys => exact ⟨ys, rfl⟩
  | _ => cases h

theorem exists_text_of_kind (h : x.kind = .text) : ∃ s, x = .text s := by
  cases x with
  | text s => exact ⟨s, rfl⟩
  | _ => cases h

/-- The texts of the items of a list, and what is behind the last comma. -/
def pieces (xs : List Inline) : List (List Char) := xs.map (fun x => ' ' :: x.chars) ++ [[]]

theorem itemChars_cons (x : Inline) (xs : List Inline) :
    Inline.itemChars (x :: xs) = (' ' :: x.chars) ++ ',' :: Inline.itemChars xs := rfl

theorem splitOn_itemChars (h : ∀ x ∈ xs, ',' ∉ x.chars) :
    (Inline.itemChars xs).splitOn ',' = pieces xs := by
  induction xs with
  | nil => rfl
  | cons x xs ih =>
    have hx : ',' ∉ ' ' :: x.chars := by simpa using h x List.mem_cons_self
    rw [itemChars_cons, List.splitOn_append_cons_self_of_not_mem hx,
      ih fun y hy => h y (List.mem_cons_of_mem x hy)]
    rfl

theorem isWholeString_stringText (h : IsText s) : isWholeString (stringText s) = true := by
  have hbounded : isBounded (stringText s) = true := by
    rw [isBounded, inner_stringText, endsEscaped_of_isInside h.inside, getLast?_stringText]
    rfl
  unfold isWholeString
  rw [hbounded, Bool.true_and]
  split
  · next x y z r u v w r' hs hr =>
    have hy : y ≠ '"' := by
      rintro rfl
      match ht : inQuotes s with
      | [] => rw [stringText, ht] at hs; cases hs
      | c :: t =>
        rw [stringText, ht, List.cons_append, List.cons.injEq, List.cons.injEq] at hs
        exact head?_ne_quote h.inside (by rw [ht, hs.2.1]; rfl)
    have hx : x = '"' := (List.cons.inj hs).1.symm
    simp [hx, Ne.symm hy]
  · rfl

theorem trimmed_quoted (t : List Char) : Text.Trimmed ('"' :: (t ++ ['"'])) where
  head := by
    intro c hc
    cases hc
    rfl
  last := by
    intro c hc
    rw [← List.cons_append, List.getLast?_append_of_ne_nil _ (List.cons_ne_nil _ _)] at hc
    cases hc
    rfl

theorem trimmed_stringText (s : String) : Text.Trimmed (stringText s) := trimmed_quoted (inQuotes s)

/-- What is left of the beginning of a string without the blank at its end. -/
theorem exists_trim_open (h : ¬Text.AllBlank t) :
    ∃ u, Text.trim (' ' :: '"' :: t) = '"' :: u ∧ u ≠ [] ∧ u <+: t := by
  have hne : t.reverse.dropWhile Text.isBlank ≠ [] := by
    rw [Ne, List.dropWhile_eq_nil_iff]
    exact fun hb => h fun c hc => hb c (List.mem_reverse.mpr hc)
  refine ⟨Text.trimRight t, ?_, ?_, ?_⟩
  · have hl : Text.trimLeft (' ' :: '"' :: t) = '"' :: t := rfl
    rw [Text.trim, hl, Text.trimRight, List.reverse_cons, List.dropWhile_append,
      if_neg (by simpa using hne), List.reverse_append]
    rfl
  · simpa [Text.trimRight] using hne
  · rw [Text.trimRight, ← List.reverse_suffix, List.reverse_reverse]
    exact List.dropWhile_suffix _

/-- Text that is cut inside a string is no string: if it ends with a quote, that one is escaped. -/
theorem isWholeString_open {w : List Char} (hs : isInside false (t ++ w) = true)
    (h : ¬Text.AllBlank t) : isWholeString (Text.trim (' ' :: '"' :: t)) = false := by
  obtain ⟨u, hu, hne, r, hr⟩ := exists_trim_open h
  have hbounded : isBounded ('"' :: u) = false := by
    obtain rfl | ⟨a, c, rfl⟩ := List.eq_nil_or_concat u
    · exact absurd rfl hne
    rw [List.concat_eq_append] at hr ⊢
    have hlast : ('"' :: (a ++ [c])).getLast? = some c :=
      List.getLast?_append_of_ne_nil ('"' :: a) (List.cons_ne_nil c [])
    have hinner : Text.inner ('"' :: (a ++ [c])) = a := by simp [Text.inner]
    rw [isBounded, hlast, hinner]
    by_cases hc : c = '"'
    · subst hc
      rw [← hr, List.append_assoc, List.append_assoc] at hs
      rw [endsEscaped_of_quote hs]
      rfl
    · simp [Ne.symm hc]
  rw [hu]
  unfold isWholeString
  rw [hbounded, Bool.false_and]

theorem joinStrings_append {w : List Char} (hw : isWholeString (Text.trim w) = true)
    (ho : ∀ u v, w = u ++ ',' :: v → isWholeString (Text.trim u) = false) (q : List Char)
    (rest ps : List (List Char)) (begun : Bool) (p : List Char)
    (hp : [','].intercalate (p :: ps) = w) :
    joinStrings begun p (ps ++ q :: rest) = (joinStrings false q rest).map (w :: ·) := by
  induction ps generalizing begun p with
  | nil =>
    obtain rfl : p = w := by simpa using hp
    rw [List.nil_append, joinStrings, if_pos hw]
  | cons p' ps ih =>
    have hcut : w = p ++ ',' :: [','].intercalate (p' :: ps) := by
      rw [← hp]
      simp [List.intercalate]
    rw [List.cons_append, joinStrings, if_neg (by simp [ho _ _ hcut])]
    refine ih true (p ++ ',' :: p') ?_
    rw [hcut]
    cases ps <;> simp [List.intercalate]

/-- Where a comma in an item cuts its text, there is more than blank before it. -/
theorem not_allBlank_of_isItemText {u v : List Char} (h : IsItemText s)
    (hs : inQuotes s = u ++ ',' :: v) : ¬Text.AllBlank u := by
  intro hu
  apply h.noComma
  rw [hs, Text.trimLeft, List.dropWhile_append_of_pos hu]
  rfl

/-- A comma in the text of an item is between the quotes. -/
theorem exists_open_of_comma {u v : List Char} (h : ' ' :: stringText s = u ++ ',' :: v) :
    ∃ t w, u = ' ' :: '"' :: t ∧ inQuotes s = t ++ ',' :: w := by
  cases u with
  | nil => cases h
  | cons b u =>
    cases u with
    | nil => cases h
    | cons d t =>
      rw [stringText, List.cons_append, List.cons.injEq, List.cons_append, List.cons.injEq] at h
      obtain ⟨rfl, rfl, h⟩ := h
      obtain ⟨a, -, ha⟩ | ⟨a, hs, ha⟩ := List.append_eq_append_iff.mp h
      · have hm : ',' ∈ ['"'] := by
          rw [ha]
          exact List.mem_append_right a List.mem_cons_self
        exact absurd hm (by decide)
      · cases a with
        | nil => cases ha
        | cons x w =>
          cases ha
          exact ⟨t, w, rfl, hs⟩

theorem joinStrings_itemChars (ht : ∀ x ∈ xs, x.kind = .text) (h : Inline.AreItems xs)
    {q : List Char} {rest : List (List Char)}
    (hq : (Inline.itemChars xs).splitOn ',' = q :: rest) :
    joinStrings false q rest = .ok (pieces xs) := by
  induction xs generalizing q rest with
  | nil => cases hq; rfl
  | cons x xs ih =>
    obtain ⟨s, rfl⟩ := exists_text_of_kind (ht x List.mem_cons_self)
    have hi : IsItemText s := h.1
    obtain ⟨p, ps, hp⟩ :=
      List.exists_cons_of_ne_nil (List.splitOn_ne_nil ',' (' ' :: stringText s))
    obtain ⟨q', rest', hq'⟩ := List.exists_cons_of_ne_nil
      (List.splitOn_ne_nil ',' (Inline.itemChars xs))
    have hw : isWholeString (Text.trim (' ' :: stringText s)) = true := by
      rw [Text.trim_cons rfl (trimmed_stringText s)]
      exact isWholeString_stringText hi.isText
    have ho : ∀ u v, ' ' :: stringText s = u ++ ',' :: v →
        isWholeString (Text.trim u) = false := by
      intro u v huv
      obtain ⟨t, w, rfl, hs⟩ := exists_open_of_comma huv
      exact isWholeString_open (hs ▸ hi.isText.inside) (not_allBlank_of_isItemText hi hs)
    rw [itemChars_cons, List.splitOn_append_cons_self, Inline.chars, hp, hq',
      List.cons_append] at hq
    obtain ⟨rfl, rfl⟩ := List.cons.inj hq
    rw [joinStrings_append hw ho q' rest' ps false p (hp ▸ List.intercalate_splitOn ','),
      ih (fun y hy => ht y (List.mem_cons_of_mem _ hy)) h.2 hq']
    rfl

/-- Text that no part of an array ends in, where `d` brackets are open. -/
def Stays (d : Int) (t : List Char) : Prop :=
  ∀ part r, bracketParts d part (t ++ r) = bracketParts d (t.reverse ++ part) r

theorem Stays.append {d : Int} {u : List Char} (ht : Stays d t) (hu : Stays d u) :
    Stays d (t ++ u) := by
  intro part r
  rw [List.append_assoc, ht, hu, List.reverse_append, List.append_assoc]

/-- Between brackets the text stays together that has none, and elsewhere if it has no comma. -/
theorem stays_of_forall {d : Int} (h : ∀ c ∈ t, c ≠ '[' ∧ c ≠ ']') (hd : d ≠ 0 ∨ ',' ∉ t) :
    Stays d t := by
  intro part r
  induction t generalizing part with
  | nil => rfl
  | cons c t ih =>
    obtain ⟨ho, hc⟩ := h c List.mem_cons_self
    have hcomma : ¬(c = ',' ∧ d = 0) := by
      rintro ⟨rfl, rfl⟩
      exact hd.elim (fun hd => hd rfl) fun hd => hd List.mem_cons_self
    have hd' : d ≠ 0 ∨ ',' ∉ t := hd.imp_right fun hd hm => hd (List.mem_cons_of_mem c hm)
    rw [List.cons_append, bracketParts, if_neg hcomma]
    simp only [ho, hc, if_false, Int.add_zero]
    rw [ih (fun x hx => h x (List.mem_cons_of_mem c hx)) hd', List.reverse_cons, List.append_assoc]
    rfl

/-- Brackets around what stays together inside of them. -/
theorem Stays.brackets {d : Int} (h : Stays (d + 1) t) : Stays d ('[' :: (t ++ [']'])) := by
  intro part r
  rw [List.cons_append, List.append_assoc, bracketParts, if_neg (by simp)]
  simp only [if_true]
  rw [h, List.singleton_append, bracketParts, if_neg (by simp)]
  change bracketParts (d + 1 + -1) _ r = _
  rw [Int.add_neg_cancel_right]
  simp

theorem isQuote_of_numeric : ∀ c ∈ numericChars, isQuote c = false := by decide

theorem ne_bracket_of_numeric : ∀ c ∈ numericChars, c ≠ '[' ∧ c ≠ ']' := by decide

mutual
theorem stays_chars (x : Inline) (h : x.IsItem) (d : Int) (hd : 0 < d) : Stays d x.chars := by
  match x with
  | .bool true | .bool false => exact stays_of_forall (by decide) (.inl (by omega))
  | .int _ | .float _ =>
    exact stays_of_forall (fun c hc =>
      ne_bracket_of_numeric c (numeric_chars (by trivial) c hc)) (.inl (by omega))
  | .text s =>
    refine stays_of_forall (fun c hc => ?_) (.inl (by omega))
    rw [Inline.chars, stringText, List.mem_cons, List.mem_append, List.mem_singleton] at hc
    obtain rfl | hc | rfl := hc
    · decide
    · exact IsItemText.noBracket h c hc
    · decide
  | .list xs => exact (stays_itemChars xs h.2 (d + 1) (by omega)).brackets

theorem stays_itemChars (xs : List Inline) (h : Inline.AreItems xs) (d : Int) (hd : 0 < d) :
    Stays d (Inline.itemChars xs) := by
  match xs with
  | [] => exact fun _ _ => rfl
  | x :: xs =>
    have hsp : Stays d [' '] := stays_of_forall (by decide) (.inl (by omega))
    have hcm : Stays d [','] := stays_of_forall (by decide) (.inl (by omega))
    exact (hsp.append (stays_chars x h.1 d hd)).append (hcm.append (stays_itemChars xs h.2 d hd))
end

theorem bracketParts_itemChars (ha : ∀ x ∈ xs, x.kind = .array) (h : Inline.AreItems xs) :
    bracketParts 0 [] (Inline.itemChars xs) = pieces xs := by
  induction xs with
  | nil => rfl
  | cons x xs ih =>
    obtain ⟨ys, rfl⟩ := exists_list_of_kind (ha x List.mem_cons_self)
    have hsp : Stays 0 [' '] := stays_of_forall (by decide) (.inr (by decide))
    have hx : Stays 0 (' ' :: (Inline.list ys).chars) :=
      hsp.append (stays_itemChars ys h.1.2 1 (by omega)).brackets
    rw [itemChars_cons, hx, bracketParts, if_pos ⟨rfl, rfl⟩,
      ih (fun y hy => ha y (List.mem_cons_of_mem _ hy)) h.2, List.append_nil,
      List.reverse_reverse]
    rfl

theorem exists_cons_chars (x : Inline) :
    ∃ c t, x.chars = c :: t ∧ Text.isBlank c = false ∧ c ≠ '\x7b' := by
  by_cases hx : x.IsNumber
  · obtain ⟨c, t, ht, hc⟩ := exists_cons_numeric hx
    have hall : ∀ c ∈ numericChars, Text.isBlank c = false ∧ c ≠ '\x7b' := by decide
    exact ⟨c, t, ht, hall c hc⟩
  match x with
  | .bool true | .bool false | .text _ | .list _ => exact ⟨_, _, rfl, rfl, by decide⟩
  | .int _ | .float _ => exact absurd trivial hx

theorem trimmed_chars (x : Inline) : Text.Trimmed x.chars := by
  match x with
  | .bool true | .bool false => exact Text.trimmed_of_not_blank (by decide)
  | .text s => exact trimmed_stringText s
  | .int _ | .float _ =>
    have hall : ∀ c ∈ numericChars, Text.isBlank c = false := by decide
    exact Text.trimmed_of_not_blank fun c hc => hall c (numeric_chars (by trivial) c hc)
  | .list xs =>
    have hlast : (Inline.list xs).chars.getLast? = some ']' :=
      List.getLast?_append_of_ne_nil ('[' :: Inline.itemChars xs) (List.cons_ne_nil ']' [])
    refine ⟨fun c hc => ?_, fun c hc => ?_⟩
    · cases hc; rfl
    · cases hlast.symm.trans hc; rfl

theorem head?_trimRight (hc : Text.isBlank c = false) (t : List Char) :
    (Text.trimRight (c :: t)).head? = some c := by
  rw [Text.trimRight, List.reverse_cons, List.dropWhile_append]
  split
  · simp [hc]
  · simp

theorem head?_trim_itemChars (x : Inline) (xs : List Inline) :
    (Text.trim (Inline.itemChars (x :: xs))).head? = x.chars.head? := by
  obtain ⟨c, t, ht, hc, -⟩ := exists_cons_chars x
  have hl : Text.trimLeft (Inline.itemChars (x :: xs)) =
      c :: (t ++ ',' :: Inline.itemChars xs) := by
    rw [Inline.itemChars, ht, Text.trimLeft, List.dropWhile_cons_of_pos rfl, List.cons_append,
      List.dropWhile_cons_of_neg (by simp [hc])]
  rw [Text.trim, hl, head?_trimRight hc, ht]
  rfl

theorem not_mem_itemChars (hsp : c ≠ ' ') (hcm : c ≠ ',') (h : ∀ x ∈ xs, c ∉ x.chars) :
    c ∉ Inline.itemChars xs := by
  induction xs with
  | nil => simp [Inline.itemChars]
  | cons x xs ih =>
    have hr := ih fun y hy => h y (List.mem_cons_of_mem x hy)
    simp [Inline.itemChars, hsp, hcm, hr, h x List.mem_cons_self]

theorem bracket_not_mem_chars {x : Inline} (h : x.IsItem) (hx : x.kind ≠ .array) :
    '[' ∉ x.chars := by
  match x with
  | .bool true | .bool false => decide
  | .int _ | .float _ =>
    exact fun hm => (ne_bracket_of_numeric '[' (numeric_chars (by trivial) _ hm)).1 rfl
  | .list _ => exact absurd rfl hx
  | .text s =>
    intro hm
    rw [Inline.chars, stringText, List.mem_cons, List.mem_append, List.mem_singleton] at hm
    obtain hm | hm | hm := hm
    · cases hm
    · exact (IsItemText.noBracket h _ hm).1 rfl
    · cases hm

theorem areItems_iff : Inline.AreItems xs ↔ ∀ x ∈ xs, x.IsItem := by
  induction xs with
  | nil => simp [Inline.AreItems]
  | cons x xs ih => simp [Inline.AreItems, ih]

/-- What stands without quotes or brackets has no comma in it, and begins with no quote. -/
theorem comma_not_mem_chars {x : Inline} (ht : x.kind ≠ .text) (ha : x.kind ≠ .array) :
    ',' ∉ x.chars ∧ x.chars.head?.any isQuote = false := by
  by_cases hx : x.IsNumber
  · obtain ⟨c, t, hct, hc⟩ := exists_cons_numeric hx
    refine ⟨fun hm => absurd (numeric_chars hx _ hm) (by decide), ?_⟩
    rw [hct]
    exact isQuote_of_numeric c hc
  match x with
  | .bool true | .bool false => decide
  | .int _ | .float _ => exact absurd trivial hx
  | .text _ => exact absurd rfl ht
  | .list _ => exact absurd rfl ha

/-- The texts of items are cut out of the text of a list whichever way its first item asks for. -/
theorem itemTexts_itemChars {k : Kind} (hk : ∀ x ∈ xs, x.kind = k) (h : Inline.AreItems xs) :
    itemTexts (Inline.itemChars xs) = .ok (pieces xs) := by
  have hitem := areItems_iff.mp h
  have hbracket : k ≠ .array → '[' ∉ Inline.itemChars xs := fun hne =>
    not_mem_itemChars (by decide) (by decide) fun x hx =>
      bracket_not_mem_chars (hitem x hx) (by rw [hk x hx]; exact hne)
  match xs with
  | [] => rfl
  | x :: xs =>
    have hhead := head?_trim_itemChars x xs
    obtain ⟨c, t, ht, hc, hb⟩ := exists_cons_chars x
    have hbrace : ¬(Text.trim (Inline.itemChars (x :: xs))).head? = some '\x7b' := by
      rw [hhead, ht]
      simpa using hb
    obtain ⟨q, rest, hq⟩ := List.exists_cons_of_ne_nil
      (List.splitOn_ne_nil ',' (Inline.itemChars (x :: xs)))
    have hkx := hk x List.mem_cons_self
    unfold itemTexts
    by_cases hka : k = .array
    · -- a list of lists
      subst hka
      obtain ⟨ys, rfl⟩ := exists_list_of_kind hkx
      rw [if_pos, bracketParts_itemChars hk h]
      simp [Inline.itemChars, Inline.chars]
      rfl
    · rw [if_neg (by simp [hbracket hka]), if_neg hbrace]
      simp only [Text.split_eq_splitOn, hq]
      have hbegins : beginsWithString (Inline.itemChars (x :: xs)) = x.chars.head?.any isQuote := by
        rw [beginsWithString, hhead]
      rw [hbegins]
      by_cases hkt : k = .text
      · subst hkt
        obtain ⟨s, rfl⟩ := exists_text_of_kind hkx
        exact joinStrings_itemChars hk h hq
      · have hscalar : ∀ y ∈ x :: xs, ',' ∉ y.chars ∧ y.chars.head?.any isQuote = false :=
          fun y hy => comma_not_mem_chars (by rwa [hk y hy]) (by rwa [hk y hy])
        rw [(hscalar x List.mem_cons_self).2, if_neg (by decide), ← hq,
          splitOn_itemChars fun y hy => (hscalar y hy).1]

theorem items_pieces {f : Bool → List Char → Read (Value × Kind)} {k : Kind} {kind : Option Kind}
    (hf : ∀ x ∈ xs, f true x.chars = .ok (x.toValue, x.kind)) (hk : ∀ x ∈ xs, x.kind = k)
    (h : Inline.AreItems xs) (hkind : kind = none ∨ kind = some k) :
    items f kind (pieces xs) = .ok (Inline.toValues xs) := by
  induction xs generalizing kind with
  | nil => rfl
  | cons x xs ih =>
    obtain ⟨c, t, ht, -⟩ := exists_cons_chars x
    have htrim : Text.trim (' ' :: x.chars) = x.chars := Text.trim_cons rfl (trimmed_chars x)
    have hne : x.chars ≠ [] := by rw [ht]; exact List.cons_ne_nil c t
    have hsame : kind.any (· != k) = false := by
      obtain rfl | rfl := hkind <;> simp
    have hnext : kind.getD k = k := by
      obtain rfl | rfl := hkind <;> rfl
    have hr : items f (some k) (pieces xs) = .ok (Inline.toValues xs) :=
      ih (fun y hy => hf y (List.mem_cons_of_mem x hy))
        (fun y hy => hk y (List.mem_cons_of_mem x hy)) h.2 (.inr rfl)
    have hp : pieces (x :: xs) = (' ' :: x.chars) :: pieces xs := rfl
    rw [hp, items, htrim, if_neg hne, hf x List.mem_cons_self, ok_bind]
    simp only [hk x List.mem_cons_self, hsame, hnext, hr, if_false, Bool.false_eq_true, ok_bind]
    rfl

mutual
/-- What stands on a line is read as what it is, with its kind. -/
theorem value_chars (x : Inline) (h : x.IsEntry) (n : Nat) (hn : x.chars.length < n) (spaced : Bool)
    (hs : x.IsNumber → spaced = true) :
    value n spaced x.chars = .ok (x.toValue, x.kind) := by
  obtain ⟨n, rfl⟩ : ∃ m, n = m + 1 := ⟨n - 1, by omega⟩
  match x with
  | .bool true | .bool false => rfl
  | .int _ | .float _ =>
    obtain rfl := hs trivial
    exact value_number (by trivial) n
  | .text s => exact value_stringText h n spaced
  | .list xs =>
    obtain ⟨k, hk⟩ := h.1
    have hlen : (Inline.itemChars xs).length ≤ n := by
      simp only [Inline.chars, List.length_cons, List.length_append] at hn
      omega
    have hinner : Text.inner ('[' :: (Inline.itemChars xs ++ [']'])) = Inline.itemChars xs := by
      simp [Text.inner]
    rw [Inline.chars, value_cons (by decide) (by decide) (by decide), if_neg (by decide),
      if_pos rfl, hinner, itemTexts_itemChars hk h.2, ok_bind,
      items_pieces (value_items xs h.2 n hlen) hk h.2 (.inl rfl)]
    rfl

theorem value_items (xs : List Inline) (h : Inline.AreItems xs) (n : Nat)
    (hn : (Inline.itemChars xs).length ≤ n) :
    ∀ x ∈ xs, value n true x.chars = .ok (x.toValue, x.kind) := by
  match xs with
  | [] => simp
  | y :: xs =>
    simp only [Inline.itemChars, List.length_cons, List.length_append] at hn
    have hy := value_chars y h.1.isEntry n (by omega) true fun _ => rfl
    have hr := value_items xs h.2 n (by omega)
    intro x hx
    obtain rfl | hx := List.mem_cons.mp hx
    · exact hy
    · exact hr x hx
end

end CallTree.Toml
