import CallTree.Call
import CallTree.Proofs.Blank

/-! Arguments as they are written: with their commas escaped, blank around them, and commas between
them. Splitting and unescaping is the way back. -/
namespace CallTree.Call

open Text

variable {s t a : List Char} {b : Bool} {c : Char}

/-- How many commas of a text do not follow a backslash. -/
def freeCommas (s : List Char) : Nat :=
  ((' ' :: s).zip s).countP fun p => p.1 ≠ '\\' ∧ p.2 = ','

/-- An argument as text, with its commas escaped, between its own blank. -/
def writeArgument (a : Padding × String) : List Char := a.1.around (escapeCommas a.2.toList)

def writeArguments (args : List (Padding × String)) : List Char :=
  joinWith [','] (args.map writeArgument)

/-- The argument in a piece of text, with the blank that was around it. -/
def readArgument (p : List Char) : Padding × String :=
  (Padding.of p, String.ofList (unescapeCommas (trim p)))

/-- No argument that ends in a backslash is written right before a comma. -/
def Separated (args : List (Padding × String)) : Prop :=
  ∀ a ∈ args.dropLast, a.2.toList.getLast? = some '\\' → a.1.after ≠ []

instance (args : List (Padding × String)) : Decidable (Separated args) :=
  inferInstanceAs (Decidable (∀ a ∈ args.dropLast, _ → _))

/-- Each comma follows a backslash, where `b` says whether one stands before the text. -/
def Escaped (b : Bool) : List Char → Prop
  | [] => True
  | c :: r => (c = ',' → b = true) ∧ Escaped (c == '\\') r

/-- Whether a backslash stands before what comes after a text. -/
def endsInBackslash (b : Bool) (s : List Char) : Bool :=
  match s.getLast? with
  | some c => c == '\\'
  | none => b

@[simp] theorem endsInBackslash_nil (b : Bool) : endsInBackslash b [] = b := rfl

@[simp] theorem endsInBackslash_cons (b : Bool) (c : Char) (s : List Char) :
    endsInBackslash b (c :: s) = endsInBackslash (c == '\\') s := by
  simp only [endsInBackslash, List.getLast?_cons]
  cases s.getLast? <;> rfl

theorem escaped_append : Escaped b (s ++ t) ↔ Escaped b s ∧ Escaped (endsInBackslash b s) t := by
  induction s generalizing b with
  | nil => simp [Escaped]
  | cons c r ih => simp [Escaped, ih, and_assoc]

theorem escaped_of_not_mem (h : ',' ∉ s) : Escaped b s := by
  induction s generalizing b with
  | nil => trivial
  | cons c r ih =>
    rw [List.mem_cons, not_or] at h
    exact ⟨fun he => (h.1 he.symm).elim, ih h.2⟩

theorem escaped_escapeCommas (s : List Char) : Escaped b (escapeCommas s) := by
  induction s generalizing b with
  | nil => trivial
  | cons c r ih =>
    by_cases hc : c = ','
    · simp [escapeCommas, hc, Escaped, ih]
    · simp [escapeCommas, hc, Escaped, ih]

/-! ### Escaping -/

theorem unescapeCommas_cons (h : ¬ (c = '\\' ∧ s.head? = some ',')) :
    unescapeCommas (c :: s) = c :: unescapeCommas s := by
  conv_lhs => unfold unescapeCommas
  split <;> simp_all

theorem head?_escapeCommas_ne (s : List Char) : (escapeCommas s).head? ≠ some ',' := by
  cases s with
  | nil => simp [escapeCommas]
  | cons c r => by_cases hc : c = ',' <;> simp [escapeCommas, hc]

theorem unescapeCommas_escapeCommas (s : List Char) : unescapeCommas (escapeCommas s) = s := by
  induction s with
  | nil => rfl
  | cons c r ih =>
    by_cases hc : c = ','
    · simp [escapeCommas, hc, unescapeCommas, ih]
    · rw [escapeCommas, if_neg hc, unescapeCommas_cons fun h => head?_escapeCommas_ne r h.2, ih]

/-- Where all commas are escaped, escaping gives back what unescaping took. -/
theorem escapeCommas_unescapeCommas (h : Escaped false s) :
    escapeCommas (unescapeCommas s) = s := by
  fun_induction unescapeCommas s with
  | case1 r ih =>
    have hr : Escaped false r := h.2.2
    simp [escapeCommas, ih hr]
  | case2 c r hne ih =>
    have hc : c ≠ ',' := fun hc => absurd (h.1 hc) (by simp)
    -- A comma that the rest begins with would be escaped by `c`.
    have hr : Escaped false r := by
      cases r with
      | nil => trivial
      | cons d r =>
        refine ⟨?_, h.2.2⟩
        rintro rfl
        exact (hne r (by simpa using h.2.1 rfl) rfl).elim
    simp [escapeCommas, hc, ih hr]
  | case3 => rfl

theorem getLast?_unescapeCommas (s : List Char) : (unescapeCommas s).getLast? = s.getLast? := by
  fun_induction unescapeCommas s with
  | case1 r ih => simp [List.getLast?_cons, ih]
  | case2 c r _ ih => simp [List.getLast?_cons, ih]
  | case3 => rfl

theorem getLast?_escapeCommas (s : List Char) : (escapeCommas s).getLast? = s.getLast? := by
  rw [← getLast?_unescapeCommas, unescapeCommas_escapeCommas]

theorem trimmed_unescapeCommas (h : Trimmed s) : Trimmed (unescapeCommas s) := by
  refine ⟨?_, by rw [getLast?_unescapeCommas]; exact h.last⟩
  have hh := h.head
  unfold unescapeCommas
  split
  · intro c hc
    obtain rfl : ',' = c := by simpa using hc
    decide
  · simpa using hh
  · simp

theorem trimmed_escapeCommas (h : Trimmed s) : Trimmed (escapeCommas s) := by
  refine ⟨?_, by rw [getLast?_escapeCommas]; exact h.last⟩
  cases s with
  | nil => simp [escapeCommas]
  | cons c r =>
    by_cases hc : c = ','
    · intro d hd
      obtain rfl : '\\' = d := by simpa [escapeCommas, hc] using hd
      decide
    · simpa [escapeCommas, hc] using h.head

/-! ### Splitting -/

theorem splitCommas_ne_nil (b : Bool) (s : List Char) : splitCommas b s ≠ [] := by
  cases s with
  | nil => simp [splitCommas]
  | cons c r =>
    rw [splitCommas]
    split
    · simp
    · split <;> simp

/-- A first character that is no free comma belongs to the first piece. -/
theorem splitCommas_cons (h : c = ',' → b = true) (s : List Char) :
    ∃ p ps, splitCommas (c == '\\') s = p :: ps ∧ splitCommas b (c :: s) = (c :: p) :: ps := by
  obtain ⟨p, ps, hp⟩ := List.exists_cons_of_ne_nil (splitCommas_ne_nil (c == '\\') s)
  refine ⟨p, ps, hp, ?_⟩
  have hc : ¬ (c = ',' ∧ b = false) := fun hc => by simp [h hc.1] at hc
  simp only [splitCommas, if_neg hc, hp]

theorem splitCommas_comma (s : List Char) :
    splitCommas false (',' :: s) = [] :: splitCommas false s := by
  simp [splitCommas]

/-- An escaped piece goes up to the next comma. -/
theorem splitCommas_append (hs : Escaped b s) (he : endsInBackslash b s = false) (t : List Char) :
    splitCommas b (s ++ ',' :: t) = s :: splitCommas false t := by
  induction s generalizing b with
  | nil =>
    obtain rfl : b = false := he
    exact splitCommas_comma t
  | cons c r ih =>
    obtain ⟨p, ps, hp, hc⟩ := splitCommas_cons hs.1 (r ++ ',' :: t)
    rw [ih hs.2 (by simpa using he)] at hp
    obtain ⟨rfl, rfl⟩ := List.cons.inj hp
    exact hc

theorem splitCommas_of_escaped (hs : Escaped b s) : splitCommas b s = [s] := by
  induction s generalizing b with
  | nil => rfl
  | cons c r ih =>
    obtain ⟨p, ps, hp, hc⟩ := splitCommas_cons hs.1 r
    rw [ih hs.2] at hp
    obtain ⟨rfl, rfl⟩ := List.cons.inj hp
    exact hc

/-- Pieces that are joined by commas are split again, unless a backslash meets a comma. -/
theorem splitCommas_joinWith {ps : List (List Char)} (hne : ps ≠ [])
    (hs : ∀ p ∈ ps, Escaped false p) (he : ∀ p ∈ ps.dropLast, endsInBackslash false p = false) :
    splitCommas false (joinWith [','] ps) = ps := by
  induction ps with
  | nil => exact (hne rfl).elim
  | cons p ps ih =>
    cases ps with
    | nil => exact splitCommas_of_escaped (hs p List.mem_cons_self)
    | cons q r =>
      have hp : endsInBackslash false p = false := he p (by simp)
      have htail : splitCommas false (joinWith [','] (q :: r)) = q :: r := by
        refine ih (List.cons_ne_nil q r) (fun x hx => hs x (List.mem_cons_of_mem p hx)) ?_
        intro x hx
        exact he x (by simp [hx])
      rw [joinWith, List.append_assoc, List.singleton_append,
        splitCommas_append (hs p List.mem_cons_self) hp, htail]

/-- A character is a free comma, or it belongs to the first piece. -/
theorem splitCommas_cases (b : Bool) (c : Char) (s : List Char) :
    (c = ',' ∧ b = false) ∨ ((c = ',' → b = true) ∧ ∃ p ps,
      splitCommas (c == '\\') s = p :: ps ∧ splitCommas b (c :: s) = (c :: p) :: ps) := by
  by_cases hc : c = ',' ∧ b = false
  · exact Or.inl hc
  · have hb : c = ',' → b = true := fun h => by simpa [h] using hc
    exact Or.inr ⟨hb, splitCommas_cons hb s⟩

theorem joinWith_splitCommas (b : Bool) (s : List Char) :
    joinWith [','] (splitCommas b s) = s := by
  induction s generalizing b with
  | nil => rfl
  | cons c r ih =>
    rcases splitCommas_cases b c r with ⟨rfl, rfl⟩ | ⟨-, p, ps, hp, hs⟩
    · obtain ⟨p, ps, hp⟩ := List.exists_cons_of_ne_nil (splitCommas_ne_nil false r)
      have hr := ih false
      rw [hp] at hr
      rw [splitCommas_comma, hp, joinWith, hr]
      rfl
    · have hr := ih (c == '\\')
      rw [hp] at hr
      rw [hs, ← hr]
      cases ps <;> rfl

/-- Splitting leaves no free comma in a piece. -/
theorem escaped_of_splitCommas {p : List Char} {ps : List (List Char)}
    (h : splitCommas b s = p :: ps) : Escaped b p ∧ ∀ q ∈ ps, Escaped false q := by
  induction s generalizing b p ps with
  | nil =>
    cases h
    exact ⟨trivial, by simp⟩
  | cons c r ih =>
    rcases splitCommas_cases b c r with ⟨rfl, rfl⟩ | ⟨hb, p', ps', hp, hs⟩
    · rw [splitCommas_comma] at h
      obtain ⟨rfl, rfl⟩ := List.cons.inj h
      obtain ⟨q, qs, hq⟩ := List.exists_cons_of_ne_nil (splitCommas_ne_nil false r)
      refine ⟨trivial, ?_⟩
      rw [hq]
      exact List.forall_mem_cons.mpr (ih hq)
    · rw [hs] at h
      obtain ⟨rfl, rfl⟩ := List.cons.inj h
      obtain ⟨hp', hps⟩ := ih hp
      exact ⟨⟨hb, hp'⟩, hps⟩

theorem escaped_of_mem_splitCommas {p : List Char} (hp : p ∈ splitCommas false s) :
    Escaped false p := by
  obtain ⟨q, qs, hq⟩ := List.exists_cons_of_ne_nil (splitCommas_ne_nil false s)
  rw [hq] at hp
  exact List.forall_mem_cons.mpr (escaped_of_splitCommas hq) p hp

/-- There is a piece more than there are free commas, where the text stands after `d`. -/
theorem length_splitCommas_after (d : Char) (s : List Char) :
    (splitCommas (d == '\\') s).length =
      ((d :: s).zip s).countP (fun p => p.1 ≠ '\\' ∧ p.2 = ',') + 1 := by
  induction s generalizing d with
  | nil => rfl
  | cons c r ih =>
    rw [List.zip_cons_cons, List.countP_cons]
    rcases splitCommas_cases (d == '\\') c r with ⟨rfl, hd⟩ | ⟨hb, p, ps, hp, hs⟩
    · have hfree : d ≠ '\\' := beq_eq_false_iff_ne.mp hd
      rw [hd, splitCommas_comma, List.length_cons]
      simpa [hfree] using ih ','
    · have hbound : ¬ (d ≠ '\\' ∧ c = ',') := fun h => h.1 (eq_of_beq (hb h.2))
      have hr := ih c
      rw [hp] at hr
      rw [hs]
      simpa [hbound] using hr

theorem length_splitCommas (s : List Char) :
    (splitCommas false s).length = freeCommas s + 1 :=
  length_splitCommas_after ' ' s

/-! ### Arguments -/

theorem comma_not_mem_of_allBlank (h : AllBlank s) : ',' ∉ s := by
  intro hc
  have hb := h ',' hc
  revert hb
  decide

theorem escaped_writeArgument (a : Padding × String) : Escaped false (writeArgument a) := by
  have hbefore := comma_not_mem_of_allBlank a.1.before_blank
  have hafter := comma_not_mem_of_allBlank a.1.after_blank
  exact escaped_append.mpr ⟨escaped_append.mpr
    ⟨escaped_of_not_mem hbefore, escaped_escapeCommas _⟩, escaped_of_not_mem hafter⟩

theorem endsInBackslash_of_allBlank (h : AllBlank s) (hb : s ≠ [] ∨ b = false) :
    endsInBackslash b s = false := by
  unfold endsInBackslash
  split
  · next c hc =>
    have hblank := h c (List.mem_of_getLast? hc)
    refine beq_eq_false_iff_ne.mpr ?_
    rintro rfl
    revert hblank
    decide
  · next hn => exact hb.resolve_left (by simpa using hn)

theorem endsInBackslash_append (s t : List Char) :
    endsInBackslash b (s ++ t) = endsInBackslash (endsInBackslash b s) t := by
  induction s generalizing b with
  | nil => rfl
  | cons c r ih => simp [ih]

theorem endsInBackslash_writeArgument {a : Padding × String}
    (h : a.2.toList.getLast? = some '\\' → a.1.after ≠ []) :
    endsInBackslash false (writeArgument a) = false := by
  rw [writeArgument, Padding.around, endsInBackslash_append, endsInBackslash_append]
  refine endsInBackslash_of_allBlank a.1.after_blank ?_
  by_cases ha : a.1.after = []
  · right
    rw [endsInBackslash_of_allBlank a.1.before_blank (Or.inr rfl), endsInBackslash,
      getLast?_escapeCommas]
    split
    · next c hc =>
      refine beq_eq_false_iff_ne.mpr ?_
      rintro rfl
      exact h hc ha
    · rfl
  · exact Or.inl ha

theorem escaped_trim (h : Escaped false s) : Escaped false (trim s) := by
  rw [← around_trim s, Padding.around, escaped_append, escaped_append,
    endsInBackslash_of_allBlank (Padding.of s).before_blank (Or.inr rfl)] at h
  exact h.1.2

/-- Arguments that are written are read again, without the blank around them. -/
theorem splitArguments_writeArguments {args : List (Padding × String)}
    (ht : ∀ a ∈ args, Trimmed a.2.toList) (hs : Separated args) (hne : args.map (·.2) ≠ [""]) :
    splitArguments (writeArguments args) = args.map (·.2.toList) := by
  by_cases hargs : args = []
  · rw [hargs]
    decide
  have hsplit : splitCommas false (writeArguments args) = args.map writeArgument := by
    refine splitCommas_joinWith (by simpa using hargs) ?_ ?_
    · intro p hp
      obtain ⟨a, -, rfl⟩ := List.mem_map.mp hp
      exact escaped_writeArgument a
    · intro p hp
      rw [← List.map_dropLast] at hp
      obtain ⟨a, ha, rfl⟩ := List.mem_map.mp hp
      exact endsInBackslash_writeArgument (hs a ha)
  have hread : ∀ a ∈ args, unescapeCommas (trim (writeArgument a)) = a.2.toList := by
    intro a ha
    rw [writeArgument, trim_around a.1 (trimmed_escapeCommas (ht a ha)),
      unescapeCommas_escapeCommas]
  have hblank : ¬ AllBlank (writeArguments args) := by
    intro hb
    -- Text that is all blank would be a single argument, and that the empty one.
    have hone := splitCommas_of_escaped (b := false)
      (escaped_of_not_mem (comma_not_mem_of_allBlank hb))
    rw [hsplit] at hone
    obtain ⟨a, rfl, ha⟩ := List.map_eq_singleton_iff.mp hone
    have hempty := hread a List.mem_cons_self
    rw [ha, trim_eq_nil hb, eq_comm, unescapeCommas, String.toList_eq_nil_iff] at hempty
    exact hne (by rw [List.map_singleton, hempty])
  rw [splitArguments, if_neg hblank, hsplit, List.map_map]
  exact List.map_congr_left hread

theorem writeArgument_readArgument (h : Escaped false s) : writeArgument (readArgument s) = s := by
  rw [readArgument, writeArgument, String.toList_ofList,
    escapeCommas_unescapeCommas (escaped_trim h), around_trim]

/-- Nothing is lost of arguments that are read but the blank around them. -/
theorem writeArguments_of_splitArguments (h : ¬ AllBlank s) :
    ∃ args, (splitArguments s).map String.ofList = args.map (·.2) ∧ s = writeArguments args := by
  refine ⟨(splitCommas false s).map readArgument, ?_, ?_⟩
  · rw [splitArguments, if_neg h, List.map_map, List.map_map]
    rfl
  · have hpieces : ((splitCommas false s).map readArgument).map writeArgument =
        splitCommas false s := by
      rw [List.map_map]
      refine (List.map_congr_left ?_).trans (List.map_id (splitCommas false s))
      intro p hp
      exact writeArgument_readArgument (escaped_of_mem_splitCommas hp)
    rw [writeArguments, hpieces, joinWith_splitCommas]

theorem splitArguments_eq_nil_iff : splitArguments s = [] ↔ AllBlank s := by
  unfold splitArguments
  split
  · next h => simp [h]
  · next h => simp [h, splitCommas_ne_nil]

theorem length_splitArguments (h : ¬ AllBlank s) :
    (splitArguments s).length = freeCommas s + 1 := by
  rw [splitArguments, if_neg h, List.length_map, length_splitCommas]

theorem trimmed_of_mem_splitArguments (h : a ∈ splitArguments s) : Trimmed a := by
  unfold splitArguments at h
  split at h
  · cases h
  · obtain ⟨p, -, rfl⟩ := List.mem_map.mp h
    exact trimmed_unescapeCommas (trimmed_trim p)

/-- A single argument that is empty would be no argument at all. -/
theorem splitArguments_ne_singleton_nil (s : List Char) : splitArguments s ≠ [[]] := by
  unfold splitArguments
  split
  · simp
  · next h =>
    intro he
    obtain ⟨p, hp, he⟩ := List.map_eq_singleton_iff.mp he
    have hs := joinWith_splitCommas false s
    rw [hp, joinWith] at hs
    have hlast := getLast?_unescapeCommas (trim p)
    rw [he, List.getLast?_nil, eq_comm, List.getLast?_eq_none_iff, trim_eq_nil_iff, hs] at hlast
    exact h hlast

end CallTree.Call
