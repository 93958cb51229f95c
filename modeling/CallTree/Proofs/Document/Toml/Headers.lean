import CallTree.Proofs.Document.Toml.Paths

/-! What the rows of a TOML document change in it: headers of tables and of arrays of tables. -/
namespace CallTree.Toml

variable {k : String} {p : List String} {s : Position} {v w : Value} {es : List (Value × Value)}
  {d : Document}

namespace Document

/-- A header goes on to what a name already stands for. -/
theorem enter_known (h : Leads d.position p d.root w) (ho : openTable w = some es)
    (hv : Dict.get? (.str k) es = some v) (hk : k ≠ "") :
    ∃ d', d.enter false false k = .ok d' ∧ Leads d'.position (p ++ [k]) d.root v ∧
      d'.root = d.root ∧ d'.implied = d.implied := by
  have hhere : d.here = w := h.valueAt
  obtain ⟨rfl, hl⟩ | ⟨xs, rfl, hx, hl⟩ := h.exists_open ho
  · refine ⟨d.move (.key k), ?_, hl.trans (.key hv (.here v)), rfl, rfl⟩
    rw [enter, if_neg hk, hhere]
    simp only [hv]
    rfl
  · have hc : Dict.contains (.str k) es = true := by rw [Dict.contains, hv]; rfl
    refine ⟨(d.move .last).move (.key k), ?_, hl.trans (.key hv (.here v)), rfl, rfl⟩
    rw [enter, if_neg hk, hhere]
    simp only [hx, hc, if_true]
    rfl

/-- A header makes a table for a name that is new. -/
theorem enter_new (h : Leads d.position p d.root w) (ho : openTable w = some es)
    (hv : Dict.get? (.str k) es = none) (hk : k ≠ "") (isLast : Bool) :
    ∃ d' s, d.enter false isLast k = .ok d' ∧ Leads s p d.root (.map es) ∧
      d'.root = put k (.map []) es s d.root ∧ Leads d'.position (p ++ [k]) d'.root (.map []) ∧
      ∀ name ∈ d'.implied, name ∈ d.implied ∨ (isLast = false ∧ name = k) := by
  have hhere : d.here = w := h.valueAt
  have hget : Dict.get? (.str k) (Dict.insert (.str k) (.map []) es) = some (.map []) := by
    rw [get?_insert_str, if_pos rfl]
  obtain ⟨rfl, hl⟩ | ⟨xs, rfl, hx, hl⟩ := h.exists_open ho
  · have hput := (hl.put k (.map [])).trans (.key hget (.here _))
    cases isLast with
    | true =>
      refine ⟨(d.make false k es).move (.key k), d.position, ?_, hl, rfl, hput, fun _ => .inl⟩
      rw [enter, if_neg hk, hhere]
      simp only [hv]
      rfl
    | false =>
      refine ⟨({ d with implied := d.implied ++ [k] }.make false k es).move (.key k), d.position,
        ?_, hl, rfl, hput, fun name hn => ?_⟩
      · rw [enter, if_neg hk, hhere]
        simp only [hv]
        rfl
      · obtain hn | hn := List.mem_append.mp hn
        · exact .inl hn
        · exact .inr ⟨rfl, List.mem_singleton.mp hn⟩
  · have hc : Dict.contains (.str k) es = false := by rw [Dict.contains, hv]; rfl
    have hput := (hl.put k (.map [])).trans (.key hget (.here _))
    refine ⟨((d.move .last).make false k es).move (.key k), d.position ++ [.last], ?_, hl, rfl,
      hput, fun _ => .inl⟩
    rw [enter, if_neg hk, hhere]
    simp only [hx, hc, if_false, Bool.false_eq_true, Bool.false_and]
    rfl

/-- What a path stands for once a header leads to `p`: tables on the way are made. -/
def filled (p q : List String) (v : Value) : Option Place :=
  if q <+: p ∧ placeAt q v = none then some .table else placeAt q v

theorem filled_ne_leaf {q : List String} (h : placeAt q v ≠ some .leaf) :
    filled p q v ≠ some .leaf := by
  unfold filled
  split
  · decide
  · exact h

theorem filled_eq_none_iff {q : List String} :
    filled p q v = none ↔ placeAt q v = none ∧ ¬q <+: p := by
  unfold filled
  split
  · next h => simp [h.1]
  · next h => exact ⟨fun hn => ⟨hn, fun hq => h ⟨hq, hn⟩⟩, fun hn => hn.1⟩

theorem filled_of_filled {p' : List String} {v' : Value} (hp : p' <+: p)
    (h : ∀ q, placeAt q v' = filled p' q v) (q : List String) : filled p q v' = filled p q v := by
  unfold filled at h ⊢
  rw [h]
  by_cases hq : q <+: p'
  · by_cases hv : placeAt q v = none
    · simp [hq, hv, hq.trans hp]
    · simp [hv]
  · simp [hq]

theorem filled_of_put (h : Leads s p v (.map es)) (hv : Dict.get? (.str k) es = none)
    (q : List String) : placeAt q (put k (.map []) es s v) = filled (p ++ [k]) q v := by
  have hnone : placeAt (p ++ [k]) v = none := by rw [h.placeAt_name rfl, hv]; rfl
  rw [placeAt_put h, filled]
  by_cases hq : p ++ [k] <+: q
  · obtain ⟨r, rfl⟩ := hq
    have hr : placeAt (p ++ [k] ++ r) v = none := placeAt_extended hnone (List.prefix_append _ r)
    have hdrop : (p ++ [k] ++ r).drop (p.length + 1) = r := List.drop_left' (by simp)
    rw [if_pos (List.prefix_append _ r), hdrop, hr]
    match r with
    | [] => simp [placeAt, find?, placeOf]
    | k' :: r =>
      have hnot : ¬(p ++ [k] ++ k' :: r <+: p ++ [k]) := by
        intro hp
        have := hp.length_le
        simp at this
      rw [if_neg (fun hp => hnot hp.1), placeAt_cons rfl]
      rfl
  · rw [if_neg hq]
    refine (if_neg ?_).symm
    rintro ⟨hp, hn⟩
    obtain rfl | hp := List.prefix_concat_iff.mp hp
    · exact hq (List.prefix_refl _)
    · exact h.placeAt_ne_none hp hn

/-- A header to `p` makes a table with this name on the way. -/
def Implies (p : List String) (v : Value) (name : String) : Prop :=
  ∃ q, q ++ [name] <+: p ∧ q ++ [name] ≠ p ∧ placeAt (q ++ [name]) v = none

theorem implies_new {names : List String} (hn : names ≠ []) (h : placeAt (p ++ [k]) v = none) :
    Implies (p ++ [k] ++ names) v k :=
  ⟨p, List.prefix_append _ names, fun he => hn (by simpa using he), h⟩

theorem Implies.of_filled {p' : List String} {v' : Value} {name : String} (h : Implies p v' name)
    (hf : ∀ q, placeAt q v' = filled p' q v) : Implies p v name := by
  obtain ⟨q, hq, hne, hn⟩ := h
  rw [hf, filled_eq_none_iff] at hn
  exact ⟨q, hq, hne, hn.1⟩

theorem enterAll_cons {array : Bool} {names : List String} {d' : Document} (hn : names ≠ [])
    (h : d.enter array false k = .ok d') :
    enterAll array (k :: names) d = enterAll array names d' := by
  obtain ⟨k', r, rfl⟩ := List.exists_cons_of_ne_nil hn
  rw [enterAll, h]
  · rfl
  · exact List.cons_ne_nil k' r

/-- The header of a table that is not there yet. -/
theorem enterAll_table {names : List String} (hn : names ≠ []) (hne : ∀ k ∈ names, k ≠ "")
    (h : Leads d.position p d.root w) (ho : openTable w = some es)
    (hfree : placeAt (p ++ names) d.root = none)
    (hpass : ∀ q, q <+: p ++ names → placeAt q d.root ≠ some .leaf) :
    ∃ d', enterAll false names d = .ok d' ∧ Leads d'.position (p ++ names) d'.root (.map []) ∧
      (∀ q, placeAt q d'.root = filled (p ++ names) q d.root) ∧
      ∀ name ∈ d'.implied, name ∈ d.implied ∨ Implies (p ++ names) d.root name := by
  induction names generalizing d p w es with
  | nil => exact absurd rfl hn
  | cons k names ih =>
    have hk := hne k List.mem_cons_self
    have hpk : p ++ k :: names = p ++ [k] ++ names := by simp
    have hprefix : p ++ [k] <+: p ++ k :: names := hpk ▸ List.prefix_append _ names
    by_cases hlast : names = []
    · subst hlast
      have hv : Dict.get? (.str k) es = none := by
        rw [h.placeAt_name ho, Option.map_eq_none_iff] at hfree
        exact hfree
      obtain ⟨d', s, hd, hs, hroot, hl, himp⟩ := enter_new h ho hv hk true
      refine ⟨d', hd, hl, fun q => hroot ▸ filled_of_put hs hv q, fun name hm => ?_⟩
      obtain hm | ⟨hf, -⟩ := himp name hm
      · exact .inl hm
      · cases hf
    · have hne' : ∀ x ∈ names, x ≠ "" := fun x hx => hne x (List.mem_cons_of_mem k hx)
      cases hv : Dict.get? (.str k) es with
      | some v =>
        obtain ⟨d₁, hd, hl, hroot, himp⟩ := enter_known h ho hv hk
        have hplace : placeOf v ≠ .leaf := by
          have hp := hpass (p ++ [k]) hprefix
          rw [h.placeAt_name ho, hv] at hp
          exact fun hv' => hp (congrArg some hv')
        obtain ⟨fs, hfs⟩ := exists_openTable hplace
        rw [hpk, ← hroot] at hfree hpass
        obtain ⟨d', hd', hl', hroot', himp'⟩ := ih hlast hne' (hroot ▸ hl) hfs hfree hpass
        rw [hroot] at hroot' himp'
        rw [himp] at himp'
        rw [hpk]
        exact ⟨d', (enterAll_cons hlast hd).trans hd', hl', hroot', himp'⟩
      | none =>
        obtain ⟨d₁, s, hd, hs, hroot, hl, himp⟩ := enter_new h ho hv hk false
        have hfill : ∀ q, placeAt q d₁.root = filled (p ++ [k]) q d.root :=
          fun q => hroot ▸ filled_of_put hs hv q
        have hlonger : ¬p ++ k :: names <+: p ++ [k] := by
          simpa [List.prefix_append_right_inj, List.cons_prefix_cons] using hlast
        have hfree' : placeAt (p ++ [k] ++ names) d₁.root = none := by
          rw [hfill, filled_eq_none_iff, ← hpk]
          exact ⟨hfree, hlonger⟩
        have hpass' : ∀ q, q <+: p ++ [k] ++ names → placeAt q d₁.root ≠ some .leaf :=
          fun q hq => hfill q ▸ filled_ne_leaf (hpass q (hpk ▸ hq))
        obtain ⟨d', hd', hl', hroot', himp'⟩ := ih hlast hne' hl rfl hfree' hpass'
        refine ⟨d', (enterAll_cons hlast hd).trans hd', hpk ▸ hl', fun q => ?_, fun name hm => ?_⟩
        · rw [hroot', hpk, filled_of_filled (List.prefix_append _ names) hfill]
        · rw [hpk]
          obtain hm | hm := himp' name hm
          · obtain hm | ⟨-, rfl⟩ := himp name hm
            · exact .inl hm
            · have hnone : placeAt (p ++ [name]) d.root = none := by
                rw [h.placeAt_name ho, hv]
                rfl
              exact .inr (implies_new hlast hnone)
          · exact .inr (hm.of_filled hfill)

/-! ### Arrays of tables -/

/-- A header of an array goes on to the table that a name stands for, or to the last one. -/
theorem enter_array_known (h : Leads d.position p d.root (.map es))
    (hv : Dict.get? (.str k) es = some v) {fs : List (Value × Value)} (ho : openTable v = some fs)
    (hk : k ≠ "") :
    ∃ d', d.enter true false k = .ok d' ∧ Leads d'.position (p ++ [k]) d'.root (.map fs) ∧
      d'.root = d.root ∧ d'.implied = d.implied := by
  have hhere : d.here = .map es := h.valueAt
  have hl : Leads (d.move (.key k)).position (p ++ [k]) d.root v := h.trans (.key hv (.here v))
  have hmove : (d.move (.key k)).here = v := hl.valueAt
  have henter : d.enter true false k = (d.move (.key k)).intoArray true := by
    rw [enter, if_neg hk, hhere]
    simp only [hv]
    rfl
  obtain ⟨rfl, hl⟩ | ⟨xs, rfl, hx, hl⟩ := hl.exists_open ho
  · refine ⟨d.move (.key k), ?_, hl, rfl, rfl⟩
    rw [henter, intoArray.eq_def, hmove]
  · refine ⟨(d.move (.key k)).move .last, ?_, hl, rfl, rfl⟩
    obtain ⟨x, r, rfl⟩ := List.exists_cons_of_ne_nil (List.ne_nil_of_mem (List.mem_of_getLast? hx))
    rw [henter, intoArray.eq_def, hmove]

/-- The last name of a header of an array: one more table in the array. -/
theorem enter_array_last (h : Leads d.position p d.root (.map es)) (hk : k ≠ "")
    (hv : Dict.get? (.str k) es = none ∨
      ∃ xs, Dict.get? (.str k) es = some (.list xs) ∧ k ∉ d.implied) :
    ∃ d' xs, d.enter true true k = .ok d' ∧
      d'.root = put k (.list (xs ++ [.map []])) es d.position d.root ∧
      Leads d'.position (p ++ [k]) d'.root (.map []) ∧ d'.implied = d.implied := by
  have hhere : d.here = .map es := h.valueAt
  have hlast : ∀ xs : List Value, (xs ++ [Value.map []]).getLast? = some (.map []) :=
    fun xs => List.getLast?_concat
  have hput : ∀ xs, Leads (d.position ++ [.key k, .last]) (p ++ [k])
      (put k (.list (xs ++ [.map []])) es d.position d.root) (.map []) := fun xs =>
    (h.put k _).trans (.key (by rw [get?_insert_str, if_pos rfl]) (.last (hlast xs) (.here _)))
  -- the table that the new one stands in is left for the last table of the array
  have hinto : ∀ (d' : Document) xs, d'.position = d.position →
      d'.root = put k (.list (xs ++ [.map []])) es d.position d.root →
      (d'.move (.key k)).intoArray true = .ok ((d'.move (.key k)).move .last) := by
    intro d' xs hpos hroot
    have hl : Leads (d'.move (.key k)).position (p ++ [k]) (d'.move (.key k)).root
        (.list (xs ++ [.map []])) := by
      rw [move, hpos, hroot]
      exact (h.put k _).trans (.key (by rw [get?_insert_str, if_pos rfl]) (.here _))
    have hmove : (d'.move (.key k)).here = .list (xs ++ [.map []]) := hl.valueAt
    obtain ⟨x, r, hx⟩ := List.exists_cons_of_ne_nil
      (List.append_ne_nil_of_right_ne_nil xs (List.cons_ne_nil (Value.map []) []))
    rw [intoArray.eq_def, hmove, hx]
  obtain hv | ⟨xs, hv, himp⟩ := hv
  · refine ⟨((d.make true k es).move (.key k)).move .last, [], ?_, rfl, ?_, rfl⟩
    · rw [enter, if_neg hk, hhere]
      simp only [hv]
      exact hinto _ [] rfl rfl
    · have hl := hput []
      rwa [List.append_cons] at hl
  · have hc : d.implied.contains k = false := by simpa using himp
    refine ⟨((d.set (.map (Dict.insert (.str k) (.list (xs ++ [.map []])) es))).move
      (.key k)).move .last, xs, ?_, rfl, ?_, rfl⟩
    · rw [enter, if_neg hk, hhere]
      simp only [hv, reopen, hc, hhere]
      exact hinto _ xs rfl rfl
    · have hl := hput xs
      rwa [List.append_cons] at hl

/-- The header of an array of tables that stands in a table that is there. -/
theorem enterAll_array {names : List String} (hne : ∀ x ∈ names, x ≠ "") (hk : k ≠ "")
    (h : Leads d.position p d.root (.map es)) (hopen : Open (p ++ names) d.root)
    (hlast : placeAt (p ++ names ++ [k]) d.root = none ∨
      placeAt (p ++ names ++ [k]) d.root = some .array ∧ k ∉ d.implied) :
    ∃ d', enterAll true (names ++ [k]) d = .ok d' ∧
      Leads d'.position (p ++ names ++ [k]) d'.root (.map []) ∧
      placeAt (p ++ names ++ [k]) d'.root = some .array ∧
      (∀ q, ¬p ++ names ++ [k] <+: q → placeAt q d'.root = placeAt q d.root) ∧
      d'.implied = d.implied := by
  induction names generalizing d p es with
  | nil =>
    rw [List.append_nil] at hlast ⊢
    have hv : Dict.get? (.str k) es = none ∨
        ∃ xs, Dict.get? (.str k) es = some (.list xs) ∧ k ∉ d.implied := by
      rw [h.placeAt_name rfl] at hlast
      obtain hn | ⟨ha, himp⟩ := hlast
      · exact .inl (Option.map_eq_none_iff.mp hn)
      · obtain ⟨v, hv, ha⟩ := Option.map_eq_some_iff.mp ha
        obtain ⟨xs, rfl⟩ := exists_list ha
        exact .inr ⟨xs, hv, himp⟩
    obtain ⟨d', xs, hd, hroot, hl, himp⟩ := enter_array_last h hk hv
    refine ⟨d', hd, hl, ?_, fun q hq => ?_, himp⟩
    · have hdrop : (p ++ [k]).drop (p.length + 1) = [] := List.drop_eq_nil_of_le (by simp)
      rw [hroot, placeAt_put h, if_pos (List.prefix_refl _), hdrop]
      simp [placeAt, find?, placeOf, openTable]
    · rw [hroot, placeAt_put h, if_neg hq]
  | cons k₀ names ih =>
    have hp : p ++ k₀ :: names = p ++ [k₀] ++ names := by simp
    have hplace := hopen (p ++ [k₀]) (hp ▸ List.prefix_append _ names)
    rw [h.placeAt_name rfl] at hplace
    obtain ⟨v, hv, hleaf⟩ : ∃ v, Dict.get? (.str k₀) es = some v ∧ placeOf v ≠ .leaf := by
      cases hv : Dict.get? (.str k₀) es with
      | none => simp [hv] at hplace
      | some v =>
        refine ⟨v, rfl, fun hleaf => ?_⟩
        simp [hv, hleaf] at hplace
    obtain ⟨fs, hfs⟩ := exists_openTable hleaf
    obtain ⟨d₁, hd, hl, hroot, himp⟩ :=
      enter_array_known h hv hfs (hne k₀ List.mem_cons_self)
    rw [hp, ← hroot] at hopen hlast
    rw [← himp] at hlast
    obtain ⟨d', hd', hl', harray, hsame, himp'⟩ :=
      ih (fun x hx => hne x (List.mem_cons_of_mem k₀ hx)) hl hopen hlast
    rw [hp]
    refine ⟨d', ?_, hl', harray, fun q hq => ?_, himp'.trans himp⟩
    · rw [List.cons_append, enterAll_cons (List.append_ne_nil_of_right_ne_nil _ (by simp)) hd, hd']
    · rw [hsame q hq, hroot]

end Document
end CallTree.Toml
