import CallTree.Dict
import Mathlib.Data.Finset.Card
import Mathlib.Data.List.Induction

/-! Entries inserted one after the other: what a key holds, and where it stands. -/
namespace CallTree

theorem Value.sameKey_comm (a b : Value) : sameKey a b = sameKey b a := by
  simp only [sameKey, eq_comm]

theorem Value.sameKey_congr {a b : Value} (h : sameKey a b = true) (c : Value) :
    sameKey a c = sameKey b c := by
  have he : keyForm a = keyForm b := of_decide_eq_true h
  simp only [sameKey, he]

theorem Value.sameKey_str (a b : String) : sameKey (.str a) (.str b) = decide (a = b) := by
  simp [sameKey, keyForm]

theorem mem_of_lookup {β : Type} {l : List (String × β)} {k : String} {b : β}
    (hl : l.lookup k = some b) : (k, b) ∈ l := by
  obtain ⟨l₁, l₂, rfl, -⟩ := List.lookup_eq_some_iff.mp hl
  exact List.mem_append_right l₁ List.mem_cons_self

namespace Dict

variable {α : Type} {k k' : Value} {v : α} {d : Dict α} {es : List (Value × α)}

/-- The value that entries give a key last. -/
def last? (k : Value) (es : List (Value × α)) : Option α :=
  ((es.filter fun e => Value.sameKey e.1 k).getLast?).map (·.2)

/-- Keys less those that are the same as one before them. -/
def firstKeys : List Value → List Value
  | [] => []
  | k :: r => k :: (firstKeys r).filter fun k' => !Value.sameKey k k'

/-- No two entries have the same key. -/
def Distinct (d : Dict α) : Prop := d.Pairwise fun a b => Value.sameKey a.1 b.1 = false

@[simp] theorem insertAll_singleton (d : Dict α) (e : Value × α) :
    insertAll d [e] = insert e.1 e.2 d := rfl

@[simp] theorem ofList_singleton (e : Value × α) : ofList [e] = [e] := rfl

@[simp] theorem get?_nil (k : Value) : get? k ([] : Dict α) = none := rfl

@[simp] theorem keys_nil : keys ([] : Dict α) = [] := rfl

theorem last?_append (k : Value) (es fs : List (Value × α)) :
    last? k (es ++ fs) = (last? k fs).or (last? k es) := by
  simp only [last?, List.filter_append, List.getLast?_append, Option.map_or]

theorem last?_cons (k : Value) (e : Value × α) (es : List (Value × α)) :
    last? k (e :: es) = (last? k es).or (if Value.sameKey e.1 k then some e.2 else none) := by
  rw [← List.singleton_append, last?_append]
  congr 1
  by_cases h : Value.sameKey e.1 k <;> simp [last?, h]

theorem last?_map {β : Type} (f : α → β) (k : Value) (es : List (Value × α)) :
    last? k (es.map fun e => (e.1, f e.2)) = (last? k es).map f := by
  simp only [last?, List.filter_map, List.getLast?_map, Option.map_map, Function.comp_def]

theorem last?_eq_none_iff : last? k es = none ↔ ∀ e ∈ es, Value.sameKey e.1 k = false := by
  simp [last?]

/-- A key holds what was inserted for it last. -/
theorem get?_insertAll (k : Value) (d : Dict α) (es : List (Value × α)) :
    get? k (insertAll d es) = (last? k es).or (get? k d) := by
  induction es generalizing d with
  | nil => rfl
  | cons e r ih =>
    rw [insertAll_cons, ih, get?_insert, last?_cons, Option.or_assoc]
    congr 1
    by_cases h : Value.sameKey e.1 k <;> simp [h]

theorem get?_ofList (k : Value) (es : List (Value × α)) : get? k (ofList es) = last? k es := by
  simp [ofList, get?_insertAll]

theorem mem_of_get? (h : get? k d = some v) : ∃ e ∈ d, e.2 = v := by
  induction d with
  | nil => cases h
  | cons e r ih =>
    rw [get?] at h
    split at h
    · exact ⟨e, List.mem_cons_self, Option.some.inj h⟩
    · obtain ⟨e', he', hv⟩ := ih h
      exact ⟨e', List.mem_cons_of_mem e he', hv⟩

theorem value_of_mem_insert {e : Value × α} (he : e ∈ insert k v d) : e.2 = v ∨ e ∈ d := by
  induction d with
  | nil =>
    obtain rfl := List.mem_singleton.mp he
    exact Or.inl rfl
  | cons e' r ih =>
    rw [insert] at he
    split at he <;> rcases List.mem_cons.mp he with rfl | he
    · exact Or.inl rfl
    · exact Or.inr (List.mem_cons_of_mem _ he)
    · exact Or.inr List.mem_cons_self
    · exact (ih he).imp id (List.mem_cons_of_mem _)

theorem value_of_mem_insertAll {e : Value × α} (he : e ∈ insertAll d es) :
    (∃ e' ∈ es, e'.2 = e.2) ∨ e ∈ d := by
  induction es generalizing d with
  | nil => exact Or.inr he
  | cons e' r ih =>
    obtain ⟨e'', hr, hv⟩ | he := ih he
    · exact Or.inl ⟨e'', List.mem_cons_of_mem _ hr, hv⟩
    · obtain hv | he := value_of_mem_insert he
      · exact Or.inl ⟨e', List.mem_cons_self, hv.symm⟩
      · exact Or.inr he

/-- The values of a mapping are those that it was made from. -/
theorem value_of_mem_ofList {e : Value × α} (he : e ∈ ofList es) : ∃ e' ∈ es, e'.2 = e.2 := by
  obtain he | he := value_of_mem_insertAll he
  · exact he
  · cases he

theorem contains_insert (k k' : Value) (v : α) (d : Dict α) :
    contains k' (insert k v d) = (Value.sameKey k k' || contains k' d) := by
  unfold contains
  rw [get?_insert]
  by_cases h : Value.sameKey k k' <;> simp [h]

theorem contains_cons (k : Value) (e : Value × α) (d : Dict α) :
    contains k (e :: d) = (Value.sameKey e.1 k || contains k d) := by
  unfold contains
  rw [get?]
  by_cases h : Value.sameKey e.1 k <;> simp [h]

theorem contains_eq_false_iff :
    contains k d = false ↔ ∀ e ∈ d, Value.sameKey e.1 k = false := by
  induction d with
  | nil => simp [contains]
  | cons e r ih => simp [contains_cons, ih]

theorem insert_of_contains_eq_false (h : contains k d = false) (v : α) :
    insert k v d = d ++ [(k, v)] := by
  induction d with
  | nil => rfl
  | cons e r ih =>
    rw [contains_cons, Bool.or_eq_false_iff] at h
    rw [insert, h.1, if_neg Bool.false_ne_true, ih h.2, List.cons_append]

theorem keys_insert (k : Value) (v : α) (d : Dict α) :
    keys (insert k v d) = if contains k d then keys d else keys d ++ [k] := by
  induction d with
  | nil => rfl
  | cons e r ih =>
    rw [contains_cons]
    by_cases h : Value.sameKey e.1 k
    · simp [insert, h, keys]
    · have hr : keys (insert k v (e :: r)) = e.1 :: keys (insert k v r) := by
        simp [insert, h, keys]
      rw [hr, ih]
      by_cases hc : contains k r <;> simp [h, hc, keys]

/-- New keys go to the end, in the order in which they first come up. -/
theorem keys_insertAll (d : Dict α) (es : List (Value × α)) :
    keys (insertAll d es) =
      keys d ++ (firstKeys (es.map (·.1))).filter fun k => !contains k d := by
  induction es generalizing d with
  | nil => simp [firstKeys]
  | cons e r ih =>
    have hf : (fun k => !contains k (insert e.1 e.2 d)) =
        fun k => !contains k d && !Value.sameKey e.1 k := by
      funext k
      rw [contains_insert, Bool.not_or, Bool.and_comm]
    rw [insertAll_cons, ih, keys_insert, hf, List.map_cons, firstKeys]
    by_cases h : contains e.1 d <;> simp [h, List.filter_filter]

theorem keys_ofList (es : List (Value × α)) :
    keys (ofList es) = firstKeys (es.map (·.1)) := by
  rw [ofList, keys_insertAll]
  simp [contains]

theorem distinct_insert (h : Distinct d) (k : Value) (v : α) : Distinct (insert k v d) := by
  induction d with
  | nil => simp [insert, Distinct]
  | cons e r ih =>
    obtain ⟨he, hr⟩ := List.pairwise_cons.mp h
    by_cases hk : Value.sameKey e.1 k
    · simp only [insert, hk, if_true]
      exact List.pairwise_cons.mpr ⟨he, hr⟩
    · simp only [insert, hk, Bool.false_eq_true, if_false]
      refine List.pairwise_cons.mpr ⟨?_, ih hr⟩
      -- The keys of the rest are those it had, and the new one.
      have hc : contains e.1 (insert k v r) = false := by
        rw [contains_insert, Value.sameKey_comm, Bool.or_eq_false_iff, contains_eq_false_iff]
        refine ⟨by simpa using hk, fun a ha => ?_⟩
        rw [Value.sameKey_comm]
        exact he a ha
      intro a ha
      rw [Value.sameKey_comm]
      exact contains_eq_false_iff.mp hc a ha

theorem distinct_insertAll (h : Distinct d) (es : List (Value × α)) :
    Distinct (insertAll d es) := by
  induction es generalizing d with
  | nil => exact h
  | cons e r ih => exact ih (distinct_insert h e.1 e.2)

theorem distinct_ofList (es : List (Value × α)) : Distinct (ofList es) :=
  distinct_insertAll List.Pairwise.nil es

/-- Entries with keys of their own stay as they are. -/
theorem ofList_of_distinct (h : Distinct es) : ofList es = es := by
  induction es using List.reverseRecOn with
  | nil => rfl
  | append_singleton es e ih =>
    obtain ⟨hes, -, he⟩ := List.pairwise_append.mp h
    have hc : contains e.1 es = false :=
      contains_eq_false_iff.mpr fun a ha => he a ha e (List.mem_singleton_self e)
    rw [ofList, insertAll_append, ← ofList, ih hes, insertAll_singleton,
      insert_of_contains_eq_false hc]

theorem get?_of_mem {e : Value × α} (h : Distinct d) (he : e ∈ d) : get? e.1 d = some e.2 := by
  induction d with
  | nil => cases he
  | cons e' r ih =>
    obtain ⟨hr, hd⟩ := List.pairwise_cons.mp h
    rw [get?]
    rcases List.mem_cons.mp he with rfl | he
    · simp [Value.sameKey]
    · rw [hr e he, if_neg Bool.false_ne_true]
      exact ih hd he

/-- The values of a mapping are those that its keys were given last. -/
theorem exists_mem_ofList_iff {P : α → Prop} :
    (∃ e ∈ ofList es, P e.2) ↔ ∃ k v, last? k es = some v ∧ P v := by
  constructor
  · rintro ⟨e, he, hp⟩
    exact ⟨e.1, e.2, by rw [← get?_ofList, get?_of_mem (distinct_ofList es) he], hp⟩
  · rintro ⟨k, v, hv, hp⟩
    rw [← get?_ofList] at hv
    obtain ⟨e, he, rfl⟩ := mem_of_get? hv
    exact ⟨e, he, hp⟩

theorem insert_insert_same (h : Value.sameKey k k' = true) (v v' : α) (d : Dict α) :
    insert k' v' (insert k v d) = insert k v' d := by
  induction d with
  | nil => simp [insert, h]
  | cons e r ih =>
    have hk : Value.sameKey e.1 k = Value.sameKey e.1 k' := by
      rw [Value.sameKey_comm e.1 k, Value.sameKey_congr h, Value.sameKey_comm]
    by_cases he : Value.sameKey e.1 k'
    · simp [insert, hk, he]
    · simp [insert, hk, he, ih]

/-- A key that is there already can get its value before or after another key gets one. -/
theorem insert_insert_comm (h : Value.sameKey k k' = false) (hc : contains k d = true) (v v' : α) :
    insert k v (insert k' v' d) = insert k' v' (insert k v d) := by
  induction d with
  | nil => simp [contains] at hc
  | cons e r ih =>
    by_cases he : Value.sameKey e.1 k
    · have he' : Value.sameKey e.1 k' = false := (Value.sameKey_congr he k').trans h
      simp [insert, he, he']
    · have hr : contains k r = true := by simpa [contains_cons, he] using hc
      by_cases he' : Value.sameKey e.1 k'
      · simp [insert, he, he']
      · simp [insert, he, he', ih hr]

theorem insert_insertAll (hc : contains k d = true)
    (h : ∀ e ∈ es, Value.sameKey k e.1 = false) (v : α) :
    insert k v (insertAll d es) = insertAll (insert k v d) es := by
  induction es generalizing d with
  | nil => rfl
  | cons e r ih =>
    have hk : Value.sameKey k e.1 = false := h e List.mem_cons_self
    have hd : contains k (insert e.1 e.2 d) = true := by simp [contains_insert, hc]
    rw [insertAll_cons, ih hd fun a ha => h a (List.mem_cons_of_mem e ha),
      insert_insert_comm hk hc, insertAll_cons]

theorem insertAll_insert (h : Distinct es) (k : Value) (v : α) (d : Dict α) :
    insertAll d (insert k v es) = insert k v (insertAll d es) := by
  induction es generalizing d with
  | nil => rfl
  | cons e r ih =>
    obtain ⟨he, hr⟩ := List.pairwise_cons.mp h
    by_cases hk : Value.sameKey e.1 k
    · have hd : contains k (insert e.1 e.2 d) = true := by simp [contains_insert, hk]
      have hne : ∀ a ∈ r, Value.sameKey k a.1 = false := fun a ha =>
        (Value.sameKey_congr hk a.1).symm.trans (he a ha)
      rw [insertAll_cons, insert_insertAll hd hne, insert_insert_same hk]
      simp [insert, hk]
    · simp [insert, hk, ih hr]

/-- Entries that were brought together first can as well be inserted one by one. -/
theorem insertAll_ofList (d : Dict α) (es : List (Value × α)) :
    insertAll d (ofList es) = insertAll d es := by
  induction es using List.reverseRecOn with
  | nil => rfl
  | append_singleton es e ih =>
    have h : ofList (es ++ [e]) = insert e.1 e.2 (ofList es) := by simp [ofList, insertAll_append]
    rw [h, insertAll_insert (distinct_ofList es), ih, insertAll_append, insertAll_singleton]

/-! ### Keys that differ -/

theorem pairwise_firstKeys (ks : List Value) :
    (firstKeys ks).Pairwise fun a b => Value.sameKey a b = false := by
  induction ks with
  | nil => exact List.Pairwise.nil
  | cons k r ih =>
    refine List.pairwise_cons.mpr ⟨fun a ha => ?_, ih.filter _⟩
    simpa using (List.mem_filter.mp ha).2

theorem mem_keyForms_firstKeys {ks : List Value} {f : Value} :
    f ∈ (firstKeys ks).map Value.keyForm ↔ f ∈ ks.map Value.keyForm := by
  induction ks with
  | nil => rfl
  | cons k r ih =>
    simp only [firstKeys, List.map_cons, List.mem_cons, ← ih]
    by_cases hf : f = k.keyForm
    · simp [hf]
    · simp only [hf, false_or, List.mem_map, List.mem_filter]
      refine exists_congr fun a => and_congr_left fun ha => and_iff_left ?_
      subst ha
      simpa [Value.sameKey] using Ne.symm hf

/-- There are as many first keys as there are keys that differ. -/
theorem length_firstKeys (ks : List Value) :
    (firstKeys ks).length = (ks.map Value.keyForm).toFinset.card := by
  have hn : ((firstKeys ks).map Value.keyForm).Nodup := by
    refine List.pairwise_map.mpr ((pairwise_firstKeys ks).imp fun {a b} h => ?_)
    exact of_decide_eq_false h
  have hset : (ks.map Value.keyForm).toFinset = ((firstKeys ks).map Value.keyForm).toFinset := by
    ext f
    rw [List.mem_toFinset, List.mem_toFinset, mem_keyForms_firstKeys]
  rw [hset, List.toFinset_card_of_nodup hn, List.length_map]

theorem length_ofList (es : List (Value × α)) :
    (ofList es).length = (es.map fun e => e.1.keyForm).toFinset.card := by
  have hk : (ofList es).length = (keys (ofList es)).length := (List.length_map _).symm
  rw [hk, keys_ofList, length_firstKeys, List.map_map]
  rfl

/-- No entry is lost if and only if the keys differ. -/
theorem length_ofList_eq_iff :
    (ofList es).length = es.length ↔ (es.map fun e => e.1.keyForm).Nodup := by
  have hn : (es.map fun e => e.1.keyForm).toFinset.card = (es.map fun e => e.1.keyForm).length ↔
      (es.map fun e => e.1.keyForm).Nodup := Multiset.toFinset_card_eq_card_iff_nodup
  rw [length_ofList, ← hn, List.length_map]

theorem distinct_map {β : Type} (h : Distinct d) (f : Value × α → β) :
    Distinct (d.map fun e => (e.1, f e)) :=
  List.pairwise_map.mpr h

/-! ### Keys that are texts -/

/-- All keys are texts. -/
def Texts (d : Dict α) : Prop := ∀ k ∈ keys d, ∃ t, k = .str t

/-- Names in a strict order are keys that differ. -/
theorem distinct_of_texts {ns : List String} (hk : keys d = ns.map .str)
    (hn : ns.Pairwise (· < ·)) : Distinct d := by
  refine List.pairwise_map.mp (?_ : (keys d).Pairwise fun a b => Value.sameKey a b = false)
  rw [hk]
  refine List.pairwise_map.mpr (hn.imp fun {a b} h => ?_)
  rw [Value.sameKey_str, decide_eq_false_iff_not]
  rintro rfl
  exact String.lt_irrefl a h

theorem texts_insert (hd : Texts d) (t : String) (v : α) : Texts (insert (.str t) v d) := by
  intro k hk
  rw [keys_insert] at hk
  split at hk
  · exact hd k hk
  · rcases List.mem_append.mp hk with hk | hk
    · exact hd k hk
    · exact ⟨t, List.mem_singleton.mp hk⟩

theorem texts_insertAll (hd : Texts d) (h : ∀ e ∈ es, ∃ t, e.1 = .str t) :
    Texts (insertAll d es) := by
  induction es generalizing d with
  | nil => exact hd
  | cons e r ih =>
    obtain ⟨t, ht⟩ := h e List.mem_cons_self
    rw [insertAll_cons, ht]
    exact ih (texts_insert hd t e.2) fun e' he' => h e' (List.mem_cons_of_mem e he')

theorem texts_ofList (h : ∀ e ∈ es, ∃ t, e.1 = .str t) : Texts (ofList es) :=
  texts_insertAll (fun _ hk => nomatch hk) h

/-- Values can be replaced before or after they are inserted. -/
theorem map_insert {β : Type} (F : Value → α → β) (hd : Texts d) (t : String) (v : α) :
    (insert (.str t) v d).map (fun e => (e.1, F e.1 e.2)) =
      insert (.str t) (F (.str t) v) (d.map fun e => (e.1, F e.1 e.2)) := by
  induction d with
  | nil => rfl
  | cons e r ih =>
    obtain ⟨k, w⟩ := e
    obtain ⟨t', rfl⟩ := hd k List.mem_cons_self
    have hr : Texts r := fun k hk => hd k (List.mem_cons_of_mem _ hk)
    by_cases h : t' = t
    · subst h
      simp [insert, Value.sameKey]
    · have hk : Value.sameKey (.str t') (.str t) = false := by simp [Value.sameKey_str, h]
      simp only [insert, hk, Bool.false_eq_true, if_false, List.map_cons, ih hr]

/-- Under a text stands the last of those that have it as their key. -/
theorem get?_ofList_texts {β : Type} (key : β → String) (f : β → α) (t : String) (bs : List β) :
    get? (.str t) (ofList (bs.map fun b => (Value.str (key b), f b))) =
      (bs.filter fun b => key b = t).getLast?.map f := by
  rw [get?_ofList, last?, List.filter_map, List.getLast?_map, Option.map_map]
  simp only [Function.comp_def, Value.sameKey_str]

theorem length_ofList_texts {β : Type} (key : β → String) (f : β → α) (bs : List β) :
    (ofList (bs.map fun b => (Value.str (key b), f b))).length = bs.length ↔
      (bs.map key).Nodup := by
  have hforms : ((bs.map fun b => (Value.str (key b), f b)).map fun e => e.1.keyForm) =
      (bs.map key).map Value.str := by
    rw [List.map_map, List.map_map]
    rfl
  have hinj : Function.Injective Value.str := fun a b h => Value.str.inj h
  rw [← List.nodup_map_iff hinj, ← hforms, ← length_ofList_eq_iff, List.length_map]

end Dict
end CallTree
