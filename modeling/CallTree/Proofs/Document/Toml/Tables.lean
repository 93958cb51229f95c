import CallTree.Proofs.Document.Toml.Entry
import CallTree.Proofs.Document.Toml.Null
import CallTree.Proofs.Plain

/-! Tables that are read back: what may stand in them, the tables in them, and the texts of their
paths. -/
namespace CallTree.Toml

variable {T : String → Prop} {es sub : Entries} {k : String} {v : Plain} {p q : List String}

/-- What becomes of an entry. -/
inductive Role
  | absent
  | line
  | array
  | table
  deriving DecidableEq

def role : Plain → Role
  | .null => .absent
  | .map _ => .table
  | .list xs => if xs.any isMap then .array else .line
  | _ => .line

mutual
/-- Entries that are read back. `T` keeps the names of tables apart from those of arrays of tables:
once a header has made a table on its way, its name is no good for an array any more. -/
def AreEntries (T : String → Prop) : Entries → Prop
  | [] => True
  | (k, v) :: r => IsValue T k v ∧ AreEntries T r

/-- What can be under a key: nothing is written for null, headers name tables and arrays of tables,
and all else is on the line of its key. -/
def IsValue (T : String → Prop) (k : String) : Plain → Prop
  | .null => (printName k).isOk = true
  | .map es => (IsName k ∧ T k) ∧ AreEntries T es
  | .list xs =>
    if xs.any isMap then (IsName k ∧ ¬T k) ∧ AreTables T xs
    else (Row.entry k (.ofPlain (.list xs))).IsClean
  | v => (Row.entry k (.ofPlain v)).IsClean

def AreTables (T : String → Prop) : List Plain → Prop
  | [] => True
  | x :: r => IsItemTable T x ∧ AreTables T r

def IsItemTable (T : String → Prop) : Plain → Prop
  | .map es => AreEntries T es
  | _ => False
end

mutual
def decideEntries (T : String → Prop) [DecidablePred T] :
    (es : Entries) → Decidable (AreEntries T es)
  | [] => isTrue trivial
  | (k, v) :: r => @instDecidableAnd _ _ (decideValue T k v) (decideEntries T r)

def decideValue (T : String → Prop) [DecidablePred T] (k : String) :
    (v : Plain) → Decidable (IsValue T k v)
  | .null => inferInstanceAs (Decidable ((printName k).isOk = true))
  | .map es =>
    let _ := decideEntries T es
    inferInstanceAs (Decidable ((IsName k ∧ T k) ∧ AreEntries T es))
  | .list xs =>
    let _ := decideTables T xs
    inferInstanceAs (Decidable (if xs.any isMap then (IsName k ∧ ¬T k) ∧ AreTables T xs
      else (Row.entry k (.ofPlain (.list xs))).IsClean))
  | .bool b => inferInstanceAs (Decidable (Row.entry k (.ofPlain (.bool b))).IsClean)
  | .int n => inferInstanceAs (Decidable (Row.entry k (.ofPlain (.int n))).IsClean)
  | .float x => inferInstanceAs (Decidable (Row.entry k (.ofPlain (.float x))).IsClean)
  | .str s => inferInstanceAs (Decidable (Row.entry k (.ofPlain (.str s))).IsClean)

def decideTables (T : String → Prop) [DecidablePred T] :
    (xs : List Plain) → Decidable (AreTables T xs)
  | [] => isTrue trivial
  | x :: r => @instDecidableAnd _ _ (decideItemTable T x) (decideTables T r)

def decideItemTable (T : String → Prop) [DecidablePred T] :
    (x : Plain) → Decidable (IsItemTable T x)
  | .map es => decideEntries T es
  | .null | .bool _ | .int _ | .float _ | .str _ | .list _ => isFalse id
end

instance (T : String → Prop) [DecidablePred T] : DecidablePred (AreEntries T) := decideEntries T

/-- A table that is read back, with each key once wherever there are keys in it. -/
structure IsTable (T : String → Prop) (es : Entries) : Prop where
  entries : AreEntries T es
  once : Plain.Every Plain.HasKeysOnce (.map es)

theorem AreEntries.of_mem (h : AreEntries T es) (hm : (k, v) ∈ es) : IsValue T k v := by
  induction es with
  | nil => cases hm
  | cons e r ih =>
    cases hm with
    | head => exact h.1
    | tail _ hm => exact ih h.2 hm

theorem AreTables.of_mem {xs : List Plain} (h : AreTables T xs) {x : Plain} (hm : x ∈ xs) :
    ∃ es, x = .map es ∧ AreEntries T es := by
  induction xs with
  | nil => cases hm
  | cons y r ih =>
    cases hm with
    | head =>
      match x with
      | .map es => exact ⟨es, rfl, h.1⟩
      | .null | .bool _ | .int _ | .float _ | .str _ | .list _ => exact h.1.elim
    | tail _ hm => exact ih h.2 hm

namespace IsTable

theorem nodup (h : IsTable T es) : (es.map (·.1)).Nodup := h.once.1

theorem every (h : IsTable T es) (hm : (k, v) ∈ es) : Plain.Every Plain.HasKeysOnce v :=
  Plain.everyEntry_iff.mp h.once.2 _ hm

theorem isTable (h : IsTable T es) (hm : (k, .map sub) ∈ es) :
    IsName k ∧ T k ∧ IsTable T sub :=
  have hv := h.entries.of_mem hm
  ⟨hv.1.1, hv.1.2, hv.2, h.every hm⟩

theorem isArray {xs : List Plain} (h : IsTable T es) (hm : (k, .list xs) ∈ es)
    (hx : xs.any isMap = true) :
    IsName k ∧ ¬T k ∧ ∀ x ∈ xs, ∃ sub, x = .map sub ∧ IsTable T sub := by
  have hv := h.entries.of_mem hm
  rw [IsValue, if_pos hx] at hv
  refine ⟨hv.1.1, hv.1.2, fun x hxm => ?_⟩
  obtain ⟨sub, rfl, hs⟩ := hv.2.of_mem hxm
  exact ⟨sub, rfl, hs, Plain.everyItem_iff.mp (h.every hm).2 _ hxm⟩

theorem isLine (h : IsTable T es) (hm : (k, v) ∈ es) (hr : role v = .line) :
    (Row.entry k (.ofPlain v)).IsClean := by
  have hv := h.entries.of_mem hm
  match v with
  | .null | .map _ => cases hr
  | .bool _ | .int _ | .float _ | .str _ => exact hv
  | .list xs =>
    rw [role] at hr
    split at hr
    · cases hr
    · next hx => rwa [IsValue, if_neg hx] at hv

/-- The names of all entries can be written. -/
theorem exists_printName (h : IsTable T es) (hm : (k, v) ∈ es) :
    ∃ name, printName k = .ok name := by
  have hv := h.entries.of_mem hm
  match v with
  | .null =>
    rw [IsValue] at hv
    cases hn : printName k with
    | ok name => exact ⟨name, rfl⟩
    | error f => rw [hn] at hv; cases hv
  | .map sub => exact ⟨_, printName_of_isName (h.isTable hm).1⟩
  | .bool _ | .int _ | .float _ | .str _ => exact ⟨_, hv.1.written⟩
  | .list xs =>
    by_cases hx : xs.any isMap = true
    · exact ⟨_, printName_of_isName (h.isArray hm hx).1⟩
    · rw [IsValue, if_neg hx] at hv
      exact ⟨_, hv.1.written⟩

end IsTable

/-! ### The parts of a table -/

/-- The keys of the entries with a role. -/
def keysOf (r : Role) (es : Entries) : List String := (es.filter fun e => role e.2 = r).map (·.1)

/-- The tables in a table. -/
def tablesIn (es : Entries) : List (String × Entries) :=
  es.filterMap fun e => match e.2 with
    | .map sub => some (e.1, sub)
    | _ => none

theorem mem_keysOf {r : Role} : k ∈ keysOf r es ↔ ∃ v, (k, v) ∈ es ∧ role v = r := by
  simp [keysOf]

theorem mem_tablesIn : (k, sub) ∈ tablesIn es ↔ (k, .map sub) ∈ es := by
  rw [tablesIn, List.mem_filterMap]
  constructor
  · rintro ⟨⟨k', v⟩, hm, he⟩
    match v with
    | .map es' => cases he; exact hm
    | .null | .bool _ | .int _ | .float _ | .str _ | .list _ => cases he
  · exact fun hm => ⟨_, hm, rfl⟩

theorem keys_tablesIn (es : Entries) : (tablesIn es).map (·.1) = keysOf .table es := by
  induction es with
  | nil => rfl
  | cons e r ih =>
    obtain ⟨k, v⟩ := e
    rw [keysOf] at ih ⊢
    rw [tablesIn] at ih ⊢
    match v with
    | .map sub => simp [role, ih]
    | .null | .bool _ | .int _ | .float _ | .str _ => simp [role, ih]
    | .list xs =>
      by_cases hx : xs.any isMap = true <;> simp only [List.any_eq_true] at hx <;>
        simp [role, hx, ih]

theorem nodup_keysOf (h : (es.map (·.1)).Nodup) (r : Role) : (keysOf r es).Nodup :=
  h.sublist (List.filter_sublist.map _)

/-- Keys stand in one role only. -/
theorem not_mem_keysOf (h : (es.map (·.1)).Nodup) {r r' : Role} (hr : r ≠ r')
    (hk : k ∈ keysOf r es) :
    k ∉ keysOf r' es := by
  intro hk'
  obtain ⟨v, hv, rfl⟩ := mem_keysOf.mp hk
  obtain ⟨v', hv', rfl⟩ := mem_keysOf.mp hk'
  obtain ⟨-, rfl⟩ := Prod.mk.inj (List.inj_on_of_nodup_map h hv hv' rfl)
  exact hr rfl

/-! ### Depths -/

theorem depth_le_entryDepths (hm : (k, v) ∈ es) : depth v ≤ entryDepths es := by
  induction es with
  | nil => cases hm
  | cons e r ih =>
    obtain ⟨k', v'⟩ := e
    rw [entryDepths]
    cases hm with
    | head => omega
    | tail _ hm => exact (ih hm).trans (Nat.le_max_right _ _)

theorem depth_le_depths {x : Plain} {xs : List Plain} (hm : x ∈ xs) : depth x ≤ depths xs := by
  induction xs with
  | nil => cases hm
  | cons y r ih =>
    rw [depths]
    cases hm with
    | head => omega
    | tail _ hm => exact (ih hm).trans (Nat.le_max_right _ _)

theorem entryDepths_lt_of_table (hm : (k, .map sub) ∈ es) : entryDepths sub < entryDepths es := by
  have hd := depth_le_entryDepths hm
  rw [depth] at hd
  omega

theorem entryDepths_lt_of_array {xs : List Plain} (hm : (k, .list xs) ∈ es) (hx : .map sub ∈ xs) :
    entryDepths sub < entryDepths es := by
  have hd := depth_le_entryDepths hm
  have hs := depth_le_depths hx
  simp only [depth] at hd hs
  omega

/-! ### The texts of paths -/

/-- A path with a point behind each name. -/
def frontText (p : List String) : List Char := p.flatMap fun k => nameText k ++ ['.']

theorem frontText_append (p q : List String) : frontText (p ++ q) = frontText p ++ frontText q :=
  List.flatMap_append

theorem frontText_pathText (p : List String) (hq : q ≠ []) :
    frontText p ++ pathText q = pathText (p ++ q) := by
  induction p with
  | nil => rfl
  | cons k p ih =>
    rw [List.cons_append, pathText_cons k (List.append_ne_nil_of_right_ne_nil p hq), ← ih]
    simp [frontText]

theorem pathText_point (hp : p ≠ []) : pathText p ++ ['.'] = frontText p := by
  induction p with
  | nil => exact absurd rfl hp
  | cons k p ih =>
    by_cases h : p = []
    · simp [h, pathText_singleton, frontText]
    · rw [pathText_cons k h, List.append_assoc, List.cons_append, ih h]
      simp [frontText]

theorem nameText_injective (hk : IsName k) {k' : String} (hk' : IsName k')
    (h : nameText k = nameText k') : k = k' := by
  -- a name without quotes does not begin with one
  have hbare : ∀ {a b : String}, IsName a → isBareName a = true → nameText a ≠ quotedText b := by
    intro a b ha hb he
    obtain ⟨c, s, hs⟩ := ha.exists_cons
    have hc := isBare_of_isBareName ha hb c (hs ▸ List.mem_cons_self)
    rw [nameText, if_pos hb, hs] at he
    exact hc.ne ((List.cons.inj he).1 ▸ List.mem_cons_self)
  by_cases hb : isBareName k = true <;> by_cases hb' : isBareName k' = true
  · rw [nameText, nameText, if_pos hb, if_pos hb'] at h
    exact String.toList_inj.mp h
  · exact absurd (h.trans (by rw [nameText, if_neg hb'])) (hbare hk hb)
  · exact absurd (h.symm.trans (by rw [nameText, if_neg hb])) (hbare hk' hb')
  · rw [nameText, nameText, if_neg hb, if_neg hb'] at h
    exact String.toList_inj.mp (List.append_cancel_right (List.cons.inj h).2)

theorem map_nameText_injective (hp : ∀ k ∈ p, IsName k) (hq : ∀ k ∈ q, IsName k)
    (h : p.map nameText = q.map nameText) : p = q := by
  induction p generalizing q with
  | nil => exact (List.map_eq_nil_iff.mp h.symm).symm
  | cons k p ih =>
    match q with
    | [] => cases h
    | k' :: q =>
      obtain ⟨hk, hr⟩ := List.cons.inj h
      rw [nameText_injective (hp k List.mem_cons_self) (hq k' List.mem_cons_self) hk,
        ih (fun x hx => hp x (List.mem_cons_of_mem k hx))
          (fun x hx => hq x (List.mem_cons_of_mem k' hx)) hr]

theorem pathText_injective (hp : ∀ k ∈ p, IsName k) (hp' : p ≠ []) (hq : ∀ k ∈ q, IsName k)
    (hq' : q ≠ []) (h : pathText p = pathText q) : p = q := by
  refine map_nameText_injective hp hq ?_
  rw [← splitOn_pathText hp hp', h, splitOn_pathText hq hq']

/-! ### Tables that wait for their headers -/

theorem insertTable_of_not_mem {name : List Char} {tables : List (List Char × Entries)}
    (h : name ∉ tables.map (·.1)) (es : Entries) :
    insertTable name es tables = tables ++ [(name, es)] := by
  induction tables with
  | nil => rfl
  | cons t r ih =>
    obtain ⟨name', es'⟩ := t
    rw [List.map_cons, List.mem_cons, not_or] at h
    rw [insertTable, if_neg (Ne.symm h.1), ih h.2, List.cons_append]

theorem foldl_insertTable {tables more : List (List Char × Entries)}
    (h : ((tables ++ more).map (·.1)).Nodup) :
    more.foldl (fun d t => insertTable t.1 t.2 d) tables = tables ++ more := by
  induction more generalizing tables with
  | nil => exact (List.append_nil tables).symm
  | cons t r ih =>
    have ht : t.1 ∉ tables.map (·.1) := by
      intro hm
      rw [List.map_append, List.map_cons] at h
      exact List.disjoint_of_nodup_append h hm List.mem_cons_self
    rw [List.foldl_cons, insertTable_of_not_mem ht, ih (by simpa using h), List.append_assoc]
    rfl

end CallTree.Toml
