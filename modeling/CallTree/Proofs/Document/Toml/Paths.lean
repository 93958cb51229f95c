import CallTree.Document.Toml.Table
import CallTree.Proofs.Dict
import Mathlib.Data.List.Infix

/-! What stands at which path of a TOML document, and what rows change there. -/
namespace CallTree.Toml

variable {k : String} {p q : List String} {s : Position} {v w x : Value} {es : List (Value × Value)}
  {d : Document}

/-- What stands at a path. -/
inductive Place
  | table
  | array
  | leaf
  deriving DecidableEq

/-- The table that names below a value are looked up in: the last one, where it is an array. -/
def openTable : Value → Option (List (Value × Value))
  | .map es => some es
  | .list xs => match xs.getLast? with
    | some (.map es) => some es
    | _ => none
  | _ => none

def placeOf (v : Value) : Place :=
  match v with
  | .map _ => .table
  | v => if (openTable v).isSome then .array else .leaf

/-- The value that names lead to. -/
def find? : List String → Value → Option Value
  | [], v => some v
  | k :: p, v => ((openTable v).bind (Dict.get? (.str k))).bind (find? p)

def placeAt (p : List String) (v : Value) : Option Place := (find? p v).map placeOf

/-- The position to which names lead. -/
inductive Leads : Position → List String → Value → Value → Prop
  | here (v : Value) : Leads [] [] v v
  | key {k : String} {s : Position} {p : List String} {es : List (Value × Value)} {v w : Value}
      (hv : Dict.get? (.str k) es = some v) (h : Leads s p v w) :
      Leads (.key k :: s) (k :: p) (.map es) w
  | last {s : Position} {p : List String} {xs : List Value} {es : List (Value × Value)} {w : Value}
      (hv : xs.getLast? = some (.map es)) (h : Leads s p (.map es) w) :
      Leads (.last :: s) p (.list xs) w

theorem get?_insert_str (k k' : String) (x : Value) (es : List (Value × Value)) :
    Dict.get? (.str k') (Dict.insert (.str k) x es) =
      if k = k' then some x else Dict.get? (.str k') es := by
  rw [Dict.get?_insert, Value.sameKey_str]
  simp

theorem placeAt_cons (h : openTable v = some es) (k : String) (q : List String) :
    placeAt (k :: q) v = (Dict.get? (.str k) es).bind (placeAt q) := by
  rw [placeAt, find?, h, Option.bind_some]
  cases Dict.get? (.str k) es <;> rfl

theorem placeAt_cons_of_none (h : openTable v = none) (k : String) (q : List String) :
    placeAt (k :: q) v = none := by
  rw [placeAt, find?, h]
  rfl

theorem contains_iff_placeAt :
    Dict.contains (.str k) es = true ↔ placeAt [k] (.map es) ≠ none := by
  rw [placeAt_cons rfl, Dict.contains]
  cases Dict.get? (.str k) es <;> simp [placeAt, find?]

theorem Leads.valueAt (h : Leads s p v w) : Toml.valueAt s v = w := by
  induction h with
  | here v => rfl
  | key hv h ih => rw [Toml.valueAt, hv, ← ih]
  | last hv h ih => rw [Toml.valueAt, hv, ← ih]

theorem Leads.trans {s' : Position} {p' : List String} {u : Value} (h : Leads s p v w)
    (h' : Leads s' p' w u) : Leads (s ++ s') (p ++ p') v u := by
  induction h with
  | here v => exact h'
  | key hv h ih => exact .key hv (ih h')
  | last hv h ih => exact .last hv (ih h')

theorem openTable_list {xs : List Value} (h : xs.getLast? = some (.map es)) :
    openTable (.list xs) = some es := by
  rw [openTable, h]

/-- The table at a position, with an entry more. -/
def put (k : String) (x : Value) (es : List (Value × Value)) (s : Position) (v : Value) : Value :=
  updateAt (fun _ => .map (Dict.insert (.str k) x es)) s v

theorem put_here (k : String) (x : Value) (es : List (Value × Value)) (v : Value) :
    put k x es [] v = .map (Dict.insert (.str k) x es) := rfl

theorem put_key {k₀ : String} {es₀ : List (Value × Value)} (hv : Dict.get? (.str k₀) es₀ = some v)
    (k : String) (x : Value) (es : List (Value × Value)) (s : Position) :
    put k x es (.key k₀ :: s) (.map es₀) =
      .map (Dict.insert (.str k₀) (put k x es s v) es₀) := by
  rw [put, updateAt, hv]
  rfl

theorem put_last {xs : List Value} (hv : xs.getLast? = some v) (k : String) (x : Value)
    (es : List (Value × Value)) (s : Position) :
    put k x es (.last :: s) (.list xs) = .list (xs.dropLast ++ [put k x es s v]) := by
  rw [put, updateAt, hv]
  rfl

theorem exists_put_map {fs : List (Value × Value)} (h : Leads s p (.map fs) (.map es)) (k : String)
    (x : Value) : ∃ gs, put k x es s (.map fs) = .map gs := by
  cases h with
  | here => exact ⟨_, put_here k x es _⟩
  | key hv h => exact ⟨_, put_key hv k x es _⟩

theorem Leads.put (h : Leads s p v (.map es)) (k : String) (x : Value) :
    Leads s p (put k x es s v) (.map (Dict.insert (.str k) x es)) := by
  generalize hw : Value.map es = w at h
  induction h with
  | here v => exact .here _
  | key hv h ih =>
    rw [put_key hv]
    exact .key (by rw [get?_insert_str, if_pos rfl]) (ih hw)
  | last hv h ih =>
    subst hw
    obtain ⟨gs, hgs⟩ := exists_put_map h k x
    have hr := ih rfl
    rw [hgs] at hr
    rw [put_last hv, hgs]
    exact .last List.getLast?_concat hr

/-- An entry more is at its own path, and changes nothing elsewhere. -/
theorem placeAt_put (h : Leads s p v (.map es)) (k : String) (x : Value) (q : List String) :
    placeAt q (put k x es s v) =
      if p ++ [k] <+: q then placeAt (q.drop (p.length + 1)) x else placeAt q v := by
  generalize hw : Value.map es = w at h
  induction h generalizing q with
  | here v =>
    subst hw
    rw [put_here]
    match q with
    | [] => simp [placeAt, find?, placeOf]
    | k' :: r =>
      rw [placeAt_cons rfl, placeAt_cons (v := .map es) rfl, get?_insert_str]
      by_cases hk : k = k'
      · subst hk
        simp
      · simp [hk]
  | @key k₀ s p es₀ v w hv h ih =>
    rw [put_key hv]
    match q with
    | [] => simp [placeAt, find?, placeOf]
    | k' :: r =>
      rw [placeAt_cons rfl, placeAt_cons (v := .map es₀) rfl, get?_insert_str]
      by_cases hk : k₀ = k'
      · subst hk
        simp [ih r hw, hv]
      · simp [hk]
  | @last s p xs fs w hv h ih =>
    subst hw
    obtain ⟨gs, hgs⟩ := exists_put_map h k x
    have hopen : openTable (.list (xs.dropLast ++ [.map gs])) = some gs :=
      openTable_list List.getLast?_concat
    rw [put_last hv, hgs]
    match q with
    | [] => simp [placeAt, find?, placeOf, openTable_list hv, hopen]
    | k' :: r =>
      have hr := ih (k' :: r) rfl
      rw [hgs, placeAt_cons rfl, placeAt_cons (v := .map fs) rfl] at hr
      rw [placeAt_cons hopen, placeAt_cons (openTable_list hv), hr]

theorem Leads.placeAt (h : Leads s p v w) {q : List String} (hq : q ≠ []) :
    placeAt (p ++ q) v = placeAt q w := by
  induction h with
  | here v => rfl
  | key hv h ih => rw [List.cons_append, placeAt_cons rfl, hv, Option.bind_some, ih]
  | @last s p xs fs w hv h ih =>
    obtain ⟨k, r, hr⟩ := List.exists_cons_of_ne_nil (List.append_ne_nil_of_right_ne_nil p hq)
    rw [hr] at ih ⊢
    rw [placeAt_cons (openTable_list hv), ← ih, placeAt_cons rfl]

theorem placeAt_extended (h : placeAt p v = none) (hq : p <+: q) : placeAt q v = none := by
  induction p generalizing v q with
  | nil => cases h
  | cons k p ih =>
    obtain ⟨r, rfl⟩ := hq
    cases ho : openTable v with
    | none => exact placeAt_cons_of_none ho k _
    | some es =>
      rw [placeAt_cons ho] at h
      rw [List.cons_append, placeAt_cons ho]
      cases hv : Dict.get? (.str k) es with
      | none => rfl
      | some v' =>
        rw [hv] at h
        exact ih h (List.prefix_append p r)

theorem Leads.placeAt_ne_none (h : Leads s p v w) (hq : q <+: p) : Toml.placeAt q v ≠ none := by
  have hp : Toml.placeAt p v ≠ none := by
    induction h generalizing q with
    | here v => exact Option.some_ne_none _
    | @key k s p es v w hv h ih =>
      rw [placeAt_cons rfl, hv]
      exact ih (List.prefix_refl p)
    | @last s p xs fs w hv h ih =>
      match p with
      | [] => exact Option.some_ne_none _
      | k :: r =>
        have hr := ih (List.prefix_refl _)
        rw [placeAt_cons rfl] at hr
        rwa [placeAt_cons (openTable_list hv)]
  exact fun hn => hp (placeAt_extended hn hq)

theorem exists_openTable (h : placeOf v ≠ .leaf) : ∃ es, openTable v = some es := by
  match v with
  | .map es => exact ⟨es, rfl⟩
  | .null | .bool _ | .int _ | .float _ | .str _ | .bytes _ | .moment _ | .function _ | .error _
  | .tuple _ | .set _ | .object _ => exact absurd rfl h
  | .list xs =>
    cases ho : openTable (.list xs) with
    | none => simp [placeOf, ho] at h
    | some es => exact ⟨es, rfl⟩

/-- What a name stands for in an open table. -/
theorem Leads.placeAt_name (h : Leads s p v w) (ho : openTable w = some es) (k : String) :
    Toml.placeAt (p ++ [k]) v = (Dict.get? (.str k) es).map placeOf := by
  rw [h.placeAt (List.cons_ne_nil k []), placeAt_cons ho]
  cases Dict.get? (.str k) es <;> rfl

/-- An open table is at a position, if need be behind an array. -/
theorem Leads.exists_open (h : Leads s p v w) (ho : openTable w = some es) :
    (w = .map es ∧ Leads s p v (.map es)) ∨
      ∃ xs, w = .list xs ∧ xs.getLast? = some (.map es) ∧ Leads (s ++ [.last]) p v (.map es) := by
  match w with
  | .map fs => cases ho; exact .inl ⟨rfl, h⟩
  | .list xs =>
    rw [openTable] at ho
    split at ho
    · next hl =>
      cases ho
      refine .inr ⟨xs, rfl, hl, ?_⟩
      have ht := h.trans (.last hl (.here _))
      rwa [List.append_nil] at ht
    · cases ho

theorem exists_list (h : placeOf v = .array) : ∃ xs, v = .list xs := by
  match v with
  | .list xs => exact ⟨xs, rfl⟩
  | .map _ | .null | .bool _ | .int _ | .float _ | .str _ | .bytes _ | .moment _ | .function _
  | .error _ | .tuple _ | .set _ | .object _ => cases h

/-- A path that leads to a table or to an array of tables. -/
def Open (p : List String) (v : Value) : Prop :=
  ∀ q, q <+: p → placeAt q v = some .table ∨ placeAt q v = some .array

theorem Leads.isOpen (h : Leads s p v w) (hw : placeOf w ≠ .leaf) : Open p v := by
  intro q hq
  have hleaf : Toml.placeAt q v ≠ some .leaf := by
    induction h generalizing q with
    | here v =>
      obtain rfl := List.prefix_nil.mp hq
      exact fun he => hw (Option.some.inj he)
    | @key k s p es v w hv h ih =>
      match q with
      | [] => simp [Toml.placeAt, find?, placeOf]
      | k' :: q =>
        obtain ⟨rfl, hq'⟩ := List.cons_prefix_cons.mp hq
        rw [placeAt_cons rfl, hv]
        exact ih hw q hq'
    | @last s p xs fs w hv h ih =>
      match q with
      | [] => simp [Toml.placeAt, find?, placeOf, openTable_list hv]
      | k :: q =>
        have hr := ih hw _ hq
        rw [placeAt_cons rfl] at hr
        rwa [placeAt_cons (openTable_list hv)]
  have hnone := h.placeAt_ne_none hq
  match hp : Toml.placeAt q v with
  | some .table => exact .inl rfl
  | some .array => exact .inr rfl
  | some .leaf => exact absurd hp hleaf
  | none => exact absurd hp hnone

theorem Open.ne_none (h : Open p v) (hq : q <+: p) : placeAt q v ≠ none := by
  obtain h | h := h q hq <;> simp [h]

theorem Open.ne_leaf (h : Open p v) (hq : q <+: p) : placeAt q v ≠ some .leaf := by
  obtain h | h := h q hq <;> simp [h]

end CallTree.Toml
