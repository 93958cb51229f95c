import CallTree.Proofs.Parts
import Mathlib.Data.List.Lex

/-! Places in a request, and its statements and the names that it binds in document order. -/
namespace CallTree

/-- Where an entry stands: its number in its node, after the numbers of the scopes around it. Places
are in document order: a scope is before all that stands in it, and that before the next entry. -/
abbrev Place := List Nat

/-- An entry at the first place stands before the second one in its node, or before a scope around
it. -/
def Place.precedes : Place → Place → Bool
  | [i], j :: _ => i < j
  | i :: p, j :: q => i == j && precedes p q
  | _, _ => false

/-- A statement of a request: the value of an entry as data, or the key of a scope as a path. -/
structure Statement where
  place : Place
  key : Value
  text : Value
  mode : Mode
  deriving DecidableEq

def Statement.under (i : Nat) (s : Statement) : Statement := { s with place := i :: s.place }

inductive Origin
  /-- A declared variable, with its value. -/
  | declaration (v : Value)
  /-- The value of a statement, or a part of it. -/
  | statement
  /-- A value that is neither a statement nor a request. -/
  | invalid
  deriving DecidableEq

/-- A name that an entry binds. -/
structure Slot where
  place : Place
  origin : Origin
  name : Value
  deriving DecidableEq

def Slot.under (i : Nat) (s : Slot) : Slot := { s with place := i :: s.place }

/-- Whether a name that is bound in one place can be seen in another one: a declaration in the rest
of its node, any other name in all that comes after it. -/
def Slot.VisibleAt (p : Place) (s : Slot) : Prop :=
  match s.origin with
  | .declaration _ => s.place.precedes p = true
  | _ => s.place < p

instance (p : Place) : (s : Slot) → Decidable (s.VisibleAt p)
  | ⟨place, .declaration _, _⟩ => inferInstanceAs (Decidable (place.precedes p = true))
  | ⟨place, .statement, _⟩ | ⟨place, .invalid, _⟩ => inferInstanceAs (Decidable (place < p))

/-- Whether a name belongs to the answer. -/
def Slot.answered (s : Slot) : Bool :=
  match s.origin with
  | .declaration _ => false
  | _ => true

namespace Request

mutual
def entryStatements (i : Nat) : RequestEntry → List Statement
  | .declare _ _ => []
  | .leaf key s => [⟨[i], key, .str s, .data⟩]
  | .scope key body => ⟨[i], key, key, .path⟩ :: (statementsFrom 0 body).map (Statement.under i)
  | .invalid _ => []

/-- The statements of entries that are numbered from `i` on. -/
def statementsFrom (i : Nat) : List RequestEntry → List Statement
  | [] => []
  | e :: r => entryStatements i e ++ statementsFrom (i + 1) r
end

mutual
def entrySlots (i : Nat) : RequestEntry → List Slot
  | .declare n v => [⟨[i], .declaration v, .str n⟩]
  | .leaf key _ => (Answer.boundNames key).map fun name => ⟨[i], .statement, name⟩
  | .scope _ body => (slotsFrom 0 body).map (Slot.under i)
  | .invalid key => [⟨[i], .invalid, key⟩]

/-- The names that are bound by entries that are numbered from `i` on. -/
def slotsFrom (i : Nat) : List RequestEntry → List Slot
  | [] => []
  | e :: r => entrySlots i e ++ slotsFrom (i + 1) r
end

/-- All statements of a request. -/
def statements (request : Request) : List Statement := statementsFrom 0 request

/-- All names that a request binds, as often as it does. -/
def slots (request : Request) : List Slot := slotsFrom 0 request

/-- The names in the answer to a request, as often as it binds them. -/
def names (request : Request) : List Value := (request.slots.filter Slot.answered).map (·.name)

end Request

variable {i : Nat} {p q : Place}

theorem Place.precedes_iff :
    p.precedes q = true ↔ ∃ node i j rest, p = node ++ [i] ∧ q = node ++ j :: rest ∧ i < j := by
  induction p generalizing q with
  | nil => simp [precedes]
  | cons i p ih =>
    cases q with
    | nil =>
      constructor
      · cases p <;> simp [precedes]
      · rintro ⟨node, i, j, rest, -, hq, -⟩
        simp at hq
    | cons j q =>
      cases p with
      | nil =>
        simp only [precedes, decide_eq_true_eq]
        constructor
        · intro hij
          exact ⟨[], i, j, q, rfl, rfl, hij⟩
        · rintro ⟨_ | ⟨n, node⟩, i', j', rest, hp, hq, hij⟩
          · simp_all
          · simp at hp
      | cons k p =>
        simp only [precedes, Bool.and_eq_true, beq_iff_eq, ih]
        constructor
        · rintro ⟨rfl, node, i', j', rest, hp, rfl, hij⟩
          exact ⟨i :: node, i', j', rest, by simp [hp], rfl, hij⟩
        · rintro ⟨_ | ⟨n, node⟩, i', j', rest, hp, hq, hij⟩
          · simp at hp
          · simp only [List.cons_append, List.cons.injEq] at hp hq
            obtain ⟨rfl, hp⟩ := hp
            obtain ⟨rfl, hq⟩ := hq
            exact ⟨rfl, node, i', j', rest, hp, hq, hij⟩

theorem Place.lt_of_precedes (h : p.precedes q = true) : p < q := by
  obtain ⟨node, i, j, rest, rfl, rfl, hij⟩ := Place.precedes_iff.mp h
  clear h
  induction node with
  | nil => exact List.cons_lt_cons_iff.mpr (Or.inl hij)
  | cons k node ih => exact List.cons_lt_cons_iff.mpr (Or.inr ⟨rfl, ih⟩)

theorem Place.le_of_scope (i : Nat) (p : Place) : [i] ≤ i :: p := by
  refine List.cons_le_cons i ?_
  cases p with
  | nil => exact le_refl []
  | cons j p => exact le_of_lt (List.nil_lt_cons j p)

@[simp] theorem Place.precedes_cons_cons (i : Nat) (p q : Place) :
    precedes (i :: p) (i :: q) = p.precedes q := by
  cases p <;> cases q <;> simp [precedes]

namespace Request

theorem entryStatements_place {e : RequestEntry} {s : Statement} (h : s ∈ entryStatements i e) :
    ∃ p, s.place = i :: p := by
  cases e with
  | declare n v => simp [entryStatements] at h
  | leaf key t =>
    obtain rfl := List.mem_singleton.mp h
    exact ⟨[], rfl⟩
  | scope key body =>
    rcases List.mem_cons.mp h with rfl | h
    · exact ⟨[], rfl⟩
    · obtain ⟨t, -, rfl⟩ := List.mem_map.mp h
      exact ⟨t.place, rfl⟩
  | invalid key => simp [entryStatements] at h

theorem statementsFrom_place {es : List RequestEntry} {s : Statement}
    (h : s ∈ statementsFrom i es) : ∃ j p, i ≤ j ∧ s.place = j :: p := by
  induction es generalizing i with
  | nil => simp [statementsFrom] at h
  | cons e r ih =>
    rcases List.mem_append.mp h with h | h
    · obtain ⟨p, hp⟩ := entryStatements_place h
      exact ⟨i, p, Nat.le_refl i, hp⟩
    · obtain ⟨j, p, hj, hp⟩ := ih h
      exact ⟨j, p, by omega, hp⟩

mutual
theorem entryStatements_sorted (i : Nat) (e : RequestEntry) :
    (entryStatements i e).Pairwise fun s t => s.place < t.place := by
  match e with
  | .declare n v | .invalid key => exact List.Pairwise.nil
  | .leaf key s => exact List.pairwise_singleton _ _
  | .scope key body =>
    refine List.pairwise_cons.mpr ⟨?_, ?_⟩
    · intro s hs
      obtain ⟨t, ht, rfl⟩ := List.mem_map.mp hs
      obtain ⟨j, p, -, hp⟩ := statementsFrom_place ht
      change [i] < i :: t.place
      rw [hp]
      exact List.cons_lt_cons_iff.mpr (Or.inr ⟨rfl, List.nil_lt_cons j p⟩)
    · refine List.pairwise_map.mpr ((statementsFrom_sorted 0 body).imp ?_)
      intro s t hst
      exact List.cons_lt_cons_iff.mpr (Or.inr ⟨rfl, hst⟩)

/-- Statements are listed in the order of their places, and no two share one. -/
theorem statementsFrom_sorted (i : Nat) (es : List RequestEntry) :
    (statementsFrom i es).Pairwise fun s t => s.place < t.place := by
  match es with
  | [] => exact List.Pairwise.nil
  | e :: r =>
    refine List.pairwise_append.mpr
      ⟨entryStatements_sorted i e, statementsFrom_sorted (i + 1) r, ?_⟩
    intro s hs t ht
    obtain ⟨p, hp⟩ := entryStatements_place hs
    obtain ⟨j, q, hj, hq⟩ := statementsFrom_place ht
    rw [hp, hq]
    exact List.cons_lt_cons_iff.mpr (Or.inl (by omega))
end

mutual
theorem mode_of_mem_entry {i : Nat} {e : RequestEntry} {s : Statement}
    (h : s ∈ entryStatements i e) : s.mode = .data ∨ s.mode = .path := by
  match e with
  | .declare n v | .invalid key => cases h
  | .leaf key t =>
    obtain rfl := List.mem_singleton.mp h
    exact Or.inl rfl
  | .scope key body =>
    rcases List.mem_cons.mp h with rfl | h
    · exact Or.inr rfl
    · obtain ⟨t, ht, rfl⟩ := List.mem_map.mp h
      have hm := mode_of_mem ht
      exact hm

theorem mode_of_mem {i : Nat} {es : List RequestEntry} {s : Statement}
    (h : s ∈ statementsFrom i es) : s.mode = .data ∨ s.mode = .path := by
  match es with
  | [] => cases h
  | e :: r =>
    rcases List.mem_append.mp h with h | h
    · exact mode_of_mem_entry h
    · exact mode_of_mem h
end

theorem entrySlots_place {e : RequestEntry} {s : Slot} (h : s ∈ entrySlots i e) :
    ∃ p, s.place = i :: p := by
  cases e with
  | declare n v | invalid key =>
    obtain rfl := List.mem_singleton.mp h
    exact ⟨[], rfl⟩
  | leaf key t =>
    obtain ⟨name, -, rfl⟩ := List.mem_map.mp h
    exact ⟨[], rfl⟩
  | scope key body =>
    obtain ⟨t, -, rfl⟩ := List.mem_map.mp h
    exact ⟨t.place, rfl⟩

theorem slotsFrom_place {es : List RequestEntry} {s : Slot} (h : s ∈ slotsFrom i es) :
    ∃ j p, i ≤ j ∧ s.place = j :: p := by
  induction es generalizing i with
  | nil => simp [slotsFrom] at h
  | cons e r ih =>
    rcases List.mem_append.mp h with h | h
    · obtain ⟨p, hp⟩ := entrySlots_place h
      exact ⟨i, p, Nat.le_refl i, hp⟩
    · obtain ⟨j, p, hj, hp⟩ := ih h
      exact ⟨j, p, by omega, hp⟩

mutual
theorem entrySlots_sorted (i : Nat) (e : RequestEntry) :
    (entrySlots i e).Pairwise fun s t => s.place ≤ t.place := by
  match e with
  | .declare n v | .invalid key => exact List.pairwise_singleton _ _
  | .leaf key s =>
    exact List.pairwise_map.mpr (List.pairwise_of_forall fun _ _ => le_refl [i])
  | .scope key body =>
    refine List.pairwise_map.mpr ((slotsFrom_sorted 0 body).imp ?_)
    intro s t hst
    exact List.cons_le_cons i hst

/-- Names are listed in the order of their places, and an entry binds its names in turn. -/
theorem slotsFrom_sorted (i : Nat) (es : List RequestEntry) :
    (slotsFrom i es).Pairwise fun s t => s.place ≤ t.place := by
  match es with
  | [] => exact List.Pairwise.nil
  | e :: r =>
    refine List.pairwise_append.mpr ⟨entrySlots_sorted i e, slotsFrom_sorted (i + 1) r, ?_⟩
    intro s hs t ht
    obtain ⟨p, hp⟩ := entrySlots_place hs
    obtain ⟨j, q, hj, hq⟩ := slotsFrom_place ht
    rw [hp, hq]
    exact le_of_lt (List.cons_lt_cons_iff.mpr (Or.inl (by omega)))
end

end Request

namespace Slot

variable {s : Slot} {j : Nat}

/-- Whether a name can be seen in the rest of the node of its entry's place. -/
def lasts (s : Slot) : Bool := s.answered || s.place.length == 1

theorem not_visibleAt_of_le (h : p ≤ s.place) : ¬ s.VisibleAt p := by
  intro hv
  have hlt : s.place < p := by
    unfold VisibleAt at hv
    split at hv
    · exact Place.lt_of_precedes hv
    · exact hv
  exact not_lt_of_ge h hlt

@[simp] theorem visibleAt_under (i : Nat) (p : Place) (s : Slot) :
    (s.under i).VisibleAt (i :: p) ↔ s.VisibleAt p := by
  unfold VisibleAt
  cases s with
  | mk place origin name => cases origin <;> simp [under]

theorem visibleAt_later (hs : s.place = i :: p) (hij : i < j) :
    s.VisibleAt (j :: q) ↔ s.lasts = true := by
  cases s with
  | mk place origin name =>
    obtain rfl : place = i :: p := hs
    cases origin with
    | declaration v =>
      cases p with
      | nil => simp [VisibleAt, lasts, answered, Place.precedes, hij]
      | cons k p =>
        have hne : i ≠ j := by omega
        simp [VisibleAt, lasts, answered, Place.precedes, hne]
    | statement | invalid => simp [VisibleAt, lasts, answered, List.cons_lt_cons_iff, hij]

end Slot
end CallTree
