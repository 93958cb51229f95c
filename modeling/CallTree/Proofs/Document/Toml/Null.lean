import CallTree.Proofs.Document.Toml.Inline

/-! The text of a table entry by entry, of which there is none for null. -/
namespace CallTree.Toml

variable {es : Entries} {write : Writer} {s : Section} {levels : Nat}
  {front values arrays : List Char} {tables : List (List Char × Entries)} {k : String} {v : Plain}

/-- What one entry adds to a section. -/
structure Part where
  values : List Char
  arrays : List Char
  table : Option (List Char × Entries)

def Part.addTable (p : Part) (tables : List (List Char × Entries)) : List (List Char × Entries) :=
  match p.table with
  | none => tables
  | some t => insertTable t.1 t.2 tables

/-- The line of an entry, from its name. -/
def printLine (name : List Char) (v : Plain) : Except Fault (List Char) := do
  return name ++ [' ', '=', ' '] ++ (← printValue v) ++ ['\n']

def printPart (write : Writer) (levels : Nat) (front name : List Char) : Plain → Except Fault Part
  | .map es => .ok ⟨[], [], some (name, es)⟩
  | .null => .ok ⟨[], [], none⟩
  | .list xs =>
    if xs.any isMap then (printArray write levels (front ++ name) xs).map fun a => ⟨[], a, none⟩
    else (printLine name (.list xs)).map fun l => ⟨l, [], none⟩
  | v => (printLine name v).map fun l => ⟨l, [], none⟩

theorem printEntries_cons (write : Writer) (levels : Nat) (front values arrays : List Char)
    (tables : List (List Char × Entries)) (k : String) (v : Plain) (es : Entries) :
    printEntries write levels front values arrays tables ((k, v) :: es) = (do
      let name ← printName k
      let p ← printPart write levels front name v
      printEntries write levels front (values ++ p.values) (arrays ++ p.arrays)
        (p.addTable tables) es) := by
  rw [printEntries.eq_def]
  refine bind_congr fun name => ?_
  match v with
  | .map sub | .null => simp [printPart, Part.addTable, bind, Except.bind]
  | .bool _ | .int _ | .float _ | .str _ =>
    simp only [printPart, printLine]
    cases printValue _ <;> simp [Part.addTable, bind, Except.bind, Except.map, pure, Except.pure]
  | .list xs =>
    simp only [printPart, printLine]
    split
    · cases printArray write levels (front ++ name) xs <;>
        simp [Part.addTable, bind, Except.bind, Except.map]
    · cases printValue (.list xs) <;>
        simp [Part.addTable, bind, Except.bind, Except.map, pure, Except.pure]

def isNull : Plain → Bool
  | .null => true
  | _ => false

/-- The entries of a table that are not null. -/
def present (es : Entries) : Entries := es.filter fun e => !isNull e.2

theorem present_cons (k : String) (v : Plain) (es : Entries) :
    present ((k, v) :: es) = if isNull v then present es else (k, v) :: present es := by
  unfold present
  cases h : isNull v <;> simp [h]

theorem printEntries_present
    (h : printEntries write levels front values arrays tables es = .ok s) :
    printEntries write levels front values arrays tables (present es) = .ok s := by
  induction es generalizing values arrays tables with
  | nil => exact h
  | cons e es ih =>
    obtain ⟨k, v⟩ := e
    rw [printEntries_cons] at h
    obtain ⟨name, hk, h⟩ := of_bind_eq_ok h
    obtain ⟨p, hp, h⟩ := of_bind_eq_ok h
    have hr := ih h
    rw [present_cons]
    split
    · next hv =>
      obtain rfl : v = .null := by cases v <;> first | rfl | cases hv
      cases hp
      simpa [Part.addTable] using hr
    · rw [printEntries_cons, hk, ok_bind, hp, ok_bind, hr]

theorem one_le_depth (v : Plain) : 1 ≤ depth v := by
  cases v <;> simp [depth]

/-- Null lies no deeper than any other entry. -/
theorem entryDepths_present (h : present es ≠ []) : entryDepths (present es) = entryDepths es := by
  have hle : ∀ es : Entries, entryDepths (present es) ≤ entryDepths es ∧
      entryDepths es ≤ max 1 (entryDepths (present es)) := by
    intro es
    induction es with
    | nil => exact ⟨Nat.le_refl _, Nat.zero_le _⟩
    | cons e es ih =>
      obtain ⟨k, v⟩ := e
      rw [present_cons]
      split
      · next hv =>
        have hd : depth v = 1 := by
          cases v <;> first | rfl | cases hv
        rw [entryDepths]
        omega
      · rw [entryDepths, entryDepths]
        omega
  have hone : 1 ≤ entryDepths (present es) := by
    obtain ⟨⟨k, v⟩, r, hr⟩ := List.exists_cons_of_ne_nil h
    have hv := one_le_depth v
    rw [hr, entryDepths]
    omega
  have := hle es
  omega

/-- A table is written like the table without its entries that are null. -/
theorem render_present {text : String} (h : render es = .ok text) :
    render (present es) = .ok text := by
  obtain ⟨s, hs, h⟩ := of_bind_eq_ok h
  have hp := printEntries_present hs
  by_cases hn : present es = []
  · rw [hn] at hp ⊢
    cases hp
    exact h
  · rw [render, entryDepths_present hn, printTable, hp, ok_bind]
    exact h

end CallTree.Toml
