import CallTree.Proofs.Listing

/-! Tables under registrations. After any number of them, a table holds for each name just what was
registered for it last, and its names stand in the order in which they first came up. -/
namespace CallTree

variable {os : Objects} {provider name : Value} {table listed t : Table} {mode : Mode}
  {flag : Entry → Bool} {offered : List (Value × Entry)}

namespace Table

/-! ### The table of a provider -/

theorem distinct_ofCandidates (os : Objects) (cs : List Candidate) :
    Dict.Distinct (ofCandidates os cs) := by
  obtain ⟨ns, hk, hn⟩ := names_ofCandidates os cs
  exact Dict.distinct_of_texts hk hn

theorem distinct_ofNamed (os : Objects) (entries : List (String × Value)) :
    Dict.Distinct (ofNamed os entries) :=
  Dict.distinct_map ((Dict.distinct_ofList _).filter _) _

theorem distinct_ofListing {owner : String} {listing : Listing}
    (h : ofListing os owner listing = .ok table) : Dict.Distinct table := by
  unfold ofListing at h
  split at h
  · cases h
  · cases h
  · cases h
    exact Dict.distinct_ofList _
  · split at h
    · cases h
      exact List.Pairwise.nil
    · split at h
      · cases h
        exact Dict.distinct_ofList _
      · cases h

/-- No provider lists a name twice. -/
theorem distinct_ofValue (h : ofValue os provider = .ok table) : Dict.Distinct table := by
  unfold ofValue at h
  split at h
  · cases h
    exact List.Pairwise.nil
  · cases h
    exact distinct_ofNamed os _
  · split at h
    · cases h
      exact distinct_ofCandidates os _
    · cases h
      exact distinct_ofNamed os _
    · cases h
      exact distinct_ofNamed os _
    · cases h
      exact distinct_ofCandidates os _
    · exact distinct_ofListing h
    · cases h
      exact distinct_ofCandidates os _
  · cases h
    exact distinct_ofCandidates os _

/-! ### Histories -/

/-- Registers entries one after the other, each under its name. -/
def registerAll (t : Table) (entries : List Entry) : Table :=
  entries.foldl (fun t e => t.register e.name e.target e.data e.path) t

theorem registerAll_eq_insertAll (t : Table) (entries : List Entry) :
    t.registerAll entries = Dict.insertAll t (entries.map fun e => (e.name, e)) := by
  induction entries generalizing t with
  | nil => rfl
  | cons e r ih => exact ih (t.register e.name e.target e.data e.path)

/-- A table is what is made of the entries that it lists and those registered after them. -/
theorem registerAll_eq_ofList (hd : Dict.Distinct t) (entries : List Entry) :
    t.registerAll entries = Dict.ofList (t ++ entries.map fun e => (e.name, e)) := by
  rw [registerAll_eq_insertAll, Dict.ofList, Dict.insertAll_append, ← Dict.ofList,
    Dict.ofList_of_distinct hd]

theorem get?_registerAll (hd : Dict.Distinct t) (entries : List Entry) (name : Value) :
    Dict.get? name (t.registerAll entries) =
      Dict.last? name (t ++ entries.map fun e => (e.name, e)) := by
  rw [registerAll_eq_ofList hd, Dict.get?_ofList]

/-! ### Answers -/

/-- What a table answers for names that are asked for in one way, where `flag` says whether an entry
is open for it: the last entry that was offered under a name decides. -/
structure Answers (t : Table) (mode : Mode) (flag : Entry → Bool)
    (offered : List (Value × Entry)) : Prop where
  notFound : ∀ name, t.resolve name mode = .ok (.error CallError.methodNotFound) ↔
    ∀ e ∈ offered, Value.sameKey e.1 name = false
  access : ∀ name, t.resolve name mode = .ok (.error CallError.methodAccess) ↔
    ∃ e, Dict.last? name offered = some e ∧ flag e = false
  found : ∀ name e, t.resolve name mode = .ok (.ok e) ↔
    Dict.last? name offered = some e ∧ flag e = true

/-- In a way of use that tables know, a name that is there is open or closed. -/
theorem resolve_eq (ha : ∀ e : Entry, e.allows mode = .ok (flag e)) (t : Table) (name : Value) :
    t.resolve name mode = .ok (match Dict.get? name t with
      | none => .error CallError.methodNotFound
      | some e => if flag e then .ok e else .error CallError.methodAccess) := by
  rw [resolve]
  cases Dict.get? name t with
  | none => rfl
  | some e =>
    simp only [ha]
    cases flag e <;> rfl

theorem answers_of_get? (ha : ∀ e : Entry, e.allows mode = .ok (flag e))
    (hg : ∀ name, Dict.get? name t = Dict.last? name offered) : t.Answers mode flag offered := by
  have hne : CallError.methodNotFound ≠ CallError.methodAccess := by decide
  refine ⟨?_, ?_, ?_⟩
  · intro name
    rw [resolve_eq ha, hg, ← Dict.last?_eq_none_iff]
    cases Dict.last? name offered with
    | none => simp
    | some e => cases hf : flag e <;> simp [hf, hne.symm]
  · intro name
    rw [resolve_eq ha, hg]
    cases Dict.last? name offered with
    | none => simp [hne]
    | some e => cases hf : flag e <;> simp [hf]
  · intro name e
    rw [resolve_eq ha, hg]
    cases Dict.last? name offered with
    | none => simp
    | some e' =>
      by_cases he : e' = e
      · subst he
        cases hf : flag e' <;> simp [hf]
      · cases hf : flag e' <;> simp [hf, he]

/-- A registration tells nothing about other names. -/
theorem resolve_registerAll_of_ne (hd : Dict.Distinct t) {e : Entry}
    (hn : Value.sameKey e.name name = false) (before after : List Entry) (mode : Mode) :
    (t.registerAll (before ++ e :: after)).resolve name mode =
      (t.registerAll (before ++ after)).resolve name mode := by
  have hg : Dict.get? name (t.registerAll (before ++ e :: after)) =
      Dict.get? name (t.registerAll (before ++ after)) := by
    simp only [get?_registerAll hd, List.map_append, List.map_cons, Dict.last?_append,
      Dict.last?_cons, hn, Bool.false_eq_true, if_false, Option.or_none]
  rw [resolve, resolve, hg]

end Table

/-- A table is an ordered mapping under any registrations, whether their names are new, repeated or
listed by the provider. No name is in it twice, and it is as long as there are names that differ
among those listed and registered. They stand in the order in which they first came up. The entry of
a name is the last one that was registered for it, with the flags of that registration alone, or
else the one listed by the provider. For both ways of use a name is not found if it never came up,
closed if its last entry has not the flag, and has that entry as its answer otherwise. A
registration of one name makes no difference to what is answered for another one. -/
theorem registrations_act_as_ordered_mapping (hl : Table.ofValue os provider = .ok listed)
    (entries : List Entry) :
    let offered := listed ++ entries.map fun e => (e.name, e)
    let table := listed.registerAll entries
    Dict.Distinct table ∧
      table.length = (offered.map fun e => e.1.keyForm).toFinset.card ∧
      Table.names table = Dict.firstKeys (offered.map (·.1)) ∧
      (∀ name, Dict.get? name table = Dict.last? name offered) ∧
      table.Answers .data Entry.data offered ∧ table.Answers .path Entry.path offered ∧
      ∀ before e after name mode, entries = before ++ e :: after →
        Value.sameKey e.name name = false →
          table.resolve name mode = (listed.registerAll (before ++ after)).resolve name mode := by
  intro offered table
  have hd := Table.distinct_ofValue hl
  have ht : table = Dict.ofList offered := Table.registerAll_eq_ofList hd entries
  have hnames : Table.names table = Dict.firstKeys (offered.map (·.1)) := by
    rw [Table.names, ht, Dict.keys_ofList]
  have hg : ∀ name, Dict.get? name table = Dict.last? name offered :=
    Table.get?_registerAll hd entries
  refine ⟨ht ▸ Dict.distinct_ofList offered, ht ▸ Dict.length_ofList offered, hnames, hg,
    Table.answers_of_get? (fun _ => rfl) hg, Table.answers_of_get? (fun _ => rfl) hg, ?_⟩
  rintro before e after name mode rfl hn
  exact Table.resolve_registerAll_of_ne hd hn before after mode

namespace Sample

def drawerTable : Table :=
  Table.ofCandidates drawerSetting.host.objects
    (Table.memberCandidates drawerSetting.host.objects "drawer" drawer)

/-- Registrations in a drawer: a name that is listed already and comes up twice, and a new one. -/
def changes : List Entry :=
  [⟨.str "sort", .object "lamp", true, false⟩, ⟨.str "lock", .object "lamp", true, true⟩,
    ⟨.str "sort", .object "lamp", false, true⟩]

/-- Sorting is listed for both ways of use, and open for one after the last registration. -/
theorem last_registration_closes_sort :
    Table.ofValue drawerSetting.host.objects (.object "drawer") = .ok drawerTable ∧
      drawerTable.resolve (.str "sort") .data =
        .ok (.ok ⟨.str "sort", .function ⟨"drawer", 2, "sort"⟩, true, true⟩) ∧
      Table.names (drawerTable.registerAll changes) =
        ["empty", "find", "lamp", "sort", "title", "lock"].map .str ∧
      (drawerTable.registerAll changes).length = 6 ∧
      (drawerTable.registerAll changes).resolve (.str "sort") .data =
        .ok (.error CallError.methodAccess) ∧
      (drawerTable.registerAll changes).resolve (.str "sort") .path =
        .ok (.ok ⟨.str "sort", .object "lamp", false, true⟩) ∧
      (drawerTable.registerAll changes).resolve (.str "open") .data =
        .ok (.error CallError.methodNotFound) := by
  have hl : Table.ofValue drawerSetting.host.objects (.object "drawer") = .ok drawerTable :=
    Table.ofValue_of_members ⟨"drawer", Or.inr rfl⟩ (by decide)
  obtain ⟨-, hlength, hnames, -, hdata, hpath, -⟩ :=
    registrations_act_as_ordered_mapping hl changes
  refine ⟨hl, ?_, hnames.trans ?_, hlength.trans ?_, ?_, ?_, ?_⟩
  · decide +kernel
  · decide +kernel
  · decide +kernel
  · exact (hdata.access _).mpr ⟨⟨.str "sort", .object "lamp", false, true⟩, by decide +kernel, rfl⟩
  · exact (hpath.found _ _).mpr ⟨by decide +kernel, rfl⟩
  · exact (hdata.notFound _).mpr (by decide +kernel)

end Sample

end CallTree
