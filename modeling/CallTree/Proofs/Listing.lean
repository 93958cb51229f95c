import CallTree.Proofs.Parts
import CallTree.Sample
import Mathlib.Data.String.Basic

/-! What an object lists: its public members that can be called, once each, in the order of code
points, and with the flags of their marks. -/
namespace CallTree

variable {σ : Type} {os : Objects} {owner name : String} {ms : List Member} {i : Nat}
  {member : Member} {v : Value} {n : String} {ns : List String}

/-! ### Marks -/

namespace Decorated

/-- Marks add up, whatever they are put on. -/
theorem flags_markAll (d : Decorated) (marks : List Mark) :
    (d.markAll marks).flags =
      ⟨d.flags.data || marks.any (·.data), d.flags.path || marks.any (·.path)⟩ := by
  induction marks generalizing d with
  | nil => simp [markAll]
  | cons m r ih =>
    have hm : (d.mark m).flags = ⟨d.flags.data || m.data, d.flags.path || m.path⟩ := by
      cases d <;> simp [mark, flags, Flags.add, Bool.or_assoc]
    rw [markAll, List.foldl_cons, ← markAll, ih, hm]
    simp [Bool.or_assoc]

theorem flags_wrap (d : Decorated) : d.wrap.flags = d.flags := by
  cases d <;> simp [wrap, flags]

/-- It makes no difference which marks were put on before a function became a static or class
method, and which after that. -/
theorem flags_markAll_wrap (d : Decorated) (inside outside : List Mark) :
    ((d.markAll inside).wrap.markAll outside).flags = (d.markAll (inside ++ outside)).flags := by
  simp only [flags_markAll, flags_wrap, List.any_append, Bool.or_assoc]

end Decorated

theorem Signature.data_iff (s : Signature) : s.data = true ↔ ∃ m ∈ s.marks, m.data = true := by
  rw [data, flags, Decorated.flags_markAll]
  simp [Decorated.unmarked, Decorated.flags]

theorem Signature.path_iff (s : Signature) : s.path = true ↔ ∃ m ∈ s.marks, m.path = true := by
  rw [path, flags, Decorated.flags_markAll]
  simp [Decorated.unmarked, Decorated.flags]

/-- An object with members, made for dispatch or not. -/
def Objects.HasMembers (os : Objects) (owner : String) (ms : List Member) : Prop :=
  ∃ text, os.lookup owner = some (.plain ms text) ∨ os.lookup owner = some (.provider ms text)

/-- The marks on a value: those of the function that it is. -/
def Objects.marks (os : Objects) : Value → List Mark
  | .function f => match os.signature? f with
    | some s => s.marks
    | none => []
  | _ => []

theorem Entry.ofTarget_name (os : Objects) (name v : Value) : (ofTarget os name v).name = name := by
  unfold ofTarget
  split
  · split <;> rfl
  · rfl

theorem Entry.ofTarget_target (os : Objects) (name v : Value) :
    (ofTarget os name v).target = v := by
  unfold ofTarget
  split
  · split <;> rfl
  · rfl

/-- An entry has the flags of the marks on its value. -/
theorem Entry.ofTarget_flags (os : Objects) (name v : Value) :
    ((ofTarget os name v).data = true ↔ ∃ m ∈ os.marks v, m.data = true) ∧
      ((ofTarget os name v).path = true ↔ ∃ m ∈ os.marks v, m.path = true) := by
  cases v with
  | function f =>
    cases hs : os.signature? f with
    | some s => simp only [ofTarget, Objects.marks, hs, s.data_iff, s.path_iff, and_self]
    | none => simp [ofTarget, Objects.marks, hs]
  | _ => simp [ofTarget, Objects.marks]

theorem Entry.ofTarget_eq_iff {v : Value} {e : Entry} :
    ofTarget os (.str name) v = e ↔ e.name = .str name ∧ e.target = v ∧
      (e.data = true ↔ ∃ m ∈ os.marks v, m.data = true) ∧
      (e.path = true ↔ ∃ m ∈ os.marks v, m.path = true) := by
  obtain ⟨hdata, hpath⟩ := ofTarget_flags os (.str name) v
  constructor
  · rintro rfl
    exact ⟨ofTarget_name os _ v, ofTarget_target os _ v, hdata, hpath⟩
  · rintro ⟨hn, ht, hd, hp⟩
    refine Entry.ext ?_ ?_ (Bool.eq_iff_iff.mpr (hdata.trans hd.symm))
      (Bool.eq_iff_iff.mpr (hpath.trans hp.symm))
    · rw [ofTarget_name, hn]
    · rw [ofTarget_target, ht]

/-! ### Names in order -/

namespace Table

theorem isPublic_iff : isPublic name = true ↔ name.toList.head? ≠ some '_' := by
  have hunderscore : "_".toList = ['_'] := by decide
  rw [isPublic, Bool.not_eq_true', String.startsWith_string_eq_false_iff, hunderscore]
  cases name.toList with
  | nil => simp
  | cons c r => simp [List.cons_prefix_cons, eq_comm]

theorem mem_insertName : name ∈ insertName n ns ↔ name = n ∨ name ∈ ns := by
  induction ns with
  | nil => simp [insertName]
  | cons k r ih =>
    rw [insertName]
    split
    · simp
    · split
      · next he =>
        subst he
        simp
      · rw [List.mem_cons, ih, List.mem_cons]
        tauto

theorem mem_orderNames : name ∈ orderNames ns ↔ name ∈ ns := by
  induction ns with
  | nil => simp [orderNames]
  | cons n r ih =>
    rw [orderNames, List.foldr_cons, mem_insertName, ← orderNames, ih, List.mem_cons]

theorem pairwise_insertName (h : ns.Pairwise (· < ·)) : (insertName n ns).Pairwise (· < ·) := by
  induction ns with
  | nil => simp [insertName]
  | cons k r ih =>
    obtain ⟨hk, hr⟩ := List.pairwise_cons.mp h
    rw [insertName]
    split
    · next hlt =>
      refine List.pairwise_cons.mpr ⟨?_, h⟩
      intro a ha
      rcases List.mem_cons.mp ha with rfl | ha
      · exact hlt
      · exact String.lt_trans hlt (hk a ha)
    · next hnlt =>
      split
      · exact h
      · next hne =>
        refine List.pairwise_cons.mpr ⟨?_, ih hr⟩
        intro a ha
        rcases mem_insertName.mp ha with rfl | ha
        · exact lt_of_le_of_ne (String.not_lt.mp hnlt) (Ne.symm hne)
        · exact hk a ha

theorem pairwise_orderNames (ns : List String) : (orderNames ns).Pairwise (· < ·) := by
  induction ns with
  | nil => exact List.Pairwise.nil
  | cons n r ih => exact pairwise_insertName ih

/-! ### Candidates -/

/-- Entries that are made from names are found under just these names. -/
theorem get?_filterMap (f : String → Option Entry) (ns : List String) (name : String) :
    Dict.get? (.str name) (ns.filterMap fun n => (f n).map fun e => (Value.str n, e)) =
      if name ∈ ns then f name else none := by
  induction ns with
  | nil => simp
  | cons n r ih =>
    cases hf : f n with
    | none =>
      rw [List.filterMap_cons_none (by rw [hf]; rfl), ih]
      by_cases hn : name = n
      · subst hn
        simp [hf]
      · simp [hn]
    | some e =>
      rw [List.filterMap_cons_some (by rw [hf]; rfl), Dict.get?, Value.sameKey_str, ih]
      by_cases hn : name = n
      · subst hn
        simp [hf]
      · have hn' : ¬ n = name := fun he => hn he.symm
        simp [hn, hn']

theorem keys_filterMap (f : String → Option Entry) (ns : List String) :
    names (ns.filterMap fun n => (f n).map fun e => (Value.str n, e)) =
      (ns.filter fun n => (f n).isSome).map Value.str := by
  induction ns with
  | nil => rfl
  | cons n r ih => cases hf : f n <;> simp_all [names, Dict.keys]

variable {cs : List Candidate}

theorem candidate?_of_not_mem (h : name ∉ cs.map (·.1)) : candidate? cs name = none := by
  have hl : cs.reverse.lookup name = none := by
    refine List.lookup_eq_none_iff.mpr fun c hc => ?_
    have hne : name ≠ c.1 := fun he =>
      h (List.mem_map.mpr ⟨c, List.mem_reverse.mp hc, he.symm⟩)
    simp [hne]
  rw [candidate?, hl]
  rfl

/-- The entry of a name among candidates. -/
def listed (os : Objects) (cs : List Candidate) (name : String) : Option Entry :=
  if isPublic name then (candidate? cs name).map (Entry.ofTarget os (.str name)) else none

theorem ofCandidates_eq (os : Objects) (cs : List Candidate) :
    ofCandidates os cs = (orderNames (cs.map (·.1))).filterMap fun n =>
      (listed os cs n).map fun e => (.str n, e) := by
  rw [ofCandidates]
  congr 1
  funext n
  rw [listed]
  split
  · rw [Option.map_map]
    rfl
  · rfl

theorem get?_ofCandidates (os : Objects) (cs : List Candidate) (name : String) :
    Dict.get? (.str name) (ofCandidates os cs) = listed os cs name := by
  rw [ofCandidates_eq, get?_filterMap]
  by_cases hn : name ∈ cs.map (·.1)
  · rw [if_pos (mem_orderNames.mpr hn)]
  · rw [if_neg fun h => hn (mem_orderNames.mp h), listed, candidate?_of_not_mem hn]
    split <;> rfl

theorem names_ofCandidates (os : Objects) (cs : List Candidate) :
    ∃ ns : List String, names (ofCandidates os cs) = ns.map .str ∧ ns.Pairwise (· < ·) := by
  rw [ofCandidates_eq, keys_filterMap]
  exact ⟨_, rfl, (pairwise_orderNames _).filter _⟩

end Table

/-! ### Members -/

theorem lookup_map_eq {α β : Type} (k : α → String) (f : α → β) (as : List α) (name : String) :
    (as.map fun a => (k a, f a)).lookup name = (as.find? fun a => k a == name).map f := by
  induction as with
  | nil => rfl
  | cons a r ih =>
    by_cases h : k a = name
    · simp [h]
    · have h' : (name == k a) = false := beq_eq_false_iff_ne.mpr fun he => h he.symm
      simp [List.lookup_cons, h, h', ih]

theorem Table.candidate?_memberCandidates (os : Objects) (owner : String) (ms : List Member)
    (name : String) :
    candidate? (memberCandidates os owner ms) name =
      (Host.member? ms name).bind fun p => callableOf? os owner p.1 p.2 := by
  have hmap : memberCandidates os owner ms =
      (ms.mapIdx fun i m => (i, m)).map fun p => (p.2.name, callableOf? os owner p.1 p.2) := by
    rw [memberCandidates, List.mapIdx_eq_zipIdx_map, List.mapIdx_eq_zipIdx_map, List.map_map]
    rfl
  rw [candidate?, hmap, ← List.map_reverse, lookup_map_eq, Host.member?]
  cases List.find? _ _ <;> rfl

namespace Member

/-- What a member offers as a callable: a method, or the value of an attribute that can be called
and is no class. -/
inductive Offers (os : Objects) (owner : String) (place : Nat) (m : Member) : Value → Prop
  | method (h : m.kind = .method ∨ m.kind = .static ∨ m.kind = .classwide) :
      Offers os owner place m (.function ⟨owner, place, m.name⟩)
  | function (h : m.kind = .functionAttribute ∨ m.kind = .callableAttribute) :
      Offers os owner place m (.function ⟨owner, place, m.name⟩)
  | value {v : Value} (h : m.kind = .attribute v) (hc : os.isCallable v = true)
      (hn : os.isClass v = false) : Offers os owner place m v

/-- The marks that decorators put on a member. An attribute has those of the value that it holds. -/
def marks (os : Objects) (m : Member) : List Mark :=
  match m.kind with
  | .attribute v => os.marks v
  | _ => m.signature.marks

theorem callableOf?_eq_some_iff :
    Table.callableOf? os owner i member = some v ↔ member.Offers os owner i v := by
  constructor
  · intro h
    unfold Table.callableOf? at h
    split at h
    · next hk =>
      cases h
      exact .method (Or.inl hk)
    · next hk =>
      cases h
      exact .method (Or.inr (Or.inl hk))
    · next hk =>
      cases h
      exact .method (Or.inr (Or.inr hk))
    · next hk =>
      cases h
      exact .function (Or.inl hk)
    · next hk =>
      cases h
      exact .function (Or.inr hk)
    · next w hk =>
      split at h
      · next hw =>
        cases h
        simp only [Bool.and_eq_true, Bool.not_eq_true'] at hw
        exact .value hk hw.1 hw.2
      · cases h
    all_goals cases h
  · rintro (h | h | ⟨hk, hc, hn⟩)
    · rcases h with h | h | h <;> simp only [Table.callableOf?, h]
    · rcases h with h | h <;> simp only [Table.callableOf?, h]
    · simp [Table.callableOf?, hk, hc, hn]

/-- The function behind a member has the marks of the member. -/
theorem Offers.marks_eq (ho : os.HasMembers owner ms) (hi : ms[i]? = some member)
    (h : member.Offers os owner i v) : os.marks v = member.marks os := by
  have hf : os.marks (.function ⟨owner, i, member.name⟩) = member.signature.marks := by
    have hs : os.signature? ⟨owner, i, member.name⟩ = some member.signature := by
      obtain ⟨text, h | h⟩ := ho <;>
        simp [Objects.signature?, Objects.signatures, h, hi]
    simp only [Objects.marks, hs]
  cases h with
  | method h => rcases h with h | h | h <;> simp only [hf, marks, h]
  | function h => rcases h with h | h <;> simp only [hf, marks, h]
  | value h hc hn => simp only [marks, h]

end Member

/-- The table of an object with members none of which takes the place of its listing. -/
theorem Table.ofValue_of_members (ho : os.HasMembers owner ms)
    (hl : ∀ member ∈ ms, member.name ≠ Host.listingName) :
    ofValue os (.object owner) = .ok (ofCandidates os (memberCandidates os owner ms)) := by
  obtain ⟨text, h | h⟩ := ho
  · simp only [ofValue, h, ofObject, candidates]
  · have hfilter : ((memberCandidates os owner ms).filter fun c => c.1 != Host.listingName) =
        memberCandidates os owner ms := by
      refine List.filter_eq_self.mpr fun c hc => ?_
      obtain ⟨j, hj, rfl⟩ := List.mem_mapIdx.mp hc
      exact bne_iff_ne.mpr (hl _ (List.getElem_mem hj))
    simp only [ofValue, h, hfilter]

/-- The entry that an object lists under a name. -/
theorem Table.listed_iff (ho : os.HasMembers owner ms) (name : String) (e : Entry) :
    listed os (memberCandidates os owner ms) name = some e ↔
      name.toList.head? ≠ some '_' ∧ ∃ i member v, Host.member? ms name = some (i, member) ∧
        member.Offers os owner i v ∧ e.name = .str name ∧ e.target = v ∧
        (e.data = true ↔ ∃ k ∈ member.marks os, k.data = true) ∧
        (e.path = true ↔ ∃ k ∈ member.marks os, k.path = true) := by
  rw [listed, candidate?_memberCandidates, ← isPublic_iff]
  constructor
  · intro h
    split at h
    · next hp =>
      obtain ⟨v, hv, he⟩ := Option.map_eq_some_iff.mp h
      obtain ⟨⟨i, member⟩, hm, hv⟩ := Option.bind_eq_some_iff.mp hv
      have hoffers := Member.callableOf?_eq_some_iff.mp hv
      rw [Entry.ofTarget_eq_iff, hoffers.marks_eq ho (Host.getElem?_of_member? hm).1] at he
      exact ⟨hp, i, member, v, hm, hoffers, he⟩
    · cases h
  · rintro ⟨hp, i, member, v, hm, hoffers, he⟩
    rw [← hoffers.marks_eq ho (Host.getElem?_of_member? hm).1, ← Entry.ofTarget_eq_iff] at he
    rw [if_pos hp, hm, Option.bind_some, Member.callableOf?_eq_some_iff.mpr hoffers,
      Option.map_some, he]

/-- The scope of an object with members has a table of just its public callables: methods of any
kind, and values of attributes that can be called and are no classes. Their names stand there once
each and in order. An entry is open for the uses that some mark of its member opens, in whichever
order the marks came, how often, and on which side of a static or class method. To make the scope
runs nothing of the host. -/
theorem public_callables_are_listed (g : Setting σ) (m : Machine σ)
    (ho : g.host.objects.HasMembers owner ms)
    (hl : ∀ member ∈ ms, member.name ≠ Host.listingName) :
    ∃ table, Run.exec (Scope.bind g (.object owner)) m = (.ok ⟨.object owner, .ok table⟩, m) ∧
      (∃ ns : List String, Table.names table = ns.map .str ∧ ns.Pairwise (· < ·)) ∧
      (∀ name e, Dict.get? (.str name) table = some e ↔
        name.toList.head? ≠ some '_' ∧ ∃ i member v, Host.member? ms name = some (i, member) ∧
          member.Offers g.host.objects owner i v ∧ e.name = .str name ∧ e.target = v ∧
          (e.data = true ↔ ∃ k ∈ member.marks g.host.objects, k.data = true) ∧
          (e.path = true ↔ ∃ k ∈ member.marks g.host.objects, k.path = true)) ∧
      ∀ name e i member inside outside, Dict.get? (.str name) table = some e →
        Host.member? ms name = some (i, member) →
          member.marks g.host.objects = inside ++ outside →
            ((Decorated.unmarked.markAll inside).wrap.markAll outside).flags =
              ⟨e.data, e.path⟩ := by
  have ht := Table.ofValue_of_members ho hl
  refine ⟨Table.ofCandidates g.host.objects (Table.memberCandidates g.host.objects owner ms), ?_,
    Table.names_ofCandidates _ _, ?_, ?_⟩
  · simp only [Scope.bind, ht, Run.exec_pure]
  · intro name e
    rw [Table.get?_ofCandidates, Table.listed_iff ho]
  · intro name e i member inside outside he hm hmarks
    rw [Table.get?_ofCandidates, Table.listed_iff ho] at he
    obtain ⟨-, i', member', v, hm', -, -, -, hdata, hpath⟩ := he
    rw [hm] at hm'
    cases hm'
    rw [Decorated.flags_markAll_wrap, Decorated.flags_markAll, ← hmarks]
    congr 1
    · exact Bool.eq_iff_iff.mpr (by simp [Decorated.unmarked, Decorated.flags, hdata])
    · exact Bool.eq_iff_iff.mpr (by simp [Decorated.unmarked, Decorated.flags, hpath])

namespace Sample

/-- A member of each kind, most of them with marks. -/
def drawer : List Member :=
  [⟨⟨"title", [⟨true, false⟩], .any⟩, .method⟩, ⟨⟨"_key", [⟨true, true⟩], .any⟩, .method⟩,
    ⟨⟨"sort", [⟨false, true⟩, ⟨true, false⟩, ⟨false, true⟩], .any⟩, .static⟩,
    ⟨⟨"empty", [], .any⟩, .classwide⟩, ⟨⟨"size", [⟨true, false⟩], .any⟩, .property⟩,
    ⟨⟨"lamp", [], .any⟩, .attribute (.object "lamp")⟩,
    ⟨⟨"label", [], .any⟩, .attribute (.str "A-F")⟩,
    ⟨⟨"find", [⟨false, true⟩], .any⟩, .functionAttribute⟩,
    ⟨⟨"Row", [⟨true, true⟩], .any⟩, .nestedClass⟩, ⟨⟨"lost", [], .any⟩, .ghost⟩]

def drawerSetting : Setting Store :=
  ⟨World.host ⟨[("drawer", .provider drawer "drawer"), ("lamp", .hook)], []⟩, none⟩

theorem drawer_lists_five_names :
    drawerSetting.host.objects.HasMembers "drawer" drawer ∧
      (∀ member ∈ drawer, member.name ≠ Host.listingName) ∧ ∃ table : Table,
        Run.exec (Scope.bind drawerSetting (.object "drawer")) World.initial =
          (.ok ⟨.object "drawer", .ok table⟩, World.initial) ∧
        Table.names table = ["empty", "find", "lamp", "sort", "title"].map .str ∧
        ∃ e, Dict.get? (.str "sort") table = some e ∧ e.data = true ∧ e.path = true := by
  have ho : drawerSetting.host.objects.HasMembers "drawer" drawer := ⟨"drawer", Or.inr rfl⟩
  have hl : ∀ member ∈ drawer, member.name ≠ Host.listingName := by decide
  obtain ⟨table, hb, -, he, -⟩ :=
    public_callables_are_listed drawerSetting World.initial ho hl
  refine ⟨ho, hl, table, hb, ?_,
    ⟨.str "sort", .function ⟨"drawer", 2, "sort"⟩, true, true⟩, ?_, rfl, rfl⟩
  · cases hb
    decide +kernel
  · refine (he "sort" _).mpr ⟨by decide, 2, _, _, rfl, .method (Or.inr (Or.inl rfl)), rfl, rfl, ?_⟩
    decide

end Sample

end CallTree
