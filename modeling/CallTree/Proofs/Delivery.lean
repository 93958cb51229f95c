import CallTree.Proofs.Hook
import CallTree.Proofs.References

/-! What the arguments of a statement hand over: literal text and values of variables, each of them
as a whole. -/
namespace CallTree

variable {σ : Type} {g : Setting σ} {scope : Scope} {text : Value} {mode : Mode}
  {context : Dict Value} {name : String} {entry : Entry} {args : List Value} {m : Machine σ}

open Run

namespace Setting

/-- The evaluation of a statement is the call of an entry on arguments, and nothing runs before. -/
def HandsOver (g : Setting σ) (scope : Scope) (text : Value) (mode : Mode) (context : Dict Value)
    (m : Machine σ) (name : String) (entry : Entry) (args : List Value) : Prop :=
  exec (g.evaluate scope text mode context) m =
    exec (contain do
      record (.invoke scope.provider mode name entry args)
      g.host.call entry.target args) m

theorem HandsOver.events (h : g.HandsOver scope text mode context m name entry args) :
    (exec (g.evaluate scope text mode context) m).2.events =
      m.events ++ .invoke scope.provider mode name entry args ::
        g.host.records entry.target args := by
  obtain ⟨v, n, hv⟩ := exec_contain (do
    record (.invoke scope.provider mode name entry args)
    g.host.call entry.target args) m
  rw [h, hv, exec_bind_ok (exec_record _), Host.events_call]
  simp

/-- Without a hook, a statement that calls an entry hands over the values of its arguments. -/
theorem handsOver_of_calls (ht : g.transform = none) {call : Call}
    (hc : Calls scope text mode call entry) (context : Dict Value) (m : Machine σ) :
    g.HandsOver scope text mode context m call.name entry
      (call.args.map (Argument.value context)) := by
  obtain ⟨host, transform⟩ := g
  obtain rfl : transform = none := ht
  rw [HandsOver, evaluate_of_calls _ hc, contain, contain, exec_tryCatch, exec_tryCatch,
    Host.exec_invoke_none]

/-- A statement hands over nothing but the values of the arguments in its own call. -/
theorem HandsOver.calls (ht : g.transform = none) (hm : mode = .data ∨ mode = .path)
    (h : g.HandsOver scope text mode context m name entry args) :
    ∃ call, Calls scope text mode call entry ∧ call.name = name ∧
      call.args.map (Argument.value context) = args := by
  have he := h.events
  rcases settles_or_calls scope text hm with ⟨e, hs⟩ | ⟨call, entry', hc⟩
  · rw [g.evaluate_of_settles hs, exec_pure] at he
    have hlength := congrArg List.length he
    simp at hlength
  · rw [(handsOver_of_calls ht hc context m).events] at he
    obtain ⟨hi, -⟩ := List.cons.inj (List.append_cancel_left he)
    obtain ⟨-, -, hname, rfl, hargs⟩ := Event.invoke.inj hi
    exact ⟨call, hc, hname, hargs⟩

end Setting

namespace Argument

/-- The beginning of text that loses its backslash as an argument. -/
def escapeMark : List Char := ['\\', '$', '\x7b']

/-- The text inside a reference. -/
def inside (s : String) : String := String.ofList (s.toList.drop 2).dropLast

/-- Text that is, as a whole, the reference to a variable. -/
def IsReference (s : String) : Prop := Text.IsName (inside s).toList ∧ s = reference (inside s)

instance (s : String) : Decidable (IsReference s) := inferInstanceAs (Decidable (_ ∧ _))

/-- Text as an argument that stands for it. -/
def writeLiteral (s : String) : String :=
  if IsReference s then String.ofList ('\\' :: s.toList) else s

variable {a l x : String} {s : List Char}

theorem inside_reference (x : String) : inside (reference x) = x := by
  simp [inside, reference]

theorem isReference_iff : IsReference a ↔ ∃ x : String, Text.IsName x.toList ∧ a = reference x := by
  constructor
  · intro h
    exact ⟨inside a, h⟩
  · rintro ⟨x, hx, rfl⟩
    rw [IsReference, inside_reference]
    exact ⟨hx, rfl⟩

theorem unescapeLiteral_of_not_prefix (h : ¬ escapeMark <+: s) : unescapeLiteral s = s := by
  unfold unescapeLiteral
  split
  · next r => exact (h ⟨r, rfl⟩).elim
  · rfl

/-- The escape is taken off once, so that what is left does not begin with it. -/
theorem not_prefix_unescapeLiteral (s : List Char) : ¬ escapeMark <+: unescapeLiteral s := by
  unfold unescapeLiteral
  split
  · simp [escapeMark]
  · next h =>
    rintro ⟨r, rfl⟩
    exact h r rfl

/-- An argument of a call that is no reference is literal text. -/
theorem ofText_of_not_isReference (ht : Text.Trimmed a.toList) (h : ¬ IsReference a) :
    ofText a = .literal (String.ofList (unescapeLiteral a.toList)) := by
  cases hv : variableName? a.toList with
  | none => simp only [ofText, hv]
  | some n =>
    have hn : ofText a = .variable (String.ofList n) := by simp only [ofText, hv]
    exact (h (isReference_iff.mpr ⟨_, eq_reference_of_ofText ht hn⟩)).elim

theorem value_reference (hx : Text.IsName x.toList) :
    value context (reference x) = (Dict.get? (.str x) context).getD .null := by
  simp only [value, ofText_reference hx]

theorem value_of_not_isReference (ht : Text.Trimmed a.toList) (h : ¬ IsReference a) :
    value context a = .str (String.ofList (unescapeLiteral a.toList)) := by
  simp only [value, ofText_of_not_isReference ht h]

theorem trimmed_writeLiteral (ht : Text.Trimmed l.toList) :
    Text.Trimmed (writeLiteral l).toList := by
  unfold writeLiteral
  split
  · next h =>
    rw [String.toList_ofList]
    constructor
    · intro c hc
      obtain rfl : '\\' = c := by simpa using hc
      decide
    · intro c hc
      refine ht.last c ?_
      rw [h.2] at hc ⊢
      simpa [reference, List.getLast?_cons] using hc
  · exact ht

/-- Text that is written as an argument is handed over as it was, unless it would lose its own
backslash. -/
theorem value_writeLiteral (ht : Text.Trimmed l.toList) (hl : ¬ escapeMark <+: l.toList) :
    value context (writeLiteral l) = .str l := by
  by_cases h : IsReference l
  · obtain ⟨x, -, rfl⟩ := isReference_iff.mp h
    rw [writeLiteral, if_pos h]
    simp [value, ofText, reference, variableName?, unescapeLiteral]
  · rw [writeLiteral, if_neg h, value_of_not_isReference ht h, unescapeLiteral_of_not_prefix hl,
      String.ofList_toList]

/-- Without variables, no argument hands over text that begins with an escape. -/
theorem not_prefix_of_value (h : value [] a = .str l) : ¬ escapeMark <+: l.toList := by
  unfold value at h
  split at h
  · cases h
  · next s hs =>
    obtain rfl : s = l := Value.str.inj h
    unfold ofText at hs
    split at hs
    · cases hs
    · obtain rfl := Argument.literal.inj hs
      rw [String.toList_ofList]
      exact not_prefix_unescapeLiteral a.toList

end Argument

namespace Call

/-- A space before and after the text. -/
def between : Text.Padding := ⟨[' '], [' '], Text.allBlank_space, Text.allBlank_space⟩

/-- A space before the text. -/
def behind : Text.Padding := ⟨[' '], [], Text.allBlank_space, Text.allBlank_nil⟩

/-- Arguments with a space on both sides of each comma, where `more` says whether a comma stands
before the first of them. -/
def spaceCommas (more : Bool) : List String → List (Text.Padding × String)
  | [] => []
  | [a] => [(if more then behind else tight, a)]
  | a :: b :: r => (if more then between else spaced, a) :: spaceCommas true (b :: r)

/-- A statement for a call of a name on literal text. -/
def literalStatement (name : String) (ls : List String) : String :=
  String.ofList (name.toList ++ '(' :: joinWith [' ', ',', ' ']
    (ls.map fun l => escapeCommas (Argument.writeLiteral l).toList) ++ [')'])

theorem map_snd_spaceCommas (more : Bool) (as : List String) :
    (spaceCommas more as).map (·.2) = as := by
  fun_induction spaceCommas more as with
  | case1 => rfl
  | case2 => rfl
  | case3 more a b r ih => rw [List.map_cons, ih]

theorem separated_spaceCommas (more : Bool) (as : List String) :
    Separated (spaceCommas more as) := by
  fun_induction spaceCommas more as with
  | case1 => simp [Separated]
  | case2 => simp [Separated]
  | case3 more a b r ih =>
    have hne : spaceCommas true (b :: r) ≠ [] := by cases r <;> simp [spaceCommas]
    intro p hp
    rw [List.dropLast_cons_of_ne_nil hne] at hp
    rcases List.mem_cons.mp hp with rfl | hp
    · intro _
      cases more <;> simp [between, spaced]
    · exact ih p hp

theorem writeArguments_spaceCommas (more : Bool) (as : List String) :
    writeArguments (spaceCommas more as) = (if more ∧ as ≠ [] then [' '] else []) ++
      joinWith [' ', ',', ' '] (as.map fun a => escapeCommas a.toList) := by
  fun_induction spaceCommas more as with
  | case1 => simp [writeArguments, joinWith]
  | case2 more a =>
    cases more <;>
      simp [writeArguments, joinWith, writeArgument, Text.Padding.around, behind, tight]
  | case3 more a b r ih =>
    obtain ⟨p, ps, hp⟩ : ∃ p ps, spaceCommas true (b :: r) = p :: ps := by
      cases r <;> simp [spaceCommas]
    rw [writeArguments, hp, List.map_cons] at ih
    rw [writeArguments, List.map_cons, hp, List.map_cons, joinWith, ih]
    cases more <;>
      simp [joinWith, writeArgument, Text.Padding.around, between, spaced]

theorem literalStatement_eq_write (name : String) (ls : List String) :
    literalStatement name ls =
      write tight name (spaceCommas false (ls.map Argument.writeLiteral)) := by
  rw [literalStatement, write, writeArguments_spaceCommas, List.map_map]
  simp [tight, Text.Padding.around, Function.comp_def]

/-- The statement for a call on literal text is read as that call. -/
theorem ofStatement?_literalStatement {name : String} {ls : List String}
    (hn : Text.IsName name.toList) (hl : ∀ l ∈ ls, Text.Trimmed l.toList) (hne : ls ≠ [""]) :
    ofStatement? (literalStatement name ls) = some ⟨name, ls.map Argument.writeLiteral⟩ := by
  have hc : Statable ⟨name, (spaceCommas false (ls.map Argument.writeLiteral)).map (·.2)⟩ := by
    rw [map_snd_spaceCommas]
    refine ⟨hn, ?_, ?_⟩
    · intro a ha
      obtain ⟨l, hm, rfl⟩ := List.mem_map.mp ha
      exact Argument.trimmed_writeLiteral (hl l hm)
    · intro he
      obtain ⟨l, rfl, hw⟩ := List.map_eq_singleton_iff.mp he
      refine hne (congrArg (fun l => [l]) ?_)
      unfold Argument.writeLiteral at hw
      split at hw
      · simp at hw
      · exact hw
  rw [literalStatement_eq_write, ofStatement?_write hc (separated_spaceCommas _ _),
    map_snd_spaceCommas]

end Call

/-- The statement for a call on literal text hands it over, if none of it would lose its own
backslash. -/
theorem handsOver_literalStatement (ht : g.transform = none) {table : Table}
    (hs : scope.callables = .ok table) (hn : Text.IsName name.toList)
    (he : Dict.get? (.str name) table = some entry) (hd : entry.data = true) {ls : List String}
    (hl : ∀ l ∈ ls, Text.Trimmed l.toList) (hne : ls ≠ [""])
    (hno : ∀ l ∈ ls, ¬ Argument.escapeMark <+: l.toList) (context : Dict Value) (m : Machine σ) :
    g.HandsOver scope (.str (Call.literalStatement name ls)) .data context m name entry
      (ls.map .str) := by
  have hcalls : Setting.Calls scope (.str (Call.literalStatement name ls)) .data
      ⟨name, ls.map Argument.writeLiteral⟩ entry :=
    ⟨table, _, hs, rfl, Call.ofStatement?_literalStatement hn hl hne, he, by
      simp [Entry.allows, hd]⟩
  have hvalues : (ls.map Argument.writeLiteral).map (Argument.value context) = ls.map .str := by
    rw [List.map_map]
    refine List.map_congr_left ?_
    intro l hm
    rw [Function.comp_apply]
    exact Argument.value_writeLiteral (hl l hm) (hno l hm)
  rw [← hvalues]
  exact Setting.handsOver_of_calls ht hcalls context m

/-- Text that a statement hands over without variables does not begin with an escape. -/
theorem not_prefix_of_handsOver (ht : g.transform = none) {ls : List String}
    (h : g.HandsOver scope text .data [] m name entry (ls.map .str)) {l : String} (hl : l ∈ ls) :
    ¬ Argument.escapeMark <+: l.toList := by
  obtain ⟨call, -, -, hargs⟩ := h.calls ht (Or.inl rfl)
  have hmem : Value.str l ∈ call.args.map (Argument.value []) := by
    rw [hargs]
    exact List.mem_map_of_mem hl
  obtain ⟨a, -, ha⟩ := List.mem_map.mp hmem
  exact Argument.not_prefix_of_value ha

/-- A callable that may be used for data can be handed just the texts that do not begin with an
escape: there is a statement that hands them over in whatever context. One such statement has a
backslash before each reference and each comma, and a space on both sides of what separates the
arguments. -/
theorem texts_are_handed_over_iff (ht : g.transform = none) {table : Table}
    (hs : scope.callables = .ok table) (hn : Text.IsName name.toList)
    (he : Dict.get? (.str name) table = some entry) (hd : entry.data = true) {ls : List String}
    (hl : ∀ l ∈ ls, Text.Trimmed l.toList) (hne : ls ≠ [""]) (m : Machine σ) :
    ((∃ s : String, ∀ context,
        g.HandsOver scope (.str s) .data context m name entry (ls.map .str)) ↔
      ∀ l ∈ ls, ¬ Argument.escapeMark <+: l.toList) ∧
    ((∀ l ∈ ls, ¬ Argument.escapeMark <+: l.toList) → ∀ context m',
      g.HandsOver scope (.str (Call.literalStatement name ls)) .data context m' name entry
        (ls.map .str)) := by
  have hwrite : (∀ l ∈ ls, ¬ Argument.escapeMark <+: l.toList) → ∀ context m',
      g.HandsOver scope (.str (Call.literalStatement name ls)) .data context m' name entry
        (ls.map .str) :=
    handsOver_literalStatement ht hs hn he hd hl hne
  refine ⟨⟨?_, fun hno => ⟨_, fun context => hwrite hno context m⟩⟩, hwrite⟩
  rintro ⟨s, hall⟩ l hm
  exact not_prefix_of_handsOver ht (hall []) hm

/-- A reference, text that is one only in part, and text that ends in a backslash are handed over;
a reference behind a backslash is not. -/
theorem Sample.literal_texts_for_echo :
    let g : Setting Store := ⟨Sample.world.host, none⟩
    let scope := Scope.ofValue g.host.objects (.object "notebook")
    let entry : Entry := ⟨.str "echo", .function ⟨"notebook", 0, "echo"⟩, true, true⟩
    (∀ context m, g.HandsOver scope (.str "echo(\\$\x7bwho\x7d , a\\,$\x7bwho\x7d , b\\ , )") .data
      context m "echo" entry [.str "$\x7bwho\x7d", .str "a,$\x7bwho\x7d", .str "b\\", .str ""]) ∧
    ¬ ∃ s : String, ∀ context, g.HandsOver scope (.str s) .data context World.initial "echo" entry
      [.str "\\$\x7bwho\x7d"] := by
  intro g scope entry
  constructor
  · intro context m
    have hs : Call.literalStatement "echo" ["$\x7bwho\x7d", "a,$\x7bwho\x7d", "b\\", ""] =
        "echo(\\$\x7bwho\x7d , a\\,$\x7bwho\x7d , b\\ , )" := by
      decide +kernel
    have hl : ∀ l ∈ ["$\x7bwho\x7d", "a,$\x7bwho\x7d", "b\\", ""], Text.Trimmed l.toList := by
      decide +kernel
    rw [← hs]
    exact (texts_are_handed_over_iff rfl rfl (by decide) (by decide +kernel) rfl hl (by decide) m).2
      (by decide) context m
  · intro h
    have hl : ∀ l ∈ ["\\$\x7bwho\x7d"], Text.Trimmed l.toList := by
      decide +kernel
    have hno := (texts_are_handed_over_iff rfl rfl (by decide) (by decide +kernel) rfl hl
      (by decide) World.initial).1.mp h
    exact hno _ List.mem_cons_self (by decide)

/-- Two contexts make no difference for what a statement calls. It is settled before any call, with
one error in both; or it calls one entry in both, with an argument for each that stands in its text.
There the values of variables come in as they are, where the text of an argument is as a whole the
reference to one, and everything else is the same text. No argument is taken for a reference that
ends in a line break. -/
theorem variables_are_handed_over_whole (ht : g.transform = none) (scope : Scope) (s : String)
    (hm : mode = .data ∨ mode = .path) (context context' : Dict Value) (m : Machine σ) :
    ((∃ e, exec (g.evaluate scope (.str s) mode context) m = (.ok (.error e), m) ∧
        exec (g.evaluate scope (.str s) mode context') m = (.ok (.error e), m)) ∨
      ∃ call entry, ∃ args args' : List Value, Call.ofStatement? s = some call ∧
        g.HandsOver scope (.str s) mode context m call.name entry args ∧
        g.HandsOver scope (.str s) mode context' m call.name entry args' ∧
        args.length = call.args.length ∧ args'.length = call.args.length ∧
        ∀ (i : Nat) (a : String), call.args[i]? = some a →
          (∃ x : String, Text.IsName x.toList ∧ a = Argument.reference x ∧
            args[i]? = some ((Dict.get? (.str x) context).getD .null) ∧
            args'[i]? = some ((Dict.get? (.str x) context').getD .null)) ∨
          ¬ Argument.IsReference a ∧ ∃ l : String, Argument.ofText a = .literal l ∧
            args[i]? = some (.str l) ∧ args'[i]? = some (.str l)) ∧
    ∀ call, Call.ofStatement? s = some call → ∀ a ∈ call.args, ∀ x : String,
      a ≠ Argument.reference x ++ "\n" ∧
        (Argument.ofText a = .variable x ↔ Text.IsName x.toList ∧ a = Argument.reference x) := by
  constructor
  · rcases Setting.settles_or_calls scope (.str s) hm with ⟨e, he⟩ | ⟨call, entry, hc⟩
    · refine Or.inl ⟨e, ?_, ?_⟩
      · rw [g.evaluate_of_settles he, exec_pure]
      · rw [g.evaluate_of_settles he, exec_pure]
    · have hcall : Call.ofStatement? s = some call := by
        obtain ⟨_, s', -, hs, hcall, -⟩ := hc
        obtain rfl := Value.str.inj hs
        exact hcall
      refine Or.inr ⟨call, entry, call.args.map (Argument.value context),
        call.args.map (Argument.value context'), hcall, Setting.handsOver_of_calls ht hc context m,
        Setting.handsOver_of_calls ht hc context' m, List.length_map _, List.length_map _, ?_⟩
      intro i a ha
      simp only [List.getElem?_map, ha, Option.map_some]
      by_cases hr : Argument.IsReference a
      · obtain ⟨x, hx, rfl⟩ := Argument.isReference_iff.mp hr
        exact Or.inl ⟨x, hx, rfl, by rw [Argument.value_reference hx],
          by rw [Argument.value_reference hx]⟩
      · have htrim := (Call.statable_of_ofStatement? hcall).trimmed a (List.mem_of_getElem? ha)
        exact Or.inr ⟨hr, _, Argument.ofText_of_not_isReference htrim hr,
          by rw [Argument.value_of_not_isReference htrim hr],
          by rw [Argument.value_of_not_isReference htrim hr]⟩
  · intro call hcall a ha x
    have htrim := (Call.statable_of_ofStatement? hcall).trimmed a ha
    refine ⟨?_, fun h => Argument.eq_reference_of_ofText htrim h, ?_⟩
    · rintro rfl
      have hblank := htrim.last '\n' (by simp)
      revert hblank
      decide
    · rintro ⟨hx, rfl⟩
      exact Argument.ofText_reference hx

/-- Text in a variable is one argument, whatever stands in it. -/
theorem Sample.text_in_a_variable_for_echo :
    let g : Setting Store := ⟨Sample.world.host, none⟩
    let scope := Scope.ofValue g.host.objects (.object "notebook")
    ∃ entry,
      g.HandsOver scope (.str "echo($\x7bwho\x7d, $\x7bwho\x7d!)") .data
        [(.str "who", .str "a, $\x7bn\x7d) \\")] World.initial "echo" entry
        [.str "a, $\x7bn\x7d) \\", .str "$\x7bwho\x7d!"] ∧
      g.HandsOver scope (.str "echo($\x7bwho\x7d, $\x7bwho\x7d!)") .data [] World.initial "echo"
        entry [.null, .str "$\x7bwho\x7d!"] := by
  intro g scope
  have hcall : Call.ofStatement? "echo($\x7bwho\x7d, $\x7bwho\x7d!)" =
      some ⟨"echo", ["$\x7bwho\x7d", "$\x7bwho\x7d!"]⟩ := by
    decide +kernel
  obtain ⟨⟨e, he, -⟩ | ⟨call, entry, args, args', hc, h, h', hn, hn', hall⟩, -⟩ :=
    variables_are_handed_over_whole (g := g) rfl scope "echo($\x7bwho\x7d, $\x7bwho\x7d!)"
      (Or.inl rfl) [(.str "who", .str "a, $\x7bn\x7d) \\")] [] World.initial
  · have hr : (exec (g.evaluate scope (.str "echo($\x7bwho\x7d, $\x7bwho\x7d!)") .data
        [(.str "who", .str "a, $\x7bn\x7d) \\")]) World.initial).2.events.length = 2 := by
      decide +kernel
    rw [he] at hr
    cases hr
  · obtain rfl := Option.some.inj (hcall.symm.trans hc)
    obtain ⟨v, w, rfl⟩ := List.length_eq_two.mp hn
    obtain ⟨v', w', rfl⟩ := List.length_eq_two.mp hn'
    obtain ⟨rfl, rfl⟩ : v = .str "a, $\x7bn\x7d) \\" ∧ v' = .null := by
      rcases hall 0 "$\x7bwho\x7d" rfl with ⟨x, -, hx, hv, hv'⟩ | ⟨hno, -⟩
      · obtain rfl : "who" = x := Argument.reference_injective hx
        exact ⟨Option.some.inj hv, Option.some.inj hv'⟩
      · exact (hno (by decide)).elim
    obtain ⟨rfl, rfl⟩ : w = .str "$\x7bwho\x7d!" ∧ w' = .str "$\x7bwho\x7d!" := by
      have hno : ¬ Argument.IsReference "$\x7bwho\x7d!" := by decide
      rcases hall 1 "$\x7bwho\x7d!" rfl with ⟨x, hx, ha, -⟩ | ⟨-, l, hl, hw, hw'⟩
      · exact (hno (Argument.isReference_iff.mpr ⟨x, hx, ha⟩)).elim
      · obtain rfl : "$\x7bwho\x7d!" = l := Argument.literal.inj hl
        exact ⟨Option.some.inj hw, Option.some.inj hw'⟩
    exact ⟨entry, h, h'⟩

end CallTree
