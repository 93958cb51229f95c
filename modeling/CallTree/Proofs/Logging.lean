import CallTree.Logging
import Mathlib.Data.List.Induction

/-! What a log writes. After any steps it has one handler of its own, that of the last
configuration, and all the foreign ones, and each message goes once to every handler. -/
namespace CallTree.Logging

variable {l : Logging} {steps after : List Step} {s : Step} {name stream logger message : String}
  {ss : List (String × String)} {severity : Level}

/-- The streams of the foreign handlers that steps add, in the order of the steps. -/
def foreignStreams (steps : List Step) : List String :=
  steps.filterMap fun
    | .addForeign stream => some stream
    | _ => none

def foreign (stream : String) : Handler := ⟨stream, false⟩

def Step.isConfiguration : Step → Bool
  | .configure .. => true
  | _ => false

def Step.isMessage : Step → Bool
  | .message .. => true
  | _ => false

/-- What is on a stream: nothing, if it was not opened. -/
def text (l : Logging) (name : String) : String := (l.streams.lookup name).getD ""

/-- The text that lines make. -/
def unlines (lines : List String) : String := String.join (lines.map (· ++ "\n"))

/-- What a message writes to one of the streams of handlers. -/
def linesFor (name logger : String) (severity : Level) (message : String)
    (hs : List Handler) : List String :=
  (hs.filter fun h => h.stream = name).map fun h => line h.own logger severity message

theorem reaches_iff :
    reaches logger = true ↔ logger = "qeres" ∨ ∃ rest, logger = "qeres." ++ rest := by
  have hdot : logName ++ "." = "qeres." := by decide
  rw [reaches, hdot, Bool.or_eq_true, beq_iff_eq, String.startsWith_string_iff]
  refine or_congr Iff.rfl ⟨?_, ?_⟩
  · rintro ⟨rest, h⟩
    exact ⟨String.ofList rest, String.toList_inj.mp (by simp [← h])⟩
  · rintro ⟨rest, rfl⟩
    exact ⟨rest.toList, by simp⟩

/-! ### Handlers -/

/-- Taking handlers away while a copy of the list is gone through passes none over: where `passed`
is what stays of the part before, the rest of the copy is still there as a whole. -/
theorem foldl_erase (passed : List Handler) (hp : ∀ h ∈ passed, h.own = false)
    (hs : List Handler) :
    hs.foldl (fun hs h => if h.own then hs.erase h else hs) (passed ++ hs) =
      passed ++ hs.filter (!·.own) := by
  induction hs generalizing passed with
  | nil => rfl
  | cons h r ih =>
    cases ho : h.own with
    | true =>
      have hmem : h ∉ passed := fun hm => by simp [hp h hm] at ho
      have herase : (passed ++ h :: r).erase h = passed ++ r := by
        rw [List.erase_append_right _ hmem, List.erase_cons_head]
      rw [List.foldl_cons, ho, if_pos rfl, herase, ih passed hp,
        List.filter_cons_of_neg (by simp [ho])]
    | false =>
      have hsplit : passed ++ h :: r = (passed ++ [h]) ++ r := by simp
      have hp' : ∀ k ∈ passed ++ [h], k.own = false := by
        intro k hk
        rcases List.mem_append.mp hk with hk | hk
        · exact hp k hk
        · rwa [List.mem_singleton.mp hk]
      rw [List.foldl_cons, ho, if_neg Bool.false_ne_true, hsplit, ih _ hp',
        List.filter_cons_of_pos (by simp [ho]), List.append_assoc, List.singleton_append]

theorem withoutOwn_eq_filter (hs : List Handler) : withoutOwn hs = hs.filter (!·.own) :=
  foldl_erase [] (fun _ h => (List.not_mem_nil h).elim) hs

@[simp] theorem log_handlers : (l.log logger severity message).handlers = l.handlers := by
  unfold log
  split <;> rfl

@[simp] theorem log_level : (l.log logger severity message).level = l.level := by
  unfold log
  split <;> rfl

/-- No step takes away a foreign handler, or changes their order. -/
theorem foreign_step (l : Logging) (s : Step) :
    (l.step s).handlers.filter (!·.own) =
      l.handlers.filter (!·.own) ++ (foreignStreams [s]).map foreign := by
  cases s with
  | configure level stream =>
    simp [step, configure, withoutOwn_eq_filter, foreignStreams]
  | addForeign stream => simp [step, addForeign, foreignStreams, foreign]
  | message logger level text => simp [step, foreignStreams]

theorem foreign_run (steps : List Step) :
    (run steps).handlers.filter (!·.own) = (foreignStreams steps).map foreign := by
  induction steps using List.reverseRecOn with
  | nil => rfl
  | append_singleton steps s ih =>
    have hsum : foreignStreams (steps ++ [s]) = foreignStreams steps ++ foreignStreams [s] :=
      List.filterMap_append
    rw [run, List.foldl_append, List.foldl_cons, List.foldl_nil, foreign_step, hsum,
      List.map_append, ← ih]
    rfl

/-- Without a configuration, the level stays and handlers are only added. -/
theorem handlers_foldl (ha : ∀ s ∈ steps, s.isConfiguration = false) (l : Logging) :
    (steps.foldl step l).handlers = l.handlers ++ (foreignStreams steps).map foreign ∧
      (steps.foldl step l).level = l.level := by
  induction steps generalizing l with
  | nil => exact ⟨by simp [foreignStreams], rfl⟩
  | cons s r ih =>
    obtain ⟨hh, hl⟩ := ih (fun t ht => ha t (List.mem_cons_of_mem s ht)) (l.step s)
    rw [List.foldl_cons, hh, hl]
    cases s with
    | configure level stream =>
      have hs := ha _ List.mem_cons_self
      simp [Step.isConfiguration] at hs
    | addForeign stream => simp [step, addForeign, foreignStreams, foreign]
    | message logger level text => simp [step, foreignStreams]

/-- The own handler stands where the last configuration put it. -/
theorem handlers_run (before : List Step) (level : Level) (stream : String)
    (ha : ∀ s ∈ after, s.isConfiguration = false) :
    (run (before ++ .configure level stream :: after)).handlers =
        (foreignStreams before).map foreign ++
          ⟨stream, true⟩ :: (foreignStreams after).map foreign ∧
      (run (before ++ .configure level stream :: after)).level = level := by
  have hrun : run (before ++ .configure level stream :: after) =
      after.foldl step ((run before).configure level stream) := by
    rw [run, List.foldl_append, List.foldl_cons]
    rfl
  obtain ⟨hh, hl⟩ := handlers_foldl ha ((run before).configure level stream)
  rw [hrun, hh, hl, ← foreign_run before, ← withoutOwn_eq_filter]
  exact ⟨by simp [configure], rfl⟩

/-! ### Streams -/

theorem lookup_openStream (name stream : String) (ss : List (String × String)) :
    (openStream stream ss).lookup name =
      if name = stream then some ((ss.lookup name).getD "") else ss.lookup name := by
  unfold openStream
  by_cases hn : name = stream
  · subst hn
    cases hl : ss.lookup name with
    | none => simp [List.lookup_append, hl]
    | some t => simp [hl]
  · have hne : (name == stream) = false := beq_eq_false_iff_ne.mpr hn
    rw [if_neg hn]
    split
    · rfl
    · rw [List.lookup_append, List.lookup_cons, hne]
      cases ss.lookup name <;> rfl

theorem lookup_write (name stream line : String) (ss : List (String × String)) :
    (write stream line ss).lookup name =
      (ss.lookup name).map fun t => if name = stream then t ++ (line ++ "\n") else t := by
  induction ss with
  | nil => rfl
  | cons s r ih =>
    obtain ⟨n, t⟩ := s
    by_cases hn : name = n
    · subst hn
      by_cases hs : name = stream <;> simp [write, hs, String.append_assoc]
    · have hne : (name == n) = false := beq_eq_false_iff_ne.mpr hn
      have hcons : (write stream line ((n, t) :: r)).lookup name =
          (write stream line r).lookup name := by
        simp only [write, List.map_cons]
        split <;> simp only [List.lookup_cons, hne]
      rw [hcons, ih, List.lookup_cons, hne]

/-- Handlers write one after the other, each to its own stream. -/
theorem lookup_foldl_write (logger : String) (severity : Level) (message : String)
    (hs : List Handler) (ss : List (String × String)) :
    (hs.foldl (fun ss h => write h.stream (line h.own logger severity message) ss) ss).lookup name =
      (ss.lookup name).map (· ++ unlines (linesFor name logger severity message hs)) := by
  induction hs generalizing ss with
  | nil => simp [linesFor, unlines]
  | cons h r ih =>
    rw [List.foldl_cons, ih, lookup_write, Option.map_map]
    congr 1
    funext t
    by_cases hn : h.stream = name
    · simp [linesFor, unlines, hn, String.append_assoc]
    · have hn' : ¬ name = h.stream := fun he => hn he.symm
      simp [linesFor, hn, hn']

/-- All handlers write to streams that were opened. -/
def HasStreams (l : Logging) : Prop := ∀ h ∈ l.handlers, (l.streams.lookup h.stream).isSome = true

theorem isSome_openStream (h : (ss.lookup name).isSome = true ∨ name = stream) :
    ((openStream stream ss).lookup name).isSome = true := by
  rw [lookup_openStream]
  by_cases hn : name = stream
  · simp [hn]
  · rw [if_neg hn]
    exact h.resolve_right hn

theorem hasStreams_step (hl : l.HasStreams) (s : Step) : (l.step s).HasStreams := by
  intro h hh
  cases s with
  | configure level stream =>
    refine isSome_openStream ?_
    simp only [step, configure, withoutOwn_eq_filter, List.mem_append, List.mem_filter,
      List.mem_singleton] at hh
    rcases hh with ⟨hh, -⟩ | rfl
    · exact Or.inl (hl h hh)
    · exact Or.inr rfl
  | addForeign stream =>
    refine isSome_openStream ?_
    simp only [step, addForeign, List.mem_append, List.mem_singleton] at hh
    rcases hh with hh | rfl
    · exact Or.inl (hl h hh)
    · exact Or.inr rfl
  | message logger severity message =>
    rw [step, log_handlers] at hh
    rw [step, log]
    split
    · rw [lookup_foldl_write, Option.isSome_map]
      exact hl h hh
    · exact hl h hh

theorem hasStreams_run (steps : List Step) : (run steps).HasStreams := by
  induction steps using List.reverseRecOn with
  | nil =>
    intro h hh
    cases hh
  | append_singleton steps s ih =>
    rw [run, List.foldl_append]
    exact hasStreams_step ih s

/-- Opening a stream writes nothing to any. -/
theorem text_step (hs : s.isMessage = false) (l : Logging) (name : String) :
    (l.step s).text name = l.text name := by
  have hopen : ∀ stream, ((openStream stream l.streams).lookup name).getD "" = l.text name := by
    intro stream
    rw [lookup_openStream]
    split <;> rfl
  cases s with
  | configure level stream => exact hopen stream
  | addForeign stream => exact hopen stream
  | message logger level text => cases hs

theorem text_log (hl : l.HasStreams) (hr : reaches logger = true) (hp : 0 < severity)
    (hs : l.threshold ≤ severity) (name : String) :
    (l.log logger severity message).text name =
      l.text name ++ unlines (linesFor name logger severity message l.handlers) := by
  rw [log, if_pos ⟨hr, hp, hs⟩, text, text, lookup_foldl_write]
  cases hn : l.streams.lookup name with
  | some t => rfl
  | none =>
    have hnone : linesFor name logger severity message l.handlers = [] := by
      refine List.map_eq_nil_iff.mpr (List.filter_eq_nil_iff.mpr fun h hh hname => ?_)
      have hsome := hl h hh
      rw [of_decide_eq_true hname, hn] at hsome
      cases hsome
    rw [hnone]
    rfl

theorem text_run_message (hr : reaches logger = true) (hp : 0 < severity) (name : String) :
    ((run steps).threshold ≤ severity →
      (run (steps ++ [.message logger severity message])).text name =
        (run steps).text name ++
          unlines (linesFor name logger severity message (run steps).handlers)) ∧
      (severity < (run steps).threshold →
        run (steps ++ [.message logger severity message]) = run steps) := by
  have hrun : run (steps ++ [.message logger severity message]) =
      (run steps).log logger severity message := by
    rw [run, List.foldl_append]
    rfl
  rw [hrun]
  refine ⟨fun hs => text_log (hasStreams_run steps) hr hp hs name, fun hs => ?_⟩
  rw [log, if_neg fun h => absurd h.2.2 (Int.not_le.mpr hs)]

theorem linesFor_foreign (name logger : String) (severity : Level) (message : String)
    (streams : List String) :
    linesFor name logger severity message (streams.map foreign) =
      (streams.filter (· = name)).map fun _ => message := by
  rw [linesFor, List.filter_map, List.map_map]
  rfl

/-- Whatever is done to a log, from the first configuration on it has one handler of its own, that
of the last configuration, among the foreign ones, which stand in the order in which they were
added. A message from the log or a logger below it that is serious enough for the last configuration
is one line with level and name on the stream of that configuration, and one line for each foreign
handler on the stream of that; no other line goes to any stream. A message that is less serious
changes nothing, and nothing but a message writes. -/
theorem messages_are_written_once_per_handler (before : List Step) (level : Level)
    (stream : String) (ha : ∀ s ∈ after, s.isConfiguration = false) :
    let steps := before ++ .configure level stream :: after
    (run steps).handlers = (foreignStreams before).map foreign ++
        ⟨stream, true⟩ :: (foreignStreams after).map foreign ∧
      (run steps).level = level ∧
      (∀ logger severity message,
        (logger = "qeres" ∨ ∃ rest, logger = "qeres." ++ rest) → 0 < severity →
          ((if level = 0 then Level.warning else level) ≤ severity → ∀ name,
            (run (steps ++ [.message logger severity message])).text name =
              (run steps).text name ++ unlines
                (((foreignStreams before).filter (· = name)).map (fun _ => message) ++
                  (if stream = name then [severity.label ++ " " ++ logger ++ ": " ++ message]
                    else []) ++
                  ((foreignStreams after).filter (· = name)).map fun _ => message)) ∧
          (severity < (if level = 0 then Level.warning else level) →
            run (steps ++ [.message logger severity message]) = run steps)) ∧
      ∀ s : Step, s.isMessage = false → ∀ name,
        (run (steps ++ [s])).text name = (run steps).text name := by
  intro steps
  obtain ⟨hh, hl⟩ := handlers_run before level stream ha
  refine ⟨hh, hl, ?_, ?_⟩
  · intro logger severity message hr hp
    have ht : (run steps).threshold = if level = 0 then Level.warning else level := by
      rw [threshold, hl]
    rw [← ht]
    refine ⟨fun hs name => ?_, (text_run_message (reaches_iff.mpr hr) hp stream).2⟩
    have hlines : linesFor name logger severity message (run steps).handlers =
        linesFor name logger severity message ((foreignStreams before).map foreign) ++
          linesFor name logger severity message [⟨stream, true⟩] ++
          linesFor name logger severity message ((foreignStreams after).map foreign) := by
      rw [hh, List.append_cons]
      simp only [linesFor, List.filter_append, List.map_append]
    have hown : linesFor name logger severity message [⟨stream, true⟩] =
        if stream = name then [severity.label ++ " " ++ logger ++ ": " ++ message] else [] := by
      by_cases hn : stream = name <;> simp [linesFor, line, hn]
    rw [(text_run_message (reaches_iff.mpr hr) hp name).1 hs, hlines, linesFor_foreign,
      linesFor_foreign, hown]
  · intro s hs name
    have hrun : run (steps ++ [s]) = (run steps).step s := by
      rw [run, List.foldl_append]
      rfl
    rw [hrun, text_step hs]

/-- A log that is configured twice and shares its second stream with a foreign handler. -/
theorem shared_stream_has_both_lines :
    let before : List Step := [.addForeign "mail", .configure 10 "console", .addForeign "file"]
    let after : List Step := [.message "qeres" 20 "hidden"]
    let steps := before ++ .configure 0 "file" :: after
    (∀ s ∈ after, s.isConfiguration = false) ∧
      (run (steps ++ [.message "qeres.calls" 35 "lost"])).text "file" =
        (run steps).text "file" ++ "lost\nLevel 35 qeres.calls: lost\n" ∧
      (run (steps ++ [.message "qeres.calls" 35 "lost"])).text "console" =
        (run steps).text "console" := by
  intro before after steps
  have ha : ∀ s ∈ after, s.isConfiguration = false := by decide
  obtain ⟨-, -, hm, -⟩ := messages_are_written_once_per_handler before 0 "file" ha
  obtain ⟨hw, -⟩ := hm "qeres.calls" 35 "lost" (Or.inr ⟨"calls", by decide⟩) (by decide)
  refine ⟨ha, (hw (by decide) "file").trans ?_, (hw (by decide) "console").trans ?_⟩
  · congr 1
  · exact String.append_empty

end CallTree.Logging
