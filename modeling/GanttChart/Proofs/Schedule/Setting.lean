/-
  Options of a text.

  1. **The last line counts.**  A line sets an option if its first word is the option's name in some
     case and a further word follows (`Line.Sets`).  After a line an option has the value that this
     line sets, and if it sets none the value from before (`Change.get_eq_some_iff`).  So after all
     lines it has the value of the last line that sets it (`get_eq_some_iff_of_addLines`).

  2. **Nothing looks at options.**  Lines are read alike whatever the options are
     (`addition_withOptions`).  So remarks in place of all option lines (`Muted`) change nothing but
     the options: the induction carries two schedules that differ in their options at most, and the
     second one keeps those it began with (`addLines_muted`).
-/
import GanttChart.Proofs.Schedule.Lookup
import GanttChart.Proofs.Schedule.Spelling

namespace GanttChart

open GanttChart.Outcome GanttChart.Text

/-! ## Lines that set an option

  Which option a line sets is said here without the reader: by the words of its body.  A line
  with a name alone sets nothing, and neither does one with a name that is not known. -/

namespace OptionKey

/-- A name means the option that it is the name of. -/
theorem ofName?_eq_some_iff {name : String} {key : OptionKey} :
    ofName? name = some key ↔ name = key.name := by
  constructor
  · intro h
    have hname := List.find?_some (p := fun known : OptionKey => known.name == name) h
    exact (eq_of_beq hname).symm
  · rintro rfl
    exact ofName?_name key

/-- A word means an option if it is the name in some case. -/
theorem ofWord?_eq_some_iff {word : List Char} {key : OptionKey} :
    ofWord? word = some key ↔ String.ofList (lowercase word) = key.name :=
  ofName?_eq_some_iff

end OptionKey

/-- The line sets an option to a value: its first word is the name of the option in some case, and
    the value is the further words, of which there is at least one. -/
def Line.Sets (key : OptionKey) (value : String) (line : Line) : Prop :=
  ∃ body word values, line = .statement .option body ∧ words body = word :: values ∧
    values ≠ [] ∧ String.ofList (lowercase word) = key.name ∧
    value = String.ofList (unwords values)

/-- The value is what the last line that sets the option sets it to. -/
def LastSets (key : OptionKey) (value : String) (source : List Line) : Prop :=
  ∃ earlier line later, source = earlier ++ line :: later ∧ line.Sets key value ∧
    ∀ other ∈ later, ∀ text, ¬ other.Sets key text

section Settings

variable {key : OptionKey} {value : String} {line : Line} {source : List Line}

/-- A line sets an option if that is its assignment. -/
theorem Line.sets_option_iff {body : List Char} :
    (Line.statement .option body).Sets key value ↔
      Schedule.assignment? body = some (key, value) := by
  unfold Schedule.assignment?
  constructor
  · rintro ⟨_, word, values, hline, hwords, hne, hname, rfl⟩
    cases hline
    obtain ⟨first, rest, rfl⟩ := List.exists_cons_of_ne_nil hne
    rw [hwords]
    dsimp only
    rw [OptionKey.ofWord?_eq_some_iff.2 hname]
    rfl
  · intro h
    split at h
    · rename_i word first rest hwords
      obtain ⟨known, hknown, hpair⟩ := Option.map_eq_some_iff.1 h
      cases hpair
      have hname := OptionKey.ofWord?_eq_some_iff.1 hknown
      exact ⟨body, word, first :: rest, rfl, hwords, List.cons_ne_nil first rest, hname, rfl⟩
    · cases h

/-- Only option lines set options. -/
theorem Line.not_sets (h : line.isStatement .option = false) : ¬ line.Sets key value := by
  rintro ⟨body, _, _, rfl, _⟩
  cases h

/-- One more line sets the option, or leaves it to the lines before. -/
theorem lastSets_concat :
    LastSets key value (source ++ [line]) ↔
      line.Sets key value ∨ (∀ text, ¬ line.Sets key text) ∧ LastSets key value source := by
  constructor
  · rintro ⟨earlier, setting, later, hsplit, hsets, hlater⟩
    -- the line that sets it is the new one, or the new one is among those after it
    rcases List.eq_nil_or_concat later with rfl | ⟨later, last, rfl⟩
    · obtain ⟨_, hlast⟩ := List.append_inj' hsplit rfl
      cases hlast
      exact .inl hsets
    · rw [List.concat_eq_append] at hsplit hlater
      rw [← List.cons_append, ← List.append_assoc] at hsplit
      obtain ⟨hsource, hlast⟩ := List.append_inj' hsplit rfl
      cases hlast
      refine .inr ⟨hlater line (by simp), earlier, setting, later, hsource, hsets, ?_⟩
      intro other hother
      exact hlater other (List.mem_append_left _ hother)
  · rintro (hsets | ⟨hnot, earlier, setting, later, rfl, hsets, hlater⟩)
    · exact ⟨source, line, [], rfl, hsets, by simp⟩
    · refine ⟨earlier, setting, later ++ [line], by simp, hsets, ?_⟩
      intro other hother
      rcases List.mem_append.1 hother with hother | hother
      · exact hlater other hother
      · rw [List.mem_singleton.1 hother]
        exact hnot

/-- There is a last line that sets the option if there is any. -/
theorem exists_lastSets_iff :
    (∃ value, LastSets key value source) ↔ ∃ line ∈ source, ∃ value, line.Sets key value := by
  constructor
  · rintro ⟨value, earlier, line, later, rfl, hsets, _⟩
    exact ⟨line, by simp, value, hsets⟩
  · intro h
    -- by induction from the end: the last line sets it, or leaves it to those before
    induction source using List.reverseRecOn with
    | nil =>
      obtain ⟨_, hmem, _⟩ := h
      cases hmem
    | append_singleton source last ih =>
      by_cases hlast : ∃ value, last.Sets key value
      · obtain ⟨value, hsets⟩ := hlast
        exact ⟨value, lastSets_concat.2 (.inl hsets)⟩
      · obtain ⟨line, hmem, value, hsets⟩ := h
        have hearlier : line ∈ source := by
          rcases List.mem_append.1 hmem with hmem | hmem
          · exact hmem
          · rw [List.mem_singleton.1 hmem] at hsets
            exact absurd ⟨value, hsets⟩ hlast
        obtain ⟨found, hfound⟩ := ih ⟨line, hearlier, value, hsets⟩
        exact ⟨found, lastSets_concat.2 (.inr ⟨not_exists.1 hlast, hfound⟩)⟩

end Settings

/-! ## The last line counts -/

section Values

variable {key : OptionKey} {value : String}

/-- **After a line** an option has the value that the line sets, or else the value from before.
    Only a line that sets an option does anything to the options, and it leaves the others alone. -/
theorem Change.get_eq_some_iff {line : Line} {before after : Schedule}
    (h : Change line before after) :
    after.options.get key = some value ↔
      line.Sets key value ∨
        (∀ text, ¬ line.Sets key text) ∧ before.options.get key = some value := by
  -- A line that sets nothing leaves the options as they are.
  have hkeep : (∀ text, ¬ line.Sets key text) → after.options = before.options →
      (after.options.get key = some value ↔ line.Sets key value ∨
        (∀ text, ¬ line.Sets key text) ∧ before.options.get key = some value) := by
    intro hnot hsame
    rw [hsame]
    constructor
    · intro hvalue
      exact .inr ⟨hnot, hvalue⟩
    · rintro (hsets | ⟨_, hvalue⟩)
      · exact absurd hsets (hnot value)
      · exact hvalue
  cases h with
  | ignored => exact hkeep (fun _ => Line.not_sets rfl) rfl
  | noOption hnone =>
    refine hkeep (fun text hsets => ?_) rfl
    rw [Line.sets_option_iff, hnone] at hsets
    cases hsets
  | @option _ body known text hassign =>
    simp only [Line.sets_option_iff, hassign, Options.get_set, Option.some.injEq, Prod.mk.injEq]
    by_cases hkey : key = known
    · simp [hkey]
    · simp [hkey, Ne.symm hkey]
  | group => exact hkeep (fun _ => Line.not_sets rfl) rfl
  | task _ => exact hkeep (fun _ => Line.not_sets rfl) rfl
  | milestone _ => exact hkeep (fun _ => Line.not_sets rfl) rfl
  | click _ => exact hkeep (fun _ => Line.not_sets rfl) rfl

namespace Schedule

/-- **After all lines** an option has the value of the last line that sets it. -/
theorem get_eq_some_iff_of_addLines {line : Nat} {texts : List (List Char)} {after : Schedule}
    (h : addLines {} line texts = .ok after) :
    after.options.get key = some value ↔ LastSets key value (texts.map Line.ofText) := by
  refine addLines_induction
    (fun front s => s.options.get key = some value ↔ LastSets key value (front.map Line.ofText))
    ?_ ?_ h
  · have hunset : ({} : Options).get key = none := by cases key <;> rfl
    constructor
    · intro hvalue
      rw [hunset] at hvalue
      cases hvalue
    · rintro ⟨earlier, setting, later, hsplit, _⟩
      simp at hsplit
  · intro front text before after hbefore hchange
    rw [hchange.get_eq_some_iff, hbefore, List.map_append, List.map_singleton, lastSets_concat]

/-- An option is unset after all lines exactly if no line sets it. -/
theorem get_eq_none_iff_of_addLines {line : Nat} {texts : List (List Char)} {after : Schedule}
    (h : addLines {} line texts = .ok after) :
    after.options.get key = none ↔
      ∀ setting ∈ texts.map Line.ofText, ∀ value, ¬ setting.Sets key value := by
  have hset : (∃ value, after.options.get key = some value) ↔
      ∃ setting ∈ texts.map Line.ofText, ∃ value, setting.Sets key value := by
    rw [← exists_lastSets_iff]
    exact exists_congr fun value => get_eq_some_iff_of_addLines h
  rw [Option.eq_none_iff_forall_ne_some, ← not_exists, hset]
  simp only [not_exists, not_and]

end Schedule

end Values

/-! ## Nothing looks at options

  Two runs are compared, of a text and of the same text without its options.  Their schedules
  differ in the options at most, all the way; this is an invariant because no line looks at
  options. -/

/-- The second line is a remark in place of an option line; any other line stays. -/
def Muted (first second : List Char) : Prop :=
  if (Line.ofText first).isStatement .option then IsRemark second else second = first

instance (first second : List Char) : Decidable (Muted first second) :=
  inferInstanceAs
    (Decidable (if (Line.ofText first).isStatement .option then IsRemark second else second = first))

namespace Schedule

/-- **Reading a line does not look at the options.** -/
theorem addition_withOptions (s : Schedule) (options : Options) (line : Line) :
    { s with options }.addition line = s.addition line :=
  addition_congr {
    anchors := fun _ _ => rfl
    declared := fun _ _ => rfl
    group := fun _ => rfl }

/-- Any line but one of options is read alike, and leaves the options alone. -/
theorem addLine_withOptions {text : List Char}
    (h : (Line.ofText text).isStatement .option = false) (s : Schedule) (options : Options) :
    { s with options }.addLine text = (s.addLine text).map fun after => { after with options } := by
  rw [addLine_eq, addLine_eq, addition_withOptions]
  cases hx : s.addition (Line.ofText text) with
  | error fault => rfl
  | ok x =>
    cases x with
    | option key value =>
      have hpart := part?_of_addition hx (.option key) rfl
      cases hline : Line.ofText text with
      | statement keyword body =>
        rw [hline] at h hpart
        cases keyword with
        | option => cases h
        | _ => cases hpart
      | ignored =>
        rw [hline] at hpart
        cases hpart
      | unknown =>
        rw [hline] at hpart
        cases hpart
    | _ => rfl

/-- An option line is always accepted, and changes nothing but the options. -/
theorem addLine_option {text : List Char} (h : (Line.ofText text).isStatement .option = true)
    (s : Schedule) : ∃ options, s.addLine text = .ok { s with options } := by
  unfold addLine
  cases hline : Line.ofText text with
  | statement keyword body =>
    rw [hline] at h
    obtain rfl : keyword = .option := eq_of_beq h
    exact ⟨_, rfl⟩
  | ignored =>
    rw [hline] at h
    cases h
  | unknown =>
    rw [hline] at h
    cases h

/-- **Without option lines** the same lines are read with the same outcome, but for the options.
    The run of the second text has the options that it began with, whatever they are. -/
theorem addLines_muted {texts others : List (List Char)} (h : List.Forall₂ Muted texts others)
    (s : Schedule) (options : Options) (line : Nat) :
    { s with options }.addLines line others =
      (s.addLines line texts).map fun after => { after with options } := by
  -- by induction on the pairs of lines, for all schedules and with the same options throughout
  induction h generalizing s line with
  | nil => rfl
  | @cons text other texts others hfirst _ ih =>
    rw [addLines, addLines]
    unfold Muted at hfirst
    split at hfirst
    · rename_i hoption
      obtain ⟨set, hset⟩ := addLine_option hoption s
      have hremark : { s with options }.addLine other = .ok { s with options } := by
        rw [addLine, hfirst.ofText_eq]
      rw [hset, hremark]
      exact ih { s with options := set } (line + 1)
    · rename_i hother
      rw [hfirst, addLine_withOptions (by simpa using hother)]
      cases s.addLine text with
      | error fault => rfl
      | ok after => exact ih after (line + 1)

end Schedule

/-- The line as a comment if it is an option line, and as it stands if not. -/
def mute (line : List Char) : List Char :=
  if (Line.ofText line).isStatement .option then "%%".toList ++ line else line

/-- A line is muted by this. -/
theorem muted_mute (line : List Char) : Muted line (mute line) := by
  unfold Muted mute
  split
  · exact .inr ⟨line, rfl⟩
  · rfl

/-- And it is still one line. -/
theorem newline_notMem_mute {line : List Char} (h : '\n' ∉ line) : '\n' ∉ mute line := by
  unfold mute
  split
  · simpa using h
  · exact h

/-- In every text the option lines can be turned into comments. -/
theorem exists_muted (text : String) :
    ∃ other : String, List.Forall₂ Muted (segments text.toList) (segments other.toList) := by
  have hn : ∀ piece ∈ (segments text.toList).map mute, '\n' ∉ piece := by
    intro piece hpiece
    obtain ⟨line, hline, rfl⟩ := List.mem_map.1 hpiece
    exact newline_notMem_mute (newline_notMem_of_mem_segments hline)
  refine ⟨String.ofList (((segments text.toList).map mute).flatMap fun piece => piece ++ ['\n']), ?_⟩
  rw [String.toList_ofList, segments_flatMap_newline hn, List.forall₂_map_right_iff,
    List.forall₂_same]
  intro line _
  exact muted_mute line

namespace Schedule

/-- **Option lines**: the last one counts, and nothing else depends on them.  In the schedule of an
    accepted text an option has the value of the last line that sets it, and is unset if there is no
    such line.  A text with remarks in place of its option lines, and there is one for every text,
    describes the same schedule but for the options, or has the same fault on the same line. -/
theorem ofText_option_lines (text : String) :
    (∀ s, ofText text = .ok s → ∀ key,
      (∀ value, s.options.get key = some value ↔ LastSets key value (sourceOf text)) ∧
      (s.options.get key = none ↔ ∀ line ∈ sourceOf text, ∀ value, ¬ line.Sets key value)) ∧
    (∃ other : String, List.Forall₂ Muted (segments text.toList) (segments other.toList)) ∧
    ∀ other : String, List.Forall₂ Muted (segments text.toList) (segments other.toList) →
      (∀ s, ofText text = .ok s → ofText other = .ok { s with options := {} }) ∧
      ∀ located, ofText text = .error located → ofText other = .error located := by
  refine ⟨?_, exists_muted text, ?_⟩
  · intro s h key
    exact ⟨fun value => get_eq_some_iff_of_addLines h, get_eq_none_iff_of_addLines h⟩
  · intro other hother
    have hsame : ofText other = (ofText text).map fun s => { s with options := {} } := by
      rw [ofText_eq_addLines_segments text, ofText_eq_addLines_segments other]
      exact addLines_muted hother {} {} 1
    constructor
    · intro s h
      rw [hsame, h]
      rfl
    · intro located h
      rw [hsame, h]
      rfl

/-- A text with a title that is set twice and an option without a value, the same text with comments
    in their place, and a text that fails after an option line. -/
theorem ofText_option_lines_two_titles :
    (∃ s, ofText "option title A\ntask T,a,,2024-01-01,1D\nOPTION Title B  c\noption axisTicks" =
        .ok s ∧
      LastSets .title "B c" (sourceOf
        "option title A\ntask T,a,,2024-01-01,1D\nOPTION Title B  c\noption axisTicks") ∧
      (∀ line ∈ sourceOf
          "option title A\ntask T,a,,2024-01-01,1D\nOPTION Title B  c\noption axisTicks",
        ∀ value, ¬ line.Sets .axisTicks value) ∧
      ofText "%%\ntask T,a,,2024-01-01,1D\n%% B\n%%" = .ok { s with options := {} } ∧
      s.tasks.map (fun task => task.id) = ["a"]) ∧
    ofText "option title A\nend" = .error ⟨2, .noKeyword⟩ ∧
      ofText "%% A\nend" = .error ⟨2, .noKeyword⟩ := by
  constructor
  · have hok : (ofText
        "option title A\ntask T,a,,2024-01-01,1D\nOPTION Title B  c\noption axisTicks").map
          (fun s => (s.options.get .title, s.options.get .axisTicks,
            s.tasks.map fun task => task.id)) =
        .ok (some "B c", none, ["a"]) := by decide +kernel
    obtain ⟨s, hs, hvalues⟩ := map_eq_ok_iff.1 hok
    obtain ⟨htitle, hrest⟩ := Prod.mk.inj hvalues
    obtain ⟨hticks, htasks⟩ := Prod.mk.inj hrest
    obtain ⟨hoptions, _, hmuted⟩ := ofText_option_lines
      "option title A\ntask T,a,,2024-01-01,1D\nOPTION Title B  c\noption axisTicks"
    have hother := (hmuted "%%\ntask T,a,,2024-01-01,1D\n%% B\n%%" (by decide +kernel)).1 s hs
    exact ⟨s, hs, ((hoptions s hs .title).1 "B c").1 htitle, (hoptions s hs .axisTicks).2.1 hticks,
      hother, htasks⟩
  · have hfault : ofText "option title A\nend" = .error ⟨2, .noKeyword⟩ := by decide +kernel
    obtain ⟨_, _, hmuted⟩ := ofText_option_lines "option title A\nend"
    exact ⟨hfault, (hmuted "%% A\nend" (by decide +kernel)).2 _ hfault⟩

end Schedule

end GanttChart
