/-
  Links that a browser would run.

  A URL of one of the schemes `javascript`, `data` and `vbscript` is not a place to go to.  Links
  are meant to keep such URLs out, and mostly do: none of them has a front part of a web link, and
  none is a deep link of an ordinary scheme.  But a host may hold colons, so what follows the colon
  can pass for the rest of a host, and `javascript:alert.call(1)` is accepted as an address.

  `Link.isValid_iff_of_runsScript` says exactly which of these URLs are accepted.  From there the
  charts that carry one are found by way of the first event on each item.
-/
import GanttChart.Proofs.Chart.Actions
import GanttChart.Proofs.Chart.Link
import GanttChart.Proofs.Schedule.WellFormed

namespace GanttChart

open GanttChart.Text

/-! ## Script schemes -/

namespace Link

/-- The schemes whose URLs are a program or carry their own page. -/
def scriptSchemes : List (List Char) := ["javascript".toList, "data".toList, "vbscript".toList]

/-- The word is one of these schemes, in any case of ASCII letters. -/
def isScriptScheme (word : List Char) : Bool := scriptSchemes.any fun scheme => alike scheme word

/-- The text begins with one of these schemes and a colon, in any case of ASCII letters. -/
def runsScript (text : List Char) : Bool :=
  scriptSchemes.any fun scheme => (dropFront? (scheme ++ [':']) text).isSome

example : runsScript "JavaScript:alert(1)".toList = true := by decide

/-- Only a colon is read as a colon when case is ignored. -/
theorem eq_colon_of_toLower {c : Char} (h : c.toLower = ':') : c = ':' := by
  unfold Char.toLower at h
  split at h
  · rename_i hupper
    have hrange : 65 ≤ c.val.toNat ∧ c.val.toNat ≤ 90 := hupper
    have hval := congrArg (fun c : Char => c.val.toNat) h
    have hshift : ('a'.val - 'A'.val : UInt32).toNat = 32 := rfl
    have hcolon : ':'.val.toNat = 58 := rfl
    simp only [UInt32.toNat_add] at hval
    omega
  · exact h

/-- A spelling of a word and a colon is a spelling of the word, and a colon. -/
theorem alike_concat_colon {front spelling : List Char} :
    alike (front ++ [':']) spelling = true ↔ ∃ word, spelling = word ++ [':'] ∧ alike front word := by
  simp only [alike, beq_iff_eq]
  constructor
  · intro h
    rw [List.map_append, eq_comm, List.map_eq_append_iff] at h
    obtain ⟨word, colon, rfl, hword, hcolon⟩ := h
    obtain ⟨c, rfl, hc⟩ := List.map_eq_singleton_iff.1 hcolon
    rw [eq_colon_of_toLower hc]
    exact ⟨word, rfl, hword.symm⟩
  · rintro ⟨word, rfl, h⟩
    rw [List.map_append, List.map_append, h]

/-- A script link is a script scheme, a colon and anything. -/
theorem runsScript_iff {text : List Char} :
    runsScript text = true ↔
      ∃ word rest, isScriptScheme word = true ∧ text = word ++ ':' :: rest := by
  simp only [runsScript, isScriptScheme, List.any_eq_true, Option.isSome_iff_exists,
    dropFront?_eq_some_iff, alike_concat_colon]
  constructor
  · rintro ⟨scheme, hscheme, rest, _, ⟨word, rfl, hword⟩, rfl⟩
    exact ⟨word, rest, ⟨scheme, hscheme, hword⟩, by simp⟩
  · rintro ⟨word, rest, ⟨scheme, hscheme, hword⟩, rfl⟩
    exact ⟨scheme, hscheme, rest, word ++ [':'], ⟨word, rfl, hword⟩, by simp⟩

/-- The letters of a script scheme, in whatever case, are those of one in the list. -/
theorem isScriptScheme_iff {word : List Char} :
    isScriptScheme word = true ↔ word.map Char.toLower ∈ scriptSchemes := by
  have hsmall : ∀ scheme ∈ scriptSchemes, scheme.map Char.toLower = scheme := by decide
  simp only [isScriptScheme, List.any_eq_true, alike, beq_iff_eq]
  constructor
  · rintro ⟨scheme, hscheme, h⟩
    rw [← h, hsmall scheme hscheme]
    exact hscheme
  · intro h
    exact ⟨_, h, hsmall _ h⟩

/-- No script scheme holds a colon, so the first colon of a script link ends its scheme. -/
theorem colon_notMem_of_isScriptScheme {word : List Char} (h : isScriptScheme word = true) :
    ':' ∉ word := by
  intro hmem
  have hnone : ∀ scheme ∈ scriptSchemes, ':' ∉ scheme := by decide
  exact hnone _ (isScriptScheme_iff.1 h) (List.mem_map_of_mem hmem)

/-- No script link begins with `h` or `w`, in which the front parts of web links do. -/
theorem head?_of_runsScript {text : List Char} (h : runsScript text = true) :
    text.head? ≠ some 'h' ∧ text.head? ≠ some 'w' := by
  obtain ⟨word, rest, hword, rfl⟩ := runsScript_iff.1 h
  have hheads : ∀ scheme ∈ scriptSchemes,
      scheme ≠ [] ∧ scheme.head? ≠ some 'h' ∧ scheme.head? ≠ some 'w' := by decide
  obtain ⟨hne, hh, hw⟩ := hheads _ (isScriptScheme_iff.1 hword)
  cases word with
  | nil => exact absurd rfl hne
  | cons c word =>
    constructor
    · intro hc
      obtain rfl : c = 'h' := Option.some.inj hc
      exact hh rfl
    · intro hc
      obtain rfl : c = 'w' := Option.some.inj hc
      exact hw rfl

/-! ## Script links that are accepted -/

/-- As a web link, a script link can only be an address as it stands. -/
theorem isWeb_iff_of_runsScript {text : List Char} (h : runsScript text = true) :
    isWeb text = true ↔ IsAddress text := by
  obtain ⟨hh, hw⟩ := head?_of_runsScript h
  rw [isWeb_iff]
  constructor
  · rintro ⟨front, www, rest, rfl, hfront, hwww, haddress⟩
    rcases hfront with rfl | ⟨c, _, rfl | rfl⟩
    · rcases hwww with rfl | rfl
      · exact haddress
      · exact absurd rfl hw
    · exact absurd rfl hh
    · exact absurd rfl hh
  · intro haddress
    exact ⟨[], [], text, rfl, .inl rfl, .inl rfl, haddress⟩

/-- As a deep link, a script link needs a scheme that already begins like one. -/
theorem runsScript_of_isDeep {scheme text : List Char} (hscheme : isScriptScheme scheme = false)
    (h : runsScript text = true) (hdeep : isDeep scheme text = true) :
    runsScript scheme = true := by
  obtain ⟨word, rest, hword, rfl⟩ := runsScript_iff.1 h
  obtain ⟨tail, htext, _⟩ := isDeep_iff.1 hdeep
  have hne : word ≠ scheme := by
    rintro rfl
    rw [hword] at hscheme
    cases hscheme
  -- Both cuts are followed by a colon; the scheme cannot be the shorter part, for the script
  -- scheme would then hold a colon.
  rw [List.append_assoc, List.append_eq_append_iff] at htext
  rcases htext with ⟨more, rfl, hmore⟩ | ⟨more, rfl, hmore⟩
  · cases more with
    | nil => exact absurd (List.append_nil word).symm hne
    | cons c more =>
      obtain rfl : ':' = c := (List.cons.inj hmore).1
      exact runsScript_iff.2 ⟨word, more, hword, rfl⟩
  · cases more with
    | nil => exact absurd (List.append_nil scheme) hne
    | cons c more =>
      obtain rfl : ':' = c := (List.cons.inj hmore).1
      exact absurd (by simp) (colon_notMem_of_isScriptScheme hword)

/-- How a script link gets through: it reads as an address, the colon being part of the host, or as
    a deep link of a scheme that begins like a script link itself. -/
def SlipsThrough (scheme url : String) : Prop :=
  IsAddress url.toList ∨ runsScript scheme.toList = true ∧ isDeep scheme.toList url.toList = true

/-- **The script links that are accepted.** -/
theorem isValid_iff_of_runsScript {scheme url : String}
    (hscheme : isScriptScheme scheme.toList = false) (h : runsScript url.toList = true) :
    isValid scheme url = true ↔ SlipsThrough scheme url := by
  rw [isValid, Bool.or_eq_true, isWeb_iff_of_runsScript h, SlipsThrough]
  constructor
  · rintro (haddress | hdeep)
    · exact .inl haddress
    · exact .inr ⟨runsScript_of_isDeep hscheme h hdeep, hdeep⟩
  · rintro (haddress | ⟨_, hdeep⟩)
    · exact .inl haddress
    · exact .inr hdeep

end Link

/-! ## Script links in a chart -/

/-- The target of every event in a text is an item. -/
theorem contains_target_of_ofText {text : String} {s : Schedule}
    (h : Schedule.ofText text = .ok s) {event : Event} (hevent : event ∈ s.events) :
    s.contains event.target = true := by
  have hwell := wellFormed_of_addLines h
  obtain ⟨k, _, hrefers⟩ := hwell.events.exists_of_mem hevent
  obtain ⟨i, _, hdeclares⟩ := hrefers.target
  exact Schedule.contains_iff.2 (hwell.declared i _ hdeclares)

/-- The actions of a text's chart are those of the first events on their items. -/
theorem exists_action_iff_of_ofText {text : String} {s : Schedule} {config : Config}
    {g : Geometry} (hs : Schedule.ofText text = .ok s) (hg : s.layout config = .ok g) {a : Action} :
    (∃ instruction ∈ g.instructions, instruction.action = some a) ↔
      ∃ event, s.event? event.target = some event ∧ event.link = a := by
  rw [Schedule.exists_action_iff hg]
  constructor
  · rintro ⟨event, _, hevent, ha⟩
    exact ⟨event, hevent, ha⟩
  · rintro ⟨event, hevent, ha⟩
    exact ⟨event, contains_target_of_ofText hs (Schedule.mem_of_event? hevent).1, hevent, ha⟩

/-- **Which script links are accepted, and which charts carry one.**  Unless deep links have a
    script scheme, a script link is accepted exactly if it slips through as an address or as a deep
    link; and a text's chart carries a script link exactly if the first event on some item has one,
    which then slips through.

    Later events on an item count as well for whether there is a chart, but no shape carries
    them. -/
theorem script_links_iff_slipsThrough {config : Config}
    (hscheme : Link.isScriptScheme config.deepLinkScheme.toList = false) :
    (∀ url, Link.runsScript url.toList = true →
      (Link.isValid config.deepLinkScheme url = true ↔
        Link.SlipsThrough config.deepLinkScheme url)) ∧
    ∀ text s g, Schedule.ofText text = .ok s → s.layout config = .ok g →
      ((∃ instruction ∈ g.instructions, ∃ a, instruction.action = some a ∧
          Link.runsScript a.url.toList = true) ↔
        ∃ event, s.event? event.target = some event ∧ Link.runsScript event.url.toList = true ∧
          Link.SlipsThrough config.deepLinkScheme event.url) := by
  refine ⟨fun url h => Link.isValid_iff_of_runsScript hscheme h, ?_⟩
  intro text s g hs hg
  constructor
  · rintro ⟨instruction, hi, a, ha, hrun⟩
    obtain ⟨event, hevent, rfl⟩ := (exists_action_iff_of_ofText hs hg).1 ⟨instruction, hi, ha⟩
    rw [Event.url_link] at hrun
    have hvalid := Schedule.isValid_of_layout hg (Schedule.mem_of_event? hevent).1
    exact ⟨event, hevent, hrun, (Link.isValid_iff_of_runsScript hscheme hrun).1 hvalid⟩
  · rintro ⟨event, hevent, hrun, _⟩
    obtain ⟨instruction, hi, ha⟩ := (exists_action_iff_of_ofText hs hg).2 ⟨event, hevent, rfl⟩
    refine ⟨instruction, hi, event.link, ha, ?_⟩
    rw [Event.url_link]
    exact hrun

/-- A call in a script: what follows the colon is read as the rest of a host, a domain and a tail. -/
theorem script_links_iff_slipsThrough_call :
    Link.isScriptScheme "obsidian".toList = false ∧
      Link.isValid "obsidian" "javascript:alert.call(1)" = true ∧
      ∃ s g, Schedule.ofText
          "task T,a,,2024-01-01,1D\nclick a,goto,javascript:alert.call(1)" = .ok s ∧
        s.layout { now := default } = .ok g ∧
        ∃ instruction ∈ g.instructions, ∃ a, instruction.action = some a ∧
          Link.runsScript a.url.toList = true := by
  have hscheme : Link.isScriptScheme "obsidian".toList = false := by decide
  have hrun : Link.runsScript "javascript:alert.call(1)".toList = true := by decide
  have haddress : Link.IsAddress "javascript:alert.call(1)".toList :=
    ⟨"javascript:alert".toList, "call".toList, "(1)".toList, rfl,
      ⟨List.all_eq_true.1 (by decide), by decide, by decide⟩,
      ⟨List.all_eq_true.1 (by decide), by decide, by decide⟩, by decide⟩
  obtain ⟨haccepted, hcharts⟩ := @script_links_iff_slipsThrough { now := default } hscheme
  refine ⟨hscheme, (haccepted _ hrun).2 (.inl haddress), ?_⟩
  have hok : ((Schedule.ofText
      "task T,a,,2024-01-01,1D\nclick a,goto,javascript:alert.call(1)").map fun s =>
        (s.event? "a", (s.layout { now := default }).isOk)) =
      .ok (some ⟨"a", .goTo, "javascript:alert.call(1)"⟩, true) := by decide +kernel
  obtain ⟨s, hs, hresult⟩ := Outcome.map_eq_ok_iff.1 hok
  obtain ⟨hevent, hlayout⟩ := Prod.mk.inj hresult
  cases hg : s.layout { now := default } with
  | error fault =>
    rw [hg] at hlayout
    cases hlayout
  | ok g =>
    refine ⟨s, g, hs, hg, (hcharts _ s g hs hg).2 ?_⟩
    exact ⟨⟨"a", .goTo, "javascript:alert.call(1)"⟩, hevent, hrun, .inl haddress⟩

/-- A chart whose bar goes to a script, although deep links have an ordinary scheme. -/
theorem layout_draws_script_link :
    ¬ ∀ (text : String) (config : Config) (s : Schedule) (g : Geometry),
      Link.isScriptScheme config.deepLinkScheme.toList = false →
      Schedule.ofText text = .ok s → s.layout config = .ok g →
      ∀ instruction ∈ g.instructions, ∀ a, instruction.action = some a →
        Link.runsScript a.url.toList = false := by
  intro hnever
  have hok : ((Schedule.ofText
      "task T,a,,2024-01-01,1D\nclick a,goto,javascript:alert.call(1)").map fun s =>
        (s.layout { now := default }).map fun g => g.instructions.any fun instruction =>
          instruction.action == some (.navigate "javascript:alert.call(1)")) =
      .ok (.ok true) := by decide +kernel
  obtain ⟨s, hs, hlayout⟩ := Outcome.map_eq_ok_iff.1 hok
  obtain ⟨g, hg, hany⟩ := Outcome.map_eq_ok_iff.1 hlayout
  obtain ⟨instruction, hi, ha⟩ := List.any_eq_true.1 hany
  have hfalse := hnever _ { now := default } s g (by decide) hs hg instruction hi _ (eq_of_beq ha)
  have hrun : Link.runsScript "javascript:alert.call(1)".toList = true := by decide
  rw [Action.url, hrun] at hfalse
  cases hfalse

end GanttChart
