/-
  Where a character of a document comes from.

  1. **Markup.**  Names, tags and entities have no character that XML does not allow, and escaping
     leaves such a character as it is.  So it is in a piece of markup exactly if a text or the value
     of an attribute holds it (`Markup.mem_render_iff`).

  2. **Documents.**  What a document says beside the texts of its instructions (`Instruction.texts`)
     is clean: numbers, names of layers and the style sheet.  So a character that XML does not allow
     is in the document exactly if the text of an instruction holds it (`Svg.mem_render_iff`).
-/
import GanttChart.Proofs.Chart.Painting
import GanttChart.Proofs.Svg.Character
import GanttChart.Proofs.Svg.Document

namespace GanttChart

open GanttChart.Svg

/-! ## Markup -/

namespace Markup

/-- A text or the value of an attribute holds the character. -/
inductive Says (c : Char) : Markup → Prop
  | text {content : String} (h : c ∈ content.toList) : Says c (.text content)
  | value {tag : String} {attributes : List (String × String)} {children : List Markup}
    {pair : String × String} (hpair : pair ∈ attributes) (h : c ∈ pair.2.toList) :
    Says c (.element tag attributes children)
  | inner {tag : String} {attributes : List (String × String)} {children : List Markup}
    {child : Markup} (hchild : child ∈ children) (h : Says c child) :
    Says c (.element tag attributes children)

/-- A text says its characters. -/
theorem says_text_iff {c : Char} {content : String} :
    Says c (.text content) ↔ c ∈ content.toList := by
  constructor
  · rintro ⟨h⟩
    exact h
  · exact .text

/-- An element says what its attributes and its children say. -/
theorem says_element_iff {c : Char} {tag : String} {attributes : List (String × String)}
    {children : List Markup} :
    Says c (.element tag attributes children) ↔
      (∃ pair ∈ attributes, c ∈ pair.2.toList) ∨ ∃ child ∈ children, Says c child := by
  constructor
  · intro h
    cases h with
    | value hpair h => exact .inl ⟨_, hpair, h⟩
    | inner hchild h => exact .inr ⟨_, hchild, h⟩
  · rintro (⟨pair, hpair, h⟩ | ⟨child, hchild, h⟩)
    · exact .value hpair h
    · exact .inner hchild h

/-- The text of several pieces is that of each. -/
theorem mem_renderAll_iff {c : Char} {children : List Markup} :
    c ∈ renderAll children ↔ ∃ child ∈ children, c ∈ child.render := by
  induction children with
  | nil => simp [renderAll]
  | cons child rest ih =>
    rw [renderAll, List.mem_append, ih]
    simp

section Render

variable {c : Char}

/-- Escaping neither hides nor makes a character that is not allowed. -/
theorem mem_escapeChar_iff (hc : ¬ IsChar c) {d : Char} : c ∈ escapeChar d ↔ c = d := by
  -- neither an entity nor the character that it stands for is one that is not allowed
  have hentity : ∀ {d : Char} {entity : List Char}, IsClean entity → IsChar d →
      (c ∈ entity ↔ c = d) := fun hentity hd =>
    iff_of_false (hentity.notMem hc) (ne_of_isChar hc hd)
  unfold escapeChar
  split
  · subst d
    exact hentity (by decide) (by decide)
  · split
    · subst d
      exact hentity (by decide) (by decide)
    · split
      · subst d
        exact hentity (by decide) (by decide)
      · split
        · subst d
          exact hentity (by decide) (by decide)
        · exact List.mem_singleton

/-- So an escaped text holds it exactly if the text does. -/
theorem mem_escape_iff (hc : ¬ IsChar c) {text : List Char} : c ∈ escape text ↔ c ∈ text := by
  simp [escape, mem_escapeChar_iff hc]

/-- A name holds no character that is not allowed. -/
theorem notMem_of_isName (hc : ¬ IsChar c) {name : String} (h : IsName name) :
    c ∉ name.toList := by
  intro hmem
  rcases Bool.or_eq_true_iff.1 (h.2 c hmem) with halphanum | hhyphen
  · exact hc (isChar_of_isAlphanum halphanum)
  · exact ne_of_isChar hc (by decide) (eq_of_beq hhyphen)

/-- In the attributes of a tag it is in a value, as names and signs are clean. -/
theorem mem_renderAttributes_iff (hc : ¬ IsChar c) {attributes : List (String × String)}
    (names : ∀ pair ∈ attributes, IsName pair.1) :
    c ∈ renderAttributes attributes ↔ ∃ pair ∈ attributes, c ∈ pair.2.toList := by
  have hspace : c ≠ ' ' := ne_of_isChar hc (by decide)
  have hequals : c ∉ "=\"".toList := IsClean.notMem (by decide) hc
  have hquote : c ≠ '"' := ne_of_isChar hc (by decide)
  simp only [renderAttributes, List.mem_flatMap]
  refine exists_congr fun pair => and_congr_right fun hpair => ?_
  have hname := notMem_of_isName hc (names pair hpair)
  rw [List.mem_append, List.mem_append, List.cons_append, List.mem_cons, List.mem_append,
    List.mem_singleton, mem_escape_iff hc]
  tauto

/-- **A character that XML does not allow** is in proper markup exactly where a text or the value of
    an attribute holds it. -/
theorem mem_render_iff (hc : ¬ IsChar c) {m : Markup} (h : m.Proper) :
    c ∈ m.render ↔ m.Says c := by
  -- by induction on the tree; tags and signs are clean, so what is left are attributes and children
  induction h with
  | text content => rw [render, mem_escape_iff hc, says_text_iff]
  | @element tag attributes children name names _ _ ih =>
    have hname := notMem_of_isName hc name
    have hopen : c ≠ '<' := ne_of_isChar hc (by decide)
    have hclose : c ≠ '>' := ne_of_isChar hc (by decide)
    have hend : c ∉ "</".toList := IsClean.notMem (by decide) hc
    have hempty : c ∉ "/>".toList := IsClean.notMem (by decide) hc
    have hchildren : c ∈ renderAll children ↔ ∃ child ∈ children, Says c child := by
      rw [mem_renderAll_iff]
      exact exists_congr fun child => and_congr_right fun hchild => ih child hchild
    rw [says_element_iff, ← mem_renderAttributes_iff hc names, ← hchildren]
    cases children with
    | nil =>
      simp only [render, renderAll, List.mem_append, List.mem_cons, List.not_mem_nil]
      tauto
    | cons child rest =>
      rw [renderAll]
      simp only [render, List.mem_append, List.mem_cons, List.not_mem_nil]
      tauto

/-- An element that holds a text says it beside its attributes. -/
theorem says_textElement_iff {tag : String} {attributes : List (String × String)}
    {content : String} :
    (textElement tag attributes content).Says c ↔
      (∃ pair ∈ attributes, c ∈ pair.2.toList) ∨ c ∈ content.toList := by
  rw [textElement, says_element_iff]
  simp [says_text_iff]

/-- Line feeds around children are nothing that is not allowed. -/
theorem says_block_iff (hc : ¬ IsChar c) {tag : String} {attributes : List (String × String)}
    {children : List Markup} :
    (block tag attributes children).Says c ↔
      (∃ pair ∈ attributes, c ∈ pair.2.toList) ∨ ∃ child ∈ children, child.Says c := by
  have hfeed : ¬ (text "\n").Says c := by
    rw [says_text_iff]
    exact IsClean.notMem (by decide) hc
  rw [block, says_element_iff]
  refine or_congr Iff.rfl ?_
  simp only [List.mem_append, List.mem_flatMap, List.mem_cons, List.not_mem_nil, or_false]
  constructor
  · rintro ⟨piece, ⟨child, hchild, rfl | rfl⟩ | rfl, hpiece⟩
    · exact absurd hpiece hfeed
    · exact ⟨_, hchild, hpiece⟩
    · exact absurd hpiece hfeed
  · rintro ⟨child, hchild, h⟩
    exact ⟨child, .inl ⟨child, hchild, .inr rfl⟩, h⟩

end Render

end Markup

/-! ## Documents -/

/-- The texts of an instruction: its style, the id of its item, its URL and the lines of its
    shape. -/
def Instruction.texts (instruction : Instruction) : List String :=
  instruction.style ::
    (instruction.item.toList ++ (instruction.action.map Action.url).toList ++
      instruction.shape.lines)

/-- A text of the instruction holds the character. -/
def Instruction.Says (c : Char) (instruction : Instruction) : Prop :=
  ∃ text ∈ instruction.texts, c ∈ text.toList

/-- The texts of an instruction one by one. -/
theorem Instruction.says_iff {c : Char} {instruction : Instruction} :
    instruction.Says c ↔
      c ∈ instruction.style.toList ∨ (∃ id ∈ instruction.item, c ∈ id.toList) ∨
        (∃ action ∈ instruction.action, c ∈ action.url.toList) ∨
          ∃ line ∈ instruction.shape.lines, c ∈ line.toList := by
  unfold Says texts
  simp only [List.mem_cons, List.mem_append, Option.mem_toList, Option.mem_def,
    Option.map_eq_some_iff, or_and_right, exists_or, exists_eq_left, or_assoc,
    exists_exists_and_eq_and]

namespace Svg

variable {c : Char}

/-- Attributes that are clean do not say the character. -/
theorem not_exists_of_isClean (hc : ¬ IsChar c) {attributes : List (String × String)}
    (h : ∀ pair ∈ attributes, IsClean pair.2.toList) :
    ¬ ∃ pair ∈ attributes, c ∈ pair.2.toList := by
  rintro ⟨pair, hpair, hmem⟩
  exact (h pair hpair).notMem hc hmem

/-- The children of a shape say its lines. -/
theorem says_shapeChildren_iff (hc : ¬ IsChar c) {shape : Shape} :
    (∃ child ∈ shapeChildren shape, child.Says c) ↔ ∃ line ∈ shape.lines, c ∈ line.toList := by
  cases shape with
  | text x y lines lineHeight anchor =>
    have hplace : ∀ n : Nat,
        ¬ ∃ pair ∈ [("x", number x), ("y", number (y + .ofNat n * lineHeight))],
          c ∈ pair.2.toList := by
      intro n
      refine not_exists_of_isClean hc ?_
      simp only [List.forall_mem_cons, isClean_number, true_and]
      exact fun _ h => nomatch h
    simp only [shapeChildren, Shape.lines, List.mem_mapIdx]
    constructor
    · rintro ⟨_, ⟨n, hn, rfl⟩, h⟩
      rw [Markup.says_textElement_iff, or_iff_right (hplace n)] at h
      exact ⟨lines[n], List.getElem_mem hn, h⟩
    · rintro ⟨line, hline, h⟩
      obtain ⟨n, hn, rfl⟩ := List.getElem_of_mem hline
      exact ⟨_, ⟨n, hn, rfl⟩, Markup.says_textElement_iff.2 (.inr h)⟩
  | rect => simp [shapeChildren, Shape.lines]
  | diamond => simp [shapeChildren, Shape.lines]
  | line => simp [shapeChildren, Shape.lines]
  | path => simp [shapeChildren, Shape.lines]

/-- What an instruction adds to its shape says its style and the id of its item. -/
theorem says_itemAttributes_iff (hc : ¬ IsChar c) {instruction : Instruction} :
    (∃ pair ∈ itemAttributes instruction, c ∈ pair.2.toList) ↔
      c ∈ instruction.style.toList ∨ ∃ id ∈ instruction.item, c ∈ id.toList := by
  have hprogress : ¬ ∃ pair ∈ (instruction.progress.map fun progress =>
      ("data-progress", number progress)).toList, c ∈ pair.2.toList := by
    refine not_exists_of_isClean hc fun pair hpair => ?_
    rw [Option.mem_toList, Option.map_eq_some_iff] at hpair
    obtain ⟨progress, _, rfl⟩ := hpair
    exact isClean_number progress
  have hstyle : (∃ pair ∈ (if instruction.style.isEmpty then [] else
      [("class", instruction.style)]), c ∈ pair.2.toList) ↔ c ∈ instruction.style.toList := by
    by_cases hempty : instruction.style = ""
    · simp [hempty]
    · simp [hempty]
  have hid : (∃ pair ∈ (instruction.item.map fun id => ("data-id", id)).toList,
      c ∈ pair.2.toList) ↔ ∃ id ∈ instruction.item, c ∈ id.toList := by
    cases instruction.item <;> simp
  simp only [itemAttributes, List.mem_append, or_and_right, exists_or, hstyle, hid,
    or_iff_left hprogress]

/-- The element of a shape says what its instruction, its further attributes and its further
    children say. -/
theorem says_shapeElement_iff (hc : ¬ IsChar c) {instruction : Instruction}
    {attributes : List (String × String)} {children : List Markup} :
    (shapeElement instruction attributes children).Says c ↔
      (c ∈ instruction.style.toList ∨ (∃ id ∈ instruction.item, c ∈ id.toList)) ∨
        ((∃ pair ∈ attributes, c ∈ pair.2.toList) ∨ ∃ child ∈ children, child.Says c) ∨
          ∃ line ∈ instruction.shape.lines, c ∈ line.toList := by
  have hshape : ¬ ∃ pair ∈ shapeAttributes instruction.shape, c ∈ pair.2.toList :=
    not_exists_of_isClean hc fun _ => isClean_of_mem_shapeAttributes
  rw [shapeElement, Markup.says_element_iff]
  simp only [List.mem_append, or_and_right, exists_or, or_iff_right hshape,
    says_itemAttributes_iff hc, says_shapeChildren_iff hc, or_assoc]

/-- **The markup of an instruction says its texts.** -/
theorem says_instructionMarkup_iff (hc : ¬ IsChar c) {instruction : Instruction} :
    (instructionMarkup instruction).Says c ↔ instruction.Says c := by
  rw [Instruction.says_iff]
  unfold instructionMarkup
  cases instruction.action with
  | none =>
    rw [says_shapeElement_iff hc]
    simp [or_assoc]
  | some action =>
    cases action with
    | navigate url =>
      rw [Markup.says_element_iff]
      simp [says_shapeElement_iff hc, Action.url, or_assoc, or_left_comm]
    | popup url =>
      rw [says_shapeElement_iff hc]
      simp [Markup.says_textElement_iff, Action.url, or_assoc]

/-- The group of a run says what its instructions say. -/
theorem says_layerMarkup_iff (hc : ¬ IsChar c) {run : Layer × List Instruction} :
    (layerMarkup run).Says c ↔ ∃ instruction ∈ run.2, instruction.Says c := by
  have hname : ¬ ∃ pair ∈ [("class", run.1.className)], c ∈ pair.2.toList := by
    refine not_exists_of_isClean hc ?_
    cases run.1 <;> decide
  rw [layerMarkup, Markup.says_block_iff hc, or_iff_right hname]
  simp only [List.mem_map, exists_exists_and_eq_and, says_instructionMarkup_iff hc]

/-- The style sheet is clean. -/
theorem isClean_styleSheet : IsClean styleSheet.toList := by
  unfold styleSheet
  simp only [String.toList_append, isClean_append]
  -- one goal for each line of the sheet
  and_intros <;> exact isClean_ofList (by decide +kernel)

/-- So its markup says no such character. -/
theorem not_says_styleMarkup (hc : ¬ IsChar c) : ¬ styleMarkup.Says c := by
  have hsheet : IsClean ("\n" ++ styleSheet).toList := by
    rw [String.toList_append, isClean_append]
    exact ⟨by decide, isClean_styleSheet⟩
  rw [styleMarkup, Markup.says_element_iff]
  simpa [Markup.says_textElement_iff] using hsheet.notMem hc

/-- **A character that XML does not allow** is in the document of a chart exactly if a text of one
    of its instructions holds it. -/
theorem mem_render_iff (hc : ¬ IsChar c) {styled : Bool} {g : Geometry} :
    c ∈ (render styled g).toList ↔ ∃ instruction ∈ g.instructions, instruction.Says c := by
  have hroot : ¬ ∃ pair ∈ [("xmlns", "http://www.w3.org/2000/svg"), ("width", number g.width),
      ("height", number g.height),
      ("viewBox", "0 0 " ++ number g.width ++ " " ++ number g.height)], c ∈ pair.2.toList := by
    refine not_exists_of_isClean hc ?_
    simp only [List.forall_mem_cons, isClean_number, true_and, String.toList_append,
      isClean_append]
    exact ⟨by decide, ⟨by decide, by decide⟩, List.forall_mem_nil _⟩
  have hstyle : ¬ ∃ child ∈ (if styled then [styleMarkup] else []), child.Says c := by
    rintro ⟨child, hchild, h⟩
    cases styled with
    | false => cases hchild
    | true =>
      rw [List.mem_singleton.1 hchild] at h
      exact not_says_styleMarkup hc h
  rw [render, String.toList_ofList, Markup.mem_render_iff hc (proper_document styled g), document,
    Markup.says_block_iff hc, or_iff_right hroot]
  simp only [List.mem_append, or_and_right, exists_or, or_iff_right hstyle, List.mem_map,
    exists_exists_and_eq_and, says_layerMarkup_iff hc]
  -- the runs hold the instructions of the chart, each in one of them
  constructor
  · rintro ⟨run, hrun, instruction, hi, h⟩
    refine ⟨instruction, ?_, h⟩
    rw [← flatMap_layerRuns g.instructions]
    exact List.mem_flatMap.2 ⟨run, hrun, hi⟩
  · rintro ⟨instruction, hi, h⟩
    rw [← flatMap_layerRuns g.instructions] at hi
    obtain ⟨run, hrun, hi⟩ := List.mem_flatMap.1 hi
    exact ⟨run, hrun, instruction, hi, h⟩

end Svg

end GanttChart
