/-
  Markup reads back.

  1. **Texts.**  An escaped text reads as the text, between tags (`run_escape`) and in the value of
     an attribute (`run_value`): each character takes the reader back to the place it came from.

  2. **Tags.**  Names read as themselves, so the attributes of a tag are collected in their order
     (`run_attributes`).

  3. **Trees.**  `Markup.nodes` is what a piece of markup should read as: its characters and
     elements.  For proper markup, whose names are names, it is what it does read as, whatever stands
     before and around it (`run_render`).  The induction is on the tree; the reader's stack is the
     same before and after each piece.
-/
import GanttChart.Proofs.Svg.Reader

namespace GanttChart

open GanttChart.Svg

/-! ## Proper markup

  What a piece of markup means is a list of nodes and not a tree: a text is as many nodes as it
  has characters, for the reader does not know where one text ends and another begins. -/

/-- A name of a tag or an attribute. -/
def IsName (name : String) : Prop :=
  name.toList ≠ [] ∧ ∀ c ∈ name.toList, Reader.isNameChar c = true

instance (name : String) : Decidable (IsName name) :=
  decidable_of_iff (name.toList ≠ [] ∧ name.toList.all Reader.isNameChar = true)
    (by rw [IsName, List.all_eq_true])

namespace Markup

mutual

/-- What a piece of markup should read as. -/
def nodes : Markup → List Node
  | .text content => content.toList.map .char
  | .element tag attributes children => [.element tag attributes (nodesAll children)]

/-- What several pieces of markup should read as. -/
def nodesAll : List Markup → List Node
  | [] => []
  | piece :: rest => nodes piece ++ nodesAll rest

end

/-- Pieces of markup in a row are read one after the other. -/
theorem nodesAll_append (a b : List Markup) : nodesAll (a ++ b) = nodesAll a ++ nodesAll b := by
  induction a with
  | nil => rfl
  | cons piece a ih => rw [List.cons_append, nodesAll, nodesAll, ih, List.append_assoc]

/-- Tags and attributes have names, and no element has an attribute twice. -/
inductive Proper : Markup → Prop
  | text (content : String) : Proper (.text content)
  | element {tag : String} {attributes : List (String × String)} {children : List Markup}
    (name : IsName tag) (names : ∀ pair ∈ attributes, IsName pair.1)
    (distinct : (attributes.map Prod.fst).Nodup) (inner : ∀ child ∈ children, Proper child) :
    Proper (.element tag attributes children)

/-- Nodes of several pieces are distinct if those of each piece are. -/
theorem distinct_nodesAll {children : List Markup}
    (h : ∀ child ∈ children, ∀ node ∈ child.nodes, node.Distinct) :
    ∀ node ∈ nodesAll children, node.Distinct := by
  induction children with
  | nil => simp [nodesAll]
  | cons child rest ih =>
    intro node hnode
    rw [nodesAll, List.mem_append] at hnode
    rcases hnode with hnode | hnode
    · exact h child List.mem_cons_self node hnode
    · exact ih (fun other hother => h other (List.mem_cons_of_mem _ hother)) node hnode

/-- The elements of proper markup have no attribute twice. -/
theorem Proper.distinct {m : Markup} (h : m.Proper) : ∀ node ∈ m.nodes, node.Distinct := by
  induction h with
  | text content =>
    intro node hnode
    obtain ⟨c, _, rfl⟩ := List.mem_map.1 hnode
    exact .char c
  | element _ _ distinct _ ih =>
    intro node hnode
    rw [nodes, List.mem_singleton] at hnode
    subst hnode
    exact .element distinct (distinct_nodesAll ih)

end Markup

namespace Svg.Reader

variable {nodes : List Node} {opened : List OpenElement}

/-- A reader that collects characters written one after the other. -/
theorem run_flatMap (state : List Char → Reader) {write : Char → List Char} {more : List Char}
    (h : ∀ text, ∀ c ∈ more, run (state text) (write c) = some (state (text ++ [c])))
    (text : List Char) : run (state text) (more.flatMap write) = some (state (text ++ more)) := by
  induction more generalizing text with
  | nil => simp
  | cons c more ih =>
    rw [List.flatMap_cons, run_append, h text c List.mem_cons_self, Option.bind_some,
      ih (fun text d hd => h text d (List.mem_cons_of_mem _ hd)), List.append_assoc]
    rfl

/-! ## Texts -/

/-- An escaped character between tags reads as the character. -/
theorem run_escapeChar (c : Char) :
    run { place := .content, nodes, opened } (Markup.escapeChar c) =
      some { place := .content, nodes := nodes ++ [.char c], opened } := by
  -- four characters have an entity, which the reader is run through; any other is read as it stands
  unfold Markup.escapeChar
  split
  · subst c
    rfl
  · split
    · subst c
      rfl
    · split
      · subst c
        rfl
      · split
        · subst c
          rfl
        · rename_i hamp hlt _ _
          simp [step, hamp, hlt, push]

/-- An escaped text between tags reads as its characters. -/
theorem run_escape (text : List Char) :
    run { place := .content, nodes, opened } (Markup.escape text) =
      some { place := .content, nodes := nodes ++ text.map .char, opened } := by
  let state : List Char → Reader := fun seen =>
    { place := .content, nodes := nodes ++ seen.map .char, opened }
  have hstep : ∀ seen, ∀ c ∈ text,
      run (state seen) (Markup.escapeChar c) = some (state (seen ++ [c])) := by
    intro seen c _
    simp only [state]
    rw [run_escapeChar, List.map_append, List.append_assoc]
    rfl
  have hrun := run_flatMap state hstep []
  simp only [state, List.nil_append, List.map_nil, List.append_nil] at hrun
  exact hrun

/-- An escaped character in a value reads as the character. -/
theorem run_valueChar (tag : Tag) (name text : List Char) (c : Char) :
    run { place := .value tag name text, nodes, opened } (Markup.escapeChar c) =
      some { place := .value tag name (text ++ [c]), nodes, opened } := by
  unfold Markup.escapeChar
  split
  · subst c
    rfl
  · split
    · subst c
      rfl
    · split
      · subst c
        rfl
      · split
        · subst c
          rfl
        · rename_i hamp hlt _ hquot
          simp [step, hamp, hlt, hquot]

/-- An escaped value reads as the value. -/
theorem run_value (tag : Tag) (name text : List Char) :
    run { place := .value tag name [], nodes, opened } (Markup.escape text) =
      some { place := .value tag name text, nodes, opened } :=
  run_flatMap (fun seen => { place := .value tag name seen, nodes, opened })
    (fun seen c _ => run_valueChar tag name seen c) []

/-! ## Tags -/

/-- A name does not go on with the sign that ends it. -/
theorem isNameChar_ne {c : Char} (h : isNameChar c = true) : c ≠ '/' ∧ c ≠ '>' := by
  refine ⟨?_, ?_⟩ <;>
    · rintro rfl
      revert h
      decide

/-- A place that collects the characters of a name. -/
theorem run_name (place : List Char → Place)
    (h : ∀ name c, isNameChar c = true → step { place := place name, nodes, opened } c =
      some { place := place (name ++ [c]), nodes, opened })
    {more : List Char} (hmore : ∀ c ∈ more, isNameChar c = true) (name : List Char) :
    run { place := place name, nodes, opened } more =
      some { place := place (name ++ more), nodes, opened } := by
  have hstep : ∀ seen, ∀ c ∈ more, run { place := place seen, nodes, opened } [c] =
      some { place := place (seen ++ [c]), nodes, opened } := by
    intro seen c hc
    rw [run_cons, h seen c (hmore c hc)]
    rfl
  have hrun := run_flatMap (fun seen => { place := place seen, nodes, opened }) hstep name
  rw [List.flatMap_singleton'] at hrun
  exact hrun

/-- An opening tag up to the end of its name. -/
theorem run_opening {tag : String} (h : IsName tag) :
    run { place := .content, nodes, opened } ('<' :: tag.toList) =
      some { place := .tagName tag.toList, nodes, opened } := by
  obtain ⟨hne, hchars⟩ := h
  cases hlist : tag.toList with
  | nil => exact absurd hlist hne
  | cons c more =>
    rw [hlist] at hchars
    have hc : isNameChar c = true := hchars c List.mem_cons_self
    have hmore : ∀ d ∈ more, isNameChar d = true :=
      fun d hd => hchars d (List.mem_cons_of_mem _ hd)
    have hname : run { place := .tagName [c], nodes, opened } more =
        some { place := .tagName ([c] ++ more), nodes, opened } :=
      run_name .tagName (fun name d hd => by simp [step, hd]) hmore [c]
    simpa [step, hc, (isNameChar_ne hc).1] using hname

/-- A name is over at a character that belongs to none. -/
theorem run_tagName {name : List Char} {c : Char} (hc : isNameChar c = false) (rest : List Char) :
    run { place := .tagName name, nodes, opened } (c :: rest) =
      run { place := .tagRest { name := String.ofList name }, nodes, opened } (c :: rest) := by
  simp only [run_cons, step, hc, Bool.false_eq_true, if_false]
  rfl

/-- An attribute reads as its name and value. -/
theorem run_attribute {name : String} (h : IsName name) (tag : Tag) (value : List Char) :
    run { place := .tagRest tag, nodes, opened }
        (' ' :: name.toList ++ "=\"".toList ++ Markup.escape value ++ ['"']) =
      some { place := .tagRest (tag.push name.toList value), nodes, opened } := by
  obtain ⟨hne, hchars⟩ := h
  -- the blank in front, then the name, the sign and the value
  have hname : run { place := .attribute tag [], nodes, opened } name.toList =
      some { place := .attribute tag name.toList, nodes, opened } :=
    run_name (.attribute tag) (fun name d hd => by simp [step, hd]) hchars []
  have hsign : run { place := .attribute tag name.toList, nodes, opened } "=\"".toList =
      some { place := .value tag name.toList [], nodes, opened } := by
    have hequal : isNameChar '=' = false := by decide
    simp [step, hequal, hne]
  rw [List.cons_append, List.cons_append, List.cons_append, run_cons]
  show run { place := .attribute tag [], nodes, opened } _ = _
  rw [run_append, run_append, run_append, hname, Option.bind_some, hsign, Option.bind_some,
    run_value, Option.bind_some]
  rfl

/-- The attributes of a tag read in their order. -/
theorem run_attributes {attributes : List (String × String)}
    (h : ∀ pair ∈ attributes, IsName pair.1) (tag : Tag) :
    run { place := .tagRest tag, nodes, opened } (Markup.renderAttributes attributes) =
      some { place := .tagRest { tag with attributes := tag.attributes ++ attributes }, nodes,
             opened } := by
  induction attributes generalizing tag with
  | nil => simp [Markup.renderAttributes]
  | cons pair rest ih =>
    obtain ⟨name, value⟩ := pair
    have hname : IsName name := h (name, value) List.mem_cons_self
    have hrest : ∀ pair ∈ rest, IsName pair.1 :=
      fun pair hpair => h pair (List.mem_cons_of_mem _ hpair)
    rw [Markup.renderAttributes, List.flatMap_cons, run_append]
    rw [run_attribute hname, Option.bind_some]
    show run _ (Markup.renderAttributes rest) = _
    rw [ih hrest]
    simp [Tag.push]

/-- An opening tag up to the character that ends it or makes it an empty one. -/
theorem run_tag {tag : String} {attributes : List (String × String)} (htag : IsName tag)
    (hnames : ∀ pair ∈ attributes, IsName pair.1) {c : Char} (hc : isNameChar c = false)
    (rest : List Char) :
    run { place := .content, nodes, opened }
        ('<' :: tag.toList ++ Markup.renderAttributes attributes ++ c :: rest) =
      run { place := .tagRest { name := tag, attributes }, nodes, opened } (c :: rest) := by
  have hrest : run { place := .tagRest { name := tag }, nodes, opened }
      (Markup.renderAttributes attributes) =
        some { place := .tagRest { name := tag, attributes }, nodes, opened } :=
    run_attributes hnames { name := tag }
  rw [List.append_assoc, run_append, run_opening htag, Option.bind_some]
  -- the name ends at the next character, or at the blank before the first attribute
  cases attributes with
  | nil =>
    show run _ (c :: rest) = _
    rw [run_tagName hc, String.ofList_toList]
  | cons pair others =>
    obtain ⟨more, hmore⟩ : ∃ more, Markup.renderAttributes (pair :: others) = ' ' :: more :=
      ⟨_, rfl⟩
    rw [hmore] at hrest ⊢
    rw [List.cons_append, run_tagName (by decide), String.ofList_toList, ← List.cons_append,
      run_append, hrest]
    rfl

/-- A closing tag ends the open element of its name. -/
theorem run_closing (tag : Tag) (h : IsName tag.name) (before : List Node) :
    run { place := .content, nodes, opened := ⟨tag, before⟩ :: opened }
        ("</".toList ++ tag.name.toList ++ ['>']) =
      some { place := .content, nodes := before ++ [.element tag.name tag.attributes nodes],
             opened } := by
  have hname : run { place := .closingName [], nodes, opened := ⟨tag, before⟩ :: opened }
      tag.name.toList =
        some { place := .closingName tag.name.toList, nodes, opened := ⟨tag, before⟩ :: opened } :=
    run_name .closingName (fun name d hd => by simp [step, hd, (isNameChar_ne hd).2]) h.2 []
  have hopen : run { place := .content, nodes, opened := ⟨tag, before⟩ :: opened } "</".toList =
      some { place := .closingName [], nodes, opened := ⟨tag, before⟩ :: opened } := rfl
  rw [run_append, run_append, hopen, Option.bind_some, hname, Option.bind_some, run_cons]
  simp [step, leave?]

/-! ## Trees -/

/-- Pieces in a row read one after the other. -/
theorem run_renderAll {children : List Markup}
    (h : ∀ child ∈ children, ∀ nodes opened,
      run { place := .content, nodes, opened } child.render =
        some { place := .content, nodes := nodes ++ child.nodes, opened })
    (nodes : List Node) (opened : List OpenElement) :
    run { place := .content, nodes, opened } (Markup.renderAll children) =
      some { place := .content, nodes := nodes ++ Markup.nodesAll children, opened } := by
  induction children generalizing nodes with
  | nil => simp [Markup.renderAll, Markup.nodesAll]
  | cons child rest ih =>
    rw [Markup.renderAll, run_append, h child List.mem_cons_self, Option.bind_some,
      ih (fun other hother => h other (List.mem_cons_of_mem _ hother)), Markup.nodesAll,
      List.append_assoc]

/-- **Proper markup reads as its nodes**, wherever it stands. -/
theorem run_render {m : Markup} (h : m.Proper) :
    ∀ nodes opened, run { place := .content, nodes, opened } m.render =
      some { place := .content, nodes := nodes ++ m.nodes, opened } := by
  -- by induction on the tree, for every stack and all nodes in front at once
  induction h with
  | text content =>
    intro nodes opened
    rw [Markup.render, run_escape, Markup.nodes]
  | @element tag attributes children name names distinct inner ih =>
    intro nodes opened
    cases children with
    | nil =>
      have hslash : isNameChar '/' = false := by decide
      show run _ ('<' :: tag.toList ++ Markup.renderAttributes attributes ++ ['/', '>']) = _
      rw [run_tag name names hslash]
      simp [step, afterTag, push, Markup.nodes, Markup.nodesAll]
    | cons child rest =>
      -- The tag puts the element on the stack and starts its content; the end tag takes it off, so
      -- after the children the reader is back among the nodes before the element.
      have hend : isNameChar '>' = false := by decide
      have hrender : (Markup.element tag attributes (child :: rest)).render =
          '<' :: tag.toList ++ Markup.renderAttributes attributes ++
            '>' :: (Markup.renderAll (child :: rest) ++ ("</".toList ++ tag.toList ++ ['>'])) := by
        simp [Markup.render, Markup.renderAll]
      have henter : step { place := .tagRest { name := tag, attributes }, nodes, opened } '>' =
          some { place := .content, nodes := [],
                 opened := ⟨{ name := tag, attributes }, nodes⟩ :: opened } := rfl
      rw [hrender, run_tag name names hend, run_cons, henter, Option.bind_some, run_append,
        run_renderAll ih, Option.bind_some, List.nil_append,
        run_closing { name := tag, attributes } name, Markup.nodes]

/-- **A proper element reads back**: the whole text is the element, with all its content. -/
theorem read?_render {tag : String} {attributes : List (String × String)} {children : List Markup}
    (h : (Markup.element tag attributes children).Proper) :
    read? (Markup.element tag attributes children).render =
      some (.element tag attributes (Markup.nodesAll children)) := by
  have hrun : run {} (Markup.element tag attributes children).render =
      some { nodes := [.element tag attributes (Markup.nodesAll children)] } := by
    rw [run_render h [] []]
    rfl
  rw [read?, hrun]

end Svg.Reader

end GanttChart
