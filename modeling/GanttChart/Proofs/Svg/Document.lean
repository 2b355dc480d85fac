/-
  What a reader finds in the document of a chart.

  1. **Runs.**  `IsLayering` says what the maximal runs of instructions on the same layer are, and
     `layerRuns` finds them.

  2. **What is shown.**  `ShowsChart` describes the element that a document should be read as, from
     the inside: an element for each instruction, with its class, ids, link and texts as they are in
     the instruction (`ShowsShape`, `Shows`), a group for each run (`ShowsRun`), and the root.

  3. **Reading.**  The document is proper markup (`proper_document`), so a plain reader gets back
     what it says, whatever the texts of the chart contain.
-/
import GanttChart.Proofs.Svg.ReadBack
import GanttChart.Svg.Document
import Mathlib.Data.List.Chain

namespace GanttChart.Svg

/-! ## Runs -/

/-- The maximal runs of instructions on the same layer, each with its layer. -/
structure IsLayering (instructions : List Instruction) (runs : List (Layer × List Instruction)) :
    Prop where
  flatMap_eq : runs.flatMap Prod.snd = instructions
  ne_nil : ∀ run ∈ runs, run.2 ≠ []
  layer_eq : ∀ run ∈ runs, ∀ instruction ∈ run.2, instruction.layer = run.1
  maximal : runs.IsChain fun a b => a.1 ≠ b.1

/-- One more instruction joins the first run or makes one of its own. -/
theorem IsLayering.cons {instruction : Instruction} {rest : List Instruction}
    (h : IsLayering rest (layerRuns rest)) :
    IsLayering (instruction :: rest) (layerRuns (instruction :: rest)) := by
  have hflat : (layerRuns (instruction :: rest)).flatMap Prod.snd = instruction :: rest :=
    flatMap_layerRuns _
  unfold layerRuns at hflat ⊢
  obtain ⟨_, hne, hlayer, hmax⟩ := h
  -- the runs of the rest are known; the instruction opens the only one, joins the first, or stands
  -- before it
  cases hruns : layerRuns rest with
  | nil =>
    rw [hruns] at hflat
    exact {
      flatMap_eq := hflat
      ne_nil := by simp
      layer_eq := by simp
      maximal := .singleton _ }
  | cons first runs =>
    obtain ⟨layer, run⟩ := first
    rw [hruns] at hflat hne hlayer hmax
    dsimp only at hflat ⊢
    split
    · rename_i hsame
      rw [if_pos hsame] at hflat
      refine ⟨hflat, ?_, ?_, ?_⟩
      · intro other hother
        rcases List.mem_cons.1 hother with rfl | hother
        · simp
        · exact hne other (List.mem_cons_of_mem _ hother)
      · intro other hother member hmember
        rcases List.mem_cons.1 hother with rfl | hother
        · rcases List.mem_cons.1 hmember with rfl | hmember
          · exact hsame.symm
          · exact hlayer (layer, run) List.mem_cons_self member hmember
        · exact hlayer other (List.mem_cons_of_mem _ hother) member hmember
      · rw [List.isChain_cons] at hmax ⊢
        exact hmax
    · rename_i hother
      rw [if_neg hother] at hflat
      refine ⟨hflat, ?_, ?_, ?_⟩
      · intro other hmem
        rcases List.mem_cons.1 hmem with rfl | hmem
        · simp
        · exact hne other hmem
      · intro other hmem member hmember
        rcases List.mem_cons.1 hmem with rfl | hmem
        · rw [List.mem_singleton.1 hmember]
        · exact hlayer other hmem member hmember
      · rw [List.isChain_cons_cons]
        exact ⟨Ne.symm hother, hmax⟩

/-- **The runs that are found are the maximal ones.** -/
theorem isLayering_layerRuns (instructions : List Instruction) :
    IsLayering instructions (layerRuns instructions) := by
  induction instructions with
  | nil =>
    exact {
      flatMap_eq := rfl
      ne_nil := by simp [layerRuns]
      layer_eq := by simp [layerRuns]
      maximal := .nil }
  | cons instruction rest ih => exact ih.cons

/-! ## What is shown -/

/-- An element that holds a text. -/
def textNode (tag : String) (attributes : List (String × String)) (content : String) : Node :=
  .element tag attributes (content.toList.map .char)

/-- The lines of a text shape, each in an element of its own. -/
def lineNodes : Shape → List Node
  | .text x y lines lineHeight _ =>
    lines.mapIdx fun n line =>
      textNode "tspan" [("x", number x), ("y", number (y + .ofNat n * lineHeight))] line
  | _ => []

/-- The element shows an instruction's shape, with a tooltip if there is a popup. -/
inductive ShowsShape (instruction : Instruction) (popup : Option String) : Node → Prop
  | intro {attributes : List (String × String)}
    (all : attributes = shapeAttributes instruction.shape ++
      (if instruction.style = "" then [] else [("class", instruction.style)]) ++
      (instruction.item.map fun id => ("data-id", id)).toList ++
      (instruction.progress.map fun progress => ("data-progress", number progress)).toList ++
      (popup.map fun url => ("data-popup", url)).toList)
    (lookup_class : attributes.lookup "class" =
      if instruction.style = "" then none else some instruction.style)
    (lookup_id : attributes.lookup "data-id" = instruction.item)
    (lookup_progress : attributes.lookup "data-progress" = instruction.progress.map number)
    (lookup_popup : attributes.lookup "data-popup" = popup) :
    ShowsShape instruction popup
      (.element (shapeTag instruction.shape) attributes
        ((popup.map (textNode "title" [])).toList ++ lineNodes instruction.shape))

/-- The element shows an instruction: a link is an element around the shape. -/
inductive Shows (instruction : Instruction) : Node → Prop
  | plain {node : Node} (action : instruction.action = none)
    (shape : ShowsShape instruction none node) : Shows instruction node
  | navigate {url : String} {node : Node} (action : instruction.action = some (.navigate url))
    (shape : ShowsShape instruction none node) :
    Shows instruction (.element "a" [("href", url)] [node])
  | popup {url : String} {node : Node} (action : instruction.action = some (.popup url))
    (shape : ShowsShape instruction (some url) node) : Shows instruction node

/-- The element is the group of a run: besides line feeds it holds exactly the elements of the
    instructions, in their order. -/
inductive ShowsRun (run : Layer × List Instruction) : Node → Prop
  | intro {children : List Node} (text : ∀ c ∈ Node.text children, c = '\n')
    (elements : List.Forall₂ Shows run.2 (Node.elements children)) :
    ShowsRun run (.element "g" [("class", run.1.className)] children)

/-- The element is the root of a chart's document: besides line feeds it holds the style sheet, if
    there is one, and one group for each run, in their order. -/
inductive ShowsChart (styled : Bool) (g : Geometry) : Node → Prop
  | intro {children groups : List Node} {runs : List (Layer × List Instruction)}
    (text : ∀ c ∈ Node.text children, c = '\n')
    (elements : Node.elements children =
      (if styled then [.element "defs" [] [textNode "style" [] ("\n" ++ styleSheet)]] else []) ++
        groups)
    (layering : IsLayering g.instructions runs)
    (shows : List.Forall₂ ShowsRun runs groups) :
    ShowsChart styled g
      (.element "svg"
        [("xmlns", "http://www.w3.org/2000/svg"), ("width", number g.width),
          ("height", number g.height),
          ("viewBox", "0 0 " ++ number g.width ++ " " ++ number g.height)] children)

/-! ## Proper documents

  Markup is proper if its names are names and no element has an attribute twice.  Shapes have
  attributes of their own, and every instruction may add up to four more, of other names; so it
  takes a look at five lists of names and at the four of `extraNames`. -/

/-- The attributes that an instruction may have beside those of its shape. -/
def extraNames : List String := ["class", "data-id", "data-progress", "data-popup"]

/-- The attributes of a shape, by name. -/
def shapeNames (shape : Shape) : List String := (shapeAttributes shape).map Prod.fst

/-- The attribute of a popup. -/
def popupAttribute (popup : Option String) : List (String × String) :=
  (popup.map fun url => ("data-popup", url)).toList

/-- The attributes that an instruction has beside those of its shape. -/
def extraAttributes (instruction : Instruction) (popup : Option String) : List (String × String) :=
  itemAttributes instruction ++ popupAttribute popup

/-- No shape has an attribute that an instruction may add, nor one of its own twice. -/
theorem shapeNames_append_nodup (shape : Shape) : (shapeNames shape ++ extraNames).Nodup := by
  cases shape <;>
    · simp only [shapeNames, shapeAttributes, List.map_cons, List.map_nil]
      decide

/-- All of these are names. -/
theorem isName_of_mem_shapeNames {shape : Shape} {name : String}
    (h : name ∈ shapeNames shape ++ extraNames) : IsName name := by
  revert name
  cases shape <;>
    · simp only [shapeNames, shapeAttributes, List.map_cons, List.map_nil]
      decide

/-- An instruction adds each of its attributes once at most. -/
theorem extraAttributes_sublist (instruction : Instruction) (popup : Option String) :
    ((extraAttributes instruction popup).map Prod.fst).Sublist extraNames := by
  unfold extraAttributes itemAttributes popupAttribute
  cases instruction.style.isEmpty <;> cases instruction.item <;> cases instruction.progress <;>
    cases popup <;>
    · simp only [Option.map_some, Option.map_none, Option.toList_some, Option.toList_none, if_true,
        if_false, Bool.false_eq_true, List.append_nil, List.nil_append, List.cons_append,
        List.map_cons, List.map_nil, extraNames]
      decide

/-- What an instruction adds is not found among the attributes of its shape. -/
theorem lookup_shapeAttributes {shape : Shape} {name : String} (h : name ∈ extraNames) :
    (shapeAttributes shape).lookup name = none := by
  rw [List.lookup_eq_none_iff]
  intro pair hpair
  have hnodup := shapeNames_append_nodup shape
  have hmem : pair.1 ∈ shapeNames shape := List.mem_map_of_mem hpair
  have hne := (List.nodup_append.1 hnodup).2.2 pair.1 hmem name h
  simpa using hne.symm

/-- The tags of shapes are names. -/
theorem isName_shapeTag (shape : Shape) : IsName (shapeTag shape) := by
  cases shape <;>
    · simp only [shapeTag]
      decide

/-- The element of an instruction's shape, with what the instruction adds put together. -/
theorem shapeElement_eq (instruction : Instruction) (popup : Option String)
    (children : List Markup) :
    shapeElement instruction (popupAttribute popup) children =
      .element (shapeTag instruction.shape)
        (shapeAttributes instruction.shape ++ extraAttributes instruction popup)
        (children ++ shapeChildren instruction.shape) := by
  rw [shapeElement, List.append_assoc]
  rfl

/-- The lines of a text are proper elements, and other shapes have nothing inside. -/
theorem proper_shapeChildren (shape : Shape) : ∀ child ∈ shapeChildren shape, child.Proper := by
  intro child hchild
  cases shape with
  | text x y lines lineHeight anchor =>
    rw [shapeChildren, List.mem_mapIdx] at hchild
    obtain ⟨n, hn, rfl⟩ := hchild
    exact .element (by decide) (by simp; decide) (by simp) (by simp [Markup.Proper.text])
  | rect => simp [shapeChildren] at hchild
  | diamond => simp [shapeChildren] at hchild
  | line => simp [shapeChildren] at hchild
  | path => simp [shapeChildren] at hchild

/-- The element of a shape is proper if what else it holds is. -/
theorem proper_shapeElement {instruction : Instruction} (popup : Option String)
    {children : List Markup} (h : ∀ child ∈ children, child.Proper) :
    (shapeElement instruction (popupAttribute popup) children).Proper := by
  have hsub := (extraAttributes_sublist instruction popup).append_left
    (shapeNames instruction.shape)
  rw [shapeNames, ← List.map_append] at hsub
  rw [shapeElement_eq]
  refine .element (isName_shapeTag _) ?_ ?_ ?_
  · intro pair hpair
    exact isName_of_mem_shapeNames (hsub.mem (List.mem_map_of_mem hpair))
  · exact (shapeNames_append_nodup instruction.shape).sublist hsub
  · intro child hchild
    rcases List.mem_append.1 hchild with hchild | hchild
    · exact h child hchild
    · exact proper_shapeChildren instruction.shape child hchild

/-- The markup of an instruction is proper, with a link around it or without. -/
theorem proper_instructionMarkup (instruction : Instruction) :
    (instructionMarkup instruction).Proper := by
  have hplain : (shapeElement instruction [] []).Proper := proper_shapeElement none (by simp)
  unfold instructionMarkup
  split
  · exact hplain
  · exact .element (by decide) (by simp; decide) (by simp) (by simpa using hplain)
  · rename_i url _
    have htitle : (Markup.textElement "title" [] url).Proper :=
      .element (by decide) (by simp) (by simp) (by simp [Markup.Proper.text])
    exact proper_shapeElement (some url) (by simpa using htitle)

/-- Children on lines of their own are proper if they are. -/
theorem proper_block {tag : String} {attributes : List (String × String)} {children : List Markup}
    (name : IsName tag) (names : ∀ pair ∈ attributes, IsName pair.1)
    (distinct : (attributes.map Prod.fst).Nodup) (h : ∀ child ∈ children, child.Proper) :
    (Markup.block tag attributes children).Proper := by
  refine .element name names distinct ?_
  intro child hchild
  rcases List.mem_append.1 hchild with hchild | hchild
  · obtain ⟨other, hother, hmem⟩ := List.mem_flatMap.1 hchild
    rcases List.mem_cons.1 hmem with rfl | hmem
    · exact .text "\n"
    · rw [List.mem_singleton.1 hmem]
      exact h other hother
  · rw [List.mem_singleton.1 hchild]
    exact .text "\n"

/-- The group of a run is proper. -/
theorem proper_layerMarkup (run : Layer × List Instruction) : (layerMarkup run).Proper := by
  refine proper_block (by decide) (by simp; decide) (by simp) ?_
  intro child hchild
  obtain ⟨instruction, _, rfl⟩ := List.mem_map.1 hchild
  exact proper_instructionMarkup instruction

/-- The style sheet is proper. -/
theorem proper_styleMarkup : styleMarkup.Proper :=
  .element (by decide) (by simp) (by simp) (by
    simp only [List.mem_singleton, forall_eq]
    exact .element (by decide) (by simp) (by simp) (by simp [Markup.Proper.text]))

/-- **Documents are proper markup.** -/
theorem proper_document (styled : Bool) (g : Geometry) : (document styled g).Proper := by
  refine proper_block (by decide) (by simp; decide) (by simp) ?_
  intro child hchild
  rcases List.mem_append.1 hchild with hchild | hchild
  · cases styled with
    | false => simp at hchild
    | true =>
      simp only [if_true, List.mem_singleton] at hchild
      rw [hchild]
      exact proper_styleMarkup
  · obtain ⟨run, _, rfl⟩ := List.mem_map.1 hchild
    exact proper_layerMarkup run

/-! ## The nodes of a document -/

open Markup

/-- If every line is read as one node, the lines are read as these nodes. -/
theorem nodesAll_mapIdx {f : Nat → String → Markup} {g : Nat → String → Node}
    (h : ∀ n line, (f n line).nodes = [g n line]) (lines : List String) :
    nodesAll (lines.mapIdx f) = lines.mapIdx g := by
  induction lines generalizing f g with
  | nil => rfl
  | cons line rest ih =>
    rw [List.mapIdx_cons, List.mapIdx_cons, nodesAll, h, ih fun n => h (n + 1)]
    rfl

/-- A shape's children are read as the nodes of its lines. -/
theorem nodesAll_shapeChildren (shape : Shape) :
    nodesAll (shapeChildren shape) = lineNodes shape := by
  cases shape with
  | text x y lines lineHeight anchor =>
    refine nodesAll_mapIdx (fun n line => ?_) lines
    simp [textElement, nodes, nodesAll, textNode]
  | rect => rfl
  | diamond => rfl
  | line => rfl
  | path => rfl

/-- What an instruction adds is found under its name. -/
theorem lookup_extraAttributes (instruction : Instruction) (popup : Option String) :
    (extraAttributes instruction popup).lookup "class" =
        (if instruction.style = "" then none else some instruction.style) ∧
      (extraAttributes instruction popup).lookup "data-id" = instruction.item ∧
      (extraAttributes instruction popup).lookup "data-progress" =
        instruction.progress.map number ∧
      (extraAttributes instruction popup).lookup "data-popup" = popup := by
  unfold extraAttributes itemAttributes popupAttribute
  by_cases hstyle : instruction.style = "" <;> cases instruction.item <;>
    cases instruction.progress <;> cases popup <;> simp [hstyle, List.lookup_cons]

/-- **The element of an instruction's shape shows it.** -/
theorem showsShape_shapeElement (instruction : Instruction) (popup : Option String) :
    ∃ tag attributes children,
      (shapeElement instruction (popupAttribute popup)
        (popup.map (textElement "title" [])).toList).nodes = [.element tag attributes children] ∧
      ShowsShape instruction popup (.element tag attributes children) := by
  obtain ⟨hclass, hid, hprogress, hpopup⟩ := lookup_extraAttributes instruction popup
  have hlookup : ∀ name ∈ extraNames, (shapeAttributes instruction.shape ++
      extraAttributes instruction popup).lookup name =
        (extraAttributes instruction popup).lookup name := by
    intro name hname
    rw [List.lookup_append, lookup_shapeAttributes hname, Option.none_or]
  have htooltip : nodesAll (popup.map (textElement "title" [])).toList =
      (popup.map (textNode "title" [])).toList := by
    cases popup <;> simp [textElement, nodes, nodesAll, textNode]
  refine ⟨shapeTag instruction.shape,
    shapeAttributes instruction.shape ++ extraAttributes instruction popup,
    (popup.map (textNode "title" [])).toList ++ lineNodes instruction.shape, ?_, ?_⟩
  · rw [shapeElement_eq, nodes, nodesAll_append, nodesAll_shapeChildren, htooltip]
  · refine .intro ?_ ?_ ?_ ?_ ?_
    · simp [extraAttributes, itemAttributes, popupAttribute, List.append_assoc]
    · rw [hlookup _ (by decide), hclass]
    · rw [hlookup _ (by decide), hid]
    · rw [hlookup _ (by decide), hprogress]
    · rw [hlookup _ (by decide), hpopup]

/-- **The element of an instruction shows it.** -/
theorem shows_instructionMarkup (instruction : Instruction) :
    ∃ tag attributes children,
      (instructionMarkup instruction).nodes = [.element tag attributes children] ∧
      Shows instruction (.element tag attributes children) := by
  obtain ⟨tag, attributes, children, hnodes, hshows⟩ := showsShape_shapeElement instruction none
  have hplain : (shapeElement instruction [] []).nodes = [.element tag attributes children] :=
    hnodes
  unfold instructionMarkup
  cases haction : instruction.action with
  | none => exact ⟨tag, attributes, children, hplain, .plain haction hshows⟩
  | some action =>
    cases action with
    | navigate url =>
      refine ⟨"a", [("href", url)], [.element tag attributes children], ?_,
        .navigate haction hshows⟩
      simp [nodes, nodesAll, hplain]
    | popup url =>
      obtain ⟨tag, attributes, children, hnodes, hshows⟩ :=
        showsShape_shapeElement instruction (some url)
      exact ⟨tag, attributes, children, hnodes, .popup haction hshows⟩

/-- Elements that stand in a row are found in their order, with no text between them. -/
theorem forall₂_nodesAll {α : Type} {R : α → Node → Prop} {f : α → Markup} (values : List α)
    (h : ∀ value ∈ values, ∃ tag attributes children,
      (f value).nodes = [.element tag attributes children] ∧
      R value (.element tag attributes children)) :
    List.Forall₂ R values (Node.elements (nodesAll (values.map f))) ∧
      Node.text (nodesAll (values.map f)) = [] := by
  induction values with
  | nil => exact ⟨.nil, rfl⟩
  | cons value rest ih =>
    obtain ⟨tag, attributes, children, hnodes, hR⟩ := h value List.mem_cons_self
    obtain ⟨hrest, htext⟩ := ih fun other hother => h other (List.mem_cons_of_mem _ hother)
    rw [List.map_cons, nodesAll, hnodes, Node.elements_append, Node.text_append]
    exact ⟨.cons hR hrest, htext⟩

/-- Putting children on lines of their own adds line feeds and nothing else. -/
theorem nodesAll_block (children : List Markup) :
    Node.elements (nodesAll (children.flatMap (fun child => [.text "\n", child]) ++ [.text "\n"])) =
        Node.elements (nodesAll children) ∧
      (Node.text (nodesAll children) = [] →
        ∀ c ∈ Node.text (nodesAll
          (children.flatMap (fun child => [.text "\n", child]) ++ [.text "\n"])), c = '\n') := by
  have hfeed : (Markup.text "\n").nodes = [.char '\n'] := by simp [nodes]
  induction children with
  | nil => simp [nodesAll, hfeed, Node.elements, Node.text]
  | cons child rest ih =>
    obtain ⟨helements, htext⟩ := ih
    simp only [List.flatMap_cons, List.cons_append, List.nil_append, nodesAll, hfeed,
      Node.elements_append, Node.text_append, Node.elements_cons_char, Node.text_cons_char]
    refine ⟨by rw [helements], ?_⟩
    intro hnone c hc
    obtain ⟨hchild, hrest⟩ := List.append_eq_nil_iff.1 hnone
    rw [hchild, List.nil_append] at hc
    rcases List.mem_cons.1 hc with hc | hc
    · exact hc
    · exact htext hrest c hc

/-- **The group of a run shows it.** -/
theorem showsRun_layerMarkup (run : Layer × List Instruction) :
    ∃ tag attributes children, (layerMarkup run).nodes = [.element tag attributes children] ∧
      ShowsRun run (.element tag attributes children) := by
  obtain ⟨hshows, htext⟩ :=
    forall₂_nodesAll run.2 fun instruction _ => shows_instructionMarkup instruction
  obtain ⟨helements, hfeeds⟩ := nodesAll_block (run.2.map instructionMarkup)
  refine ⟨_, _, _, rfl, .intro (hfeeds htext) ?_⟩
  rw [helements]
  exact hshows

/-! ## Reading -/

/-- **The document of any chart reads back.**  A plain reader accepts it, finds no attribute twice in
    any element, and finds the chart: a group for each maximal run on the same layer with the
    elements of its instructions, and in these the class, ids, link and texts of the instruction. -/
theorem render_reads_back (styled : Bool) (g : Geometry) :
    ∃ root, Reader.read? (render styled g).toList = some root ∧ root.Distinct ∧
      ShowsChart styled g root := by
  have hproper := proper_document styled g
  obtain ⟨hruns, hruntext⟩ :=
    forall₂_nodesAll (layerRuns g.instructions) fun run _ => showsRun_layerMarkup run
  obtain ⟨helements, hfeeds⟩ := nodesAll_block
    ((if styled then [styleMarkup] else []) ++ (layerRuns g.instructions).map layerMarkup)
  have hstyle : nodesAll (if styled then [styleMarkup] else []) =
      if styled then [.element "defs" [] [textNode "style" [] ("\n" ++ styleSheet)]] else [] := by
    cases styled with
    | false => rfl
    | true => simp [styleMarkup, textElement, nodes, nodesAll, textNode]
  refine ⟨_, ?_, hproper.distinct _ (by rw [document, block, nodes]; exact List.mem_singleton_self _),
    .intro (hfeeds ?_) ?_ (isLayering_layerRuns g.instructions) hruns⟩
  · rw [render, String.toList_ofList]
    exact Reader.read?_render hproper
  · rw [nodesAll_append, Node.text_append, hruntext, hstyle]
    cases styled <;> rfl
  · rw [helements, nodesAll_append, Node.elements_append, hstyle]
    cases styled <;> rfl

end GanttChart.Svg
