import DesignComponents.Proofs.Markup.Mark

/-! Markup with its attributes under other names. Reading looks at nothing of an element but its
tag, so each of its steps goes the same way whatever else the elements are; and the tree that is
read under other names is the same but for the names. -/

set_option autoImplicit false

namespace DesignComponents

/-- The entries under new names. Where two of them meet, the last gives the value. -/
def OrderedMap.rename {α : Type} (m : OrderedMap α) (name : List Char → List Char) : OrderedMap α :=
  .ofList (m.entries.map fun e => (String.ofList (name e.1.toList), e.2))

namespace Source

def Element.rename (name : List Char → List Char) (data : Element) : Element :=
  { data with attributes := data.attributes.map (·.rename name) }

theorem Element.tag_rename (name : List Char → List Char) (data : Element) :
    (data.rename name).tag = data.tag := rfl

namespace Node

mutual

/-- The tree with its attributes under new names; nothing else is touched. -/
def rename (name : List Char → List Char) : Node → Node
  | .element data cs => .element (data.rename name) (renameAll name cs)
  | .text content => .text content
  | .fragment cs => .fragment (renameAll name cs)
  | .foreign => .foreign

def renameAll (name : List Char → List Char) : List Node → List Node
  | [] => []
  | n :: rest => rename name n :: renameAll name rest

end

mutual

/-- The tree with `f` done to each of its elements; texts and nesting are not touched. -/
def mapElements (f : Element → Element) : Node → Node
  | .element data cs => .element (f data) (mapElementsAll f cs)
  | .text content => .text content
  | .fragment cs => .fragment (mapElementsAll f cs)
  | .foreign => .foreign

def mapElementsAll (f : Element → Element) : List Node → List Node
  | [] => []
  | n :: rest => mapElements f n :: mapElementsAll f rest

end

theorem mapElementsAll_eq_map (f : Element → Element) (ns : List Node) :
    mapElementsAll f ns = ns.map (mapElements f) := by
  induction ns with
  | nil => rfl
  | cons n rest ih => rw [mapElementsAll, ih, List.map_cons]

mutual

theorem rename_eq (name : List Char → List Char) :
    ∀ n : Node, n.rename name = n.mapElements (Element.rename name)
  | .element data cs => by rw [rename, mapElements, renameAll_eq name cs]
  | .text content => rfl
  | .fragment cs => by rw [rename, mapElements, renameAll_eq name cs]
  | .foreign => rfl

theorem renameAll_eq (name : List Char → List Char) :
    ∀ ns : List Node, renameAll name ns = mapElementsAll (Element.rename name) ns
  | [] => rfl
  | n :: rest => by rw [renameAll, mapElementsAll, rename_eq name n, renameAll_eq name rest]

end

end Node

end Source

namespace Markup

open Text Source

/-! ### Elements changed while they are read -/

section

variable {f : Element → Element}

def Frame.mapElements (f : Element → Element) (frame : Frame) : Frame :=
  ⟨f frame.data, frame.children.map (Node.mapElements f)⟩

theorem Frame.finish_mapElements (frame : Frame) (last : List Node) :
    (frame.mapElements f).finish (last.map (Node.mapElements f)) =
      (frame.finish last).mapElements f := by
  rw [finish, finish, Node.mapElements, Node.mapElementsAll_eq_map, List.map_reverse, List.map_append]
  rfl

namespace Building

def mapElements (f : Element → Element) (b : Building) : Building :=
  ⟨b.stack.map (Frame.mapElements f), b.roots.map (Node.mapElements f), b.count⟩

theorem append_mapElements (b : Building) (n : Node) :
    (b.mapElements f).append (n.mapElements f) = (b.append n).mapElements f := by
  obtain ⟨stack, roots, count⟩ := b
  cases stack <;> rfl

theorem appendText_mapElements (b : Building) (text : List Char) :
    (b.mapElements f).appendText text = (b.appendText text).mapElements f := by
  unfold appendText
  split
  · rfl
  · rw [← append_mapElements, Node.mapElements]

/-- A start tag whose element is that of another, changed. -/
theorem appendToken_start_mapElements {b : Building} {tag : String} {inner inner' : List Char}
    (same : ∀ number, numbered number tag inner' = f (numbered number tag inner))
    (selfClosing : Bool) :
    (b.mapElements f).appendToken (.start tag inner' selfClosing) =
      (b.appendToken (.start tag inner selfClosing)).mapElements f := by
  have element := same (b.count + 1)
  cases selfClosing with
  | false =>
    have opened : ∀ (b : Building) inner, b.appendToken (.start tag inner false) =
        { b with count := b.count + 1, stack := ⟨numbered (b.count + 1) tag inner, []⟩ :: b.stack } :=
      fun _ _ => rfl
    rw [opened, opened, show (b.mapElements f).count = b.count from rfl, element]
    rfl
  | true =>
    have added : ∀ (b : Building) inner, b.appendToken (.start tag inner true) =
        { b with count := b.count + 1 }.append (.element (numbered (b.count + 1) tag inner) []) :=
      fun _ _ => rfl
    rw [added, added, show (b.mapElements f).count = b.count from rfl, element, ← append_mapElements]
    rfl

section

variable (tags : ∀ data, (f data).tag = data.tag)
include tags

theorem unwind_mapElements (stopAt : Option String) (last : List Node) (stack : List Frame) :
    unwind stopAt (last.map (Node.mapElements f)) (stack.map (Frame.mapElements f)) =
      ((unwind stopAt last stack).1.map (Frame.mapElements f),
        (unwind stopAt last stack).2.map (Node.mapElements f)) := by
  induction stack generalizing last with
  | nil => rfl
  | cons frame rest ih =>
    have tag : (frame.mapElements f).data.tag = frame.data.tag := tags frame.data
    rw [List.map_cons]
    unfold unwind
    simp only [Frame.finish_mapElements, tag]
    split
    · cases rest <;> rfl
    · exact ih [frame.finish last]

theorem close_mapElements (b : Building) (stopAt : Option String) :
    (b.mapElements f).close stopAt = (b.close stopAt).mapElements f := by
  have closed := unwind_mapElements tags stopAt [] b.stack
  rw [List.map_nil] at closed
  simp only [close, mapElements, closed, List.map_append]

theorem finish_mapElements (b : Building) : (b.mapElements f).finish = b.finish.mapElements f := by
  rw [finish, close_mapElements tags, finish]
  generalize b.close none = closed
  obtain ⟨stack, roots, count⟩ := closed
  cases roots with
  | nil => rfl
  | cons n rest =>
    cases rest with
    | nil => rfl
    | cons n' rest =>
      simp only [mapElements, List.map_cons, Node.mapElements, Node.mapElementsAll_eq_map,
        List.reverse_cons, List.map_append, List.map_reverse, List.map_nil]

theorem appendToken_stop_mapElements (b : Building) (tag : String) :
    (b.mapElements f).appendToken (.stop tag) = (b.appendToken (.stop tag)).mapElements f := by
  have opened : (b.mapElements f).stack.any (·.data.tag == tag) = b.stack.any (·.data.tag == tag) := by
    simp only [mapElements, List.any_map]
    congr 1
    funext frame
    exact congrArg (· == tag) (tags frame.data)
  simp only [appendToken, opened]
  split
  · exact close_mapElements tags b (some tag)
  · rfl

end

end Building

end

variable {name : List Char → List Char}

/-! ### Marks under new names -/

/-- The mark with its attributes under new names. -/
def Mark.rename (name : List Char → List Char) : Mark → Mark
  | .text spelled => .text spelled
  | .start tag entries => .start tag (entries.map fun e => (name e.1, e.2))
  | .single tag entries blank => .single tag (entries.map fun e => (name e.1, e.2)) blank
  | .stop tag => .stop tag

theorem Mark.entries_rename (m : Mark) :
    (m.rename name).entries = m.entries.map fun e => (name e.1, e.2) := by
  cases m <;> rfl

theorem Mark.rename_rename (first second : List Char → List Char) (m : Mark) :
    (m.rename first).rename second = m.rename (second ∘ first) := by
  cases m <;> simp [rename]

theorem Mark.rename_id (m : Mark) : m.rename id = m := by
  cases m <;> simp [rename]

theorem Mark.named_rename {m : Mark} (named : m.Named) (names : ∀ e ∈ m.entries, ProperName (name e.1)) :
    (m.rename name).Named := by
  cases m with
  | text spelled => exact named
  | start tag es => exact ⟨named.1, List.forall_mem_map.2 names⟩
  | single tag es blank => exact ⟨named.1, List.forall_mem_map.2 names, named.2.2⟩
  | stop tag => exact named

theorem Mark.proper_rename {m : Mark} (proper : m.Proper)
    (names : ∀ e ∈ m.entries, ProperName (name e.1)) (nodup : (m.entries.map fun e => name e.1).Nodup) :
    (m.rename name).Proper := by
  have entries : ∀ {entries : List (List Char × List Char)}, ProperEntries entries →
      (∀ e ∈ entries, ProperName (name e.1)) → (entries.map fun e => name e.1).Nodup →
      ProperEntries (entries.map fun e => (name e.1, e.2)) := by
    intro entries proper names nodup
    refine ⟨fun e mem => ?_, by simpa [Function.comp_def] using nodup⟩
    obtain ⟨e', entry, rfl⟩ := List.mem_map.1 mem
    exact ⟨names e' entry, (proper.each e' entry).2⟩
  cases m with
  | text spelled => exact proper
  | start tag es => exact ⟨proper.1, entries proper.2 names nodup⟩
  | single tag es blank => exact ⟨proper.1, entries proper.2.1 names nodup, proper.2.2⟩
  | stop tag => exact proper

theorem numbered_rename {entries : List (List Char × List Char)} {blank : List Char}
    (proper : ProperEntries entries) (proper' : ProperEntries (entries.map fun e => (name e.1, e.2)))
    (blanks : ∀ c ∈ blank, c = ' ') (number : Nat) (tag : String) :
    numbered number tag ((entries.map fun e => (name e.1, e.2)).flatMap written ++ blank) =
      (numbered number tag (entries.flatMap written ++ blank)).rename name := by
  have nodup : ((entries.map fun e => (String.ofList (name e.1),
      Json.str (String.ofList (Entity.decode e.2)))).map Prod.fst).Nodup := by
    have names : (entries.map fun e => (String.ofList (name e.1),
        Json.str (String.ofList (Entity.decode e.2)))).map Prod.fst =
          ((entries.map fun e => (name e.1, e.2)).map Prod.fst).map String.ofList := by
      simp
    rw [names]
    exact proper'.nodup.map fun _ _ same => String.ofList_injective same
  have same : (attributesOf ((entries.map fun e => (name e.1, e.2)).flatMap written ++ blank)).mapValues
      Json.str = ((attributesOf (entries.flatMap written ++ blank)).mapValues Json.str).rename name := by
    refine OrderedMap.eq_of_entries ?_
    rw [OrderedMap.entries_mapValues, attributesOf_written proper' blanks, OrderedMap.rename,
      OrderedMap.entries_mapValues, attributesOf_written proper blanks]
    simp only [List.map_map, Function.comp_def, String.toList_ofList] at nodup ⊢
    exact (OrderedMap.entries_ofList (by simpa [Function.comp_def] using nodup)).symm
  simp only [numbered, same]
  rfl

/-- One mark, or rather the token it is read as: reading it goes the same way under either name. -/
theorem appendToken_rename {m : Mark} {t : Token} (proper : m.Proper)
    (proper' : (m.rename name).Proper) (reads : m.token? = some t) (b : Building) :
    ∃ t', (m.rename name).token? = some t' ∧
      (b.mapElements (Element.rename name)).appendToken t' =
        (b.appendToken t).mapElements (Element.rename name) := by
  cases m with
  | text spelled => simp [Mark.token?] at reads
  | start tag entries =>
    cases reads
    refine ⟨_, rfl, Building.appendToken_start_mapElements (fun number => ?_) false⟩
    simpa using @numbered_rename name entries [] proper.2 proper'.2 (by simp) number (String.ofList tag)
  | single tag entries blank =>
    cases reads
    refine ⟨_, rfl, Building.appendToken_start_mapElements (fun number => ?_) true⟩
    exact numbered_rename proper.2.1 proper'.2.1 proper.2.2 number (String.ofList tag)
  | stop tag =>
    cases reads
    exact ⟨_, rfl, Building.appendToken_stop_mapElements (Element.tag_rename name) b (String.ofList tag)⟩

/-- Texts that lie next to each other are read as one, hence the text that leads. -/
theorem run_rename {marks : List Mark} (proper : ∀ m ∈ marks, m.Proper)
    (proper' : ∀ m ∈ marks, (m.rename name).Proper) (lead : List Char) (b : Building) :
    (b.mapElements (Element.rename name)).run
        (Cut.passing lead ++ cutOf (marks.map (Mark.rename name))) =
      (b.run (Cut.passing lead ++ cutOf marks)).mapElements (Element.rename name) := by
  induction marks generalizing lead b with
  | nil =>
    rw [List.map_nil, cutOf, List.foldr_nil, Cut.append_nil]
    exact Building.appendText_mapElements b lead
  | cons m rest ih =>
    have later := @ih (fun m' mem => proper m' (List.mem_cons_of_mem m mem))
      (fun m' mem => proper' m' (List.mem_cons_of_mem m mem))
    rw [List.map_cons, cutOf_cons, cutOf_cons, Mark.cut, Mark.cut]
    -- A text joins the one that leads, and a tag ends it.
    cases reads : m.token? with
    | none =>
      obtain ⟨spelled, rfl⟩ := Mark.eq_text reads
      simp only [Mark.rename, Mark.token?, Mark.write]
      rw [← Cut.append_assoc, ← Cut.append_assoc, ← Cut.passing_append, later]
    | some t =>
      obtain ⟨t', reads', same⟩ := appendToken_rename (proper m (by simp)) (proper' m (by simp)) reads
        (b.appendText lead)
      have renamed := later [] ((b.appendText lead).appendToken t)
      rw [Cut.nil_append, Cut.nil_append] at renamed
      simp only [reads']
      rw [Building.run_passing_piece, Building.run_passing_piece, Building.appendText_mapElements, same,
        renamed]

theorem treeOf_rename {marks : List Mark} (proper : ∀ m ∈ marks, m.Proper)
    (proper' : ∀ m ∈ marks, (m.rename name).Proper) :
    treeOf (tokens (writeMarks (marks.map (Mark.rename name)))) =
      (treeOf (tokens (writeMarks marks))).rename name := by
  have renamed := run_rename proper proper' [] {}
  rw [Cut.nil_append, Cut.nil_append] at renamed
  have proper_all : ∀ m ∈ marks.map (Mark.rename name), m.Proper := by
    intro m mem
    obtain ⟨m', mem', rfl⟩ := List.mem_map.1 mem
    exact proper' m' mem'
  rw [tokens_writeMarks proper, tokens_writeMarks proper_all]
  have finished := congrArg Building.finish renamed
  rw [Building.finish_mapElements (Element.tag_rename name)] at finished
  rw [Node.rename_eq]
  exact finished

end Markup

end DesignComponents
