import DesignComponents.Proofs.Target.Jsx
import DesignComponents.Proofs.Template.Braces
import DesignComponents.Proofs.Template.CamelCase
import DesignComponents.Proofs.Template.ClassName
import DesignComponents.Proofs.Template.Fragment

/-! Static trees in the templates of other frameworks. The tree of such a template is the tree of the
JSX it was made from, under the names that attributes have in markup, where no value and no text
holds what one of the passes would take for a binding, a name or a fragment. -/

set_option autoImplicit false

namespace DesignComponents.Template

open Text Markup

/-- The name that an attribute has in a template. -/
def templateName (name : List Char) : List Char := respelled (classed name)

/-- What the passes read in a mark is what they are meant for. -/
structure Kept (framework : Framework) (m : Mark) : Prop where
  /-- No text and no value holds what looks like a class. -/
  unclassed : Unclassed m
  /-- No value holds what looks like a name in camel case. -/
  uncamel : ∀ e ∈ m.entries, Idle camelAttribute (quote e.2)
  /-- Every name in camel case is reached. -/
  reached : Reached (m.rename classed)
  /-- No value holds what looks like a fragment. -/
  unfragmented : ∀ e ∈ m.entries, hasFragment framework (quote e.2) = false
  /-- No two attributes get one name. -/
  distinct : (m.entries.map fun e => templateName e.1).Nodup

theorem kept_iff {framework : Framework} {m : Mark} : Kept framework m ↔
    Unclassed m ∧ (∀ e ∈ m.entries, Idle camelAttribute (quote e.2)) ∧ Reached (m.rename classed) ∧
      (∀ e ∈ m.entries, hasFragment framework (quote e.2) = false) ∧
      (m.entries.map fun e => templateName e.1).Nodup := by
  constructor
  · rintro ⟨unclassed, uncamel, reached, unfragmented, distinct⟩
    exact ⟨unclassed, uncamel, reached, unfragmented, distinct⟩
  · rintro ⟨unclassed, uncamel, reached, unfragmented, distinct⟩
    exact ⟨unclassed, uncamel, reached, unfragmented, distinct⟩

instance (framework : Framework) (m : Mark) : Decidable (Kept framework m) :=
  decidable_of_iff' _ kept_iff

/-! ### Rows of marks -/

theorem adjustFor_eq {framework : Framework} (other : framework ≠ .react) (text : List Char) :
    adjustFor framework text =
      writeFragments framework (substitute startTag (adjustBindings framework text)) := by
  cases framework with
  | react => contradiction
  | vue => rfl
  | angular => rfl
  | svelte => rfl
  | html => rfl

section

variable {framework : Framework} {marks : List Mark}

theorem adjustFor_writeMarks (other : framework ≠ .react) (named : ∀ m ∈ marks, m.Named)
    (names : ∀ m ∈ marks, ∀ e ∈ m.entries, ProperName (classed e.1) ∧ ProperName (templateName e.1))
    (spaced : ∀ m ∈ marks, Spaced m) (kept : ∀ m ∈ marks, Kept framework m)
    (unbound : Unbound framework (writeMarks marks)) :
    adjustFor framework (writeMarks marks) = writeMarks (marks.map (Mark.rename templateName)) := by
  have classed_named := fun m mem => Mark.named_rename (named m mem) fun e entry => (names m mem e entry).1
  have renamed_named := fun m mem => Mark.named_rename (named m mem) fun e entry => (names m mem e entry).2
  have classes := substitute_plainClass named spaced fun m mem => (kept m mem).unclassed
  have camel : ∀ m ∈ marks.map (Mark.rename classed), ∀ e ∈ m.entries, Idle camelAttribute (quote e.2) := by
    refine List.forall_mem_map.2 fun m mem => ?_
    rw [Mark.entries_rename]
    exact List.forall_mem_map.2 (kept m mem).uncamel
  have fragments : ∀ m ∈ marks.map (Mark.rename templateName), ∀ e ∈ m.entries,
      hasFragment framework (quote e.2) = false := by
    refine List.forall_mem_map.2 fun m mem => ?_
    rw [Mark.entries_rename]
    exact List.forall_mem_map.2 (kept m mem).unfragmented
  have spelled := substitute_startTag (List.forall_mem_map.2 classed_named)
    (List.forall_mem_map.2 fun m mem => (kept m mem).reached) camel
  rw [List.map_map] at spelled
  have composed : Mark.rename respelled ∘ Mark.rename classed = Mark.rename templateName := by
    funext m
    exact m.rename_rename classed respelled
  rw [adjustFor_eq other, unbound.adjustBindings_eq, classes, spelled, composed]
  exact writeFragments_eq (hasFragment_writeMarks (List.forall_mem_map.2 renamed_named) fragments)

end

/-! ### Static trees -/

theorem properName_templateName {name : String} (admitted : Attribute.isAllowed name = true ∨
    Attribute.isCustom name = true ∧ ProperName name.toList) :
    ProperName (classed name.toList) ∧ ProperName (templateName name.toList) := by
  obtain allowed | ⟨custom, proper⟩ := admitted
  · obtain ⟨proper, ascii⟩ := Attribute.proper_of_isAllowed allowed
    refine ⟨properName_classed proper, properName_respelled (properName_classed proper) fun c mem => ?_⟩
    obtain mem | mem := of_mem_classed mem
    · exact ascii c mem
    · exact List.all_eq_true.1 (rfl : "class".toList.all isAscii = true) c mem
  · have hyphen := mem_classed (Attribute.hyphen_of_isCustom custom) (by decide)
    rw [templateName, respelled_hyphen hyphen]
    exact ⟨properName_classed proper, properName_classed proper⟩

section

variable {m : Mark}

theorem properName_of_written (written : Target.Written Target.Data.Static m) :
    ∀ e ∈ m.entries, ProperName (classed e.1) ∧ ProperName (templateName e.1) := by
  intro e mem
  obtain absent | ⟨data, static, same⟩ := written.entries
  · simp [absent] at mem
  · rw [same] at mem
    obtain ⟨e', entry, rfl⟩ := List.mem_map.1 mem
    exact properName_templateName (static.attributes e' entry).1

theorem proper_renamed (written : Target.Written Target.Data.Static m)
    (distinct : (m.entries.map fun e => templateName e.1).Nodup) :
    (m.rename classed).Proper ∧ (m.rename templateName).Proper := by
  have names := properName_of_written written
  have nodup : (m.entries.map fun e => classed e.1).Nodup := by
    refine List.Nodup.of_map respelled ?_
    rw [List.map_map]
    exact distinct
  exact ⟨Mark.proper_rename (written.proper fun _ => Target.Data.Static.proper) (fun e mem => (names e mem).1) nodup,
    Mark.proper_rename (written.proper fun _ => Target.Data.Static.proper) (fun e mem => (names e mem).2) distinct⟩

end

theorem legible_renamed {marks : List Mark} {name : List Char → List Char}
    (written : ∀ m ∈ marks, Target.Written Target.Data.Static m) (proper : ∀ m ∈ marks, (m.rename name).Proper) :
    Legible (writeMarks (marks.map (Mark.rename name))) := by
  refine legible_writeMarks Target.spells_escapeTextChar ?_ ?_ ?_
  · intro m mem
    obtain ⟨m', mem', rfl⟩ := List.mem_map.1 mem
    exact proper m' mem'
  · intro spelled mem
    obtain ⟨m', mem', same⟩ := List.mem_map.1 mem
    cases m' with
    | text text =>
      cases same
      exact (written _ mem').spelled_text rfl
    | start tag entries => exact nomatch same
    | single tag entries blank => exact nomatch same
    | stop tag => exact nomatch same
  · intro m mem e entry
    obtain ⟨m', mem', rfl⟩ := List.mem_map.1 mem
    rw [Mark.entries_rename] at entry
    obtain ⟨e', entry', rfl⟩ := List.mem_map.1 entry
    exact (written m' mem').readable e' entry'

section

variable {framework : Framework} {marks : List Mark}

theorem parse_adjusted (other : framework ≠ .react) (written : ∀ m ∈ marks, Target.Written Target.Data.Static m)
    (kept : ∀ m ∈ marks, Kept framework m) (unbound : Unbound framework (writeMarks marks)) :
    ∃ tree, parse (writeMarks marks) = .ok tree ∧
      parse (adjustFor framework (writeMarks marks)) = .ok (tree.rename templateName) := by
  have proper : ∀ m ∈ marks, m.Proper := fun m mem => (written m mem).proper fun _ => Target.Data.Static.proper
  have renamed : ∀ m ∈ marks, (m.rename classed).Proper ∧ (m.rename templateName).Proper :=
    fun m mem => proper_renamed (written m mem) (kept m mem).distinct
  have adjusted := adjustFor_writeMarks other (fun m mem => (proper m mem).named)
    (fun m mem => properName_of_written (written m mem))
    (fun m mem _ same => (written m mem).head_blank same) kept unbound
  refine ⟨treeOf (tokens (writeMarks marks)), parse_legible (Target.legible_written written fun _ => Target.Data.Static.proper), ?_⟩
  rw [adjusted, parse_legible (legible_renamed written fun m mem => (renamed m mem).2),
    treeOf_rename proper fun m mem => (renamed m mem).2]

end

/-- The template of a static tree is read as the tree of its JSX, its attributes renamed each by its
name alone. -/
theorem parse_adjustFor {framework : Framework} {data : Target.Data} {cs : List Target.Node} {indent : Int}
    (other : framework ≠ .react) (element : data.kind = .element)
    (static : Target.Node.Static (.node data cs))
    (kept : ∀ m ∈ Target.Node.rootMarks indent data cs, Kept framework m)
    (unbound : Unbound framework (writeMarks (Target.Node.rootMarks indent data cs))) :
    ∃ jsx tree, Target.Node.toJsx (.node data cs) {} indent = .ok jsx ∧ parse jsx = .ok tree ∧
      parse (adjustFor framework jsx) = .ok (tree.rename templateName) := by
  have written := Target.Node.written_rootMarks static.each element indent
  obtain ⟨tree, read, adjusted⟩ := parse_adjusted other written kept unbound
  exact ⟨_, tree, Target.Node.toJsx_static static element indent, read, adjusted⟩

/-- A drawing with quotes, references, signs and a brace in its values, and JSX in its text. -/
def sampleRoot : Target.Data where
  tag := "svg"
  attributes := ⟨[("className", .str "a \"b\""), ("viewBox", .str "0 0 1 1"), ("strokeWidth", .str "&amp;"),
    ("data-on", .str "style=\x7b\x7b on=\x7b")], by decide⟩

def sampleChildren : List Target.Node := [.text "\x7bx\x7d <y>", .node { tag := "g" } []]

theorem parse_adjustFor_sample :
    Framework.vue ≠ .react ∧ sampleRoot.kind = .element ∧
      Target.Node.Static (.node sampleRoot sampleChildren) ∧
      (∀ m ∈ Target.Node.rootMarks 2 sampleRoot sampleChildren, Kept .vue m) ∧
      Unbound .vue (writeMarks (Target.Node.rootMarks 2 sampleRoot sampleChildren)) ∧
      ∃ jsx tree, Target.Node.toJsx (.node sampleRoot sampleChildren) {} 2 = .ok jsx ∧
        parse jsx = .ok tree ∧ parse (adjustFor .vue jsx) = .ok (tree.rename templateName) := by
  have static : Target.Node.Static (.node sampleRoot sampleChildren) := by
    have attributes : ∀ e ∈ sampleRoot.attributes.entries,
        (Attribute.isAllowed e.1 = true ∨ Attribute.isCustom e.1 = true ∧ ProperName e.1.toList) ∧
          ∃ value, e.2 = .str value := by
      intro e mem
      simp only [sampleRoot, List.mem_cons, List.not_mem_nil, or_false] at mem
      obtain rfl | rfl | rfl | rfl := mem
      · exact ⟨.inl (by decide +kernel), _, rfl⟩
      · exact ⟨.inl (by decide +kernel), _, rfl⟩
      · exact ⟨.inl (by decide +kernel), _, rfl⟩
      · exact ⟨.inr (by decide +kernel), _, rfl⟩
    have root : sampleRoot.Static := ⟨by decide +kernel, attributes, .inl rfl⟩
    have child : Target.Data.Static { tag := "g" } := ⟨by decide +kernel, List.forall_mem_nil _, .inl rfl⟩
    exact ⟨root, ⟨_, rfl⟩, ⟨child, trivial⟩, trivial⟩
  have kept : ∀ m ∈ Target.Node.rootMarks 2 sampleRoot sampleChildren, Kept .vue m := by decide +kernel
  have unbound : Unbound .vue (writeMarks (Target.Node.rootMarks 2 sampleRoot sampleChildren)) :=
    unbound_of_unbraced (by decide +kernel) (by decide +kernel)
  exact ⟨by decide, rfl, static, kept, unbound, parse_adjustFor (by decide) rfl static kept unbound⟩

/-- The elements and texts that are read in a text, in its order, with the attributes of each. -/
def itemsRead (text : List Char) : Option (List (String × List (String × String))) :=
  (parse text).toOption.map fun tree => (walk tree).map fun
    | .element data => (data.tag, (data.attributes.getD .empty).entries.map fun e =>
        (e.1, String.ofList e.2.spelled))
    | .text content => (content, [])

def bracedRoot : Target.Data where
  tag := "g"
  attributes := ⟨[("id", .str "\x7bx\x7d")], by decide⟩

/-- The passes do not tell values and texts from what they look for: bindings, classes, names in camel
case, tags and fragments. And two names may become one. -/
theorem values_are_rewritten :
    ((Target.Node.toJsx (.node bracedRoot []) {} 0).toOption = some "<g id=\"\x7bx\x7d\" />".toList ∧
      itemsRead "<g id=\"\x7bx\x7d\" />".toList = some [("g", [("id", "\x7bx\x7d")])] ∧
      itemsRead (adjustFor .html "<g id=\"\x7bx\x7d\" />".toList) = some [("g", [("id", "")])]) ∧
    itemsRead (adjustFor .vue "<g id=\"className=\" />".toList) = some [("g", [("id", "class=")])] ∧
    itemsRead (adjustFor .vue "<g>\n  className=\"x\"\n</g>".toList) =
      some [("g", []), ("class=\"x\"", [])] ∧
    itemsRead (adjustFor .vue "<g id=\" aB=\" />".toList) = some [("g", [("id", " a-b=")])] ∧
    itemsRead (adjustFor .vue "<g id=\">\" strokeWidth=\"2\" />".toList) =
      some [("g", [("id", ">"), ("strokeWidth", "2")])] ∧
    itemsRead (adjustFor .angular "<g id=\"<>\" />".toList) =
      some [("g", [("id", "<ng-container>")])] ∧
    itemsRead (adjustFor .vue "<g data-class=\"a\" data-className=\"b\" />".toList) =
      some [("g", [("data-class", "a")])] := by
  refine ⟨⟨?_, ?_, ?_⟩, ?_, ?_, ?_, ?_, ?_, ?_⟩ <;> decide +kernel

/-! ### Plain trees -/

/-- A mark that no pass but those for names can find anything in, whatever the framework. -/
structure Unmarked (m : Mark) : Prop where
  text : m.token? = none → found plainClass m.write = false
  names : ∀ e ∈ m.entries, ∀ c ∈ e.1, notBrace c = true
  values : ∀ e ∈ m.entries, ∀ c ∈ e.2, notBrace c = true ∧ notAngle c = true ∧ c ≠ '='
  distinct : (m.entries.map fun e => templateName e.1).Nodup

theorem kept_of_unmarked {framework : Framework} {m : Mark} (written : Target.Written Target.Data.Static m)
    (unmarked : Unmarked m) : Kept framework m where
  unclassed := by
    refine ⟨unmarked.text, fun e mem => plainClass_notFound fun sign => ?_⟩
    exact (unmarked.values e mem _ (by simpa [quote] using sign)).2.2 rfl
  uncamel e mem := by
    refine idle_of_notFound camelAttribute_takes (camelAttribute_notFound fun sign => ?_)
    exact (unmarked.values e mem _ (by simpa [quote] using sign)).2.2 rfl
  reached := by
    refine reached_of_notAngle (proper_renamed written unmarked.distinct).1 fun e mem c inside => ?_
    rw [Mark.entries_rename] at mem
    obtain ⟨e', entry, rfl⟩ := List.mem_map.1 mem
    exact (unmarked.values e' entry c inside).2.1
  unfragmented e mem := by
    refine hasFragment_clean fun sign => ?_
    exact absurd (unmarked.values e mem _ (by simpa [quote] using sign)).2.1 (by decide)
  distinct := unmarked.distinct

theorem unbraced_of_notBrace {text : List Char} (none_in : ∀ c ∈ text, notBrace c = true) :
    Unbraced text := by
  intro pair
  exact absurd (none_in '\x7b' (pair.subset (by simp))) (by decide)

theorem notBrace_write {m : Mark} (proper : m.Proper)
    (text : m.token? = none → ∀ c ∈ m.write, notBrace c = true)
    (names : ∀ e ∈ m.entries, ∀ c ∈ e.1, notBrace c = true)
    (values : ∀ e ∈ m.entries, ∀ c ∈ e.2, notBrace c = true) : ∀ c ∈ m.write, notBrace c = true := by
  have tag : ∀ {name : List Char}, ProperTag name → ∀ c ∈ name, notBrace c = true := by
    intro name proper_tag c mem
    simp only [notBrace, Bool.and_eq_true, bne_iff_ne]
    constructor <;> rintro rfl <;> exact absurd (proper_tag.char _ mem) (by decide)
  have attributes : ∀ c ∈ m.entries.flatMap written, notBrace c = true := by
    intro c mem
    obtain ⟨e, entry, mem⟩ := List.mem_flatMap.1 mem
    rcases mem_written mem with mem | mem | sign
    · exact names e entry c mem
    · exact values e entry c mem
    · exact List.all_eq_true.1 (rfl : [' ', '=', '"'].all notBrace = true) c sign
  cases m with
  | text spelled => exact text rfl
  | start name entries =>
    intro c mem
    simp only [Mark.write, List.mem_append, List.mem_cons, List.not_mem_nil, or_false] at mem
    obtain ((rfl | mem) | mem) | rfl := mem
    · decide
    · exact tag proper.1 c mem
    · exact attributes c mem
    · decide
  | single name entries blank =>
    intro c mem
    simp only [Mark.write, List.mem_append, List.mem_cons, List.not_mem_nil, or_false] at mem
    obtain (((rfl | mem) | mem) | mem) | rfl | rfl := mem
    · decide
    · exact tag proper.1 c mem
    · exact attributes c mem
    · rw [proper.2.2 c mem]
      decide
    · decide
    · decide
  | stop name =>
    intro c mem
    simp only [Mark.write, List.mem_append, List.mem_cons, List.not_mem_nil, or_false] at mem
    obtain (rfl | rfl | mem) | rfl := mem
    · decide
    · decide
    · exact tag proper c mem
    · decide

theorem notBrace_escapeTextChar (d : Char) : (Target.escapeTextChar d).all notBrace = true := by
  unfold Target.escapeTextChar
  split
  case h_6 =>
    simp only [List.all_cons, List.all_nil, Bool.and_true, notBrace, Bool.and_eq_true, bne_iff_ne]
    exact ⟨‹_›, ‹_›⟩
  all_goals decide

theorem unbraced_written {marks : List Mark} {name : List Char → List Char}
    (written : ∀ m ∈ marks, Target.Written Target.Data.Static m) (proper : ∀ m ∈ marks, (m.rename name).Proper)
    (names : ∀ m ∈ marks, ∀ e ∈ m.entries, ∀ c ∈ name e.1, notBrace c = true)
    (unmarked : ∀ m ∈ marks, Unmarked m) : Unbraced (writeMarks (marks.map (Mark.rename name))) := by
  refine unbraced_of_notBrace fun c mem => ?_
  obtain ⟨m', renamed, inside⟩ := List.mem_flatMap.1 mem
  obtain ⟨m, mem, rfl⟩ := List.mem_map.1 renamed
  refine notBrace_write (proper m mem) ?_ ?_ ?_ c inside
  · intro text
    cases m with
    | text spelled =>
      obtain ⟨raw, rfl⟩ := (written _ mem).spelled_text rfl
      intro c mem
      obtain ⟨d, -, mem⟩ := List.mem_flatMap.1 mem
      exact List.all_eq_true.1 (notBrace_escapeTextChar d) c mem
    | start tag entries => exact nomatch text
    | single tag entries blank => exact nomatch text
    | stop tag => exact nomatch text
  · intro e entry
    rw [Mark.entries_rename] at entry
    obtain ⟨e', entry', rfl⟩ := List.mem_map.1 entry
    exact names m mem e' entry'
  · intro e entry
    rw [Mark.entries_rename] at entry
    obtain ⟨e', entry', rfl⟩ := List.mem_map.1 entry
    exact fun c inside => ((unmarked m mem).values e' entry' c inside).1

theorem unbound_of_unmarked {framework : Framework} {marks : List Mark}
    (written : ∀ m ∈ marks, Target.Written Target.Data.Static m) (unmarked : ∀ m ∈ marks, Unmarked m) :
    Unbound framework (writeMarks marks) := by
  have kept : ∀ m ∈ marks, Kept framework m := fun m mem => kept_of_unmarked (written m mem) (unmarked m mem)
  have itself : marks.map (Mark.rename id) = marks :=
    (List.map_congr_left fun m _ => m.rename_id).trans (List.map_id marks)
  have proper : ∀ m ∈ marks, m.Proper := fun m mem => (written m mem).proper fun _ => Target.Data.Static.proper
  have before := @unbraced_written marks id written ?_ (fun m mem => (unmarked m mem).names) unmarked
  have after := @unbraced_written marks classed written
    (fun m mem => (proper_renamed (written m mem) (unmarked m mem).distinct).1) ?_ unmarked
  · rw [itself] at before
    rw [← substitute_plainClass (fun m mem => (proper m mem).named) (fun m mem _ same => (written m mem).head_blank same)
      fun m mem => (kept m mem).unclassed] at after
    exact unbound_of_unbraced before after
  · intro m mem e entry c inside
    obtain inside | inside := of_mem_classed inside
    · exact (unmarked m mem).names e entry c inside
    · exact List.all_eq_true.1 (rfl : "class".toList.all notBrace = true) c inside
  · intro m mem
    rw [m.rename_id]
    exact proper m mem

/-- Where no value has a brace, an angle bracket or an equals sign in it, and no text what looks like
a class, the template keeps the tree in every framework. -/
theorem parse_adjustFor_unmarked {framework : Framework} {data : Target.Data} {cs : List Target.Node}
    {indent : Int} (other : framework ≠ .react) (element : data.kind = .element)
    (static : Target.Node.Static (.node data cs))
    (unmarked : ∀ m ∈ Target.Node.rootMarks indent data cs, Unmarked m) :
    ∃ jsx tree, Target.Node.toJsx (.node data cs) {} indent = .ok jsx ∧ parse jsx = .ok tree ∧
      parse (adjustFor framework jsx) = .ok (tree.rename templateName) := by
  have written := Target.Node.written_rootMarks static.each element indent
  obtain ⟨tree, read, adjusted⟩ := parse_adjusted other written
    (fun m mem => kept_of_unmarked (written m mem) (unmarked m mem)) (unbound_of_unmarked written unmarked)
  exact ⟨_, tree, Target.Node.toJsx_static static element indent, read, adjusted⟩

end DesignComponents.Template
