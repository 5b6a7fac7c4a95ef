import DesignComponents.Proofs.Style.Written
import Mathlib.Data.List.Infix

/-! Which elements the rules of a sheet apply to. In a plain sheet a rule applies to all that have its
class. In a nested one it applies to them inside the root only, and the root is the last of the
outermost elements. -/

set_option autoImplicit false

namespace DesignComponents.Style

open Target Text

/-! ### Selectors -/

/-- The white space between classes. -/
def isSpace (c : Char) : Bool := [' ', '\t', '\n', '\x0c', '\r'].contains c

def classNames (text : List Char) : List (List Char) :=
  (text.splitOnP isSpace).filter (!·.isEmpty)

/-- Whether an element has the class. -/
def carries (d : Data) (name : String) : Bool :=
  ((d.attributes.get? "className").map fun v => (classNames v.spelled).contains name.toList).getD false

/-- Classes from the element that is selected outwards, each of an element somewhere around it. -/
abbrev Selector := List String

/-- Whether an element is selected, which is given with all that are around it. -/
def selects : Selector → List Data → Bool
  | [], _ => true
  | _ :: _, [] => false
  | name :: outer, d :: around =>
    carries d name && (outer.isEmpty || around.tails.any fun path => selects outer path)

/-- Each rule of a block with its selector. -/
def Block.selectors (b : Block) : List (Selector × Rule) :=
  ([b.rule.1], b.rule) :: b.inside.map fun rule => ([rule.1, b.rule.1], rule)

def selectorsOf (blocks : List Block) : List (Selector × Rule) := blocks.flatMap Block.selectors

/-- The rules that apply to an element. -/
def appliedTo (blocks : List Block) (path : List Data) : List Rule :=
  ((selectorsOf blocks).filter fun e => selects e.1 path).map Prod.snd

mutual

/-- The elements of a tree, each with those around it from the inside outwards. -/
def pathsOf (around : List Data) : Node → List (List Data)
  | .node d cs =>
    if d.kind = .element then (d :: around) :: pathsIn (d :: around) cs else pathsIn around cs

def pathsIn (around : List Data) : List Node → List (List Data)
  | [] => []
  | n :: rest => pathsOf around n ++ pathsIn around rest

end

theorem selects_single (name : String) (d : Data) (around : List Data) :
    selects [name] (d :: around) = carries d name := by simp [selects]

theorem selects_inside (name outer : String) (d : Data) (around : List Data) :
    selects [name, outer] (d :: around) = true ↔
      carries d name = true ∧ ∃ d' ∈ around, carries d' outer = true := by
  have some_around : (∃ path ∈ around.tails, selects [outer] path = true) ↔
      ∃ d' ∈ around, carries d' outer = true := by
    simp only [List.mem_tails]
    constructor
    · rintro ⟨path, suffix, selected⟩
      cases path with
      | nil => exact nomatch selected
      | cons d' rest => exact ⟨d', suffix.subset List.mem_cons_self, by rwa [selects_single] at selected⟩
    · rintro ⟨d', mem, carried⟩
      obtain ⟨front, back, rfl⟩ := List.append_of_mem mem
      exact ⟨d' :: back, List.suffix_append front _, by rwa [selects_single]⟩
  simp [selects, ← some_around]

theorem mem_appliedTo {blocks : List Block} {path : List Data} {rule : Rule} :
    rule ∈ appliedTo blocks path ↔
      ∃ selector, (selector, rule) ∈ selectorsOf blocks ∧ selects selector path = true := by
  simp [appliedTo]

theorem mem_appliedTo_flat {s : Sheet} {d : Data} {around : List Data} {rule : Rule} :
    rule ∈ appliedTo s.flat (d :: around) ↔ rule ∈ s.rules.entries ∧ carries d rule.1 = true := by
  simp only [mem_appliedTo, selectorsOf, Sheet.flat, List.flatMap_map, Block.selectors, List.map_nil,
    List.mem_flatMap, List.mem_singleton, Prod.mk.injEq]
  constructor
  · rintro ⟨selector, ⟨rule', mem, rfl, rfl⟩, selected⟩
    exact ⟨mem, by rwa [selects_single] at selected⟩
  · rintro ⟨mem, carried⟩
    exact ⟨[rule.1], ⟨rule, mem, rfl, rfl⟩, by rwa [selects_single]⟩

theorem mem_appliedTo_nested {s : Sheet} {root : Declarations}
    (held : s.rules.get? s.rootClass = some root) {d : Data} {around : List Data} {rule : Rule} :
    rule ∈ appliedTo s.nested (d :: around) ↔ rule ∈ s.rules.entries ∧ carries d rule.1 = true ∧
      (rule.1 ≠ s.rootClass → ∃ d' ∈ around, carries d' s.rootClass = true) := by
  simp only [mem_appliedTo, selectorsOf, Sheet.nested, held, List.flatMap_cons, List.flatMap_nil,
    List.append_nil, Block.selectors, List.mem_cons, List.mem_map, List.mem_filter, bne_iff_ne,
    Prod.mk.injEq]
  constructor
  · rintro ⟨selector, ⟨rfl, rfl⟩ | ⟨rule', ⟨mem, other⟩, rfl, rfl⟩, selected⟩
    · rw [selects_single] at selected
      exact ⟨OrderedMap.mem_of_get? held, selected, fun other => absurd rfl other⟩
    · obtain ⟨carried, inside⟩ := (selects_inside _ _ _ _).1 selected
      exact ⟨mem, carried, fun _ => inside⟩
  · rintro ⟨mem, carried, inside⟩
    by_cases same : rule.1 = s.rootClass
    · have found := OrderedMap.get?_of_mem mem
      rw [same, held] at found
      have whole : rule = (s.rootClass, root) := Prod.ext same (Option.some.inj found).symm
      exact ⟨_, .inl ⟨rfl, whole⟩, by rwa [selects_single, ← same]⟩
    · exact ⟨_, .inr ⟨rule, ⟨mem, same⟩, rfl, rfl⟩, (selects_inside _ _ _ _).2 ⟨carried, inside same⟩⟩

/-! ### Paths -/

mutual

theorem elementsOf_paths (around : List Data) : ∀ n : Node,
    elementsOf around.isEmpty n = (pathsOf around n).filterMap fun path =>
      path.head?.map fun d => ⟨path.tail.isEmpty, d⟩
  | .node d cs => by
    have inside := elementsIn_paths (d :: around) cs
    have beside := elementsIn_paths around cs
    by_cases element : d.kind = .element
    · simp only [List.isEmpty_cons] at inside
      simp [elementsOf, pathsOf, element, inside]
    · simp [elementsOf, pathsOf, element, beside]

theorem elementsIn_paths (around : List Data) : ∀ ns : List Node,
    elementsIn around.isEmpty ns = (pathsIn around ns).filterMap fun path =>
      path.head?.map fun d => ⟨path.tail.isEmpty, d⟩
  | [] => by simp [elementsIn, pathsIn]
  | n :: rest => by
    simp [elementsIn, pathsIn, elementsOf_paths around n, elementsIn_paths around rest]

end

mutual

/-- Every path leads out to one that begins next to what is around all. -/
theorem outermost (around : List Data) : ∀ n : Node, ∀ path ∈ pathsOf around n,
    ∃ front d, path = front ++ d :: around ∧ d :: around ∈ pathsOf around n
  | .node d cs, path, mem => by
    by_cases element : d.kind = .element
    · rw [pathsOf, if_pos element] at mem ⊢
      rcases List.mem_cons.1 mem with rfl | mem
      · exact ⟨[], d, rfl, List.mem_cons_self⟩
      · obtain ⟨front, d', rfl, -⟩ := outermostIn (d :: around) cs path mem
        exact ⟨front ++ [d'], d, by simp, List.mem_cons_self⟩
    · rw [pathsOf, if_neg element] at mem ⊢
      exact outermostIn around cs path mem

theorem outermostIn (around : List Data) : ∀ ns : List Node, ∀ path ∈ pathsIn around ns,
    ∃ front d, path = front ++ d :: around ∧ d :: around ∈ pathsIn around ns
  | n :: rest, path, mem => by
    rw [pathsIn, List.mem_append] at mem
    rw [pathsIn]
    rcases mem with here | later
    · obtain ⟨front, d, same, held⟩ := outermost around n path here
      exact ⟨front, d, same, List.mem_append_left _ held⟩
    · obtain ⟨front, d, same, held⟩ := outermostIn around rest path later
      exact ⟨front, d, same, List.mem_append_right _ held⟩

end

/-- The elements of a tree are those that have a path. -/
theorem mem_elementsOf {root : Node} {e : Element} : e ∈ elementsOf true root ↔
    ∃ around, e.data :: around ∈ pathsOf [] root ∧ e.isRoot = around.isEmpty := by
  have same := elementsOf_paths [] root
  rw [List.isEmpty_nil] at same
  rw [same, List.mem_filterMap]
  constructor
  · rintro ⟨path, mem, here⟩
    obtain ⟨d, first, rfl⟩ := Option.map_eq_some_iff.1 here
    obtain ⟨around, rfl⟩ := List.head?_eq_some_iff.1 first
    exact ⟨around, mem, rfl⟩
  · rintro ⟨around, mem, outer⟩
    exact ⟨_, mem, by simp [← outer]⟩

/-! ### Classes that are given -/

theorem classNames_single {name : List Char} (solid : Unspaced name) (some_name : name ≠ []) :
    classNames name = [name] := by
  have none_space : ∀ c ∈ name, isSpace c = false := by
    intro c mem
    apply Bool.eq_false_iff.2
    intro space
    have blank : ∀ c ∈ [' ', '\t', '\n', '\x0c', '\r'], isBlank c = true := by decide
    exact absurd (blank c (List.contains_iff_mem.1 space)) (Bool.eq_false_iff.1 (solid c mem))
  rw [classNames, List.splitOnP_eq_singleton none_space]
  simp [some_name]

theorem classNames_append (before name : List Char) :
    classNames (before ++ ' ' :: name) = classNames before ++ classNames name := by
  rw [classNames, List.splitOnP_append_cons _ _ (by decide : isSpace ' ' = true), List.filter_append]
  rfl

variable {isRoot : Bool} {d d' : Data} {s s' : Sheet} {es es' : List Element} {name c : String}

/-- With a class more an element has that one, and no others that it did not have. -/
theorem carries_addClasses (proper : Proper name)
    (same : d'.attributes = Sheet.addClasses (Sheet.withoutStyling d.attributes) [name]) :
    carries d' name = true ∧ ∀ c, carries d' c = true → carries d c = true ∨ c = name := by
  obtain ⟨text, held, written⟩ := addClasses_single (Sheet.withoutStyling d.attributes) name
  rw [classesBefore_withoutStyling] at written
  have spelled : (Json.str text).spelled = text.toList := rfl
  have single := classNames_single proper.signless.unspaced proper.some_name
  simp only [carries, same, held, Option.map_some, Option.getD_some, spelled, written]
  unfold classesBefore
  split
  · next v before =>
    split
    · simp [classNames_append, single, before, String.toList_inj]
    · simp +contextual [single, String.toList_inj]
  · simp +contextual [single, String.toList_inj]

/-- What comes of an element that a rule is entered for. -/
structure Drawn (isRoot : Bool) (d : Data) (s : Sheet) (d' : Data) (s' : Sheet) (name : String) :
    Prop where
  carried : carries d' name = true
  only : ∀ c, carries d' c = true → carries d c = true ∨ c = name
  keys : ∀ c, c ∈ s'.rules.keys ↔ c ∈ s.rules.keys ∨ c = name
  rootClass : s'.rootClass = if isRoot then name else s.rootClass

/-- A root always has a rule. -/
theorem Step.drawn (step : Step isRoot d s d' s') (sound : Sound s) (classes : s.styling ≠ .tailwind) :
    (isRoot = false ∧ s' = s) ∨ ∃ name, Drawn isRoot d s d' s' name := by
  cases step with
  | plain none =>
    refine .inl ⟨Bool.eq_false_iff.2 ?_, rfl⟩
    rintro rfl
    have shown := none "display"
    simp [declared?, ofRoot?] at shown
  | @styled name namer given_classes some drawn given =>
    have single : given_classes = [name] := by
      unfold classesFor at given
      split at given
      · next tailwind => exact absurd tailwind classes
      · cases given
        rfl
    subst single
    obtain ⟨carried, only⟩ := @carries_addClasses d { d with
      attributes := Sheet.addClasses (Sheet.withoutStyling d.attributes) [name] } name
        (sound.classOf drawn).1 rfl
    exact .inr ⟨name, carried, only, fun c => OrderedMap.mem_keys_insert, rfl⟩

/-- How a sheet goes together with elements that have come past it. -/
structure Marks (es' : List Element) (s s' : Sheet) : Prop where
  keys : ∀ c ∈ s.rules.keys, c ∈ s'.rules.keys
  carried : ∀ c ∈ s'.rules.keys, c ∈ s.rules.keys ∨ ∃ e ∈ es', carries e.data c = true
  roots : ∀ e ∈ es', e.isRoot = true → ∃ c ∈ s'.rules.keys, carries e.data c = true
  rootClass : (s.rootClass ∈ s.rules.keys ∨ ∃ e ∈ es', e.isRoot = true) → s'.rootClass ∈ s'.rules.keys

/-- An inner element without a rule changes nothing. -/
theorem Marks.skip (marks : Marks es' s s') : Marks (⟨false, d⟩ :: es') s s' where
  keys := marks.keys
  carried c mem := by
    rw [List.exists_mem_cons_iff]
    exact (marks.carried c mem).imp_right .inr
  roots := List.forall_mem_cons.2 ⟨by simp, marks.roots⟩
  rootClass held := marks.rootClass (by simpa using held)

theorem Drawn.marks {s₁ : Sheet} (drawn : Drawn isRoot d s d' s₁ name) (marks : Marks es' s₁ s') :
    Marks (⟨isRoot, d'⟩ :: es') s s' where
  keys c mem := marks.keys c ((drawn.keys c).2 (.inl mem))
  carried c mem := by
    rw [List.exists_mem_cons_iff]
    rcases marks.carried c mem with before | later
    · refine ((drawn.keys c).1 before).imp_right fun same => .inl ?_
      rw [same]
      exact drawn.carried
    · exact .inr (.inr later)
  roots := by
    have own : name ∈ s'.rules.keys := marks.keys name ((drawn.keys name).2 (.inr rfl))
    exact List.forall_mem_cons.2 ⟨fun _ => ⟨name, own, drawn.carried⟩, marks.roots⟩
  rootClass held := by
    refine marks.rootClass ?_
    rw [drawn.rootClass, drawn.keys]
    cases isRoot with
    | true => exact .inl (.inr rfl)
    | false =>
      -- The root's class stays, and so does its rule.
      rw [List.exists_mem_cons_iff] at held
      exact held.imp .inl fun root => root.resolve_left (by simp)

theorem Steps.marks (steps : Steps es es' s s') (sound : Sound s) (classes : s.styling ≠ .tailwind) :
    Marks es' s s' := by
  induction steps with
  | nil => exact ⟨fun _ mem => mem, fun _ mem => .inl mem, nofun, fun held => held.resolve_right (by simp)⟩
  | @cons e es es' d' s s₁ s' first others ih =>
    have later := ih (sound.step first) (first.styling ▸ classes)
    rcases first.drawn sound classes with ⟨inner, rfl⟩ | ⟨name, drawn⟩
    · rw [inner]
      exact later.skip
    · exact drawn.marks later

/-- One element that is outermost keeps its class for the root's. -/
theorem Steps.single (steps : Steps es es' s s') (sound : Sound s) (classes : s.styling ≠ .tailwind) :
    ((∀ e ∈ es, e.isRoot = false) → s'.rootClass = s.rootClass) ∧
    (es.countP (·.isRoot) ≤ 1 → ∀ e' ∈ es', e'.isRoot = true → ∃ e ∈ es, e.isRoot = true ∧
      ∀ c, carries e'.data c = true → carries e.data c = true ∨ c = s'.rootClass) := by
  induction steps with
  | nil => exact ⟨fun _ => rfl, nofun⟩
  | @cons e es es' d' s s₁ s' first others ih =>
    -- Before the outermost element the class may be any; behind it nothing changes it any more.
    obtain ⟨none, one⟩ := ih (sound.step first) (first.styling ▸ classes)
    cases outer : e.isRoot with
    | false =>
      refine ⟨fun all => ?_, fun few e' held root => ?_⟩
      · rw [none fun e mem => all e (List.mem_cons_of_mem _ mem)]
        rcases first.drawn sound classes with ⟨-, rfl⟩ | ⟨name, drawn⟩
        · rfl
        · rw [drawn.rootClass, outer, if_neg (by simp)]
      · rcases List.mem_cons.1 held with rfl | held
        · exact nomatch (root : false = true)
        · obtain ⟨e₀, mem, rest⟩ := one (by simpa [outer] using few) e' held root
          exact ⟨e₀, List.mem_cons_of_mem _ mem, rest⟩
    | true =>
      refine ⟨fun all => absurd (all e List.mem_cons_self) (by rw [outer]; decide), fun few e' held root => ?_⟩
      have no_more : ∀ e ∈ es, e.isRoot = false := by
        simpa [outer, List.countP_eq_zero] using few
      rcases List.mem_cons.1 held with rfl | held
      · obtain ⟨name, drawn⟩ := (first.drawn sound classes).resolve_left (by simp [outer])
        refine ⟨e, List.mem_cons_self, outer, fun c carried => ?_⟩
        rw [none no_more, drawn.rootClass, outer, if_pos rfl]
        exact drawn.only c carried
      · have few' : es.countP (·.isRoot) ≤ 1 := (List.sublist_cons_self e es).countP_le.trans few
        obtain ⟨e₀, mem, root', -⟩ := one few' e' held root
        exact absurd root' (by simp [no_more e₀ mem])

/-! ### The same elements -/

/-- The outermost elements have no class of the sheet but the root's. -/
def Enclosed (styled : Node) (s : Sheet) : Prop :=
  ∀ e ∈ elementsOf true styled, e.isRoot = true →
    ∀ c ∈ s.rules.keys, carries e.data c = true → c = s.rootClass

section

variable {styled : Node} (marks : Marks (elementsOf true styled) s s')

include marks

/-- Then each element is the root or inside of it. -/
theorem Enclosed.root_around (enclosed : Enclosed styled s') {path : List Data}
    (mem : path ∈ pathsOf [] styled) : ∃ front d, path = front ++ [d] ∧
      ⟨true, d⟩ ∈ elementsOf true styled ∧ carries d s'.rootClass = true := by
  obtain ⟨front, d, same, outer⟩ := outermost [] styled path mem
  have root : ⟨true, d⟩ ∈ elementsOf true styled := mem_elementsOf.2 ⟨[], outer, rfl⟩
  obtain ⟨c, key, carried⟩ := marks.roots _ root rfl
  have only := enclosed _ root rfl c key carried
  exact ⟨front, d, same, root, only ▸ carried⟩

theorem Enclosed.carried (enclosed : Enclosed styled s') (empty : s.rules.keys = []) :
    ∀ c ∈ s'.rules.keys, ∃ d around, d :: around ∈ pathsOf [] styled ∧ carries d c = true ∧
      ∃ d' ∈ d :: around, carries d' s'.rootClass = true := by
  intro c key
  have none_before : c ∉ s.rules.keys := by simp [empty]
  obtain ⟨e, mem, carried⟩ := (marks.carried c key).resolve_left none_before
  obtain ⟨around, path, -⟩ := mem_elementsOf.1 mem
  obtain ⟨front, d, same, -, root⟩ := enclosed.root_around marks path
  exact ⟨e.data, around, path, carried, d, by rw [same]; simp, root⟩

theorem appliedTo_nested_iff :
    (∀ path ∈ pathsOf [] styled, ∀ rule,
      rule ∈ appliedTo s'.flat path ↔ rule ∈ appliedTo s'.nested path) ↔ Enclosed styled s' := by
  -- Without a rule for the root's class the nested sheet is the plain one.
  cases held : s'.rules.get? s'.rootClass with
  | none =>
    have absent : s'.rootClass ∉ s'.rules.keys := by
      rw [← OrderedMap.contains_eq_true, OrderedMap.contains, held]
      simp
    refine iff_of_true (fun path _ rule => ?_) fun e mem outer => ?_
    · rw [Sheet.nested, held]
    -- No sheet without the root's class has met an outermost element.
    · exact absurd (marks.rootClass (.inr ⟨e, mem, outer⟩)) absent
  | some root =>
    constructor
    · intro same e mem outer c key carried
      -- An outermost element has nothing around it, so the nested rule must be the root's own.
      obtain ⟨around, path, alone⟩ := mem_elementsOf.1 mem
      obtain rfl : around = [] := List.isEmpty_iff.1 (alone.symm.trans outer)
      obtain ⟨rule, entry, rfl⟩ := List.mem_map.1 key
      have flat : rule ∈ appliedTo s'.flat [e.data] := mem_appliedTo_flat.2 ⟨entry, carried⟩
      have nested := (mem_appliedTo_nested held).1 ((same _ path rule).1 flat)
      by_contra other
      obtain ⟨d, none, -⟩ := nested.2.2 other
      exact absurd none List.not_mem_nil
    · intro enclosed path mem rule
      obtain ⟨front, d, same, outer, root⟩ := enclosed.root_around marks mem
      obtain ⟨d', around, rfl⟩ : ∃ d' around, path = d' :: around :=
        List.exists_cons_of_ne_nil (by simp [same])
      rw [mem_appliedTo_flat, mem_appliedTo_nested held]
      refine ⟨fun flat => ⟨flat.1, flat.2, fun other => ?_⟩, fun nested => ⟨nested.1, nested.2.1⟩⟩
      obtain ⟨entry, carried⟩ := flat
      cases front with
      | nil =>
        cases same
        exact absurd (enclosed _ outer rfl rule.1 (List.mem_map_of_mem entry) carried) other
      | cons first rest =>
        cases same
        exact ⟨d, by simp, root⟩

end

/-- Plain and nested sheets are written with the same rules. They apply to the same elements just where
no outermost element has a class of the sheet but the root's, and then each class is given to the root or
inside of it: so it is with one outermost element, unless it had such a class already. -/
theorem nested_applies (name : String) {styling : Styling} (classes : styling ≠ .tailwind)
    (root : Node) :
    (Named (elementsOf true root) → ∃ styled sheet,
      (Sheet.extract true root).run (Sheet.make name styling) = .ok (styled, sheet)) ∧
    ∀ styled sheet, (Sheet.extract true root).run (Sheet.make name styling) = .ok (styled, sheet) →
      sheet.css.toList = ended (linesOf sheet.flat) ∧
      sheet.scss.toList = ended (linesOf sheet.nested) ∧
      (sheet.nested.flatMap Block.rules).Perm (sheet.flat.flatMap Block.rules) ∧
      ((∀ path ∈ pathsOf [] styled, ∀ rule,
        rule ∈ appliedTo sheet.flat path ↔ rule ∈ appliedTo sheet.nested path) ↔
          Enclosed styled sheet) ∧
      (Enclosed styled sheet → ∀ c ∈ sheet.rules.keys, ∃ d around,
        d :: around ∈ pathsOf [] styled ∧ carries d c = true ∧
          ∃ d' ∈ d :: around, carries d' sheet.rootClass = true) ∧
      ((elementsOf true root).countP (·.isRoot) ≤ 1 →
        (∀ e ∈ elementsOf true root, e.isRoot = true →
          ∀ c ∈ sheet.rules.keys, carries e.data c = false) → Enclosed styled sheet) := by
  refine ⟨fun named => extract_returns true root named classes, fun styled sheet extracts => ?_⟩
  obtain ⟨sound, -, -⟩ := extract_sound extracts
  have steps := extract_steps true root extracts
  have marks := steps.marks (sound_make name styling) classes
  refine ⟨Sheet.css_toList sound, Sheet.scss_toList sound, sheet.rules_flat ▸ sheet.rules_nested,
    appliedTo_nested_iff marks, fun enclosed => enclosed.carried marks rfl, ?_⟩
  intro one none e' mem outer c key carried
  obtain ⟨e, held, outer', only⟩ := (steps.single (sound_make name styling) classes).2 one e' mem outer
  refine (only c carried).resolve_left ?_
  rw [none e held outer' c key]
  exact nofun

theorem enclosed_card : ((Sheet.extract true card).run (Sheet.make "Card" .scss)).map
    (fun r => (elementsOf true r.1).all fun e => !e.isRoot ||
      r.2.rules.keys.all fun c => !carries e.data c || c == r.2.rootClass) = .ok true := by
  decide +kernel

theorem nested_applies_card : Styling.scss ≠ .tailwind ∧ Named (elementsOf true card) ∧
    ∃ styled sheet, (Sheet.extract true card).run (Sheet.make "Card" .scss) = .ok (styled, sheet) ∧
      ∀ path ∈ pathsOf [] styled, ∀ rule,
        rule ∈ appliedTo sheet.flat path ↔ rule ∈ appliedTo sheet.nested path := by
  obtain ⟨returns, applies⟩ := nested_applies "Card" (by decide : Styling.scss ≠ .tailwind) card
  obtain ⟨styled, sheet, extracts⟩ := returns named_card
  obtain ⟨-, -, -, same, -, -⟩ := applies styled sheet extracts
  refine ⟨by decide, named_card, styled, sheet, extracts, same.2 fun e mem outer c key carried => ?_⟩
  have enclosed := enclosed_card
  rw [extracts] at enclosed
  have all := Except.ok.inj enclosed
  simp only [List.all_eq_true, Bool.or_eq_true, Bool.not_eq_true', beq_iff_eq] at all
  have here := (all e mem).resolve_left (by simp [outer]) c key
  exact here.resolve_left (by simp [carried])

/-- Two elements side by side. -/
def pair : Node :=
  .fragment [
    .node { tag := "rect", attributes := .ofList [("fill", .str "red")] } [],
    .node { tag := "circle", attributes := .ofList [("fill", .str "blue")] } []]

theorem nested_misses : ((Sheet.extract true pair).run (Sheet.make "A" .scss)).map
    (fun r => (pathsOf [] r.1).map fun path =>
      ((appliedTo r.2.flat path).map Prod.fst, (appliedTo r.2.nested path).map Prod.fst)) =
    .ok [(["a-rect-1"], []), (["a-circle-2"], ["a-circle-2"])] := by
  decide +kernel

end DesignComponents.Style
