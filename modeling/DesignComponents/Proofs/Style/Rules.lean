import DesignComponents.Proofs.Fault
import DesignComponents.Proofs.Style.Extract

/-! The rules of a sheet, whatever tree they come from. Elements may share a class here, and then the
last of them has its rule; but each rule is one element's, and its class is a slug. -/

set_option autoImplicit false

namespace DesignComponents

namespace Style

open Identifier Target Text

variable {isRoot : Bool} {d d' : Data} {s s' s₁ : Sheet} {es es' : List Element}

/-! ### Steps -/

/-- What comes of taking the styling out of one element: where nothing is declared of it the sheet
stays, and otherwise a rule is entered under the class that is drawn. -/
inductive Step (isRoot : Bool) (d : Data) (s : Sheet) : Data → Sheet → Prop
  | plain (none : ∀ p, declared? isRoot d.attributes p = none) :
    Step isRoot d s { d with attributes := Sheet.withoutStyling d.attributes } s
  | styled {name : String} {namer : ClassPool} {classes : List String}
      (some : ∃ p, declared? isRoot d.attributes p ≠ none)
      (drawn : Sheet.classOf s.namer d = .ok (name, namer))
      (given : classesFor s.styling name (Sheet.declarationsOf isRoot d.attributes) = .ok classes) :
    Step isRoot d s
      { d with attributes := Sheet.addClasses (Sheet.withoutStyling d.attributes) classes }
      { s with
        namer, rules := s.rules.insert name (Sheet.declarationsOf isRoot d.attributes)
        rootClass := if isRoot then name else s.rootClass }

theorem styleElement_iff :
    (Sheet.styleElement isRoot d).run s = .ok (d', s') ↔ Step isRoot d s d' s' := by
  constructor
  · intro runs
    -- An element of which nothing is declared is left as it is.
    by_cases some : ∃ p, declared? isRoot d.attributes p ≠ none
    · rw [styleElement_run some] at runs
      cases drawn : Sheet.classOf s.namer d with
      | error f =>
        rw [drawn] at runs
        exact nomatch runs
      | ok named =>
        obtain ⟨name, namer⟩ := named
        rw [drawn] at runs
        obtain ⟨classes, given, same⟩ := map_eq_ok.1 runs
        cases same
        exact .styled some drawn given
    · simp only [not_exists, not_not] at some
      rw [styleElement_plain some] at runs
      cases runs
      exact .plain some
  · intro step
    cases step with
    | plain none => exact styleElement_plain none s
    | styled some drawn given => exact styleElement_named some drawn given

theorem Step.kind (step : Step isRoot d s d' s') : d'.kind = d.kind := by
  cases step <;> rfl

theorem Step.styling (step : Step isRoot d s d' s') : s'.styling = s.styling := by
  cases step <;> rfl

/-- One element after another. -/
inductive Steps : List Element → List Element → Sheet → Sheet → Prop
  | nil {s : Sheet} : Steps [] [] s s
  | cons {e : Element} {es es' : List Element} {d' : Data} {s s₁ s' : Sheet}
      (first : Step e.isRoot e.data s d' s₁) (others : Steps es es' s₁ s') :
    Steps (e :: es) (⟨e.isRoot, d'⟩ :: es') s s'

theorem Steps.append {fs fs' : List Element} (first : Steps es es' s s₁)
    (second : Steps fs fs' s₁ s') : Steps (es ++ fs) (es' ++ fs') s s' := by
  induction first with
  | nil => exact second
  | cons step _ ih => exact .cons step (ih second)

/-- What each step keeps is kept. -/
theorem Steps.keeps {P : Sheet → Prop} (steps : Steps es es' s s')
    (each : ∀ e ∈ es, ∀ {s s' : Sheet} {d' : Data}, Step e.isRoot e.data s d' s' → P s → P s')
    (start : P s) : P s' := by
  induction steps with
  | nil => exact start
  | cons first _ ih =>
    have next := each _ List.mem_cons_self first start
    exact ih (fun e mem => each e (List.mem_cons_of_mem _ mem)) next

theorem Steps.styling (steps : Steps es es' s s') : s'.styling = s.styling :=
  steps.keeps (P := fun t => t.styling = s.styling)
    (fun _ _ _ _ _ step same => step.styling.trans same) rfl

mutual

/-- The elements of a tree are styled in document order. -/
theorem extract_steps (isRoot : Bool) : ∀ (n : Node) {n' : Node} {s s' : Sheet},
    (Sheet.extract isRoot n).run s = .ok (n', s') →
    Steps (elementsOf isRoot n) (elementsOf isRoot n') s s'
  | .node d cs, n', s, s', runs => by
    by_cases element : d.kind = .element
    · rw [run_extract_element element] at runs
      obtain ⟨⟨d', s₁⟩, styled, runs⟩ := bind_eq_ok.1 runs
      obtain ⟨⟨cs', s₂⟩, inside, same⟩ := map_eq_ok.1 runs
      cases same
      have step := styleElement_iff.1 styled
      rw [elementsOf, if_pos element, elementsOf, if_pos (step.kind.trans element)]
      exact .cons step (extractAll_steps false cs inside)
    · rw [run_extract_other element] at runs
      obtain ⟨⟨cs', s₁⟩, inside, same⟩ := map_eq_ok.1 runs
      cases same
      rw [elementsOf, if_neg element, elementsOf, if_neg element]
      exact extractAll_steps isRoot cs inside

theorem extractAll_steps (isRoot : Bool) : ∀ (ns : List Node) {ns' : List Node} {s s' : Sheet},
    (Sheet.extractAll isRoot ns).run s = .ok (ns', s') →
    Steps (elementsIn isRoot ns) (elementsIn isRoot ns') s s'
  | [], ns', s, s', runs => by
    cases runs
    exact .nil
  | n :: ns, ns', s, s', runs => by
    rw [run_extractAll_cons] at runs
    obtain ⟨⟨n', s₁⟩, first, runs⟩ := bind_eq_ok.1 runs
    obtain ⟨⟨others, s₂⟩, second, same⟩ := map_eq_ok.1 runs
    cases same
    exact (extract_steps isRoot n first).append (extractAll_steps isRoot ns second)

end

/-! ### Trees whose names are texts -/

/-- The names of layers are texts. -/
def Named (es : List Element) : Prop := ∀ e ∈ es, ∃ name, e.data.name = .str name

theorem named_card : Named (elementsOf true card) := by
  intro e mem
  simp only [card, Node.text, elementsOf, elementsIn, List.mem_append, List.mem_cons,
    List.not_mem_nil, or_false, false_or, if_true, reduceCtorEq, if_false] at mem
  rcases mem with rfl | rfl | rfl
  · exact ⟨_, rfl⟩
  · exact ⟨_, rfl⟩
  · exact ⟨_, rfl⟩

theorem classOf_named {name : String} (named : d.name = .str name) (namer : ClassPool) :
    ∃ class' namer', Sheet.classOf namer d = .ok (class', namer') := by
  obtain ⟨base, bases⟩ := layerBase_text name d.tag
  rw [← named] at bases
  unfold Sheet.classOf
  split
  · rw [bases]
    exact ⟨_, _, rfl⟩
  · split
    · exact ⟨_, _, rfl⟩
    · rw [bases]
      exact ⟨_, _, rfl⟩

theorem step_exists {name : String} (named : d.name = .str name) (classes : s.styling ≠ .tailwind) :
    ∃ d' s', Step isRoot d s d' s' := by
  by_cases some : ∃ p, declared? isRoot d.attributes p ≠ none
  · obtain ⟨class', namer, drawn⟩ := classOf_named named s.namer
    have given : classesFor s.styling class' (Sheet.declarationsOf isRoot d.attributes) =
        .ok [class'] := by
      unfold classesFor
      split
      · next tailwind => exact absurd tailwind classes
      · rfl
    exact ⟨_, _, .styled some drawn given⟩
  · simp only [not_exists, not_not] at some
    exact ⟨_, _, .plain some⟩

mutual

/-- Where names are texts and no utilities are written the styling of any tree can be taken out. -/
theorem extract_returns (isRoot : Bool) : ∀ (n : Node) {s : Sheet}, Named (elementsOf isRoot n) →
    s.styling ≠ .tailwind → ∃ n' s', (Sheet.extract isRoot n).run s = .ok (n', s')
  | .node d cs, s, named, classes => by
    by_cases element : d.kind = .element
    · rw [elementsOf, if_pos element] at named
      obtain ⟨name, here⟩ := named _ List.mem_cons_self
      obtain ⟨d', s₁, step⟩ : ∃ d' s₁, Step isRoot d s d' s₁ := step_exists here classes
      obtain ⟨cs', s', inside⟩ := extractAll_returns false cs
        (fun e mem => named e (List.mem_cons_of_mem _ mem)) (step.styling ▸ classes)
      refine ⟨.node d' cs', s', ?_⟩
      rw [run_extract_element element, styleElement_iff.2 step]
      simp only [Except.bind, inside]
      rfl
    · rw [elementsOf, if_neg element] at named
      obtain ⟨cs', s', inside⟩ := extractAll_returns isRoot cs named classes
      exact ⟨.node d cs', s', by rw [run_extract_other element, inside]; rfl⟩

theorem extractAll_returns (isRoot : Bool) : ∀ (ns : List Node) {s : Sheet},
    Named (elementsIn isRoot ns) → s.styling ≠ .tailwind →
    ∃ ns' s', (Sheet.extractAll isRoot ns).run s = .ok (ns', s')
  | [], s, _, _ => ⟨[], s, rfl⟩
  | n :: ns, s, named, classes => by
    rw [elementsIn] at named
    obtain ⟨n', s₁, first⟩ :=
      extract_returns isRoot n (fun e mem => named e (List.mem_append_left _ mem)) classes
    have styling : s₁.styling = s.styling := (extract_steps isRoot n first).styling
    obtain ⟨ns', s', second⟩ := extractAll_returns isRoot ns
      (fun e mem => named e (List.mem_append_right _ mem)) (styling ▸ classes)
    refine ⟨n' :: ns', s', ?_⟩
    rw [run_extractAll_cons, first]
    simp only [Except.bind, second]
    rfl

end

/-! ### Sound sheets -/

/-- A class that can stand in a selector. -/
structure Proper (name : String) : Prop where
  signless : Signless name.toList
  some_name : name.toList ≠ []

/-- All classes are slugs, the handed out as well as those of rules, and no rule is without a
declaration. -/
structure Sound (s : Sheet) : Prop where
  stem : Signless s.namer.stem.toList
  used : ∀ id name, s.namer.used.get? id = some name → Proper name
  rules : ∀ rule ∈ s.rules.entries, Proper rule.1 ∧ rule.2.isEmpty = false

theorem sound_make (name : String) (styling : Styling) : Sound (Sheet.make name styling) where
  stem := slug_signless name
  used _ _ held := nomatch held
  rules _ mem := nomatch mem

theorem proper_className {stem base : String} {number : Nat} (of_stem : Signless stem.toList)
    (of_base : Signless base.toList) : Proper (ClassPool.className stem base number) :=
  ⟨ClassPool.className_signless of_stem of_base, ClassPool.className_ne_nil stem base number⟩

theorem Sound.classOf (sound : Sound s) {name : String} {namer : ClassPool}
    (drawn : Sheet.classOf s.namer d = .ok (name, namer)) :
    Proper name ∧ namer.stem = s.namer.stem ∧
      ∀ id name, namer.used.get? id = some name → Proper name := by
  cases bases : layerBase d.name d.tag with
  | error f =>
    unfold Sheet.classOf at drawn
    rw [bases] at drawn
    split at drawn
    · exact nomatch drawn
    · split at drawn
      · next name' held =>
        cases drawn
        exact ⟨sound.used _ _ held, rfl, sound.used⟩
      · exact nomatch drawn
  | ok base =>
    have proper : Proper (ClassPool.className s.namer.stem base (s.namer.counter + 1)) :=
      proper_className sound.stem (layerBase_signless bases)
    unfold Sheet.classOf at drawn
    rw [bases] at drawn
    split at drawn
    · cases drawn
      exact ⟨proper, rfl, sound.used⟩
    · split at drawn
      · next name' held =>
        cases drawn
        exact ⟨sound.used _ _ held, rfl, sound.used⟩
      · next unused =>
        -- A new class is entered for the id, and all others stay.
        simp only [bind, Except.bind, pure, Except.pure, ClassPool.classOn, unused] at drawn
        cases drawn
        refine ⟨proper, rfl, fun id name held => ?_⟩
        by_cases same : id = d.sourceId
        · rw [same, OrderedMap.get?_insert_self] at held
          cases held
          exact proper
        · rw [OrderedMap.get?_insert_other same] at held
          exact sound.used id name held

theorem Sound.step (sound : Sound s) (step : Step isRoot d s d' s') : Sound s' := by
  cases step with
  | plain none => exact sound
  | styled some drawn given =>
    obtain ⟨proper, stem, used⟩ := sound.classOf drawn
    refine ⟨stem ▸ sound.stem, used, fun rule mem => ?_⟩
    rcases OrderedMap.mem_entries_insert mem with rfl | before
    · refine ⟨proper, Bool.eq_false_iff.2 fun empty => ?_⟩
      obtain ⟨p, held⟩ := some
      exact held ((isEmpty_declarationsOf isRoot d.attributes).1 empty p)
    · exact sound.rules rule before

/-- A rule is what is declared of an element. -/
theorem Steps.rules (steps : Steps es es' s s') : ∀ rule ∈ s'.rules.entries,
    rule ∈ s.rules.entries ∨ ∃ e ∈ es, rule.2 = Sheet.declarationsOf e.isRoot e.data.attributes := by
  refine steps.keeps (P := fun t => ∀ rule ∈ t.rules.entries, rule ∈ s.rules.entries ∨
    ∃ e ∈ es, rule.2 = Sheet.declarationsOf e.isRoot e.data.attributes) ?_ fun _ => .inl
  intro e mem s s' d' step before rule held
  cases step with
  | plain none => exact before rule held
  | styled some drawn given =>
    rcases OrderedMap.mem_entries_insert held with rfl | held
    · exact .inr ⟨e, mem, rfl⟩
    · exact before rule held

/-- What a sheet holds of a tree. -/
theorem extract_sound {name : String} {styling : Styling} {root styled : Node} {sheet : Sheet}
    (extracts : (Sheet.extract true root).run (Sheet.make name styling) = .ok (styled, sheet)) :
    Sound sheet ∧ sheet.styling = styling ∧ ∀ rule ∈ sheet.rules.entries,
      ∃ e ∈ elementsOf true root, rule.2 = Sheet.declarationsOf e.isRoot e.data.attributes := by
  have steps := extract_steps true root extracts
  refine ⟨?_, steps.styling, fun rule mem => ?_⟩
  · exact steps.keeps (fun _ _ _ _ _ step sound => sound.step step) (sound_make name styling)
  · exact (steps.rules rule mem).resolve_left nofun

end Style

end DesignComponents
