import DesignComponents.Proofs.OrderedMap
import DesignComponents.Proofs.Style.ClassName
import DesignComponents.Proofs.Style.Utility
import DesignComponents.Proofs.Text.Trim
import DesignComponents.Style.Sheet

/-! Taking the styling out of a tree. What is declared of an element is declared by its style map, or
else by its styling attributes, or else because it is a root. It is found under a class that is the
element's own, and the tree is the same but for the attributes of its elements. -/

set_option autoImplicit false

namespace DesignComponents.Style

/-! ### What is declared, property by property -/

/-- Whether an attribute is styling. -/
def isStyling (name : String) : Bool := name == "style" || presentation.any (·.1 == name)

/-- The style map; anything else there declares nothing. -/
def styleMap (attributes : OrderedMap Json) : List (String × Json) :=
  match attributes.get? "style" with
  | some (.obj members) => members
  | _ => []

/-- What the style map says of a property: the last of its entries that is named so. -/
def ofStyle? (attributes : OrderedMap Json) (p : String) : Option String :=
  ((styleMap attributes).reverse.find? fun m => property m.1 == p).map fun m => value p m.2

/-- What the attribute that is the property says of it. -/
def ofAttribute? (attributes : OrderedMap Json) (p : String) : Option String :=
  (presentation.find? (·.2 == p)).bind fun e => (attributes.get? e.1).map (value p)

def ofRoot? (isRoot : Bool) (p : String) : Option String :=
  if isRoot then [("display", "block"), ("max-width", "100%")].lookup p else none

def declared? (isRoot : Bool) (attributes : OrderedMap Json) (p : String) : Option String :=
  (ofStyle? attributes p).or ((ofAttribute? attributes p).or (ofRoot? isRoot p))

/-! ### The same as a map -/

theorem lookup_map {β : Type} {key : β → String} {entry : β → String} (bs : List β) (p : String) :
    (bs.map fun b => (key b, entry b)).lookup p =
      (bs.find? fun b => key b == p).map entry := by
  induction bs with
  | nil => rfl
  | cons b rest ih =>
    by_cases same : key b = p
    · simp [same]
    · have other : (p == key b) = false := beq_eq_false_iff_ne.2 (Ne.symm same)
      have other' : (key b == p) = false := beq_eq_false_iff_ne.2 same
      simp [List.lookup_cons, other, other', ih]

/-- Each styling attribute is a property of its own. -/
theorem presentation_nodup : (presentation.map Prod.snd).Nodup := by decide

/-- Of properties that each come once the last is the first. -/
theorem lookup_filterMap {entries : List (String × String)}
    (nodup : (entries.map Prod.snd).Nodup) (given : String → String → Option String) (p : String) :
    (entries.filterMap fun e => (given e.1 e.2).map fun v => (e.2, v)).reverse.lookup p =
      (entries.find? (·.2 == p)).bind fun e => given e.1 p := by
  induction entries with
  | nil => rfl
  | cons e rest ih =>
    obtain ⟨name, q⟩ := e
    rw [List.map_cons, List.nodup_cons] at nodup
    obtain ⟨once, nodup⟩ := nodup
    have front : (((name, q) :: rest).filterMap fun e => (given e.1 e.2).map fun v => (e.2, v)) =
        ((given name q).map fun v => (q, v)).toList ++
          rest.filterMap fun e => (given e.1 e.2).map fun v => (e.2, v) := by
      cases known : given name q <;> simp [known]
    rw [front, List.reverse_append, List.lookup_append, ih nodup]
    by_cases same : q = p
    -- A later entry for the property would name it a second time.
    · have absent : rest.find? (·.2 == p) = none := by
        apply List.find?_eq_none.2
        intro e mem found
        have repeated : q = e.2 := same.trans (beq_iff_eq.1 found).symm
        exact once (List.mem_map.2 ⟨e, mem, repeated.symm⟩)
      rw [absent]
      cases known : given name q <;> simp [same ▸ known, same]
    · have other : (p == q) = false := beq_eq_false_iff_ne.2 (Ne.symm same)
      have other' : (q == p) = false := beq_eq_false_iff_ne.2 same
      cases known : given name q <;> simp [other', List.lookup_cons, other]

theorem declarationsOf_eq (isRoot : Bool) (attributes : OrderedMap Json) :
    Sheet.declarationsOf isRoot attributes =
      (((if isRoot then rootDeclarations else .empty).insertAll (presentation.filterMap fun e =>
        (attributes.get? e.1).map fun v => (e.2, value e.2 v))).insertAll
          ((styleMap attributes).map fun m => (property m.1, value (property m.1) m.2))) := by
  unfold Sheet.declarationsOf styleMap
  cases held : attributes.get? "style" with
  | none => rfl
  | some v => cases v <;> rfl

theorem get?_declarationsOf (isRoot : Bool) (attributes : OrderedMap Json) (p : String) :
    (Sheet.declarationsOf isRoot attributes).get? p = declared? isRoot attributes p := by
  have style : ((styleMap attributes).map fun m =>
      (property m.1, value (property m.1) m.2)).reverse.lookup p = ofStyle? attributes p := by
    rw [← List.map_reverse, lookup_map, ofStyle?]
    cases found : (styleMap attributes).reverse.find? fun m => property m.1 == p with
    | none => rfl
    | some m =>
      have named := List.find?_some found
      rw [beq_iff_eq] at named
      rw [Option.map_some, Option.map_some, named]
  have presented : (presentation.filterMap fun e =>
      (attributes.get? e.1).map fun v => (e.2, value e.2 v)).reverse.lookup p =
        ofAttribute? attributes p := by
    have given := lookup_filterMap presentation_nodup
      (fun name q => (attributes.get? name).map (value q)) p
    simp only [Option.map_map] at given
    exact given
  have root : (if isRoot then rootDeclarations else .empty).get? p = ofRoot? isRoot p := by
    cases isRoot with
    | false => rfl
    | true => rfl
  rw [declarationsOf_eq, OrderedMap.get?_insertAll, OrderedMap.get?_insertAll, root, presented,
    style, declared?]

example : declared? true (.ofList [("fill", .str "red"), ("style", .obj [("fill", .str "blue")])])
    "fill" = some "blue" := by decide +kernel

/-- There is a declaration where something is declared of some property. -/
theorem isEmpty_declarationsOf (isRoot : Bool) (attributes : OrderedMap Json) :
    (Sheet.declarationsOf isRoot attributes).isEmpty = true ↔
      ∀ p, declared? isRoot attributes p = none := by
  rw [OrderedMap.isEmpty_iff]
  exact forall_congr' fun p => by rw [get?_declarationsOf]

open Identifier Target Text

variable {isRoot : Bool} {d d' : Data} {s : Sheet}

/-! ### Attributes -/

theorem entries_erase_key (attributes : OrderedMap Json) (key : String) :
    (attributes.erase key).entries = attributes.entries.filter fun e => !key == e.1 :=
  List.filter_congr fun e _ => by rw [bne, BEq.comm]

theorem entries_withoutStyling (attributes : OrderedMap Json) :
    (Sheet.withoutStyling attributes).entries =
      attributes.entries.filter fun e => !isStyling e.1 := by
  have each : ∀ (es : List (String × String)) (m : OrderedMap Json),
      (es.foldl (fun a p => a.erase p.1) m).entries =
        m.entries.filter fun e => !es.any (·.1 == e.1) := by
    intro es
    induction es with
    | nil => exact fun m => (List.filter_eq_self.2 fun _ _ => rfl).symm
    | cons e rest ih =>
      intro m
      rw [List.foldl_cons, ih, entries_erase_key, List.filter_filter]
      apply List.filter_congr
      intro e' _
      rw [List.any_cons, Bool.not_or, Bool.and_comm]
  rw [Sheet.withoutStyling, entries_erase_key, each, List.filter_filter]
  apply List.filter_congr
  intro e _
  rw [isStyling, Bool.not_or, BEq.comm]

theorem lookup_filter {α : Type} (keep : String → Bool) {key : String} (kept : keep key = true)
    (es : List (String × α)) : (es.filter fun e => keep e.1).lookup key = es.lookup key := by
  induction es with
  | nil => rfl
  | cons e rest ih =>
    obtain ⟨key', v⟩ := e
    by_cases same : key = key'
    · simp [← same, kept]
    · have other : (key == key') = false := beq_eq_false_iff_ne.2 same
      by_cases stays : keep key' = true
      · simp [stays, List.lookup_cons, other, ih]
      · simp [stays, List.lookup_cons, other, ih]

theorem get?_withoutStyling {key : String} (plain : isStyling key = false)
    (attributes : OrderedMap Json) :
    (Sheet.withoutStyling attributes).get? key = attributes.get? key := by
  have kept : (!isStyling key) = true := by rw [plain, Bool.not_false]
  rw [OrderedMap.get?, entries_withoutStyling]
  exact lookup_filter (fun name => !isStyling name) kept attributes.entries

/-- What an element has of classes already. -/
def classesBefore (attributes : OrderedMap Json) : List Char :=
  match attributes.get? "className" with
  | some v => if v.isTruthy then v.spelled ++ [' '] else []
  | none => []

theorem putEntry_filter {α : Type} (key : String) (v : α) (es : List (String × α)) :
    (OrderedMap.putEntry key v es).filter (·.1 != key) = es.filter (·.1 != key) := by
  induction es with
  | nil => simp [OrderedMap.putEntry]
  | cons e rest ih =>
    by_cases same : e.1 = key
    · simp [OrderedMap.putEntry, same]
    · simp [OrderedMap.putEntry, same, ih]

theorem addClasses_others (attributes : OrderedMap Json) (classes : List String) :
    (Sheet.addClasses attributes classes).entries.filter (·.1 != "className") =
      attributes.entries.filter (·.1 != "className") := putEntry_filter _ _ _

theorem addClasses_single (attributes : OrderedMap Json) (name : String) : ∃ text,
    (Sheet.addClasses attributes [name]).get? "className" = some (.str text) ∧
      text.toList = classesBefore attributes ++ name.toList := by
  refine ⟨_, OrderedMap.get?_insert_self, ?_⟩
  cases held : attributes.get? "className" with
  | none => simp only [classesBefore, held]; rfl
  | some v =>
    by_cases truthy : v.isTruthy = true
    · have joined : " ".intercalate [v.spelledText, name] = v.spelledText ++ " " ++ name := rfl
      simp only [classesBefore, held, truthy, if_true, List.singleton_append]
      rw [joined, String.toList_append, String.toList_append, Json.spelledText,
        String.toList_ofList]
      rfl
    · simp only [classesBefore, held, truthy]
      rfl

theorem classesBefore_withoutStyling (attributes : OrderedMap Json) :
    classesBefore (Sheet.withoutStyling attributes) = classesBefore attributes := by
  have plain : isStyling "className" = false := by decide
  rw [classesBefore, get?_withoutStyling plain, classesBefore]

theorem getLast?_words_classes {name : List Char} (solid : Unspaced name) (some_name : name ≠ [])
    (attributes : OrderedMap Json) :
    (words (classesBefore attributes ++ name)).getLast? = some name := by
  unfold classesBefore
  split
  · split
    · rw [List.append_assoc]
      exact (getLast?_words some_name solid _).2
    · exact (getLast?_words some_name solid []).1
  · exact (getLast?_words some_name solid []).1

/-! ### One element -/

/-- An element can be styled if it has nothing declared, or if its layer has a name to build a class
on and, where utilities are written, each of its declarations has one. -/
def Stylable (styling : Styling) (isRoot : Bool) (d : Data) : Prop :=
  (∃ p, declared? isRoot d.attributes p ≠ none) →
    (∃ base, layerBase d.name d.tag = .ok base) ∧
      (styling = .tailwind →
        ∀ p v, declared? isRoot d.attributes p = some v → ∃ cs, utility p v.toList = .ok cs)

theorem utilities_declarationsOf (isRoot : Bool) (attributes : OrderedMap Json) :
    (∃ classes, utilities (Sheet.declarationsOf isRoot attributes) = .ok classes) ↔
      ∀ p v, declared? isRoot attributes p = some v → ∃ cs, utility p v.toList = .ok cs := by
  simp only [utilities_ok_iff, get?_declarationsOf]

/-- What becomes of an element under whose class the rule is. -/
structure Styled (styling : Styling) (isRoot : Bool) (d d' : Data) (rule : String × Declarations) :
    Prop where
  declared : ∀ p, rule.2.get? p = declared? isRoot d.attributes p
  others : d'.attributes.entries.filter (·.1 != "className") =
    d.attributes.entries.filter fun e => !isStyling e.1 && e.1 != "className"
  /-- The class is the last of those it has, unless utilities are written. -/
  className : styling ≠ .tailwind → ∃ text, d'.attributes.get? "className" = some (.str text) ∧
    text.toList = classesBefore d.attributes ++ rule.1.toList ∧
    (words text.toList).getLast? = some rule.1.toList

theorem styleElement_plain (none : ∀ p, declared? isRoot d.attributes p = none) (s : Sheet) :
    (Sheet.styleElement isRoot d).run s =
      .ok ({ d with attributes := Sheet.withoutStyling d.attributes }, s) := by
  have empty := (isEmpty_declarationsOf isRoot d.attributes).2 none
  simp only [Sheet.styleElement, empty, if_true]
  rfl

theorem classOf_fresh {namer : ClassPool} (unused : d.sourceId ≠ "" → namer.used.get? d.sourceId = none)
    {base : String} (bases : layerBase d.name d.tag = .ok base) : ∃ used,
    Sheet.classOf namer d = .ok (ClassPool.className namer.stem base (namer.counter + 1),
      { namer with counter := namer.counter + 1, used }) ∧
    ∀ id, id ≠ d.sourceId → used.get? id = namer.used.get? id := by
  by_cases anonymous : d.sourceId = ""
  · refine ⟨namer.used, ?_, fun id _ => rfl⟩
    simp only [Sheet.classOf, anonymous, bases]
    rfl
  · have named : d.sourceId.isEmpty = false := by simpa using anonymous
    let name := ClassPool.className namer.stem base (namer.counter + 1)
    refine ⟨namer.used.insert d.sourceId name, ?_, fun id => OrderedMap.get?_insert_other⟩
    simp only [Sheet.classOf, named, unused anonymous, bases, ClassPool.classOn]
    rfl

theorem classOf_error (unused : d.sourceId ≠ "" → s.namer.used.get? d.sourceId = none) {f : Fault}
    (fails : layerBase d.name d.tag = .error f) : Sheet.classOf s.namer d = .error f := by
  by_cases anonymous : d.sourceId = ""
  · simp only [Sheet.classOf, anonymous, fails]
    rfl
  · have named : d.sourceId.isEmpty = false := by simpa using anonymous
    simp only [Sheet.classOf, named, unused anonymous, fails]
    rfl

/-- The classes that an element gets for its own. -/
def classesFor (styling : Styling) (name : String) (declarations : Declarations) :
    Except Fault (List String) :=
  match styling with
  | .tailwind => utilities declarations
  | _ => .ok [name]

theorem styleElement_run (some : ∃ p, declared? isRoot d.attributes p ≠ none) (s : Sheet) :
    (Sheet.styleElement isRoot d).run s =
      match Sheet.classOf s.namer d with
      | .error f => .error f
      | .ok (name, namer) =>
        (classesFor s.styling name (Sheet.declarationsOf isRoot d.attributes)).map fun classes =>
          ({ d with attributes := Sheet.addClasses (Sheet.withoutStyling d.attributes) classes },
            { s with
              namer, rules := s.rules.insert name (Sheet.declarationsOf isRoot d.attributes)
              rootClass := if isRoot then name else s.rootClass }) := by
  have not_empty : (Sheet.declarationsOf isRoot d.attributes).isEmpty = false := by
    apply Bool.eq_false_iff.2
    intro empty
    obtain ⟨p, some⟩ := some
    exact some ((isEmpty_declarationsOf isRoot d.attributes).1 empty p)
  obtain ⟨styling, pool, rules, rootClass⟩ := s
  simp only [Sheet.styleElement, not_empty, Bool.false_eq_true, if_false, StateT.run_bind,
    StateT.run_get, pure_bind, liftM, monadLift, MonadLift.monadLift]
  cases Sheet.classOf pool d with
  | error f => rfl
  | ok drawn =>
    cases styling with
    | tailwind =>
      simp only [classesFor]
      cases utilities (Sheet.declarationsOf isRoot d.attributes) <;> rfl
    | _ => rfl

/-! ### Elements one after another -/

/-- An element, and whether there is no other around it. -/
structure Element where
  isRoot : Bool
  data : Data

mutual

/-- The elements of a tree in document order. -/
def elementsOf (isRoot : Bool) : Node → List Element
  | .node d cs =>
    if d.kind = .element then ⟨isRoot, d⟩ :: elementsIn false cs else elementsIn isRoot cs

def elementsIn (isRoot : Bool) : List Node → List Element
  | [] => []
  | n :: rest => elementsOf isRoot n ++ elementsIn isRoot rest

end

mutual

/-- The tree without the attributes of its elements. -/
def bare : Node → Node
  | .node d cs => .node (if d.kind = .element then { d with attributes := .empty } else d) (bareAll cs)

def bareAll : List Node → List Node
  | [] => []
  | n :: rest => bare n :: bareAll rest

end

/-- No two have an id in common, those apart that have none. -/
def Distinct (es : List Element) : Prop :=
  es.Pairwise fun e e' => e.data.sourceId ≠ "" → e.data.sourceId ≠ e'.data.sourceId

/-- What was declared of each element is a rule in its turn, and there are no other rules. -/
inductive Moves (styling : Styling) : List Element → List Element → List (String × Declarations) → Prop
  | nil : Moves styling [] [] []
  | plain {e e' : Element} {es es' : List Element} {rules : List (String × Declarations)}
      (none : ∀ p, declared? e.isRoot e.data.attributes p = none)
      (kept : e'.data.attributes.entries = e.data.attributes.entries.filter fun a => !isStyling a.1)
      (others : Moves styling es es' rules) : Moves styling (e :: es) (e' :: es') rules
  | styled {e e' : Element} {rule : String × Declarations} {es es' : List Element}
      {rules : List (String × Declarations)}
      (some : ∃ p, declared? e.isRoot e.data.attributes p ≠ none)
      (styled : Styled styling e.isRoot e.data e'.data rule)
      (others : Moves styling es es' rules) : Moves styling (e :: es) (e' :: es') (rule :: rules)

theorem Moves.append {styling : Styling} {es es' fs fs' : List Element}
    {rules rules' : List (String × Declarations)} (first : Moves styling es es' rules)
    (second : Moves styling fs fs' rules') : Moves styling (es ++ fs) (es' ++ fs') (rules ++ rules') := by
  induction first with
  | nil => exact second
  | plain none kept _ ih => exact .plain none kept ih
  | styled some styled _ ih => exact .styled some styled ih

/-- A sheet whose rules have the numbers drawn so far, and that has met none of the elements. -/
structure Fresh (s : Sheet) (es : List Element) : Prop where
  stem : Unspaced s.namer.stem.toList
  drawn : ∀ name ∈ s.rules.keys, ∃ base, ∃ number ≤ s.namer.counter,
    name = ClassPool.className s.namer.stem base number
  distinct : Distinct es
  unused : ∀ e ∈ es, e.data.sourceId ≠ "" → s.namer.used.get? e.data.sourceId = none

theorem fresh_make (name : String) (styling : Styling) {es : List Element} (distinct : Distinct es) :
    Fresh (Sheet.make name styling) es where
  stem := (slug_signless name).unspaced
  drawn := nofun
  distinct := distinct
  unused _ _ _ := rfl

theorem Fresh.tail {e : Element} {es : List Element} (fresh : Fresh s (e :: es)) : Fresh s es where
  stem := fresh.stem
  drawn := fresh.drawn
  distinct := (List.pairwise_cons.1 fresh.distinct).2
  unused e' mem := fresh.unused e' (List.mem_cons_of_mem e mem)

/-- A sheet has come past some elements to others. -/
structure Passes (s : Sheet) (es es' : List Element) (s' : Sheet) (rest : List Element) : Prop where
  styling : s'.styling = s.styling
  fresh : Fresh s' rest
  moves : ∃ rules, Moves s.styling es es' rules ∧ s'.rules.entries = s.rules.entries ++ rules

theorem Passes.nil {rest : List Element} (fresh : Fresh s rest) : Passes s [] [] s rest :=
  ⟨rfl, fresh, [], .nil, (List.append_nil _).symm⟩

theorem Passes.append {s' s'' : Sheet} {es es' fs fs' rest : List Element}
    (first : Passes s es es' s' (fs ++ rest)) (second : Passes s' fs fs' s'' rest) :
    Passes s (es ++ fs) (es' ++ fs') s'' rest where
  styling := second.styling.trans first.styling
  fresh := second.fresh
  moves := by
    obtain ⟨rules, moved, entries⟩ := first.moves
    obtain ⟨rules', moved', entries'⟩ := second.moves
    refine ⟨rules ++ rules', moved.append (first.styling ▸ moved'), ?_⟩
    rw [entries', entries, List.append_assoc]

theorem Fresh.unused_head {e : Element} {rest : List Element} (fresh : Fresh s (e :: rest)) :
    e.data.sourceId ≠ "" → s.namer.used.get? e.data.sourceId = none :=
  fresh.unused e List.mem_cons_self

/-- The next number is no rule's. -/
theorem Fresh.className_new {es : List Element} (fresh : Fresh s es) (base : String) :
    ClassPool.className s.namer.stem base (s.namer.counter + 1) ∉ s.rules.keys := by
  intro mem
  obtain ⟨base', number, drawn, same⟩ := fresh.drawn _ mem
  have := ClassPool.className_inj same
  omega

/-- What an element is left with under a class of its own. -/
theorem styled_addClasses {styling : Styling} {name : String} {classes : List String}
    (solid : Unspaced name.toList) (some_name : name.toList ≠ [])
    (given : classesFor styling name (Sheet.declarationsOf isRoot d.attributes) = .ok classes) :
    Styled styling isRoot d
      { d with attributes := Sheet.addClasses (Sheet.withoutStyling d.attributes) classes }
      (name, Sheet.declarationsOf isRoot d.attributes) where
  declared p := get?_declarationsOf isRoot d.attributes p
  others := by
    rw [addClasses_others, entries_withoutStyling, List.filter_filter]
    exact List.filter_congr fun e _ => Bool.and_comm _ _
  className not_tailwind := by
    have single : classes = [name] := by
      cases styling with
      | tailwind => exact absurd rfl not_tailwind
      | _ =>
        cases given
        rfl
    rw [single]
    obtain ⟨text, held, written⟩ := addClasses_single (Sheet.withoutStyling d.attributes) name
    rw [classesBefore_withoutStyling] at written
    refine ⟨text, held, written, ?_⟩
    rw [written]
    exact getLast?_words_classes solid some_name d.attributes

theorem styleElement_named {name : String} {namer : ClassPool} {classes : List String}
    (some : ∃ p, declared? isRoot d.attributes p ≠ none)
    (classed : Sheet.classOf s.namer d = .ok (name, namer))
    (given : classesFor s.styling name (Sheet.declarationsOf isRoot d.attributes) = .ok classes) :
    (Sheet.styleElement isRoot d).run s =
      .ok ({ d with attributes := Sheet.addClasses (Sheet.withoutStyling d.attributes) classes },
        { s with
          namer, rules := s.rules.insert name (Sheet.declarationsOf isRoot d.attributes)
          rootClass := if isRoot then name else s.rootClass }) := by
  rw [styleElement_run some, classed]
  simp only [given]
  rfl

/-- With its number drawn an element is behind. -/
theorem Fresh.insert {e : Element} {rest : List Element} (fresh : Fresh s (e :: rest)) (base : String)
    {used : OrderedMap String}
    (others : ∀ id, id ≠ e.data.sourceId → used.get? id = s.namer.used.get? id)
    (declarations : Declarations) (rootClass : String) :
    Fresh { s with
      namer := { s.namer with counter := s.namer.counter + 1, used }
      rules := s.rules.insert (ClassPool.className s.namer.stem base (s.namer.counter + 1))
        declarations
      rootClass } rest where
  stem := fresh.stem
  drawn name mem := by
    have keys := OrderedMap.keys_insert_new (v := declarations) (fresh.className_new base)
    rcases List.mem_append.1 (keys ▸ mem) with before | now
    · obtain ⟨base', number, drawn, same⟩ := fresh.drawn name before
      exact ⟨base', number, Nat.le_succ_of_le drawn, same⟩
    · exact ⟨base, s.namer.counter + 1, le_refl _, List.mem_singleton.1 now⟩
  distinct := fresh.tail.distinct
  unused e' mem named := by
    -- Only the element's own id was entered, and no later one has it.
    have apart := (List.pairwise_cons.1 fresh.distinct).1 e' mem
    have other : e'.data.sourceId ≠ e.data.sourceId := by
      intro same
      exact apart (same ▸ named) same.symm
    exact (others _ other).trans (fresh.tail.unused e' mem named)

theorem styleElement_passes {e : Element} {rest : List Element} (fresh : Fresh s (e :: rest))
    (stylable : Stylable s.styling e.isRoot e.data) : ∃ attributes s',
    (Sheet.styleElement e.isRoot e.data).run s = .ok ({ e.data with attributes }, s') ∧
      Passes s [e] [{ e with data := { e.data with attributes } }] s' rest := by
  by_cases some : ∃ p, declared? e.isRoot e.data.attributes p ≠ none
  · obtain ⟨⟨base, bases⟩, written⟩ := stylable some
    obtain ⟨used, classed, others⟩ := classOf_fresh fresh.unused_head bases
    have given : ∃ classes, classesFor s.styling
        (ClassPool.className s.namer.stem base (s.namer.counter + 1))
        (Sheet.declarationsOf e.isRoot e.data.attributes) = .ok classes := by
      unfold classesFor
      split
      · next tailwind => exact (utilities_declarationsOf _ _).2 (written tailwind)
      · exact ⟨_, rfl⟩
    obtain ⟨classes, given⟩ := given
    have styled := styled_addClasses
      (ClassPool.className_unspaced fresh.stem (layerBase_signless bases).unspaced)
      (ClassPool.className_ne_nil _ base _) given
    exact ⟨_, _, styleElement_named some classed given, rfl, fresh.insert base others _ _,
      _, .styled some styled .nil, OrderedMap.entries_insert_new (fresh.className_new base)⟩
  -- With nothing declared no class is drawn, and the sheet stays.
  · simp only [not_exists, not_not] at some
    exact ⟨_, s, styleElement_plain some s, rfl, fresh.tail, [],
      .plain some (entries_withoutStyling _) .nil, (List.append_nil _).symm⟩

theorem styleElement_fails {e : Element} {rest : List Element} (fresh : Fresh s (e :: rest))
    (not_stylable : ¬Stylable s.styling e.isRoot e.data) :
    ∃ f, (Sheet.styleElement e.isRoot e.data).run s = .error f := by
  rw [Stylable, Classical.not_imp] at not_stylable
  obtain ⟨some, lacks⟩ := not_stylable
  rw [styleElement_run some]
  -- There is no name for its class, or no utilities for its declarations.
  cases bases : layerBase e.data.name e.data.tag with
  | error f =>
    rw [classOf_error fresh.unused_head bases]
    exact ⟨f, rfl⟩
  | ok base =>
    obtain ⟨used, classed, -⟩ := classOf_fresh fresh.unused_head bases
    rw [classed]
    cases given : classesFor s.styling (ClassPool.className s.namer.stem base (s.namer.counter + 1))
        (Sheet.declarationsOf e.isRoot e.data.attributes) with
    | error f =>
      simp only [given]
      exact ⟨f, rfl⟩
    | ok classes =>
      refine absurd ⟨⟨base, bases⟩, fun tailwind => ?_⟩ lacks
      rw [tailwind] at given
      exact (utilities_declarationsOf _ _).1 ⟨classes, given⟩

/-! ### The tree -/

theorem run_extract_element (element : d.kind = .element) (cs : List Node) (s : Sheet) :
    (Sheet.extract isRoot (.node d cs)).run s =
      ((Sheet.styleElement isRoot d).run s).bind fun first =>
        ((Sheet.extractAll false cs).run first.2).map fun inside =>
          (.node first.1 inside.1, inside.2) := by
  rw [Sheet.extract, if_pos element, StateT.run_bind]
  refine congrArg _ (funext fun first => ?_)
  rw [StateT.run_bind]
  cases (Sheet.extractAll false cs).run first.2 <;> rfl

theorem run_extract_other (other : d.kind ≠ .element) (cs : List Node) (s : Sheet) :
    (Sheet.extract isRoot (.node d cs)).run s =
      ((Sheet.extractAll isRoot cs).run s).map fun inside => (.node d inside.1, inside.2) := by
  rw [Sheet.extract, if_neg other, StateT.run_bind]
  cases (Sheet.extractAll isRoot cs).run s <;> rfl

theorem run_extractAll_cons (n : Node) (ns : List Node) (s : Sheet) :
    (Sheet.extractAll isRoot (n :: ns)).run s =
      ((Sheet.extract isRoot n).run s).bind fun first =>
        ((Sheet.extractAll isRoot ns).run first.2).map fun others =>
          (first.1 :: others.1, others.2) := by
  rw [Sheet.extractAll, StateT.run_bind]
  refine congrArg _ (funext fun first => ?_)
  rw [StateT.run_bind]
  cases (Sheet.extractAll isRoot ns).run first.2 <;> rfl

mutual

theorem extract_passes (isRoot : Bool) : ∀ (n : Node) {s : Sheet} {rest : List Element},
    Fresh s (elementsOf isRoot n ++ rest) →
    (∀ e ∈ elementsOf isRoot n, Stylable s.styling e.isRoot e.data) →
    ∃ n' s', (Sheet.extract isRoot n).run s = .ok (n', s') ∧ bare n' = bare n ∧
      Passes s (elementsOf isRoot n) (elementsOf isRoot n') s' rest
  | .node d cs, s, rest, fresh, all => by
    by_cases element : d.kind = .element
    · simp only [elementsOf, element, if_true] at fresh all ⊢
      obtain ⟨attributes, s₁, first, passed⟩ :=
        styleElement_passes fresh (all _ List.mem_cons_self)
      have inside : ∀ e ∈ elementsIn false cs, Stylable s₁.styling e.isRoot e.data := by
        rw [passed.styling]
        exact fun e mem => all e (List.mem_cons_of_mem _ mem)
      -- What is still to come for the element is what is inside it and then the rest.
      obtain ⟨cs', s₂, others, same, passed'⟩ := extractAll_passes false cs passed.fresh inside
      refine ⟨.node { d with attributes } cs', s₂, ?_, ?_, ?_⟩
      · rw [run_extract_element element, first]
        simp only [Except.bind, others]
        rfl
      · simp only [bare, element, if_true, same]
      · rw [elementsOf, if_pos (by exact element)]
        exact passed.append passed'
    · simp only [elementsOf, element, if_false] at fresh all ⊢
      -- No element is added around what is inside a fragment.
      obtain ⟨cs', s', inside, same, passed⟩ := extractAll_passes isRoot cs fresh all
      refine ⟨.node d cs', s', ?_, ?_, ?_⟩
      · rw [run_extract_other element, inside]
        rfl
      · simp only [bare, element, if_false, same]
      · simp only [elementsOf, element, if_false]
        exact passed

theorem extractAll_passes (isRoot : Bool) : ∀ (ns : List Node) {s : Sheet} {rest : List Element},
    Fresh s (elementsIn isRoot ns ++ rest) →
    (∀ e ∈ elementsIn isRoot ns, Stylable s.styling e.isRoot e.data) →
    ∃ ns' s', (Sheet.extractAll isRoot ns).run s = .ok (ns', s') ∧ bareAll ns' = bareAll ns ∧
      Passes s (elementsIn isRoot ns) (elementsIn isRoot ns') s' rest
  | [], s, rest, fresh, _ => ⟨[], s, rfl, rfl, .nil fresh⟩
  | n :: ns, s, rest, fresh, all => by
    rw [elementsIn, List.append_assoc] at fresh
    rw [elementsIn] at all
    obtain ⟨n', s₁, first, same, passed⟩ :=
      extract_passes isRoot n fresh fun e mem => all e (List.mem_append_left _ mem)
    have others : ∀ e ∈ elementsIn isRoot ns, Stylable s₁.styling e.isRoot e.data := by
      rw [passed.styling]
      exact fun e mem => all e (List.mem_append_right _ mem)
    obtain ⟨ns', s₂, second, same', passed'⟩ := extractAll_passes isRoot ns passed.fresh others
    refine ⟨n' :: ns', s₂, ?_, ?_, passed.append passed'⟩
    · rw [run_extractAll_cons, first]
      simp only [Except.bind, second]
      rfl
    · rw [bareAll, bareAll, same, same']

end

mutual

/-- Where an element cannot be styled there is no styled tree. -/
theorem extract_fails (isRoot : Bool) : ∀ (n : Node) {s : Sheet} {rest : List Element},
    Fresh s (elementsOf isRoot n ++ rest) →
    (¬∀ e ∈ elementsOf isRoot n, Stylable s.styling e.isRoot e.data) →
    ∃ f, (Sheet.extract isRoot n).run s = .error f
  | .node d cs, s, rest, fresh, not_all => by
    by_cases element : d.kind = .element
    · simp only [elementsOf, element, if_true] at fresh not_all
      rw [run_extract_element element]
      by_cases here : Stylable s.styling isRoot d
      · obtain ⟨attributes, s₁, first, passed⟩ := styleElement_passes fresh here
        have inside : ¬∀ e ∈ elementsIn false cs, Stylable s₁.styling e.isRoot e.data := by
          rw [passed.styling]
          exact fun all => not_all (List.forall_mem_cons.2 ⟨here, all⟩)
        obtain ⟨f, fails⟩ := extractAll_fails false cs passed.fresh inside
        refine ⟨f, ?_⟩
        rw [first]
        simp only [Except.bind, fails]
        rfl
      · obtain ⟨f, fails⟩ := styleElement_fails fresh here
        exact ⟨f, by rw [fails]; rfl⟩
    · simp only [elementsOf, element, if_false] at fresh not_all
      obtain ⟨f, fails⟩ := extractAll_fails isRoot cs fresh not_all
      exact ⟨f, by rw [run_extract_other element, fails]; rfl⟩

theorem extractAll_fails (isRoot : Bool) : ∀ (ns : List Node) {s : Sheet} {rest : List Element},
    Fresh s (elementsIn isRoot ns ++ rest) →
    (¬∀ e ∈ elementsIn isRoot ns, Stylable s.styling e.isRoot e.data) →
    ∃ f, (Sheet.extractAll isRoot ns).run s = .error f
  | [], _, _, _, not_all => absurd nofun not_all
  | n :: ns, s, rest, fresh, not_all => by
    rw [elementsIn, List.append_assoc] at fresh
    rw [elementsIn, List.forall_mem_append] at not_all
    rw [run_extractAll_cons]
    by_cases here : ∀ e ∈ elementsOf isRoot n, Stylable s.styling e.isRoot e.data
    · obtain ⟨n', s₁, first, same, passed⟩ := extract_passes isRoot n fresh here
      have others : ¬∀ e ∈ elementsIn isRoot ns, Stylable s₁.styling e.isRoot e.data := by
        rw [passed.styling]
        exact fun all => not_all ⟨here, all⟩
      obtain ⟨f, fails⟩ := extractAll_fails isRoot ns passed.fresh others
      refine ⟨f, ?_⟩
      rw [first]
      simp only [Except.bind, fails]
      rfl
    · obtain ⟨f, fails⟩ := extract_fails isRoot n fresh here
      exact ⟨f, by rw [fails]; rfl⟩

end

/-- A layer has a text for its name, and nothing that is declared of it is too long for utilities. -/
structure Common (styling : Styling) (e : Element) : Prop where
  name : ∃ s, e.data.name = .str s
  short : styling = .tailwind →
    ∀ p v, declared? e.isRoot e.data.attributes p = some v → v.toList.length ≤ 300

theorem Common.stylable {styling : Styling} {e : Element} (common : Common styling e) :
    Stylable styling e.isRoot e.data := by
  intro _
  obtain ⟨s, name⟩ := common.name
  exact ⟨name ▸ layerBase_text s e.data.tag, fun tailwind p v held =>
    utility_short p (common.short tailwind p v held)⟩

/-- Taking the styling out of a tree loses none of it. It succeeds for any styling wherever names are
texts and, for utilities, nothing declared is too long. -/
theorem extract_moves (name : String) (styling : Styling) {root : Node}
    (distinct : Distinct (elementsOf true root)) :
    ((∀ e ∈ elementsOf true root, Stylable styling e.isRoot e.data) →
      ∃ styled sheet, (Sheet.extract true root).run (Sheet.make name styling) = .ok (styled, sheet) ∧
        bare styled = bare root ∧
        Moves styling (elementsOf true root) (elementsOf true styled) sheet.rules.entries ∧
        sheet.rules.keys.Nodup) ∧
    ∀ e ∈ elementsOf true root, Common styling e → Stylable styling e.isRoot e.data := by
  refine ⟨fun all => ?_, fun e _ common => common.stylable⟩
  have fresh : Fresh (Sheet.make name styling) (elementsOf true root ++ []) := by
    rw [List.append_nil]
    exact fresh_make name styling distinct
  obtain ⟨styled, sheet, extracts, same, passed⟩ := extract_passes true root fresh all
  obtain ⟨rules, moves, entries⟩ := passed.moves
  have only : sheet.rules.entries = rules := entries
  exact ⟨styled, sheet, extracts, same, only ▸ moves, sheet.rules.nodup_keys⟩

/-- Two layers of one name, one in the other, and a third that has nothing declared. -/
def card : Node :=
  .node { kind := .fragment, tag := "fragment" } [
    .node { tag := "g", sourceId := "node-1", name := .str "Box", attributes := .ofList [
        ("fill", .str "red"), ("className", .str "wide"),
        ("style", .obj [("fill", .str "blue"), ("maxWidth", .str "50%")])] } [
      .text "Hello",
      .node { tag := "rect", name := .str "Box", attributes := .ofList [("strokeWidth", .int 2)] } [],
      .node { tag := "circle", name := .str "", attributes := .ofList [("r", .int 3)] } []]]

theorem extract_moves_card : Distinct (elementsOf true card) ∧
    ∃ styled sheet, (Sheet.extract true card).run (Sheet.make "Card" .scss) = .ok (styled, sheet) ∧
      bare styled = bare card ∧
      Moves .scss (elementsOf true card) (elementsOf true styled) sheet.rules.entries ∧
      sheet.rules.keys.Nodup := by
  have distinct : Distinct (elementsOf true card) := by
    simp [Distinct, card, Node.text, elementsOf, elementsIn]
  have named : ∀ e ∈ elementsOf true card, ∃ s, e.data.name = .str s := by
    intro e mem
    simp only [card, Node.text, elementsOf, elementsIn, List.mem_append, List.mem_cons,
      List.not_mem_nil, or_false, false_or, if_true, reduceCtorEq, if_false] at mem
    rcases mem with rfl | rfl | rfl
    · exact ⟨_, rfl⟩
    · exact ⟨_, rfl⟩
    · exact ⟨_, rfl⟩
  obtain ⟨extracts, stylable⟩ := extract_moves "Card" .scss distinct
  exact ⟨distinct, extracts fun e mem => stylable e mem ⟨named e mem, nofun⟩⟩

/-- A numeral beyond the range of doubles, once it is a percentage. -/
def nines : List Char := List.replicate 308 '9'

def blinding : Node :=
  .node { tag := "rect", attributes := .ofList [("opacity", .str (String.ofList nines))] } []

def numbered : Node := .node { tag := "rect", attributes := .ofList [("className", .int 0)] } []

theorem utility_nines : (utility "opacity" nines).isOk = false := by decide +kernel

theorem value_nines : value "opacity" (.str (String.ofList nines)) = String.ofList nines := by
  have stays : trim nines = nines := by decide +kernel
  have not_length : lengthProperties.contains "opacity" = false := by decide
  simp only [value, valueChars, not_length, Bool.false_and, Bool.false_eq_true, if_false,
    Json.spelled, String.toList_ofList, stays]

theorem not_stylable_blinding : ¬Stylable .tailwind true blinding.data := by
  have held : declared? true blinding.data.attributes "opacity" = some (String.ofList nines) :=
    congrArg some value_nines
  intro stylable
  obtain ⟨cs, written⟩ := (stylable ⟨"opacity", by simp [held]⟩).2 rfl "opacity" _ held
  rw [String.toList_ofList] at written
  have fails := utility_nines
  rw [written] at fails
  exact nomatch fails

theorem extract_blinding :
    Distinct (elementsOf true blinding) ∧ Distinct (elementsOf true numbered) ∧
      (∃ f, (Sheet.extract true blinding).run (Sheet.make "A" .tailwind) = .error f) ∧
      ((Sheet.extract true numbered).run (Sheet.make "A" .css)).map
        (fun r => r.1.data.attributes.get? "className") = .ok (some (.str "a-rect-1")) := by
  have single : ∀ e : Element, Distinct [e] := fun e => List.pairwise_singleton _ e
  refine ⟨single _, single _, ?_, rfl⟩
  have fresh : Fresh (Sheet.make "A" .tailwind) (elementsOf true blinding ++ []) :=
    fresh_make "A" .tailwind (single _)
  apply extract_fails true blinding fresh
  exact fun all => not_stylable_blinding (all ⟨true, blinding.data⟩ List.mem_cons_self)

end DesignComponents.Style
