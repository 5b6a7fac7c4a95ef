import DesignComponents.Figma.Canvas
import DesignComponents.Json.Fields
import DesignComponents.Proofs.Fault

/-! The layers of a design file in document order, each with those around it. Which of them are drawn and
of which the boxes are collected is said of the layers and those around them alone; the two walks, which
each skip hidden layers on their own, come to just these. -/

set_option autoImplicit false

namespace DesignComponents.Figma

/-! ### Layers and those around them -/

/-- A layer, with the layers around it from the innermost outward. -/
structure Nested where
  layer : Json
  around : List Json

mutual

/-- A layer and all that is in it, in document order. -/
def nested (around : List Json) : Json → List Nested
  | .obj members => ⟨.obj members, around⟩ :: nestedInChildren (.obj members :: around) members
  | v => [⟨v, around⟩]

def nestedInChildren (around : List Json) : Members → List Nested
  | [] => []
  | (key, v) :: rest => if key == "children" then nestedInValue around v else nestedInChildren around rest

def nestedInValue (around : List Json) : Json → List Nested
  | .arr items => nestedInItems around items
  | _ => []

def nestedInItems (around : List Json) : List Json → List Nested
  | [] => []
  | item :: rest => nested around item ++ nestedInItems around rest

end

/-- All layers of a file. -/
def File.layers (file : File) : List Nested := nestedInItems [] file.children

mutual

/-- What is in a layer has the layer around it. -/
theorem of_mem_nested {n : Nested} : ∀ {v : Json} {around : List Json}, n ∈ nested around v →
    around <:+ n.around ∧ (n.layer = v ∨ v ∈ n.around)
  | .obj members, around, mem => by
    rw [nested] at mem
    rcases List.mem_cons.1 mem with rfl | inside
    · exact ⟨List.suffix_refl _, .inl rfl⟩
    · have suffix := of_mem_nestedInChildren inside
      exact ⟨(List.suffix_cons _ _).trans suffix, .inr (suffix.subset List.mem_cons_self)⟩
  | .null, _, mem | .bool _, _, mem | .num _, _, mem | .str _, _, mem | .arr _, _, mem => by
    simp only [nested] at mem
    obtain rfl := List.mem_singleton.1 mem
    exact ⟨List.suffix_refl _, .inl rfl⟩

theorem of_mem_nestedInChildren {n : Nested} : ∀ {members : Members} {around : List Json},
    n ∈ nestedInChildren around members → around <:+ n.around
  | [], _, mem => by simp [nestedInChildren] at mem
  | (key, v) :: rest, around, mem => by
    rw [nestedInChildren] at mem
    split at mem
    · exact of_mem_nestedInValue mem
    · exact of_mem_nestedInChildren mem

theorem of_mem_nestedInValue {n : Nested} : ∀ {v : Json} {around : List Json},
    n ∈ nestedInValue around v → around <:+ n.around
  | .arr items, _, mem => by
    rw [nestedInValue] at mem
    exact of_mem_nestedInItems mem
  | .obj _, _, mem | .null, _, mem | .bool _, _, mem | .num _, _, mem | .str _, _, mem => by
    simp [nestedInValue] at mem

theorem of_mem_nestedInItems {n : Nested} : ∀ {items : List Json} {around : List Json},
    n ∈ nestedInItems around items → around <:+ n.around
  | [], _, mem => by simp [nestedInItems] at mem
  | item :: rest, around, mem => by
    rw [nestedInItems] at mem
    rcases List.mem_append.1 mem with here | later
    · exact (of_mem_nested here).1
    · exact of_mem_nestedInItems later

end

/-! ### What is visible -/

/-- Whether a layer is visible, those around it apart. -/
def shows (v : Json) : Bool := v.isObject && (v.fieldD "visible" (.bool true)).isTruthy

/-- The types that have a shape of their own. -/
def shapes : List String := ["RECTANGLE", "ELLIPSE", "LINE", "TEXT"]

/-- Whether a layer is of a type that draws what is in it. -/
def draws (v : Json) : Bool := !shapes.any (v.fieldD "type" (.str "FRAME")).isStr

/-- Whether a layer is visible, and so are all around it. -/
def Nested.seen (n : Nested) : Bool := shows n.layer && n.around.all shows

/-- Whether a layer is visible, and all around it are visible and draw what is in them. -/
def Nested.drawn (n : Nested) : Bool := shows n.layer && n.around.all fun g => shows g && draws g

theorem Nested.seen_of_drawn {n : Nested} (drawn : n.drawn = true) : n.seen = true := by
  simp only [Nested.drawn, Nested.seen, Bool.and_eq_true, List.all_eq_true] at drawn ⊢
  exact ⟨drawn.1, fun g mem => (drawn.2 g mem).1⟩

/-- In a hidden layer nothing is seen. -/
theorem shows_of_seen {n : Nested} {v : Json} {around : List Json} (mem : n ∈ nested around v)
    (seen : n.seen = true) : shows v = true := by
  simp only [Nested.seen, Bool.and_eq_true, List.all_eq_true] at seen
  rcases (of_mem_nested mem).2 with rfl | inside
  · exact seen.1
  · exact seen.2 v inside

theorem isVisible_eq_ok {v : Json} {b : Bool} (known : isVisible v = .ok b) : shows v = b := by
  cases v with
  | obj members => exact Except.ok.inj known
  | null | bool _ | num _ | str _ | arr _ => exact nomatch known

/-- A walk goes one way with a layer that is visible and another with one that is hidden. -/
theorem of_isVisible_bind {β : Type} {v : Json} {shown hidden : Except Fault β} {result : β}
    (runs : (do if ← isVisible v then shown else hidden) = .ok result) :
    shows v = true ∧ shown = .ok result ∨ shows v = false ∧ hidden = .ok result := by
  obtain ⟨b, known, runs⟩ := bind_eq_ok.1 runs
  cases b with
  | true => exact .inl ⟨isVisible_eq_ok known, runs⟩
  | false => exact .inr ⟨isVisible_eq_ok known, runs⟩

theorem ofType_eq_group {type : Json} :
    LayerKind.ofType type = .group ↔ shapes.any type.isStr = false := by
  unfold LayerKind.ofType
  split
  · simp [shapes, Json.isStr]
  · simp [shapes, Json.isStr]
  · simp [shapes, Json.isStr]
  · simp [shapes, Json.isStr]
  · next other rectangle ellipse line text =>
    refine iff_of_true rfl ?_
    cases type <;> simp_all [shapes, Json.isStr]

/-! ### The boxes that are collected -/

variable {K : Type} {a : Arithmetic K}

mutual

/-- The box of each layer that is seen is collected. -/
theorem mem_boxes {n : Nested} {b : Box K} (seen : n.seen = true) (own : boxOf a n.layer = .ok (some b)) :
    ∀ {v : Json} {around : List Json} {bs : List (Box K)}, boxes a v = .ok bs → n ∈ nested around v →
      b ∈ bs
  | .obj members, around, bs, collects, mem => by
    rw [boxes] at collects
    obtain ⟨first, owns, collects⟩ := bind_eq_ok.1 collects
    obtain ⟨inner, inside, collects⟩ := bind_eq_ok.1 collects
    cases collects
    rw [nested] at mem
    rcases List.mem_cons.1 mem with rfl | deeper
    · cases owns.symm.trans own
      exact List.mem_append_left _ (by simp)
    · exact List.mem_append_right _ (mem_boxesInChildren seen own inside deeper)
  | .null, _, _, collects, _ | .bool _, _, _, collects, _ | .num _, _, _, collects, _
  | .str _, _, _, collects, _ | .arr _, _, _, collects, _ => by simp [boxes] at collects

theorem mem_boxesInChildren {n : Nested} {b : Box K} (seen : n.seen = true)
    (own : boxOf a n.layer = .ok (some b)) :
    ∀ {members : Members} {around : List Json} {bs : List (Box K)},
      boxesInChildren a members = .ok bs → n ∈ nestedInChildren around members → b ∈ bs
  | [], _, _, _, mem => by simp [nestedInChildren] at mem
  | (key, v) :: rest, around, bs, collects, mem => by
    rw [boxesInChildren] at collects
    rw [nestedInChildren] at mem
    split at mem
    · next children =>
      rw [if_pos children] at collects
      exact mem_boxesInValue seen own collects mem
    · next other =>
      rw [if_neg other] at collects
      exact mem_boxesInChildren seen own collects mem

theorem mem_boxesInValue {n : Nested} {b : Box K} (seen : n.seen = true)
    (own : boxOf a n.layer = .ok (some b)) : ∀ {v : Json} {around : List Json} {bs : List (Box K)},
    boxesInValue a v = .ok bs → n ∈ nestedInValue around v → b ∈ bs
  | .arr items, _, _, collects, mem => by
    rw [boxesInValue] at collects
    rw [nestedInValue] at mem
    exact mem_boxesInItems seen own collects mem
  | .obj _, _, _, _, mem | .null, _, _, _, mem | .bool _, _, _, _, mem | .num _, _, _, _, mem
  | .str _, _, _, _, mem => by simp [nestedInValue] at mem

theorem mem_boxesInItems {n : Nested} {b : Box K} (seen : n.seen = true)
    (own : boxOf a n.layer = .ok (some b)) :
    ∀ {items : List Json} {around : List Json} {bs : List (Box K)},
      boxesInItems a items = .ok bs → n ∈ nestedInItems around items → b ∈ bs
  | [], _, _, _, mem => by simp [nestedInItems] at mem
  | item :: rest, around, bs, collects, mem => by
    rw [boxesInItems] at collects
    rw [nestedInItems] at mem
    rcases of_isVisible_bind collects with ⟨-, collects⟩ | ⟨hidden, collects⟩
    · obtain ⟨first, here, collects⟩ := bind_eq_ok.1 collects
      obtain ⟨others, later, collects⟩ := bind_eq_ok.1 collects
      cases collects
      rcases List.mem_append.1 mem with inside | behind
      · exact List.mem_append_left _ (mem_boxes seen own here inside)
      · exact List.mem_append_right _ (mem_boxesInItems seen own later behind)
    · rcases List.mem_append.1 mem with inside | behind
      -- The walk passes a hidden layer by, and nothing in it is seen.
      · rw [shows_of_seen inside seen] at hidden
        cases hidden
      · exact mem_boxesInItems seen own collects behind

end

/-! ### The figures that are drawn -/

mutual

/-- The figures of a drawing, each before those in it. -/
def Drawing.figures : Drawing K → List (Figure K)
  | .figure data children => data :: figuresAll children

def Drawing.figuresAll : List (Drawing K) → List (Figure K)
  | [] => []
  | d :: rest => d.figures ++ figuresAll rest

end

/-- A figure shows a layer: what the layer is called and what it is, and its own box as it lies from the
origin. -/
structure Depicts (a : Arithmetic K) (extent : Extent K) (f : Figure K) (n : Nested) : Prop where
  id : f.id = (n.layer.fieldD "id" (.str "")).spelledText
  name : f.name = n.layer.fieldD "name" (.str "")
  type : f.type = n.layer.fieldD "type" (.str "FRAME")
  kind : f.kind = LayerKind.ofType f.type
  box : ∃ own, boxOf a n.layer = .ok own ∧ f.box = own.map (Box.from a extent)

/-- The layers that are drawn. -/
def drawnOf (ns : List Nested) : List Nested := ns.filter Nested.drawn

/-- In a hidden layer nothing is drawn. -/
theorem drawnOf_hidden {v : Json} (hidden : shows v = false) (around : List Json) :
    drawnOf (nested around v) = [] := by
  refine List.filter_eq_nil_iff.2 fun n mem drawn => ?_
  rw [shows_of_seen mem (Nested.seen_of_drawn drawn)] at hidden
  exact nomatch hidden

/-- Nor is it in one with a shape of its own. -/
theorem drawnOf_shaped {g : Json} (shaped : draws g = false) {around : List Json} (members : Members) :
    drawnOf (nestedInChildren (g :: around) members) = [] := by
  refine List.filter_eq_nil_iff.2 fun n mem drawn => ?_
  simp only [Nested.drawn, Bool.and_eq_true, List.all_eq_true] at drawn
  have held := (of_mem_nestedInChildren mem).subset List.mem_cons_self
  rw [(drawn.2 g held).2] at shaped
  exact nomatch shaped

theorem start_of_drawStart {extent : Extent K} {members : Members} {d : Drawn K}
    (starts : drawStart a extent (.obj members) = .ok d) :
    d.type = (Json.obj members).fieldD "type" (.str "FRAME") ∧ d.kind = LayerKind.ofType d.type ∧
      ∃ own, boxOf a (.obj members) = .ok own ∧ d.box = own.map (Box.from a extent) := by
  rw [drawStart] at starts
  obtain ⟨type, typed, starts⟩ := bind_eq_ok.1 starts
  obtain ⟨own, boxed, starts⟩ := bind_eq_ok.1 starts
  obtain ⟨fillItems, -, starts⟩ := bind_eq_ok.1 starts
  obtain ⟨fillValues, -, starts⟩ := bind_eq_ok.1 starts
  obtain ⟨fills, -, starts⟩ := bind_eq_ok.1 starts
  obtain ⟨fillPart, -, starts⟩ := bind_eq_ok.1 starts
  obtain ⟨strokeItems, -, starts⟩ := bind_eq_ok.1 starts
  obtain ⟨strokes, -, starts⟩ := bind_eq_ok.1 starts
  obtain ⟨strokePart, -, starts⟩ := bind_eq_ok.1 starts
  obtain ⟨shape, -, starts⟩ := bind_eq_ok.1 starts
  cases starts
  exact ⟨(Except.ok.inj typed).symm, rfl, own, boxed, rfl⟩

theorem figure_of_drawEnd {members : Members} {d : Drawn K} {f : Figure K}
    (ends : drawEnd a (.obj members) d = .ok f) :
    f.id = ((Json.obj members).fieldD "id" (.str "")).spelledText ∧ f.kind = d.kind ∧
      f.type = d.type ∧ f.name = (Json.obj members).fieldD "name" (.str "") ∧ f.box = d.box := by
  rw [drawEnd] at ends
  obtain ⟨text, -, ends⟩ := bind_eq_ok.1 ends
  obtain ⟨opacity, -, ends⟩ := bind_eq_ok.1 ends
  obtain ⟨entries, -, ends⟩ := bind_eq_ok.1 ends
  obtain ⟨id, known, ends⟩ := bind_eq_ok.1 ends
  obtain ⟨name, called, ends⟩ := bind_eq_ok.1 ends
  cases ends
  exact ⟨congrArg Json.spelledText (Except.ok.inj known).symm, rfl, rfl,
    (Except.ok.inj called).symm, rfl⟩

variable {extent : Extent K}

/-- Whether all these layers are visible and draw what is in them. -/
def passes (around : List Json) : Bool := around.all fun g => shows g && draws g

mutual

/-- What is drawn of a visible layer are the layers that are to be drawn, in document order. -/
theorem draw_depicts : ∀ {v : Json} {around : List Json} {d : Drawing K}, shows v = true →
    passes around = true → draw a extent v = .ok d →
    List.Forall₂ (Depicts a extent) d.figures (drawnOf (nested around v))
  | .obj members, around, d, visible, passed, drawn => by
    rw [draw] at drawn
    obtain ⟨start, starts, drawn⟩ := bind_eq_ok.1 drawn
    obtain ⟨children, inside, drawn⟩ := bind_eq_ok.1 drawn
    obtain ⟨figure, ends, drawn⟩ := bind_eq_ok.1 drawn
    cases drawn
    obtain ⟨typed, kind, own, boxed, box⟩ := start_of_drawStart starts
    obtain ⟨id, kind', type', name, box'⟩ := figure_of_drawEnd ends
    have here : (Nested.mk (.obj members) around).drawn = true := by
      rw [Nested.drawn, visible, Bool.true_and]
      exact passed
    rw [nested, drawnOf, List.filter_cons_of_pos here]
    refine .cons ⟨id, name, type'.trans typed, ?_, own, boxed, box'.trans box⟩ ?_
    · rw [kind', kind, type']
    -- What is in the layer is drawn where the layer has no shape of its own.
    · have whole : draws (.obj members) = true ↔ start.kind = .group := by
        rw [kind, typed, ofType_eq_group, draws, Bool.not_eq_true']
      by_cases group : start.kind = .group
      · rw [group] at inside
        refine drawChildren_depicts ?_ inside
        rw [passes, List.all_cons, visible, whole.2 group]
        exact passed
      · have none : children = [] := by
          split at inside
          · next is => exact absurd is group
          · exact (Except.ok.inj inside).symm
        have closed : drawnOf (nestedInChildren (.obj members :: around) members) = [] :=
          drawnOf_shaped (Bool.eq_false_iff.2 (whole.not.2 group)) members
        rw [drawnOf] at closed
        rw [none, closed]
        exact .nil
  | .null, _, _, _, _, drawn | .bool _, _, _, _, _, drawn | .num _, _, _, _, _, drawn
  | .str _, _, _, _, _, drawn | .arr _, _, _, _, _, drawn => by simp [draw] at drawn

theorem drawChildren_depicts : ∀ {members : Members} {around : List Json} {ds : List (Drawing K)},
    passes around = true → drawChildren a extent members = .ok ds →
    List.Forall₂ (Depicts a extent) (Drawing.figuresAll ds) (drawnOf (nestedInChildren around members))
  | [], _, ds, _, drawn => by
    rw [drawChildren] at drawn
    cases drawn
    simp [nestedInChildren, drawnOf, Drawing.figuresAll]
  | (key, v) :: rest, around, ds, passed, drawn => by
    rw [drawChildren] at drawn
    rw [nestedInChildren]
    split
    · next children =>
      rw [if_pos children] at drawn
      exact drawValue_depicts passed drawn
    · next other =>
      rw [if_neg other] at drawn
      exact drawChildren_depicts passed drawn

theorem drawValue_depicts : ∀ {v : Json} {around : List Json} {ds : List (Drawing K)},
    passes around = true → drawValue a extent v = .ok ds →
    List.Forall₂ (Depicts a extent) (Drawing.figuresAll ds) (drawnOf (nestedInValue around v))
  | .arr items, around, ds, passed, drawn => by
    rw [drawValue] at drawn
    rw [nestedInValue]
    exact drawItems_depicts passed drawn
  | .obj members, _, ds, _, drawn => by
    rw [drawValue] at drawn
    obtain ⟨_, -, drawn⟩ := bind_eq_ok.1 drawn
    cases drawn
    simp [nestedInValue, drawnOf, Drawing.figuresAll]
  | .str _, _, ds, _, drawn => by
    rw [drawValue] at drawn
    obtain ⟨_, -, drawn⟩ := bind_eq_ok.1 drawn
    cases drawn
    simp [nestedInValue, drawnOf, Drawing.figuresAll]
  | .null, _, _, _, drawn | .bool _, _, _, _, drawn | .num _, _, _, _, drawn => by
    simp [drawValue] at drawn

theorem drawItems_depicts : ∀ {items : List Json} {around : List Json} {ds : List (Drawing K)},
    passes around = true → drawItems a extent items = .ok ds →
    List.Forall₂ (Depicts a extent) (Drawing.figuresAll ds) (drawnOf (nestedInItems around items))
  | [], _, ds, _, drawn => by
    rw [drawItems] at drawn
    cases drawn
    simp [nestedInItems, drawnOf, Drawing.figuresAll]
  | item :: rest, around, ds, passed, drawn => by
    rw [drawItems] at drawn
    rw [nestedInItems, drawnOf, List.filter_append]
    rcases of_isVisible_bind drawn with ⟨visible, drawn⟩ | ⟨hidden, drawn⟩
    · obtain ⟨first, here, drawn⟩ := bind_eq_ok.1 drawn
      obtain ⟨others, later, drawn⟩ := bind_eq_ok.1 drawn
      cases drawn
      exact List.rel_append (draw_depicts visible passed here) (drawItems_depicts passed later)
    · have none : drawnOf (nested around item) = [] := drawnOf_hidden hidden around
      rw [drawnOf] at none
      rw [none]
      exact drawItems_depicts passed drawn

end

/-! ### The layers of a file -/

theorem mem_nestedInItems {n : Nested} {items around : List Json} :
    n ∈ nestedInItems around items ↔ ∃ item ∈ items, n ∈ nested around item := by
  induction items with
  | nil => simp [nestedInItems]
  | cons item rest ih => rw [nestedInItems, List.mem_append, ih, List.exists_mem_cons_iff]

/-- Hidden layers may be left out before those that are drawn are told. -/
theorem drawnOf_filter (items around : List Json) :
    drawnOf (nestedInItems around (items.filter shows)) = drawnOf (nestedInItems around items) := by
  induction items with
  | nil => rfl
  | cons item rest ih =>
    have split : drawnOf (nestedInItems around (item :: rest)) =
        drawnOf (nested around item) ++ drawnOf (nestedInItems around rest) := by
      rw [nestedInItems, drawnOf, List.filter_append]
      rfl
    by_cases visible : shows item = true
    · rw [List.filter_cons_of_pos visible, nestedInItems, split, ← ih, drawnOf, List.filter_append]
      rfl
    · rw [List.filter_cons_of_neg visible, ih, split, drawnOf_hidden (Bool.eq_false_iff.2 visible),
        List.nil_append]

theorem visibleOf_eq_ok {items layers : List Json} (found : visibleOf items = .ok layers) :
    layers = items.filter shows := by
  induction items generalizing layers with
  | nil => exact (Except.ok.inj found).symm
  | cons item rest ih =>
    rw [visibleOf] at found
    rcases of_isVisible_bind found with ⟨visible, found⟩ | ⟨hidden, found⟩
    · obtain ⟨others, later, found⟩ := bind_eq_ok.1 found
      cases found
      rw [List.filter_cons_of_pos visible, ih later]
    · rw [List.filter_cons_of_neg (by simp [hidden]), ih found]

theorem mem_boxesOfAll {n : Nested} {b : Box K} (seen : n.seen = true)
    (own : boxOf a n.layer = .ok (some b)) {layers : List Json} {bs : List (Box K)}
    (collects : boxesOfAll a layers = .ok bs) (mem : ∃ layer ∈ layers, n ∈ nested [] layer) :
    b ∈ bs := by
  induction layers generalizing bs with
  | nil => simp at mem
  | cons layer rest ih =>
    rw [boxesOfAll] at collects
    obtain ⟨first, here, collects⟩ := bind_eq_ok.1 collects
    obtain ⟨others, later, collects⟩ := bind_eq_ok.1 collects
    cases collects
    rcases (List.exists_mem_cons_iff ..).1 mem with inside | behind
    · exact List.mem_append_left _ (mem_boxes seen own here inside)
    · exact List.mem_append_right _ (ih later behind)

theorem drawAll_depicts {layers : List Json} {ds : List (Drawing K)}
    (visible : ∀ layer ∈ layers, shows layer = true) (drawn : drawAll a extent layers = .ok ds) :
    List.Forall₂ (Depicts a extent) (Drawing.figuresAll ds) (drawnOf (nestedInItems [] layers)) := by
  induction layers generalizing ds with
  | nil =>
    cases drawn
    simp [nestedInItems, drawnOf, Drawing.figuresAll]
  | cons layer rest ih =>
    obtain ⟨here, others⟩ := List.forall_mem_cons.1 visible
    rw [drawAll] at drawn
    obtain ⟨first, now, drawn⟩ := bind_eq_ok.1 drawn
    obtain ⟨behind, later, drawn⟩ := bind_eq_ok.1 drawn
    cases drawn
    rw [nestedInItems, drawnOf, List.filter_append]
    exact List.rel_append (draw_depicts here rfl now) (ih others later)

theorem partner_of_mem {α β : Type} {R : α → β → Prop} {xs : List α} {ys : List β}
    (all : List.Forall₂ R xs ys) {x : α} (mem : x ∈ xs) : ∃ y ∈ ys, R x y := by
  induction all with
  | nil => exact nomatch mem
  | @cons x' y xs ys related _ ih =>
    rcases List.mem_cons.1 mem with rfl | later
    · exact ⟨y, List.mem_cons_self, related⟩
    · obtain ⟨y', held, related'⟩ := ih later
      exact ⟨y', List.mem_cons_of_mem y held, related'⟩

/-- Whatever the numbers are, the figures of a file are its layers that are to be drawn, each once and in
document order; and the extent that they are drawn in is that of boxes among which each of theirs is. -/
theorem drawFile_depicts {padding : Number} {file : File} {c : Canvas K}
    (drawn : drawFile a padding file = .ok c) : ∃ bs extent,
      extentOf a padding bs = .ok extent ∧ c.width = extent.width ∧ c.height = extent.height ∧
      List.Forall₂ (Depicts a extent) (Drawing.figuresAll c.layers) (drawnOf file.layers) ∧
      ∀ f ∈ Drawing.figuresAll c.layers, ∀ b ∈ f.box, ∃ own ∈ bs, own.from a extent = b := by
  rw [drawFile] at drawn
  obtain ⟨layers, found, drawn⟩ := bind_eq_ok.1 drawn
  obtain ⟨bs, collects, drawn⟩ := bind_eq_ok.1 drawn
  obtain ⟨extent, bounded, drawn⟩ := bind_eq_ok.1 drawn
  obtain ⟨ds, figures, drawn⟩ := bind_eq_ok.1 drawn
  cases drawn
  obtain rfl := visibleOf_eq_ok found
  have depicts := drawAll_depicts (fun _ mem => (List.mem_filter.1 mem).2) figures
  rw [drawnOf_filter] at depicts
  refine ⟨bs, extent, bounded, rfl, rfl, depicts, fun f mem b placed => ?_⟩
  -- A figure is that of a layer to be drawn, whose box was collected before it was moved.
  obtain ⟨n, to_draw, shown⟩ := partner_of_mem depicts mem
  obtain ⟨held, drawn⟩ := List.mem_filter.1 to_draw
  have seen := Nested.seen_of_drawn drawn
  obtain ⟨item, among, inside⟩ := mem_nestedInItems.1 held
  obtain ⟨own, boxed, same⟩ := shown.box
  rw [same] at placed
  obtain ⟨own, rfl, rfl⟩ := Option.map_eq_some_iff.1 placed
  exact ⟨own, mem_boxesOfAll seen boxed collects
    ⟨item, List.mem_filter.2 ⟨among, shows_of_seen inside seen⟩, inside⟩, rfl⟩

/-! ### As a tree -/

mutual

theorem elements_node : ∀ d : Drawing Binary64,
    d.node.elements.map Prod.fst = d.figures.map Figure.element
  | .figure data children => congrArg (data.element :: ·) (elementsOf_nodes children)

theorem elementsOf_nodes : ∀ ds : List (Drawing Binary64),
    (Source.Node.elementsOf (Drawing.nodes ds)).map Prod.fst = (Drawing.figuresAll ds).map Figure.element
  | [] => rfl
  | d :: rest => by
    rw [Drawing.nodes, Source.Node.elementsOf, Drawing.figuresAll, List.map_append, List.map_append,
      elements_node d, elementsOf_nodes rest]

end

/-- The elements of a tree in its root. -/
def descendants (root : Source.Node) : List Source.Element := (root.elements.map Prod.fst).tail

theorem descendants_node (c : Canvas Binary64) :
    descendants c.node = (Drawing.figuresAll c.layers).map Figure.element :=
  elementsOf_nodes c.layers

end DesignComponents.Figma
