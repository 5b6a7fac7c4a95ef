import DesignComponents.Proofs.Figma.Layer
import Mathlib.Algebra.Order.Floor.Ring
import Mathlib.Algebra.Order.Ring.Rat
import Mathlib.Data.Rat.Floor
import Mathlib.Tactic.Linarith

/-! Drawings with exact numbers. A file whose members are of the right kinds is drawn, and every figure that
has a box lies on the canvas, with the padding on all sides. -/

set_option autoImplicit false

namespace DesignComponents.Figma

/-! ### Exact numbers -/

/-- The whole number next to a rational; of two that are as near, the even one. -/
def nearestWhole (q : ℚ) : Int :=
  let n := ⌊q⌋
  if q - n < 1 / 2 ∨ q - n = 1 / 2 ∧ n % 2 = 0 then n else n + 1

/-- The whole part of a rational. -/
def wholePart (q : ℚ) : Int := q.num.tdiv q.den

def asNumber (v : Json) : Except Fault Number :=
  match v.number? with
  | some n => .ok n
  | none => .error (.notNumeric "float() argument must be a string or a real number, not" v.kindName)

/-- Rationals, by whatever values the numbers of a file are read as, and however rationals are written. -/
def Arithmetic.exact (value : Number → ℚ) (write : ℚ → List Char) : Arithmetic ℚ where
  ofInt n := n
  read v := return value (← asNumber v)
  twice n := .ok (2 * value n)
  add := (· + ·)
  sub := (· - ·)
  plus x v := return x + value (← asNumber v)
  half x := x / 2
  lt x y := decide (x < y)
  text := write
  measure v := return String.ofList (write (value (← asNumber v)))
  hundredths v := return String.ofList (write (nearestWhole (100 * value (← asNumber v)) / 100))
  isBelowOne v := return decide (value (← asNumber v) < 1)
  intensity v := return wholePart (255 * value (← asNumber v))

/-! ### Files of the right kinds -/

/-- What stands in a member is as it should be, if anything does. -/
def Fits (members : Members) (key : String) (P : Json → Prop) : Prop := ∀ v ∈ members.lookup key, P v

def IsNumber (v : Json) : Prop := v.number?.isSome = true

def OrNull (P : Json → Prop) (v : Json) : Prop := v = .null ∨ P v

def IsObject (P : Members → Prop) (v : Json) : Prop := ∃ members, v = .obj members ∧ P members

def IsArray (P : Json → Prop) (v : Json) : Prop := ∃ items, v = .arr items ∧ ∀ item ∈ items, P item

def BoxFits (box : Members) : Prop :=
  ∀ key ∈ ["x", "y", "width", "height"], Fits box key (OrNull IsNumber)

def ColorFits (color : Members) : Prop :=
  (∀ key ∈ ["r", "g", "b"], Fits color key IsNumber) ∧ Fits color "a" (OrNull IsNumber)

def PaintFits (paint : Members) : Prop :=
  Fits paint "color" (IsObject ColorFits) ∧ Fits paint "opacity" (OrNull IsNumber)

def StyleFits (style : Members) : Prop :=
  Fits style "fontSize" IsNumber ∧ Fits style "fontWeight" (OrNull IsNumber)

/-- What is drawn of a layer, its children apart, is of the right kinds. What it is called and whether it
is visible may be of any. -/
structure LayerFits (layer : Members) : Prop where
  box : Fits layer "absoluteBoundingBox" (OrNull (IsObject BoxFits))
  fills : Fits layer "fills" (IsArray (IsObject PaintFits))
  strokes : Fits layer "strokes" (IsArray (IsObject PaintFits))
  strokeWeight : Fits layer "strokeWeight" IsNumber
  cornerRadius : Fits layer "cornerRadius" (OrNull IsNumber)
  style : Fits layer "style" (IsObject StyleFits)
  opacity : Fits layer "opacity" (OrNull IsNumber)

/-- The children of a layer; without any it has none. -/
def childrenOf (layer : Members) : Json := (layer.lookup "children").getD (.arr [])

/-- A layer of the right kinds, with all that is in it. -/
inductive Layer : Json → Prop
  | intro {members : Members} {items : List Json} (fits : LayerFits members)
    (children : childrenOf members = .arr items) (each : ∀ item ∈ items, Layer item) :
    Layer (.obj members)

def File.Typed (file : File) : Prop := ∀ layer ∈ file.children, Layer layer

/-! ### Members that fit -/

theorem Fits.getD {members : Members} {key : String} {P : Json → Prop} (fits : Fits members key P)
    {usual : Json} (known : P usual) : P ((members.lookup key).getD usual) := by
  cases found : members.lookup key with
  | none => exact known
  | some v => exact fits v found

theorem isNumber_int (n : Int) : IsNumber (.int n) := rfl

theorem asNumber_succeeds {v : Json} (number : IsNumber v) : Succeeds (asNumber v) := by
  obtain ⟨n, found⟩ := Option.isSome_iff_exists.1 number
  exact ⟨n, by rw [asNumber, found]⟩

theorem OrNull.orElse {v : Json} (number : OrNull IsNumber v) : IsNumber (v.orElse (.int 0)) := by
  unfold Json.orElse
  split
  · next truthy =>
    rcases number with rfl | number
    · exact nomatch truthy
    · exact number
  · rfl

variable {value : Number → ℚ} {write : ℚ → List Char}

section

variable {v : Json} (number : IsNumber v)

include number

theorem read_succeeds : Succeeds ((Arithmetic.exact value write).read v) :=
  (asNumber_succeeds number).map value

theorem measure_succeeds : Succeeds ((Arithmetic.exact value write).measure v) :=
  (asNumber_succeeds number).map fun n => String.ofList (write (value n))

theorem plus_succeeds (x : ℚ) : Succeeds ((Arithmetic.exact value write).plus x v) :=
  (asNumber_succeeds number).map fun n => x + value n

theorem hundredths_succeeds : Succeeds ((Arithmetic.exact value write).hundredths v) :=
  (asNumber_succeeds number).map fun n => String.ofList (write (nearestWhole (100 * value n) / 100))

theorem isBelowOne_succeeds : Succeeds ((Arithmetic.exact value write).isBelowOne v) :=
  (asNumber_succeeds number).map fun n => decide (value n < 1)

theorem intensity_succeeds : Succeeds ((Arithmetic.exact value write).intensity v) :=
  (asNumber_succeeds number).map fun n => wholePart (255 * value n)

end

/-- A member of an object may be asked for. -/
theorem succeeds_memberD {β : Type} {members : Members} {key : String} {usual : Json}
    {P : Json → Prop} (shape : P ((members.lookup key).getD usual)) {f : Json → Except Fault β}
    (rest : ∀ v, P v → Succeeds (f v)) : Succeeds ((Json.obj members).memberD key usual >>= f) :=
  Succeeds.bind ⟨_, rfl⟩ fun v found => rest v (Except.ok.inj found ▸ shape)

/-! ### Every step succeeds -/

theorem coordinate_succeeds {box : Members} (fits : BoxFits box) {key : String}
    (known : key ∈ ["x", "y", "width", "height"]) :
    Succeeds (coordinate (.exact value write) (.obj box) key) :=
  succeeds_memberD ((fits key known).getD (.inr (isNumber_int 0))) fun _ number =>
    read_succeeds number.orElse

theorem boxOf_succeeds {layer : Members} (fits : LayerFits layer) :
    Succeeds (boxOf (.exact value write) (.obj layer)) := by
  refine succeeds_memberD (fits.box.getD (.inl rfl)) fun box shape => ?_
  rcases shape with rfl | ⟨members, rfl, boxed⟩
  · exact ⟨none, rfl⟩
  · split
    · refine (coordinate_succeeds boxed (by simp)).bind fun x _ => ?_
      refine (coordinate_succeeds boxed (by simp)).bind fun y _ => ?_
      refine (coordinate_succeeds boxed (by simp)).bind fun width _ => ?_
      exact (coordinate_succeeds boxed (by simp)).bind fun height _ => ⟨_, rfl⟩
    · exact ⟨none, rfl⟩

theorem hexOf_succeeds {color : Json} (fits : IsObject ColorFits color) :
    Succeeds (hexOf (.exact value write) color) := by
  obtain ⟨members, rfl, channels, -⟩ := fits
  have channel : ∀ key ∈ ["r", "g", "b"], Succeeds (channel (.exact value write) (.obj members) key) :=
    fun key known => succeeds_memberD ((channels key known).getD (isNumber_int 0)) fun _ number =>
      intensity_succeeds number
  refine (channel "r" (by simp)).bind fun r _ => ?_
  refine (channel "g" (by simp)).bind fun g _ => ?_
  exact (channel "b" (by simp)).bind fun b _ => ⟨_, rfl⟩

theorem opacityEntry_succeeds (name : String) {alpha : Json} (fits : OrNull IsNumber alpha) :
    Succeeds (opacityEntry (.exact value write) name alpha) := by
  rcases fits with rfl | number
  · exact ⟨[], rfl⟩
  · unfold opacityEntry
    split
    · exact ⟨[], rfl⟩
    · refine (isBelowOne_succeeds number).bind fun below _ => ?_
      split
      · exact (hundredths_succeeds number).bind fun text _ => ⟨_, rfl⟩
      · exact ⟨[], rfl⟩

/-- An object may be asked whether it is visible. -/
theorem succeeds_isVisible {β : Type} {P : Members → Prop} {v : Json} (object : IsObject P v)
    {shown hidden : Except Fault β} (one : Succeeds shown) (other : Succeeds hidden) :
    Succeeds (do if ← isVisible v then shown else hidden) := by
  obtain ⟨members, rfl, -⟩ := object
  refine Succeeds.bind ⟨_, rfl⟩ fun visible _ => ?_
  split
  · exact one
  · exact other

theorem visibleOf_succeeds {P : Members → Prop} {items : List Json}
    (each : ∀ v ∈ items, IsObject P v) : Succeeds (visibleOf items) := by
  induction items with
  | nil => exact ⟨[], rfl⟩
  | cons v rest ih =>
    obtain ⟨object, others⟩ := List.forall_mem_cons.1 each
    have behind := ih others
    exact succeeds_isVisible object (behind.bind fun found _ => ⟨_, rfl⟩) behind

theorem fits_nil (key : String) (P : Json → Prop) : Fits [] key P := fun _ found => nomatch found

theorem colorFits_nil : ColorFits [] := ⟨fun key _ => fits_nil key _, fits_nil "a" _⟩

theorem fillEntries_succeeds {fills : List Json} (each : ∀ v ∈ fills, IsObject PaintFits v) :
    Succeeds (fillEntries (.exact value write) fills) := by
  induction fills with
  | nil => exact ⟨[], rfl⟩
  | cons v rest ih =>
    obtain ⟨⟨paint, rfl, color, opacity⟩, others⟩ := List.forall_mem_cons.1 each
    have colored := color.getD ⟨[], rfl, colorFits_nil⟩
    rw [fillEntries]
    refine Succeeds.bind ⟨_, rfl⟩ fun solid _ => ?_
    split
    · refine succeeds_memberD colored fun color fits => ?_
      refine (hexOf_succeeds fits).bind fun hex _ => ?_
      refine succeeds_memberD colored fun color fits => ?_
      obtain ⟨members, rfl, -, alpha⟩ := fits
      refine succeeds_memberD (alpha.getD (.inr (isNumber_int 1))) fun usual fits => ?_
      refine succeeds_memberD (opacity.getD fits) fun alpha fits => ?_
      exact (opacityEntry_succeeds "fill-opacity" fits).bind fun entry _ => ⟨_, rfl⟩
    · exact ih others

theorem strokeEntries_succeeds {layer : Members} (fits : LayerFits layer) {strokes : List Json}
    (each : ∀ v ∈ strokes, IsObject PaintFits v) :
    Succeeds (strokeEntries (.exact value write) (.obj layer) strokes) := by
  induction strokes with
  | nil => exact ⟨[], rfl⟩
  | cons v rest ih =>
    obtain ⟨⟨paint, rfl, color, -⟩, others⟩ := List.forall_mem_cons.1 each
    rw [strokeEntries]
    refine Succeeds.bind ⟨_, rfl⟩ fun shown _ => Succeeds.bind ⟨_, rfl⟩ fun solid _ => ?_
    split
    · refine succeeds_memberD (color.getD ⟨[], rfl, colorFits_nil⟩) fun color colored => ?_
      refine (hexOf_succeeds colored).bind fun hex _ => ?_
      refine succeeds_memberD (fits.strokeWeight.getD (isNumber_int 1)) fun weight number => ?_
      exact (measure_succeeds number).bind fun text _ => ⟨_, rfl⟩
    · exact ih others

/-- A value that counts as present is a number where it is null or a number. -/
theorem OrNull.of_truthy {v : Json} (number : OrNull IsNumber v) (truthy : v.isTruthy = true) :
    IsNumber v :=
  number.resolve_left fun none => by rw [none] at truthy; exact nomatch truthy

theorem rectEntries_succeeds {layer : Members} (fits : LayerFits layer) (b : Box ℚ) :
    Succeeds (rectEntries (.exact value write) (.obj layer) b) := by
  refine succeeds_memberD (fits.cornerRadius.getD (.inl rfl)) fun radius number => ?_
  dsimp only
  split
  · next truthy => exact (measure_succeeds (number.of_truthy truthy)).bind fun text _ => ⟨_, rfl⟩
  · exact ⟨_, rfl⟩

theorem textEntries_succeeds {layer : Members} (fits : LayerFits layer) (b : Box ℚ) :
    Succeeds (textEntries (.exact value write) (.obj layer) b) := by
  have plain : StyleFits [] := ⟨fits_nil _ _, fits_nil _ _⟩
  refine succeeds_memberD (fits.style.getD ⟨[], rfl, plain⟩) fun style styled => ?_
  obtain ⟨members, rfl, sized, weighted⟩ := styled
  refine succeeds_memberD (sized.getD (isNumber_int 14)) fun size number => ?_
  refine (plus_succeeds number b.y).bind fun baseline _ => ?_
  refine (measure_succeeds number).bind fun sizeText _ => Succeeds.bind ⟨_, rfl⟩ fun family _ => ?_
  refine succeeds_memberD (weighted.getD (.inl rfl)) fun weight number => ?_
  dsimp only
  split
  · next bold =>
    have truthy := (Bool.and_eq_true_iff.1 bold).1
    exact (measure_succeeds (number.of_truthy truthy)).bind fun text _ => ⟨_, rfl⟩
  · exact ⟨_, rfl⟩

theorem shapeEntries_succeeds (kind : LayerKind) {layer : Members} (fits : LayerFits layer) (b : Box ℚ) :
    Succeeds (shapeEntries (.exact value write) kind (.obj layer) b) := by
  cases kind with
  | rectangle => exact rectEntries_succeeds fits b
  | text => exact textEntries_succeeds fits b
  | ellipse | line | group => exact ⟨_, rfl⟩

theorem isArray_nil (P : Json → Prop) : IsArray P (.arr []) := ⟨[], rfl, nofun⟩

theorem drawStart_succeeds {layer : Members} (fits : LayerFits layer) (extent : Extent ℚ) :
    Succeeds (drawStart (.exact value write) extent (.obj layer)) := by
  refine Succeeds.bind ⟨_, rfl⟩ fun type _ => (boxOf_succeeds fits).bind fun box _ => ?_
  refine succeeds_memberD (fits.fills.getD (isArray_nil _)) fun fills painted => ?_
  obtain ⟨items, rfl, each⟩ := painted
  refine Succeeds.bind ⟨items, rfl⟩ fun items' same => ?_
  obtain rfl := Except.ok.inj same
  refine (visibleOf_succeeds each).bind fun shown found => ?_
  have each_shown : ∀ v ∈ shown, IsObject PaintFits v := fun v mem => by
    rw [visibleOf_eq_ok found] at mem
    exact each v (List.mem_filter.1 mem).1
  refine (fillEntries_succeeds each_shown).bind fun fillPart _ => ?_
  refine succeeds_memberD (fits.strokes.getD (isArray_nil _)) fun strokes painted => ?_
  obtain ⟨items, rfl, each⟩ := painted
  refine Succeeds.bind ⟨items, rfl⟩ fun items' same => ?_
  obtain rfl := Except.ok.inj same
  refine (strokeEntries_succeeds fits each).bind fun strokePart _ => ?_
  exact (shapeEntries_succeeds _ fits _).bind fun shape _ => ⟨_, rfl⟩

theorem drawEnd_succeeds {layer : Members} (fits : LayerFits layer) (start : Drawn ℚ) :
    Succeeds (drawEnd (.exact value write) (.obj layer) start) := by
  have texts : Succeeds (textOf start.kind (.obj layer)) := by
    cases start.kind <;> exact ⟨_, rfl⟩
  refine texts.bind fun text _ => ?_
  refine succeeds_memberD (fits.opacity.getD (.inl rfl)) fun opacity number => ?_
  refine (opacityEntry_succeeds "opacity" number).bind fun entry _ => ?_
  exact Succeeds.bind ⟨_, rfl⟩ fun id _ => Succeeds.bind ⟨_, rfl⟩ fun name _ => ⟨_, rfl⟩

/-! ### All of a file is drawn -/

section

variable {K : Type} (a : Arithmetic K)

theorem boxesInChildren_eq (layer : Members) :
    boxesInChildren a layer = boxesInValue a (childrenOf layer) := by
  induction layer with
  | nil => rfl
  | cons member rest ih =>
    obtain ⟨key, v⟩ := member
    rw [boxesInChildren, childrenOf, List.lookup_cons, ih, childrenOf, BEq.comm]
    cases "children" == key <;> rfl

theorem drawChildren_eq (extent : Extent K) (layer : Members) :
    drawChildren a extent layer = drawValue a extent (childrenOf layer) := by
  induction layer with
  | nil => rfl
  | cons member rest ih =>
    obtain ⟨key, v⟩ := member
    rw [drawChildren, childrenOf, List.lookup_cons, ih, childrenOf, BEq.comm]
    cases "children" == key <;> rfl

end

theorem Layer.isObject {v : Json} (layer : Layer v) : IsObject LayerFits v := by
  cases layer with
  | intro fits => exact ⟨_, rfl, fits⟩

theorem boxesInItems_succeeds {items : List Json} (objects : ∀ v ∈ items, IsObject LayerFits v)
    (each : ∀ v ∈ items, Succeeds (boxes (.exact value write) v)) :
    Succeeds (boxesInItems (.exact value write) items) := by
  induction items with
  | nil => exact ⟨[], rfl⟩
  | cons v rest ih =>
    obtain ⟨object, others⟩ := List.forall_mem_cons.1 objects
    obtain ⟨here, later⟩ := List.forall_mem_cons.1 each
    have behind := ih others later
    rw [boxesInItems]
    exact succeeds_isVisible object (here.bind fun own _ => behind.bind fun found _ => ⟨_, rfl⟩) behind

theorem Layer.boxes_succeeds {v : Json} (layer : Layer v) : Succeeds (boxes (.exact value write) v) := by
  induction layer with
  | @intro members items fits children each ih =>
    rw [boxes]
    refine (boxOf_succeeds fits).bind fun own _ => Succeeds.bind ?_ fun inner _ => ⟨_, rfl⟩
    rw [boxesInChildren_eq, children, boxesInValue]
    exact boxesInItems_succeeds (fun v mem => (each v mem).isObject) ih

theorem drawItems_succeeds {extent : Extent ℚ} {items : List Json}
    (objects : ∀ v ∈ items, IsObject LayerFits v)
    (each : ∀ v ∈ items, Succeeds (draw (.exact value write) extent v)) :
    Succeeds (drawItems (.exact value write) extent items) := by
  induction items with
  | nil => exact ⟨[], rfl⟩
  | cons v rest ih =>
    obtain ⟨object, others⟩ := List.forall_mem_cons.1 objects
    obtain ⟨here, later⟩ := List.forall_mem_cons.1 each
    have behind := ih others later
    rw [drawItems]
    exact succeeds_isVisible object (here.bind fun own _ => behind.bind fun found _ => ⟨_, rfl⟩) behind

theorem Layer.draw_succeeds {v : Json} (layer : Layer v) (extent : Extent ℚ) :
    Succeeds (draw (.exact value write) extent v) := by
  induction layer with
  | @intro members items fits children each ih =>
    rw [draw]
    refine (drawStart_succeeds fits extent).bind fun start _ => Succeeds.bind ?_ fun inner _ => ?_
    · split
      · rw [drawChildren_eq, children, drawValue]
        exact drawItems_succeeds (fun v mem => (each v mem).isObject) ih
      · exact ⟨[], rfl⟩
    · exact (drawEnd_succeeds fits start).bind fun figure _ => ⟨_, rfl⟩

theorem boxesOfAll_succeeds {layers : List Json} (each : ∀ v ∈ layers, Layer v) :
    Succeeds (boxesOfAll (.exact value write) layers) := by
  induction layers with
  | nil => exact ⟨[], rfl⟩
  | cons v rest ih =>
    obtain ⟨here, others⟩ := List.forall_mem_cons.1 each
    exact here.boxes_succeeds.bind fun own _ => (ih others).bind fun found _ => ⟨_, rfl⟩

theorem drawAll_succeeds (extent : Extent ℚ) {layers : List Json} (each : ∀ v ∈ layers, Layer v) :
    Succeeds (drawAll (.exact value write) extent layers) := by
  induction layers with
  | nil => exact ⟨[], rfl⟩
  | cons v rest ih =>
    obtain ⟨here, others⟩ := List.forall_mem_cons.1 each
    exact (here.draw_succeeds extent).bind fun own _ => (ih others).bind fun found _ => ⟨_, rfl⟩

theorem extentOf_succeeds (padding : Number) (bs : List (Box ℚ)) :
    Succeeds (extentOf (.exact value write) padding bs) := by
  refine (read_succeeds (v := .num padding) rfl).bind fun pad _ => ?_
  split
  · exact ⟨_, rfl⟩
  · exact ⟨_, rfl⟩

theorem drawFile_succeeds (padding : Number) {file : File} (typed : file.Typed) :
    Succeeds (drawFile (.exact value write) padding file) := by
  refine (visibleOf_succeeds fun v mem => (typed v mem).isObject).bind fun layers found => ?_
  have each : ∀ v ∈ layers, Layer v := fun v mem => by
    rw [visibleOf_eq_ok found] at mem
    exact typed v (List.mem_filter.1 mem).1
  refine (boxesOfAll_succeeds each).bind fun bs _ => (extentOf_succeeds padding bs).bind fun extent _ => ?_
  exact (drawAll_succeeds extent each).bind fun drawn _ => ⟨_, rfl⟩

/-! ### The extent -/

/-- A fold that never passes its next value ends before all values. -/
theorem foldl_first (before : ℚ → ℚ → Prop) {next : ℚ → ℚ → ℚ} (refl : ∀ x, before x x)
    (trans : ∀ x y z, before x y → before y z → before x z)
    (step : ∀ m y, before (next m y) m ∧ before (next m y) y) (xs : List ℚ) (m : ℚ) :
    before (xs.foldl next m) m ∧ ∀ x ∈ xs, before (xs.foldl next m) x := by
  induction xs generalizing m with
  | nil => exact ⟨refl m, nofun⟩
  | cons y ys ih =>
    obtain ⟨first, others⟩ := ih (next m y)
    exact ⟨trans _ _ _ first (step m y).1,
      List.forall_mem_cons.2 ⟨trans _ _ _ first (step m y).2, others⟩⟩

theorem least_le {xs : List ℚ} : ∀ x ∈ xs, least (.exact value write) xs ≤ x := by
  cases xs with
  | nil => exact nofun
  | cons m ys =>
    refine List.forall_mem_cons.2
      (foldl_first (· ≤ ·) le_refl (fun _ _ _ => le_trans) (fun m y => ?_) ys m)
    by_cases less : y < m
    · simp [Arithmetic.exact, less, less.le]
    · simp [Arithmetic.exact, less, not_lt.1 less]

theorem le_greatest {xs : List ℚ} : ∀ x ∈ xs, x ≤ greatest (.exact value write) xs := by
  cases xs with
  | nil => exact nofun
  | cons m ys =>
    refine List.forall_mem_cons.2
      (foldl_first (· ≥ ·) le_refl (fun _ _ _ => ge_trans) (fun m y => ?_) ys m)
    by_cases less : m < y
    · simp [Arithmetic.exact, less, less.le]
    · simp [Arithmetic.exact, less, not_lt.1 less]

/-- Along one axis, a part between the least start and the greatest end lies in the room for all, with the
padding on both sides. -/
theorem part_in_room (pad : ℚ) {starts ends : List ℚ} {start size : ℚ} (starts_so : start ∈ starts)
    (ends_so : start + size ∈ ends) :
    let low := least (.exact value write) starts
    let high := greatest (.exact value write) ends
    pad ≤ start - (low - pad) ∧
      start - (low - pad) + size ≤ room (.exact value write) (2 * pad) low high - pad := by
  intro low high
  have above : low ≤ start := least_le start starts_so
  have below : start + size ≤ high := le_greatest _ ends_so
  have whole : room (.exact value write) (2 * pad) low high = high - low + 2 * pad := rfl
  rw [whole]
  constructor <;> linarith

/-- A box lies in an extent, with the padding on all sides. -/
structure LiesIn (pad width height : ℚ) (b : Box ℚ) : Prop where
  left : pad ≤ b.x
  top : pad ≤ b.y
  right : b.x + b.width ≤ width - pad
  bottom : b.y + b.height ≤ height - pad

/-- Each box that an extent is made of lies in it. -/
theorem from_liesIn {padding : Number} {bs : List (Box ℚ)} {extent : Extent ℚ}
    (bounded : extentOf (.exact value write) padding bs = .ok extent) {b : Box ℚ} (mem : b ∈ bs) :
    LiesIn (value padding) extent.width extent.height (Box.from (.exact value write) extent b) := by
  rw [extentOf] at bounded
  obtain ⟨pad, read, bounded⟩ := bind_eq_ok.1 bounded
  obtain rfl : value padding = pad := Except.ok.inj read
  have some_box : ¬ bs.isEmpty = true := by
    rw [List.isEmpty_iff]
    exact List.ne_nil_of_mem mem
  rw [if_neg some_box] at bounded
  obtain ⟨both, twice, bounded⟩ := bind_eq_ok.1 bounded
  obtain rfl : 2 * value padding = both := Except.ok.inj twice
  cases bounded
  obtain ⟨left, right⟩ := part_in_room (value padding) (List.mem_map_of_mem (f := Box.x) mem)
    (List.mem_map_of_mem (f := fun b => b.x + b.width) mem)
  obtain ⟨top, bottom⟩ := part_in_room (value padding) (List.mem_map_of_mem (f := Box.y) mem)
    (List.mem_map_of_mem (f := fun b => b.y + b.height) mem)
  exact ⟨left, top, right, bottom⟩

/-! ### The canvas -/

/-- A file of the right kinds is drawn. Its figures are the layers that are visible and have only visible
layers without a shape of their own around them, each once and in document order; and each that has a box
lies on the canvas, with the padding on all sides. With doubles the figures are the same layers. -/
theorem drawn_on_canvas (value : Number → ℚ) (write : ℚ → List Char) (padding : Number)
    {file : File} (typed : file.Typed) :
    (∃ c extent, drawFile (.exact value write) padding file = .ok c ∧
      (∀ f ∈ Drawing.figuresAll c.layers, ∀ b ∈ f.box,
        LiesIn (value padding) c.width c.height b) ∧
      List.Forall₂ (Depicts (.exact value write) extent) (Drawing.figuresAll c.layers)
        (drawnOf file.layers)) ∧
    ∀ root, canvas padding file = .ok root → ∃ extent,
      List.Forall₂ (fun e n => ∃ f, e = Figure.element f ∧ Depicts .double extent f n)
        (descendants root) (drawnOf file.layers) := by
  constructor
  · obtain ⟨c, drawn⟩ : Succeeds (drawFile (.exact value write) padding file) :=
      drawFile_succeeds padding typed
    obtain ⟨bs, extent, bounded, width, height, depicts, boxed⟩ := drawFile_depicts drawn
    refine ⟨c, extent, drawn, fun f mem b placed => ?_, depicts⟩
    obtain ⟨own, collected, rfl⟩ := boxed f mem b placed
    rw [width, height]
    exact from_liesIn bounded collected
  · intro root runs
    obtain ⟨c, drawn, same⟩ := bind_eq_ok.1 runs
    obtain rfl : c.node = root := Except.ok.inj same
    obtain ⟨bs, extent, -, -, -, depicts, -⟩ := drawFile_depicts drawn
    refine ⟨extent, ?_⟩
    rw [descendants_node, List.forall₂_map_left_iff]
    exact depicts.imp fun f n shows => ⟨f, rfl, shows⟩

/-- The value of a number; what has none among the rationals counts as zero. -/
def rational : Number → ℚ
  | .int n => n
  | .real (.finite neg mant exp) => Binary64.signed neg mant * 2 ^ exp
  | .real _ => 0

def boxAt (x y width height : Int) : Json :=
  .obj [("x", .int x), ("y", .int y), ("width", .int width), ("height", .int height)]

/-- A frame with a text that reaches over its left edge, and with a hidden rectangle. -/
def panel : File where
  document := []
  children := [.obj [("type", .str "FRAME"), ("absoluteBoundingBox", boxAt (-10) 5 40 30),
    ("children", .arr [
      .obj [("type", .str "TEXT"), ("absoluteBoundingBox", boxAt (-20) 6 8 8)],
      .obj [("type", .str "RECTANGLE"), ("visible", .bool false),
        ("absoluteBoundingBox", boxAt 900 900 8 8)]])]]
  name := .null
  lastModified := .null
  components := .obj []
  shape := .direct

/-- A layer of which only the box is drawn, besides its kind and whether it is visible. -/
theorem layerFits_box {members : Members} {x y width height : Int}
    (found : members.lookup "absoluteBoundingBox" = some (boxAt x y width height))
    (others : ∀ key ∈ ["fills", "strokes", "strokeWeight", "cornerRadius", "style", "opacity"],
      members.lookup key = none) : LayerFits members := by
  have absent : ∀ key ∈ ["fills", "strokes", "strokeWeight", "cornerRadius", "style", "opacity"],
      ∀ P, Fits members key P := fun key known P v held => by
    rw [others key known] at held
    exact nomatch held
  have numbers :
      BoxFits [("x", .int x), ("y", .int y), ("width", .int width), ("height", .int height)] := by
    intro key known v held
    simp only [List.mem_cons, List.not_mem_nil, or_false] at known
    rcases known with rfl | rfl | rfl | rfl <;> cases held <;> exact .inr (isNumber_int _)
  have boxed : Fits members "absoluteBoundingBox" (OrNull (IsObject BoxFits)) := fun v held => by
    rw [found] at held
    cases held
    exact .inr ⟨_, rfl, numbers⟩
  exact ⟨boxed, absent _ (by simp) _, absent _ (by simp) _, absent _ (by simp) _, absent _ (by simp) _,
    absent _ (by simp) _, absent _ (by simp) _⟩

theorem panel_typed : panel.Typed := by
  intro layer mem
  obtain rfl := List.mem_singleton.1 mem
  refine .intro (layerFits_box rfl (by decide +kernel)) rfl fun item inside => ?_
  simp only [List.mem_cons, List.not_mem_nil, or_false] at inside
  rcases inside with rfl | rfl
  · exact .intro (layerFits_box rfl (by simp)) rfl nofun
  · exact .intro (layerFits_box rfl (by simp)) rfl nofun

theorem drawn_on_canvas_panel : panel.Typed ∧ (drawnOf panel.layers).length = 2 ∧
    ∃ c, drawFile (.exact rational fun q => (toString q).toList) 8 panel = .ok c ∧
      (Drawing.figuresAll c.layers).length = 2 ∧
      ∀ f ∈ Drawing.figuresAll c.layers, ∀ b ∈ f.box, LiesIn 8 c.width c.height b := by
  have two : (drawnOf panel.layers).length = 2 := by decide +kernel
  obtain ⟨⟨c, extent, drawn, lies, depicts⟩, -⟩ :=
    drawn_on_canvas rational (fun q => (toString q).toList) 8 panel_typed
  exact ⟨panel_typed, two, c, drawn, depicts.length_eq.trans two, lies⟩

end DesignComponents.Figma
