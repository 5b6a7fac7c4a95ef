import DesignComponents.Proofs.Number.Reading
import DesignComponents.Proofs.Style.Extract

/-! Utilities as classes. A class ends where white space is, so a utility is one class only if its
declaration brings no white space into it. Spaces in a value are no matter but in a colour, which is
written as it stands; other white space is none of what is written otherwise. -/

set_option autoImplicit false

namespace DesignComponents.Style

open Text Target

/-- No white space of the text is other than a space. -/
def SpacesOnly (text : List Char) : Prop := ∀ c ∈ text, isBlank c = true → c = ' '

instance (text : List Char) : Decidable (SpacesOnly text) :=
  inferInstanceAs (Decidable (∀ c ∈ text, isBlank c = true → c = ' '))

def isColor (property : String) : Bool := property == "fill" || property == "stroke"

/-- Nothing of the declaration splits its utility. -/
def Tidy (property : String) (value : List Char) : Prop :=
  if isColor property then (rgb (Place.start value)).isSome = true ∨ Unspaced value
  else if property = "font-family" then SpacesOnly (trim (((splitOn ',' value).head?).getD []))
  else Unspaced property.toList ∧ SpacesOnly value

instance (text : List Char) : Decidable (Unspaced text) :=
  inferInstanceAs (Decidable (∀ c ∈ text, isBlank c = false))

instance (property : String) (value : List Char) : Decidable (Tidy property value) := by
  unfold Tidy
  infer_instance

/-! ### White space in a utility -/

section

variable {text left right : List Char}

theorem unspaced_append : Unspaced (left ++ right) ↔ Unspaced left ∧ Unspaced right :=
  List.forall_mem_append

theorem unspaced_bracketed {stem : String} (solid : Unspaced stem.toList) (inner : List Char) :
    Unspaced (bracketed stem inner) ↔ Unspaced inner := by
  have opening : isBlank '[' = false := by decide
  have closing : Unspaced [']'] := List.forall_mem_singleton.2 (by decide)
  rw [bracketed, unspaced_append, unspaced_append, and_iff_left closing, and_iff_right solid]
  exact List.forall_mem_cons.trans (and_iff_right opening)

theorem unspaced_compact : Unspaced (compact text) ↔ SpacesOnly text := by
  have underscore : isBlank '_' = false := by decide
  rw [Unspaced, compact, List.forall_mem_map]
  refine forall₂_congr fun c _ => ?_
  by_cases space : c = ' '
  · simp [space, underscore]
  · simp [space]

theorem hexAux_unspaced (fuel n : Nat) {done : List Char} (solid : Unspaced done) :
    Unspaced (hexAux fuel n done) := by
  induction fuel generalizing n done with
  | zero => exact solid
  | succ fuel ih =>
    have digit : ∀ m < 16, isBlank (Quoted.hexDigit m) = false := by decide
    rw [hexAux]
    split
    · exact solid
    · exact ih _ (List.forall_mem_cons.2 ⟨digit _ (Nat.mod_lt n (by decide)), solid⟩)

theorem hexByte_unspaced (n : Int) : Unspaced (hexByte n) := by
  have digits := hexAux_unspaced (Nat.log2 n.natAbs + 1) n.natAbs (List.forall_mem_nil _)
  have zeros : ∀ k, Unspaced (List.replicate k '0') := by
    intro k c mem
    rw [List.eq_of_mem_replicate mem]
    decide
  unfold hexByte
  split
  · exact unspaced_append.2 ⟨List.forall_mem_cons.2 ⟨by decide, zeros _⟩, digits⟩
  · exact unspaced_append.2 ⟨zeros _, digits⟩

/-- A colour by its components comes to be without white space; another stays. -/
theorem unspaced_hexOf {hex : List Char} (written : hexOf text = .ok hex) :
    Unspaced hex ↔ (rgb (Place.start text)).isSome = true ∨ Unspaced text := by
  unfold hexOf at written
  split at written
  · next r g b q reads =>
    obtain ⟨red, -, written⟩ := bind_eq_ok.1 written
    obtain ⟨green, -, written⟩ := bind_eq_ok.1 written
    obtain ⟨blue, -, written⟩ := bind_eq_ok.1 written
    obtain rfl := Except.ok.inj written
    have bytes := unspaced_append.2 ⟨unspaced_append.2
      ⟨hexByte_unspaced red, hexByte_unspaced green⟩, hexByte_unspaced blue⟩
    have whole : Unspaced (hexOfRgb red green blue) := List.forall_mem_cons.2 ⟨by decide, bytes⟩
    exact iff_of_true whole (.inl (by rw [reads]; rfl))
  · next none =>
    obtain rfl := Except.ok.inj written
    simp [none]

theorem ofInt_unspaced (n : Int) : Unspaced (Decimal.ofInt n) := by
  intro c mem
  obtain rfl | digit := Decimal.mem_ofInt mem
  · decide
  · exact not_blank_of_isWord (isWord_of_alphanumeric (by simp [isAsciiAlphanumeric, digit]))

theorem weightClass_unspaced (n : Int) : Unspaced (weightClass n) := by
  have names : ∀ p ∈ fontWeights, Unspaced p.2.toList := by decide
  refine unspaced_append.2 ⟨by decide, ?_⟩
  split
  · next name found => exact names _ (OrderedMap.mem_of_lookup found)
  · exact (unspaced_bracketed (by decide) _).2 (ofInt_unspaced n)

theorem numeral_unspaced (trimmed : Trimmed text) (numeral : Attribute.isNumeral text = true) :
    Unspaced text := by
  obtain ⟨signs, digits, fraction, last, parts⟩ := Attribute.numeral_of_isNumeral numeral
  -- A numeral may have a line break behind it, but not where it is trimmed.
  have ended : last = [] := by
    obtain none | rfl := parts.last
    · exact none
    · have blank := trimmed.last '\n' (by simp [parts.written])
      exact absurd blank (by decide)
  have decimals : ∀ {ds : List Char}, (∀ c ∈ ds, isDecimal c = true) → Unspaced ds :=
    fun each c mem => not_blank_of_isDecimal (each c mem)
  rw [parts.written, ended, List.append_nil, unspaced_append, unspaced_append]
  refine ⟨⟨?_, decimals parts.decimals⟩, ?_⟩
  · obtain rfl | rfl := parts.minus
    · exact List.forall_mem_nil _
    · exact List.forall_mem_singleton.2 (by decide)
  · obtain rfl | ⟨places, rfl, each⟩ := parts.point
    · exact List.forall_mem_nil _
    · exact List.forall_mem_cons.2 ⟨by decide, decimals each⟩

/-- Quotes are no white space. -/
theorem spacesOnly_unquoted (text : List Char) :
    SpacesOnly (trimBy (fun c => c == '\'' || c == '"') text) ↔ SpacesOnly text := by
  constructor
  · intro only c mem blank
    refine only c (mem_trimBy mem ?_) blank
    rw [Bool.eq_false_iff, Ne, Bool.or_eq_true, beq_iff_eq, beq_iff_eq]
    rintro (rfl | rfl)
    · exact absurd blank (by decide)
    · exact absurd blank (by decide)
  · exact fun only c mem => only c ((infix_trimBy _ _).subset mem)

end

/-! ### Utilities -/

/-- The number that the value is, if it is written as one. -/
def number? (value : List Char) : Option Binary64 :=
  if Attribute.isNumeral value then Number.readReal? value else none

/-- What the utility of a declaration is made of. -/
inductive Form (property : String) (value : List Char) : Except Fault (List Char) → Prop where
  | color {stem : String} (color : isColor property = true) (stem_solid : Unspaced stem.toList) :
    Form property value (bracketed stem <$> hexOf value)
  | family (family : property = "font-family") :
    Form property value (.ok (bracketed "font-" ('\'' :: firstFamily value ++ ['\''])))
  /-- The value under a stem, or behind the name of its property. -/
  | written {stem : String} {lead : List Char} (color : isColor property = false)
    (family : property ≠ "font-family") (stem_solid : Unspaced stem.toList)
    (lead_solid : Unspaced lead ↔ Unspaced property.toList)
    (wordy : ∀ x, number? value = some x → property ≠ "opacity" ∧ property ≠ "font-weight") :
    Form property value (.ok (bracketed stem (lead ++ compact value)))
  | keyword {word : List Char} (word_solid : Unspaced word) (some_word : word ≠ [])
    (tidy : Unspaced property.toList ∧ SpacesOnly value)
    (known : property = "display" ∨ property = "max-width") : Form property value (.ok word)
  | opacity {x : Binary64} (opacity : property = "opacity") (number : number? value = some x) :
    Form property value ((fun n => "opacity-".toList ++ Decimal.ofInt n) <$>
      Number.wholeBy Binary64.round? (x.mul (.ofInt 100)))
  | weight {x : Binary64} (weight : property = "font-weight") (number : number? value = some x) :
    Form property value (weightClass <$> Number.wholeBy Binary64.truncate? x)

section

variable {property : String} {value cs : List Char}

/-- The value under a stem of its own. -/
theorem Form.stem {stem : String} {lead : List Char} (color : isColor property = false)
    (family : property ≠ "font-family") (stem_solid : Unspaced stem.toList)
    (solid : Unspaced lead ∧ Unspaced property.toList)
    (wordy : property ≠ "opacity" ∧ property ≠ "font-weight") :
    Form property value (.ok (bracketed stem (lead ++ compact value))) :=
  .written color family stem_solid (iff_of_true solid.1 solid.2) fun _ _ => wordy

/-- The value behind the name of its property. -/
theorem Form.named (color : isColor property = false) (family : property ≠ "font-family")
    (wordy : ∀ x, number? value = some x → property ≠ "opacity" ∧ property ≠ "font-weight") :
    Form property value (.ok (bracketed "" (property.toList ++ ':' :: compact value))) := by
  have colon : Unspaced [':'] := by decide
  have lead : Unspaced (property.toList ++ [':']) ↔ Unspaced property.toList := by
    rw [unspaced_append, and_iff_left colon]
  have whole : property.toList ++ ':' :: compact value = (property.toList ++ [':']) ++ compact value := by
    simp
  rw [whole]
  exact .written color family (List.forall_mem_nil _) lead wordy

theorem utility_form (property : String) (value : List Char) :
    Form property value (utility property value) := by
  -- Seven properties have a stem of their own; for any other the value decides.
  unfold utility
  split
  · exact .color rfl (by decide)
  · exact .color rfl (by decide)
  · exact .stem rfl (by decide) (by decide) (by decide) (by decide)
  · exact @Form.stem _ _ _ [] rfl (by decide) (by decide) (by decide) (by decide)
  · exact .family rfl
  · exact @Form.stem _ _ _ [] rfl (by decide) (by decide) (by decide) (by decide)
  · exact @Form.stem _ _ _ [] rfl (by decide) (by decide) (by decide) (by decide)
  · next not_fill not_stroke _ _ not_family _ _ =>
    have color : isColor property = false := by
      rw [isColor, beq_eq_false_iff_ne.2 not_fill, beq_eq_false_iff_ne.2 not_stroke]
      rfl
    simp only
    split
    · exact .opacity rfl ‹_›
    · exact .weight rfl ‹_›
    · split
      · next block =>
        rw [eq_of_beq block]
        exact .keyword (by decide) (by decide) (by decide) (.inl rfl)
      · exact .named rfl (by decide) fun _ _ => by decide
    · split
      · next whole =>
        rw [eq_of_beq whole]
        exact .keyword (by decide) (by decide) (by decide) (.inr rfl)
      · exact .named rfl (by decide) fun _ _ => by decide
    · next not_opacity not_weight =>
      exact .named color not_family fun x number =>
        ⟨fun same => not_opacity x same number, fun same => not_weight x same number⟩

theorem numeral_of_number? {x : Binary64} (number : number? value = some x) :
    Attribute.isNumeral value = true := by
  unfold number? at number
  split at number
  · assumption
  · exact nomatch number

theorem tidy_other (color : isColor property = false) (family : property ≠ "font-family") :
    Tidy property value ↔ Unspaced property.toList ∧ SpacesOnly value := by
  rw [Tidy, color, if_neg Bool.false_ne_true, if_neg family]

/-- Nothing splits a number. -/
theorem tidy_number {x : Binary64} (trimmed : Trimmed value) (number : number? value = some x)
    (color : isColor property = false) (family : property ≠ "font-family")
    (name : Unspaced property.toList) : Tidy property value := by
  refine (tidy_other color family).2 ⟨name, fun c mem blank => ?_⟩
  rw [numeral_unspaced trimmed (numeral_of_number? number) c mem] at blank
  exact nomatch blank

theorem unspaced_family : Unspaced (bracketed "font-" ('\'' :: firstFamily value ++ ['\''])) ↔
    Tidy "font-family" value := by
  have opening : isBlank '\'' = false := by decide
  have closing : Unspaced ['\''] := List.forall_mem_singleton.2 opening
  have inner : Unspaced ('\'' :: firstFamily value) ↔ Unspaced (firstFamily value) :=
    List.forall_mem_cons.trans (and_iff_right opening)
  rw [unspaced_bracketed (by decide), unspaced_append, and_iff_left closing, inner, firstFamily,
    unspaced_compact, spacesOnly_unquoted]
  rfl

/-- The utility of a declaration is one class where nothing of the declaration splits it. -/
theorem unspaced_utility (trimmed : Trimmed value) (written : utility property value = .ok cs) :
    Unspaced cs ↔ Tidy property value := by
  have form := utility_form property value
  rw [written] at form
  generalize same : Except.ok cs = result at form
  cases form with
  | color color stem_solid =>
    obtain ⟨hex, hexed, rfl⟩ := map_eq_ok.1 same.symm
    rw [unspaced_bracketed stem_solid, unspaced_hexOf hexed, Tidy, color]
    rfl
  | family family =>
    obtain rfl := Except.ok.inj same
    rw [family]
    exact unspaced_family
  | written color family stem_solid lead_solid =>
    obtain rfl := Except.ok.inj same
    rw [unspaced_bracketed stem_solid, unspaced_append, unspaced_compact, lead_solid, tidy_other color family]
  | keyword word_solid _ tidy known =>
    obtain rfl := Except.ok.inj same
    refine iff_of_true word_solid ?_
    obtain rfl | rfl := known
    · exact (tidy_other rfl (by decide)).2 tidy
    · exact (tidy_other rfl (by decide)).2 tidy
  | opacity opacity number =>
    obtain ⟨percent, -, rfl⟩ := map_eq_ok.1 same.symm
    subst opacity
    exact iff_of_true (unspaced_append.2 ⟨by decide, ofInt_unspaced percent⟩)
      (tidy_number trimmed number rfl (by decide) (by decide))
  | weight weight number =>
    obtain ⟨weight', -, rfl⟩ := map_eq_ok.1 same.symm
    subst weight
    exact iff_of_true (weightClass_unspaced weight') (tidy_number trimmed number rfl (by decide) (by decide))

theorem bracketed_ne_nil (stem : String) (inner : List Char) : bracketed stem inner ≠ [] := by
  simp [bracketed]

theorem utility_ne_nil (written : utility property value = .ok cs) : cs ≠ [] := by
  have form := utility_form property value
  rw [written] at form
  generalize same : Except.ok cs = result at form
  cases form with
  | color =>
    obtain ⟨hex, -, rfl⟩ := map_eq_ok.1 same.symm
    exact bracketed_ne_nil _ hex
  | family =>
    obtain rfl := Except.ok.inj same
    exact bracketed_ne_nil _ _
  | written =>
    obtain rfl := Except.ok.inj same
    exact bracketed_ne_nil _ _
  | keyword _ some_word =>
    obtain rfl := Except.ok.inj same
    exact some_word
  | opacity =>
    obtain ⟨percent, -, rfl⟩ := map_eq_ok.1 same.symm
    simp
  | weight =>
    obtain ⟨weight, -, rfl⟩ := map_eq_ok.1 same.symm
    simp [weightClass]

/-! ### Which declarations have one -/

/-- The double is a number, and not without end. -/
def IsFinite (x : Binary64) : Prop := ∃ neg m e, x = .finite neg m e

/-- The numbers of the declaration are of a size that is calculated with. -/
def Measured (property : String) (value : List Char) : Prop :=
  if isColor property then ∀ r g b q, rgb (Place.start value) = some ((r, g, b), q) →
    r.length ≤ mostDigits ∧ g.length ≤ mostDigits ∧ b.length ≤ mostDigits
  else ∀ x, number? value = some x →
    (property = "opacity" → IsFinite (x.mul (.ofInt 100))) ∧ (property = "font-weight" → IsFinite x)

theorem reads_intensity (digits : List Char) : Reads (intensity digits) (digits.length ≤ mostDigits) := by
  have steps := (reads_checkDigits digits.length).bind fun _ => reads_ok
    (digits.foldl (fun (n : Int) c => n * 10 + ((decimalValue? c).getD 0 : Nat)) 0)
  exact steps.congr (and_iff_left trivial)

theorem hexOf_ok_iff : (∃ hex, hexOf value = .ok hex) ↔
    ∀ r g b q, rgb (Place.start value) = some ((r, g, b), q) →
      r.length ≤ mostDigits ∧ g.length ≤ mostDigits ∧ b.length ≤ mostDigits := by
  unfold hexOf
  split
  · next r g b q reads =>
    have steps := (reads_intensity r).bind fun red => (reads_intensity g).bind fun green =>
      (reads_intensity b).map (hexOfRgb red green)
    refine steps.ok_iff.trans ⟨fun small r' g' b' q' reads' => ?_, fun each => each r g b q reads⟩
    rw [reads] at reads'
    cases reads'
    exact small
  · next unread => simp [unread]

theorem wholeBy_ok_iff {whole? : Binary64 → Option Int} {x : Binary64}
    (whole : (∃ n, whole? x = some n) ↔ IsFinite x) :
    (∃ n, Number.wholeBy whole? x = .ok n) ↔ IsFinite x := by
  rw [← whole, Number.wholeBy]
  cases whole? x <;> simp

theorem round?_iff {x : Binary64} : (∃ n, x.round? = some n) ↔ IsFinite x := by
  cases x <;> simp [Binary64.round?, IsFinite]

theorem truncate?_iff {x : Binary64} : (∃ n, x.truncate? = some n) ↔ IsFinite x := by
  cases x <;> simp [Binary64.truncate?, IsFinite]

/-- Where there is no number in question there is none too large. -/
theorem measured_wordy (color : isColor property = false)
    (wordy : ∀ x, number? value = some x → property ≠ "opacity" ∧ property ≠ "font-weight") :
    Measured property value := by
  rw [Measured, color, if_neg Bool.false_ne_true]
  exact fun x number => ⟨fun same => absurd same (wordy x number).1, fun same => absurd same (wordy x number).2⟩

/-- There is a utility where the numbers of a declaration are calculated with. -/
theorem utility_ok_iff : (∃ cs, utility property value = .ok cs) ↔ Measured property value := by
  have mapped : ∀ {α : Type} {x : Except Fault α} {f : α → List Char},
      (∃ cs, f <$> x = .ok cs) ↔ ∃ a, x = .ok a := by
    intro α x f
    cases x with
    | error fault => exact ⟨nofun, nofun⟩
    | ok a => exact ⟨fun _ => ⟨a, rfl⟩, fun _ => ⟨f a, rfl⟩⟩
  have form := utility_form property value
  generalize utility property value = result at form
  cases form with
  | color color => rw [mapped, hexOf_ok_iff, Measured, if_pos color]
  | family family =>
    subst family
    exact iff_of_true ⟨_, rfl⟩ (measured_wordy rfl fun _ _ => by decide)
  | written color _ _ _ wordy => exact iff_of_true ⟨_, rfl⟩ (measured_wordy color wordy)
  | keyword _ _ _ known =>
    refine iff_of_true ⟨_, rfl⟩ ?_
    obtain rfl | rfl := known
    · exact measured_wordy rfl fun _ _ => by decide
    · exact measured_wordy rfl fun _ _ => by decide
  | opacity opacity number =>
    subst opacity
    rw [mapped, wholeBy_ok_iff round?_iff, Measured, if_neg (by decide)]
    constructor
    · intro finite x' number'
      obtain rfl := Option.some.inj (number.symm.trans number')
      exact ⟨fun _ => finite, fun other => absurd other (by decide)⟩
    · exact fun each => (each _ number).1 rfl
  | weight weight number =>
    subst weight
    rw [mapped, wholeBy_ok_iff truncate?_iff, Measured, if_neg (by decide)]
    constructor
    · intro finite x' number'
      obtain rfl := Option.some.inj (number.symm.trans number')
      exact ⟨fun other => absurd other (by decide), fun _ => finite⟩
    · exact fun each => (each _ number).2 rfl

end

/-! ### Classes in a row -/

theorem words_intercalate (names : List (List Char)) :
    words ([' '].intercalate names) = names.flatMap words := by
  induction names with
  | nil => rfl
  | cons name rest ih =>
    cases rest with
    | nil => simp
    | cons next rest =>
      rw [List.intercalate_cons_cons, List.append_assoc, List.singleton_append,
        words_append_blank isBlank_space, ih]
      rfl

theorem unspaced_of_mem_words {text word : List Char} (mem : word ∈ words text) : Unspaced word :=
  of_mem_wordsAux (List.forall_mem_nil _) (List.forall_mem_nil _) word mem

/-- Names that are not empty are the words of their row if none of them has white space in it. -/
theorem flatMap_words_iff {names : List (List Char)} (some_names : ∀ name ∈ names, name ≠ []) :
    names.flatMap words = names ↔ ∀ name ∈ names, Unspaced name := by
  constructor
  · intro same name mem
    rw [← same] at mem
    obtain ⟨text, -, mem⟩ := List.mem_flatMap.1 mem
    exact unspaced_of_mem_words mem
  · intro solid
    induction names with
    | nil => rfl
    | cons name rest ih =>
      obtain ⟨first, others⟩ := List.forall_mem_cons.1 solid
      obtain ⟨some_name, some_rest⟩ := List.forall_mem_cons.1 some_names
      rw [List.flatMap_cons, words_solid some_name first, ih some_rest others]
      rfl

/-- The words of a class attribute are those that were there and those of the classes. -/
theorem words_addClasses (attributes : OrderedMap Json) (classes : List String) : ∃ text,
    (Sheet.addClasses attributes classes).get? "className" = some (.str text) ∧
      words text.toList = words (classesBefore attributes) ++ (classes.map String.toList).flatMap words := by
  have joined : ∀ names : List String, words (" ".intercalate names).toList =
      (names.map String.toList).flatMap words := by
    intro names
    rw [String.toList_intercalate]
    exact words_intercalate _
  have ended : ∀ v : Json, words (v.spelled ++ [' ']) = words v.spelled := fun v =>
    (words_append_blank isBlank_space v.spelled []).trans (List.append_nil _)
  refine ⟨_, OrderedMap.get?_insert_self, ?_⟩
  rw [joined, List.map_append, List.flatMap_append]
  congr 1
  cases held : attributes.get? "className" with
  | none =>
    simp only [classesBefore, held]
    rfl
  | some v =>
    by_cases truthy : v.isTruthy = true
    · simp [classesBefore, held, truthy, ended, Json.spelledText]
    · simp only [classesBefore, held, truthy]
      rfl

/-! ### What is declared of an element -/

/-- A value that is not empty has nothing to trim. -/
theorem trimmed_value {p : String} {v : Json} (some_value : value p v ≠ "") :
    Trimmed (value p v).toList := by
  have some_chars : valueChars p v ≠ [] := fun none => some_value (by rw [value, none])
  rw [value, String.toList_ofList]
  unfold valueChars at some_chars ⊢
  simp only at some_chars ⊢
  -- With a unit behind it, the value begins as before and ends with the unit.
  split
  · constructor
    · simp
    · intro c first
      rw [List.head?_append] at first
      cases text : trim v.spelled with
      | nil =>
        rw [text] at first
        obtain rfl : 'p' = c := by simpa using first
        decide
      | cons d more =>
        have some_text : trim v.spelled ≠ [] := by simp [text]
        refine (trimmed_trim some_text).first c ?_
        rw [text] at first ⊢
        exact first
    · intro c last
      rw [List.getLast?_append] at last
      obtain rfl : 'x' = c := by simpa using last
      decide
  · next plain =>
    rw [if_neg plain] at some_chars
    exact trimmed_trim some_chars

theorem trimmed_declared {isRoot : Bool} {attributes : OrderedMap Json} {p v : String}
    (declared : declared? isRoot attributes p = some v) (some_value : v ≠ "") : Trimmed v.toList := by
  rw [declared?, Option.or_eq_some_iff, Option.or_eq_some_iff] at declared
  obtain style | ⟨-, own | ⟨-, root⟩⟩ := declared
  · obtain ⟨m, -, rfl⟩ := Option.map_eq_some_iff.1 style
    exact trimmed_value some_value
  · obtain ⟨e, -, given⟩ := Option.bind_eq_some_iff.1 own
    obtain ⟨json, -, rfl⟩ := Option.map_eq_some_iff.1 given
    exact trimmed_value some_value
  · have texts : ∀ e ∈ [("display", "block"), ("max-width", "100%")], Text.trim e.2.toList = e.2.toList := by
      decide +kernel
    unfold ofRoot? at root
    split at root
    · refine trimmed_of_trim (fun none => some_value (String.toList_inj.1 none)) ?_
      exact texts _ (OrderedMap.mem_of_lookup root)
    · cases root

/-- The utilities of an element, each for one of its declarations. -/
structure Utilities (isRoot : Bool) (d : Data) (classes : List String) : Prop where
  each : List.Forall₂ (fun e name => utility e.1 e.2.toList = .ok name.toList ∧ name ≠ "")
    (Sheet.declarationsOf isRoot d.attributes).entries classes
  solid : (∀ name ∈ classes, Unspaced name.toList) ↔
    ∀ e ∈ (Sheet.declarationsOf isRoot d.attributes).entries, Tidy e.1 e.2.toList
  /-- The words of the class attribute that is written are the classes before and these. -/
  splits : ∀ {s s' : Sheet} {d' : Data}, s.styling = .tailwind →
    (Sheet.declarationsOf isRoot d.attributes).entries ≠ [] →
    (Sheet.styleElement isRoot d).run s = .ok (d', s') →
    ∃ text, d'.attributes.get? "className" = some (.str text) ∧
      (words text.toList = words (classesBefore d.attributes) ++ classes.map String.toList ↔
        ∀ e ∈ (Sheet.declarationsOf isRoot d.attributes).entries, Tidy e.1 e.2.toList)

/-- What holds of each of a row and of each of another at the same time holds of all at the same
time. -/
theorem each_iff {α β : Type} {R : α → β → Prop} {P : α → Prop} {Q : β → Prop} {as : List α}
    {bs : List β} (each : List.Forall₂ R as bs) (same : ∀ a ∈ as, ∀ b, R a b → (Q b ↔ P a)) :
    (∀ b ∈ bs, Q b) ↔ ∀ a ∈ as, P a := by
  induction each with
  | nil => exact iff_of_true (List.forall_mem_nil _) (List.forall_mem_nil _)
  | cons first _ ih =>
    obtain ⟨here, others⟩ := List.forall_mem_cons.1 same
    rw [List.forall_mem_cons, List.forall_mem_cons, here _ first, ih others]

/-- Each declaration of an element has a utility if the numbers in it can be calculated with. The
utilities are classes of their own if each declaration is tidy, and else the class attribute falls
into other words. -/
theorem utilities_tidy {isRoot : Bool} {d : Data}
    (filled : ∀ e ∈ (Sheet.declarationsOf isRoot d.attributes).entries, e.2 ≠ "") :
    ((∃ classes, utilities (Sheet.declarationsOf isRoot d.attributes) = .ok classes) ↔
      ∀ e ∈ (Sheet.declarationsOf isRoot d.attributes).entries, Measured e.1 e.2.toList) ∧
    ∀ classes, utilities (Sheet.declarationsOf isRoot d.attributes) = .ok classes →
      Utilities isRoot d classes := by
  have trimmed : ∀ e ∈ (Sheet.declarationsOf isRoot d.attributes).entries, Trimmed e.2.toList := by
    intro e mem
    have held := OrderedMap.get?_of_mem mem
    rw [get?_declarationsOf] at held
    exact trimmed_declared held (filled e mem)
  have named : ∀ {e : String × String} {name : String},
      String.ofList <$> utility e.1 e.2.toList = .ok name ↔ utility e.1 e.2.toList = .ok name.toList := by
    intro e name
    refine map_eq_ok.trans ⟨?_, fun written => ⟨_, written, String.ofList_toList⟩⟩
    rintro ⟨cs, written, rfl⟩
    rwa [String.toList_ofList]
  constructor
  · refine mapM_ok_iff.trans (forall₂_congr fun e _ => Iff.trans ?_ utility_ok_iff)
    exact ⟨fun ⟨name, written⟩ => ⟨_, named.1 written⟩,
      fun ⟨cs, written⟩ => ⟨String.ofList cs, named.2 (by rwa [String.toList_ofList])⟩⟩
  · intro classes given
    have each := (mapM_eq_ok.1 given).imp fun _ _ written => named.1 written
    -- No utility is empty, so the words of the row are the utilities, unless one of them has a blank.
    have some_names : ∀ name ∈ classes.map String.toList, name ≠ [] := by
      rw [List.forall_mem_map]
      refine (each_iff each fun e _ name written => ?_).2 fun _ _ => trivial
      exact iff_of_true (utility_ne_nil written) trivial
    have solid := each_iff each fun e mem name written => unspaced_utility (trimmed e mem) written
    refine ⟨?_, solid, ?_⟩
    · exact each.imp fun e name written =>
        ⟨written, fun none => utility_ne_nil written (by rw [none]; rfl)⟩
    · -- A class attribute is written only where something is declared.
      intro s s' d' tailwind some_entries runs
      have some : ∃ p, declared? isRoot d.attributes p ≠ none := by
        obtain ⟨e, rest, entries⟩ := List.exists_cons_of_ne_nil some_entries
        have held := OrderedMap.get?_of_mem (entries ▸ List.mem_cons_self : (e.1, e.2) ∈ _)
        rw [get?_declarationsOf] at held
        exact ⟨e.1, by simp [held]⟩
      rw [styleElement_run some] at runs
      split at runs
      · exact nomatch runs
      · rw [tailwind] at runs
        obtain ⟨classes', given', same⟩ := map_eq_ok.1 runs
        obtain rfl := Except.ok.inj (given.symm.trans given')
        obtain ⟨rfl, -⟩ := Prod.mk.inj same
        obtain ⟨text, held, split⟩ := words_addClasses (Sheet.withoutStyling d.attributes) classes
        refine ⟨text, held, ?_⟩
        rw [split, classesBefore_withoutStyling, List.append_cancel_left_eq, flatMap_words_iff some_names,
          List.forall_mem_map, solid]

/-- An element with classes, a colour by its components, spaces in values, and a number. -/
def lettering : Data where
  tag := "text"
  attributes := .ofList [
    ("fill", .str "rgb(1, 2, 3)"), ("strokeDasharray", .str "4 2"), ("opacity", .str "0.5"),
    ("className", .str "wide\ttall "), ("style", .obj [("fontFamily", .str "'Open Sans', serif")])]

theorem utilities_tidy_lettering :
    (∀ e ∈ (Sheet.declarationsOf false lettering.attributes).entries, e.2 ≠ "") ∧
    (∀ e ∈ (Sheet.declarationsOf false lettering.attributes).entries, Tidy e.1 e.2.toList) ∧
    utilities (Sheet.declarationsOf false lettering.attributes) =
      .ok ["fill-[#010203]", "[stroke-dasharray:4_2]", "opacity-50", "font-['Open_Sans']"] ∧
    Utilities false lettering ["fill-[#010203]", "[stroke-dasharray:4_2]", "opacity-50", "font-['Open_Sans']"] := by
  have filled : ∀ e ∈ (Sheet.declarationsOf false lettering.attributes).entries, e.2 ≠ "" := by
    decide +kernel
  have given : utilities (Sheet.declarationsOf false lettering.attributes) =
      .ok ["fill-[#010203]", "[stroke-dasharray:4_2]", "opacity-50", "font-['Open_Sans']"] := by
    rfl
  exact ⟨filled, by decide +kernel, given, (utilities_tidy filled).2 _ given⟩

/-- A colour with spaces that is not given by its components. -/
def tinted : Data := { tag := "rect", attributes := .ofList [("fill", .str "hsl(1, 2%, 3%)")] }

/-- The spaces of a colour stay, so its utility falls into words. -/
theorem utilities_untidy :
    utilities (Sheet.declarationsOf false tinted.attributes) = .ok ["fill-[hsl(1, 2%, 3%)]"] ∧
    words "fill-[hsl(1, 2%, 3%)]".toList =
      ["fill-[hsl(1,".toList, "2%,".toList, "3%)]".toList] :=
  ⟨rfl, by decide +kernel⟩

end DesignComponents.Style
