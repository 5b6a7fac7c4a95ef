import DesignComponents.Proofs.Markup.Repetition
import DesignComponents.Proofs.Number.Reading

/-! What shortening makes of a document: of a row of attributes each of the three passes leaves a
shorter one, and nothing else is touched. The first pass knows a repetition by the end of the name
before it; it can take an attribute with a name of its own for one. -/

set_option autoImplicit false

namespace DesignComponents.Markup

open Text Reader

/-! ### What the passes make of attributes -/

/-- Digits, a point and at least three digits. -/
def isLongDecimal (value : List Char) : Bool :=
  !(value.takeWhile isDecimal).isEmpty &&
    match value.dropWhile isDecimal with
    | '.' :: places => decide (3 ≤ places.length) && places.all isDecimal
    | _ => false

def Attr.rounded (a : Attr) : Attr :=
  if isLongDecimal a.value then { a with value := roundedText a.value } else a

/-- Whether an attribute goes for want of a value: other names stay without one. -/
def Attr.idle (a : Attr) : Bool := a.value.isEmpty && a.name.all isPlainName

theorem Attr.rounded_short {a : Attr} (short : isLongDecimal a.value = false) : a.rounded = a := by
  simp [Attr.rounded, short]

theorem Attr.rounded_long {a : Attr} (long : isLongDecimal a.value = true) :
    a.rounded = { a with value := roundedText a.value } := by
  simp [Attr.rounded, long]

theorem Attr.idle_eq_true {a : Attr} (idle : a.idle = true) :
    a.value = [] ∧ ∀ c ∈ a.name, isPlainName c = true := by
  simpa [Attr.idle] using idle

def shortened (attrs : List Attr) : List Attr :=
  ((squeeze (fun _ => false) attrs).map Attr.rounded).filter fun a => !a.idle

/-- A pass that looks at one attribute at a time. -/
theorem substitute_each {r : Reader (List Char)} {change : Attr → List Char}
    (each : ∀ {a text}, a.Proper → Stops text →
      substitute r (a.write ++ text) = change a ++ substitute r text)
    {attrs : List Attr} {text : List Char} (proper : ∀ a ∈ attrs, a.Proper) (stops : Stops text) :
    substitute r (attrs.flatMap Attr.write ++ text) = attrs.flatMap change ++ substitute r text := by
  induction attrs with
  | nil => rfl
  | cons a rest ih =>
    have others : ∀ b ∈ rest, b.Proper := fun b mem => proper b (List.mem_cons_of_mem a mem)
    rw [List.flatMap_cons, List.append_assoc, each (proper a List.mem_cons_self) (stops_attrs others stops),
      ih others, List.flatMap_cons, List.append_assoc]

/-! ### Long decimals -/

theorem isLongDecimal_iff {value : List Char} : isLongDecimal value = true ↔
    ∃ whole places : List Char, whole ≠ [] ∧ (∀ c ∈ whole, isDecimal c = true) ∧ 3 ≤ places.length ∧
      (∀ c ∈ places, isDecimal c = true) ∧ value = whole ++ '.' :: places := by
  simp only [isLongDecimal, Bool.and_eq_true, Bool.not_eq_true', List.isEmpty_eq_false_iff]
  constructor
  · rintro ⟨some_whole, behind⟩
    split at behind
    · next places rest =>
      simp only [Bool.and_eq_true, decide_eq_true_eq, List.all_eq_true] at behind
      refine ⟨_, places, some_whole, fun c mem => List.mem_takeWhile_imp mem, behind.1, behind.2, ?_⟩
      rw [← rest, List.takeWhile_append_dropWhile]
    · exact nomatch behind
  · rintro ⟨whole, places, some_whole, digits, enough, more, rfl⟩
    have point : isDecimal '.' = false := by decide
    rw [List.takeWhile_append_of_pos digits, List.dropWhile_append_of_pos digits]
    simp [some_whole, point, enough, List.all_eq_true.2 more]

/-- A long decimal up to a quote. -/
def StartsLong (text : List Char) : Prop :=
  ∃ value rest, isLongDecimal value = true ∧ text = value ++ '"' :: rest

theorem longDecimal_shape {p q : Place} {v : List Char} (reads : longDecimal p = some (v, q)) :
    ∃ back, p.rest = ['='] ++ '"' :: back ∧ StartsLong back := by
  obtain ⟨taken, -, ⟨whole, places, some_whole, digits, enough, more, rfl, -⟩, reached⟩ :=
    (longDecimal_exact p v q).1 reads
  refine ⟨whole ++ '.' :: places ++ '"' :: q.rest, by simpa using reached.rest, _, _, ?_, rfl⟩
  exact isLongDecimal_iff.2 ⟨whole, places, some_whole, digits, enough, more, rfl⟩

theorem longDecimal_read {value : List Char} (long : isLongDecimal value = true) (text : List Char) :
    longDecimal ⟨none, '=' :: '"' :: (value ++ '"' :: text)⟩ =
      some ("=\"".toList ++ roundedText value ++ ['"'], ⟨some '"', text⟩) := by
  obtain ⟨whole, places, some_whole, digits, enough, more, rfl⟩ := isLongDecimal_iff.1 long
  refine (longDecimal_exact _ _ _).2 ⟨"=\"".toList ++ whole ++ '.' :: places ++ ['"'], by simp,
    ⟨whole, places, some_whole, digits, enough, more, rfl, rfl⟩, by simp, ?_⟩
  rw [List.getLast?_append]
  rfl

theorem begins_of_longDecimal {p q : Place} {v : List Char} (reads : longDecimal p = some (v, q)) :
    Begins p.rest := by
  obtain ⟨back, written, -⟩ := longDecimal_shape reads
  exact ⟨[], [], back, by simp, by simp, by simpa using written⟩

/-- A character of a long decimal is a digit or a point. -/
theorem mem_longDecimal {value : List Char} {c : Char} (long : isLongDecimal value = true)
    (mem : c ∈ value) : isDecimal c = true ∨ c = '.' := by
  obtain ⟨whole, places, -, digits, -, more, rfl⟩ := isLongDecimal_iff.1 long
  simp only [List.mem_append, List.mem_cons] at mem
  obtain mem | rfl | mem := mem
  · exact .inl (digits c mem)
  · exact .inr rfl
  · exact .inl (more c mem)

theorem startsLong_value {value text : List Char} (plain : '"' ∉ value)
    (starts : StartsLong (value ++ '"' :: text)) : isLongDecimal value = true := by
  obtain ⟨value', rest, long, same⟩ := starts
  have no_quote : '"' ∉ value' := fun mem => absurd (mem_longDecimal long mem) (by decide)
  rwa [(split_unique plain no_quote same).1]

theorem Stops.not_startsLong {text : List Char} (stops : Stops text) : ¬StartsLong text := by
  rintro ⟨value, rest, long, rfl⟩
  obtain ⟨whole, places, some_whole, digits, -, -, rfl⟩ := isLongDecimal_iff.1 long
  obtain ⟨c, more, rfl⟩ := List.exists_cons_of_ne_nil some_whole
  have digit := digits c List.mem_cons_self
  obtain blank | rfl | rfl := stops c rfl
  · rw [not_blank_of_isDecimal digit] at blank
    exact nomatch blank
  · exact absurd digit (by decide)
  · exact absurd digit (by decide)

theorem substitute_longDecimal {a : Attr} {text : List Char} (proper : a.Proper) (stops : Stops text) :
    substitute longDecimal (a.write ++ text) = a.rounded.write ++ substitute longDecimal text := by
  have takes := longDecimal_exact.takes
  cases long : isLongDecimal a.value with
  | true =>
    have apart : a.write ++ text = (a.lead ++ a.name) ++ '=' :: '"' :: (a.value ++ '"' :: text) := by
      simp [Attr.write]
    -- Nothing is read before the equals sign, and there the decimal is.
    have skips : Skips longDecimal (a.lead ++ a.name) ('=' :: '"' :: (a.value ++ '"' :: text)) := by
      refine @skips_of_shape _ (fun t => ∃ rest, t = '=' :: rest) _ _ (fun reads => ?_) ?_
      · obtain ⟨back, written, -⟩ := longDecimal_shape reads
        exact ⟨_, written⟩
      · rintro passed ahead same some_ahead ⟨rest, written⟩
        obtain ⟨c, more, rfl⟩ := List.exists_cons_of_ne_nil some_ahead
        obtain rfl := (List.cons.inj written).1
        obtain mem | mem := List.mem_append.1 (same ▸ List.mem_append_right passed List.mem_cons_self)
        · exact lacks proper.blank (by decide) mem
        · exact proper.name.no_equals mem
    rw [apart, substitute_skip takes passive_longDecimal skips,
      substitute_read takes passive_longDecimal (longDecimal_read long text)]
    simp [Attr.rounded_long long, Attr.write]
  | false =>
    -- Up to each of its two quotes the attribute is passed over: behind neither a decimal begins.
    have shape : ∀ {p v q}, longDecimal p = some (v, q) →
        ∃ front back, '"' ∉ front ∧ p.rest = front ++ '"' :: back ∧ StartsLong back := by
      intro p v q reads
      obtain ⟨back, written, starts⟩ := longDecimal_shape reads
      exact ⟨['='], back, by decide, written, starts⟩
    have label : Skips longDecimal (a.label ++ ['"']) ((a.value ++ ['"']) ++ text) := by
      refine skips_quote shape proper.no_quote_label fun starts => ?_
      rw [List.append_assoc] at starts
      simp [startsLong_value proper.value starts] at long
    have value := skips_quote shape proper.value stops.not_startsLong
    rw [Attr.rounded_short long, Attr.write_append, substitute_skip takes passive_longDecimal label,
      substitute_skip takes passive_longDecimal value, ← Attr.write_append]

/-! ### Attributes without a value -/

/-- White space, a plain name and the sign of a value that is none. -/
def StartsEmpty (text : List Char) : Prop :=
  ∃ blank name rest : List Char, blank ≠ [] ∧ (∀ c ∈ blank, isBlank c = true) ∧
    (∀ c ∈ name, isPlainName c = true) ∧ text = blank ++ (name ++ '=' :: '"' :: '"' :: rest)

theorem startsEmpty_of_reads {p q : Place} {v : List Char} (reads : emptyAttribute p = some (v, q)) :
    StartsEmpty p.rest := by
  obtain ⟨taken, -, ⟨blank, name, some_blank, blanks, -, names, rfl, -⟩, reached⟩ :=
    (emptyAttribute_exact p v q).1 reads
  exact ⟨blank, name, q.rest, some_blank, blanks, names, by simpa using reached.rest⟩

theorem StartsEmpty.begins {text : List Char} (starts : StartsEmpty text) : Begins text := by
  obtain ⟨blank, name, rest, -, blanks, names, rfl⟩ := starts
  exact ⟨blank, name, '"' :: rest, blanks, names, by simp⟩

/-- Behind its quote stands another. -/
theorem StartsEmpty.quote {text : List Char} (starts : StartsEmpty text) :
    ∃ front back : List Char, '"' ∉ front ∧ text = front ++ '"' :: back ∧ back.head? = some '"' := by
  obtain ⟨blank, name, rest, -, blanks, names, rfl⟩ := starts
  have no_blank : '"' ∉ blank := lacks blanks (by decide)
  have no_name : '"' ∉ name := lacks names (by decide)
  exact ⟨blank ++ name ++ ['='], '"' :: rest, by simp [no_blank, no_name], by simp, rfl⟩

theorem StartsEmpty.head {text : List Char} (starts : StartsEmpty text) :
    ∃ c ∈ text.head?, isBlank c = true := by
  obtain ⟨blank, name, rest, some_blank, blanks, -, rfl⟩ := starts
  obtain ⟨c, more, rfl⟩ := List.exists_cons_of_ne_nil some_blank
  exact ⟨c, rfl, blanks c List.mem_cons_self⟩

/-- Where it starts among the white space of an attribute, the attribute's name is plain. -/
theorem startsEmpty_lead {a : Attr} (proper : a.Proper) {blank back : List Char}
    (blanks : ∀ c ∈ blank, isBlank c = true)
    (starts : StartsEmpty (blank ++ (a.name ++ '=' :: back))) : a.name.all isPlainName = true := by
  obtain ⟨blank', plain, rest, -, blanks', names, same⟩ := starts
  have no_equals : '=' ∉ plain := lacks names (by decide)
  obtain ⟨-, same⟩ := span_unique same blanks (head_label proper.name.not_blank _) blanks'
    (head_label (fun c mem => isBlank_of_inName (names c mem)) _)
  rw [(split_unique proper.name.no_equals no_equals same).1]
  exact List.all_eq_true.2 names

/-- A name with other characters is no name for this pass. -/
theorem skips_name {a : Attr} (proper : a.Proper) (other : a.name.all isPlainName = false)
    (back : List Char) : Skips emptyAttribute (a.label ++ ['"']) back := by
  have solid : ∀ c ∈ a.name ++ ['=', '"'], isBlank c = false :=
    List.forall_mem_append.2 ⟨proper.name.not_blank, by decide⟩
  have named : Skips emptyAttribute (a.name ++ ['=', '"']) back := by
    refine skips_of_shape startsEmpty_of_reads fun passed ahead same some_ahead starts => ?_
    obtain ⟨c, head, blank⟩ := starts.head
    obtain ⟨d, more, rfl⟩ := List.exists_cons_of_ne_nil some_ahead
    obtain rfl : d = c := by simpa using head
    rw [solid d (by simp [same])] at blank
    exact nomatch blank
  have lead : Skips emptyAttribute a.lead ((a.name ++ ['=', '"']) ++ back) := by
    refine skips_of_shape startsEmpty_of_reads fun passed ahead same _ starts => ?_
    rw [List.append_assoc] at starts
    rw [startsEmpty_lead proper (fun c mem => proper.blank c (by simp [same, mem])) starts] at other
    exact nomatch other
  have apart : a.label ++ ['"'] = a.lead ++ (a.name ++ ['=', '"']) := by simp [Attr.label]
  rw [apart]
  exact lead.append named

theorem substitute_emptyAttribute {a : Attr} {text : List Char} (proper : a.Proper)
    (stops : Stops text) : substitute emptyAttribute (a.write ++ text) =
      (if a.idle then [] else a.write) ++ substitute emptyAttribute text := by
  have takes := emptyAttribute_exact.takes
  cases idle : a.idle with
  | true =>
    obtain ⟨empty, plain⟩ := Attr.idle_eq_true idle
    have read : emptyAttribute ⟨none, a.write ++ text⟩ = some ([], ⟨some '"', text⟩) := by
      refine (emptyAttribute_exact _ _ _).2 ⟨a.write, by simp [Attr.write], ⟨a.lead, a.name,
        proper.some_lead, proper.blank, proper.name.1, plain, ?_, rfl⟩, rfl, ?_⟩
      · simp [Attr.write, empty]
      · rw [Attr.write, List.getLast?_concat]
        rfl
    rw [substitute_read takes passive_emptyAttribute read]
    rfl
  | false =>
    -- Behind its first quote stands no other, or its name is one that this pass does not read.
    have shape : ∀ {p v q}, emptyAttribute p = some (v, q) →
        ∃ front back, '"' ∉ front ∧ p.rest = front ++ '"' :: back ∧ back.head? = some '"' :=
      fun reads => (startsEmpty_of_reads reads).quote
    have value : Skips emptyAttribute (a.value ++ ['"']) text := by
      refine @skips_quote _ (fun back => back.head? = some '"') shape _ _ proper.value fun quote => ?_
      exact absurd (stops '"' quote) (by decide)
    have label : Skips emptyAttribute (a.label ++ ['"']) ((a.value ++ ['"']) ++ text) := by
      cases empty : a.value with
      | nil =>
        refine skips_name proper ?_ _
        simpa [Attr.idle, empty] using idle
      | cons c rest =>
        refine @skips_quote _ (fun back => back.head? = some '"') shape _ _ proper.no_quote_label ?_
        intro quote
        obtain rfl : c = '"' := by simpa using quote
        exact proper.value (by simp [empty])
    rw [Attr.write_append, substitute_skip takes passive_emptyAttribute label,
      substitute_skip takes passive_emptyAttribute value, ← Attr.write_append]
    simp

/-! ### Rounded values -/

/-- A decimal stays as it is, or is rounded to what a number is written with. -/
theorem mem_roundedText {decimal : List Char} {c : Char} (mem : c ∈ roundedText decimal) :
    c ∈ decimal ∨ isAsciiAlphanumeric c = true ∨ c = '-' ∨ c = '.' := by
  unfold roundedText at mem
  split at mem
  · exact .inl mem
  · next x _ =>
    simp only at mem
    split at mem
    · obtain rfl := List.mem_singleton.1 mem
      exact .inr (by decide)
    · have within : ∀ {p : Char → Bool} {text : List Char}, c ∈ trimRightBy p text → c ∈ text := by
        intro p text mem
        exact List.mem_reverse.1 ((List.dropWhile_sublist p).subset (List.mem_reverse.1 mem))
      exact .inr (Decimal.mem_fixedText (within (within mem)))

theorem roundedText_ne_nil {decimal : List Char} (some_decimal : decimal ≠ []) :
    roundedText decimal ≠ [] := by
  unfold roundedText
  split
  · exact some_decimal
  · simp only
    split
    · exact List.cons_ne_nil _ _
    · next other => exact other

/-- Rounding adds no sign that markup knows. -/
theorem not_mem_roundedText {decimal : List Char} (long : isLongDecimal decimal = true) {c : Char}
    (sign : c ∈ ['"', '=', '&']) : c ∉ roundedText decimal := by
  have each : ∀ c ∈ ['"', '=', '&'],
      isDecimal c = false ∧ isAsciiAlphanumeric c = false ∧ c ≠ '-' ∧ c ≠ '.' := by
    decide
  obtain ⟨no_decimal, no_letter, no_minus, no_point⟩ := each c sign
  intro mem
  obtain mem | letter | minus | point := mem_roundedText mem
  · obtain digit | point := mem_longDecimal long mem
    · rw [no_decimal] at digit
      exact nomatch digit
    · exact no_point point
  · rw [no_letter] at letter
    exact nomatch letter
  · exact no_minus minus
  · exact no_point point

/-! ### The three passes -/

theorem duplicates_pass : Pass duplicates (squeeze fun _ => false) where
  takes := duplicates_takes
  passive := passive_duplicates
  begins reads := (startsRepeat_of_reads reads).begins
  attrs := substitute_duplicates

theorem longDecimal_pass : Pass longDecimal (List.map Attr.rounded) where
  takes := longDecimal_exact.takes
  passive := passive_longDecimal
  begins := begins_of_longDecimal
  attrs proper _ ends := by
    rw [substitute_each substitute_longDecimal proper ends.stops, List.flatMap_map]

theorem flatMap_filter_idle (attrs : List Attr) :
    attrs.flatMap (fun a => if a.idle then [] else a.write) =
      (attrs.filter fun a => !a.idle).flatMap Attr.write := by
  induction attrs with
  | nil => rfl
  | cons a rest ih => cases idle : a.idle <;> simp [idle, ih]

theorem emptyAttribute_pass : Pass emptyAttribute (List.filter fun a => !a.idle) where
  takes := emptyAttribute_exact.takes
  passive := passive_emptyAttribute
  begins reads := (startsEmpty_of_reads reads).begins
  attrs proper _ ends := by
    rw [substitute_each substitute_emptyAttribute proper ends.stops, flatMap_filter_idle]

theorem Attr.Proper.rounded {a : Attr} (proper : a.Proper) : a.rounded.Proper := by
  unfold Attr.rounded
  split
  · next long =>
    exact ⟨proper.some_lead, proper.blank, proper.name, not_mem_roundedText long (by decide)⟩
  · exact proper

theorem not_looksNamed_rounded {a : Attr} (plain : ¬LooksNamed a.value) :
    ¬LooksNamed a.rounded.value := by
  unfold Attr.rounded
  split
  · next long =>
    refine not_looksNamed_of_last fun last => ?_
    exact not_mem_roundedText long (by decide) (List.mem_of_getLast? last)
  · exact plain

theorem Tag.Proper.withAttrs {t : Tag} {change : List Attr → List Attr} (proper : t.Proper)
    (keeps : ∀ attrs, (∀ a ∈ attrs, a.Proper) → ∀ a ∈ change attrs, a.Proper) :
    (t.withAttrs change).Proper :=
  ⟨proper.name, keeps _ proper.attrs, proper.blank⟩

theorem proper_squeeze (attrs : List Attr) (proper : ∀ a ∈ attrs, a.Proper) :
    ∀ a ∈ squeeze (fun _ => false) attrs, a.Proper :=
  fun a mem => proper a ((squeeze_sublist _ _).subset mem)

theorem proper_map_rounded (attrs : List Attr) (proper : ∀ a ∈ attrs, a.Proper) :
    ∀ a ∈ attrs.map Attr.rounded, a.Proper := by
  intro a mem
  obtain ⟨b, inside, rfl⟩ := List.mem_map.1 mem
  exact (proper b inside).rounded

theorem proper_shortened (attrs : List Attr) (proper : ∀ a ∈ attrs, a.Proper) :
    ∀ a ∈ shortened attrs, a.Proper :=
  fun a mem => proper_map_rounded _ (proper_squeeze attrs proper) a (List.mem_of_mem_filter mem)

theorem Tag.Proper.shortened {t : Tag} (proper : t.Proper) : (t.withAttrs shortened).Proper :=
  proper.withAttrs proper_shortened

namespace Document

variable {d : Document} {change : List Attr → List Attr}

theorem texts_withAttrs (d : Document) : texts (withAttrs change d) = texts d := by
  simp [texts, withAttrs, Cut.map]

theorem hits_withAttrs (d : Document) : (withAttrs change d).hits =
    d.hits.map fun hit => ⟨hit.passed, hit.value.withAttrs change⟩ := rfl

theorem withAttrs_withAttrs (first second : List Attr → List Attr) (d : Document) :
    withAttrs second (withAttrs first d) = withAttrs (second ∘ first) d := by
  simp only [withAttrs, Cut.map, List.map_map]
  rfl

theorem Proper.withAttrs (proper : Proper d)
    (keeps : ∀ attrs, (∀ a ∈ attrs, a.Proper) → ∀ a ∈ change attrs, a.Proper) :
    Proper (withAttrs change d) where
  tags hit mem := by
    rw [hits_withAttrs] at mem
    obtain ⟨hit', inside, rfl⟩ := List.mem_map.1 mem
    exact (proper.tags hit' inside).withAttrs keeps
  texts := by
    rw [texts_withAttrs]
    exact proper.texts

theorem Plain.withAttrs (plain : Plain d)
    (keeps : ∀ attrs, (∀ a ∈ attrs, ¬LooksNamed a.value) → ∀ a ∈ change attrs, ¬LooksNamed a.value) :
    Plain (withAttrs change d) where
  values hit mem := by
    rw [hits_withAttrs] at mem
    obtain ⟨hit', inside, rfl⟩ := List.mem_map.1 mem
    exact keeps _ (plain.values hit' inside)
  texts := by
    rw [texts_withAttrs]
    exact plain.texts

theorem Proper.shortened (proper : Proper d) : Proper (d.withAttrs shortened) :=
  proper.withAttrs proper_shortened

/-- The three passes, one after the other, go through a document tag by tag. -/
theorem optimize_write (proper : Proper d) (plain : Plain d) :
    optimize (write d) = write (withAttrs shortened d) := by
  have squeezed := proper.withAttrs proper_squeeze
  have squeezed' : Plain (withAttrs (squeeze fun _ => false) d) :=
    plain.withAttrs fun attrs all a mem => all a ((squeeze_sublist _ _).subset mem)
  have rounded := squeezed.withAttrs proper_map_rounded
  have rounded' : Plain (withAttrs (List.map Attr.rounded) (withAttrs (squeeze fun _ => false) d)) := by
    refine squeezed'.withAttrs fun attrs all a mem => ?_
    obtain ⟨b, inside, rfl⟩ := List.mem_map.1 mem
    exact not_looksNamed_rounded (all b inside)
  rw [optimize, duplicates_pass.substitute_write proper plain,
    longDecimal_pass.substitute_write squeezed squeezed',
    emptyAttribute_pass.substitute_write rounded rounded', withAttrs_withAttrs, withAttrs_withAttrs]
  rfl

end Document

end DesignComponents.Markup
