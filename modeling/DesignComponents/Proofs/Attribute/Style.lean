import DesignComponents.Attribute.Sanitize
import DesignComponents.Proofs.Number.Reading
import DesignComponents.Proofs.Text.Search

/-! Which attributes can be read. All of them can but a style text in which a value is a whole
number of too many digits. -/

set_option autoImplicit false

namespace DesignComponents.Attribute

open Text Reader

/-- A sign, if there is one, digits, perhaps a point and more digits, and at most a line break. -/
structure Numeral (text signs digits fraction last : List Char) : Prop where
  written : text = signs ++ digits ++ fraction ++ last
  minus : signs = [] ∨ signs = ['-']
  some_digits : digits ≠ []
  decimals : ∀ c ∈ digits, isDecimal c = true
  point : fraction = [] ∨ ∃ places, fraction = '.' :: places ∧ ∀ c ∈ places, isDecimal c = true
  last : last = [] ∨ last = ['\n']

theorem numeral_of_isNumeral {text : List Char} (numeral : isNumeral text = true) :
    ∃ signs digits fraction last, Numeral text signs digits fraction last := by
  obtain ⟨⟨u, q⟩, reads⟩ := Option.isSome_iff_exists.1 numeral
  simp only [Attribute.numeral, bind_eq_some, many1_eq_some] at reads
  obtain ⟨_, m₁, minus, digits, m₂, ⟨some_digits, decimals, -, taken⟩, _, m₃, point, ends⟩ := reads
  obtain ⟨signs, minus, before⟩ : ∃ signs, (signs = [] ∨ signs = ['-']) ∧
      (Place.start text).After signs m₁ := by
    rcases optional_eq_some.1 minus with ⟨_, reads, -⟩ | ⟨-, -, rfl⟩
    · exact ⟨['-'], .inr rfl, char_eq_some.1 reads⟩
    · exact ⟨[], .inl rfl, Place.after_nil.2 rfl⟩
  obtain ⟨fraction, point, behind⟩ : ∃ fraction,
      (fraction = [] ∨ ∃ places, fraction = '.' :: places ∧ ∀ c ∈ places, isDecimal c = true) ∧
        m₂.After fraction m₃ := by
    rcases optional_eq_some.1 point with ⟨_, reads, -⟩ | ⟨-, -, rfl⟩
    · obtain ⟨_, m, dot, others⟩ := bind_eq_some.1 reads
      obtain ⟨places, m', reads', same⟩ := bind_eq_some.1 others
      obtain ⟨-, decimals, -, through⟩ := many1_eq_some.1 reads'
      obtain ⟨-, rfl⟩ := pure_eq_some.1 same
      exact ⟨'.' :: places, .inr ⟨places, rfl, decimals⟩, (char_eq_some.1 dot).trans through⟩
    · exact ⟨[], .inl rfl, Place.after_nil.2 rfl⟩
  have last : m₃.rest = [] ∨ m₃.rest = ['\n'] := by
    unfold atLastEnd at ends
    split at ends
    · next none_left => exact .inl none_left
    · next left => exact .inr left
    · exact nomatch ends
  exact ⟨signs, digits, fraction, m₃.rest, ((before.trans taken).trans behind).rest, minus,
    some_digits, decimals, point, last⟩

/-- A numeral without a point is a whole number. -/
theorem whole_of_isNumeral {text : List Char} (numeral : isNumeral text = true)
    (no_point : '.' ∉ text) : ∃ signs digits, Number.Whole text signs digits := by
  obtain ⟨signs, digits, fraction, last, parts⟩ := numeral_of_isNumeral numeral
  have whole := parts.written
  rcases parts.point with rfl | ⟨places, rfl, -⟩
  · rw [List.append_nil] at whole
    refine ⟨signs, digits, parts.minus, parts.some_digits, parts.decimals, ?_⟩
    rcases parts.last with rfl | rfl
    · exact .inl (whole.trans (List.append_nil _))
    · exact .inr whole
  · exact absurd (by simp [whole]) no_point

theorem isNumeral_decimals {digits : List Char} (some_digits : digits ≠ [])
    (decimals : ∀ c ∈ digits, isDecimal c = true) : isNumeral digits = true := by
  obtain ⟨c, rest, same⟩ := List.exists_cons_of_ne_nil some_digits
  have first := decimals c (by rw [same]; exact List.mem_cons_self)
  have no_minus : Reader.optional (char '-') (Place.start digits) = some (none, Place.start digits) := by
    refine optional_eq_some.2 (.inr ⟨?_, rfl, rfl⟩)
    have other : (c == '-') = false := by
      apply beq_false_of_ne
      rintro rfl
      exact absurd first (by decide)
    simp [char, one, Place.start, same, other, bind, StateT.bind]
  have read : numeral (Place.start digits) = some ((), ⟨digits.getLast?, []⟩) := by
    simp only [numeral, bind_eq_some, many1_eq_some]
    refine ⟨none, _, no_minus, digits, ⟨digits.getLast?, []⟩, ⟨some_digits, decimals, by simp, ?_⟩,
      none, _, rfl, rfl⟩
    exact ⟨(List.append_nil _).symm, Option.or_none.symm⟩
  rw [isNumeral, accepts, read]
  rfl

/-- A value that is a whole number of more digits than are read. -/
def Overlong (value : List Char) : Prop :=
  isNumeral value = true ∧ '.' ∉ value ∧ mostDigits < value.countP isDecimal

theorem reads_styleValue (value : List Char) : Reads (styleValue value) (¬Overlong value) := by
  unfold styleValue
  by_cases numeral : isNumeral value = true
  · by_cases point : '.' ∈ value
    · rw [if_neg (by simp [numeral]), if_pos (List.contains_iff_mem.2 point)]
      exact (reads_ok _).congr (by simp [Overlong, point])
    · obtain ⟨signs, digits, whole⟩ := whole_of_isNumeral numeral point
      rw [if_neg (by simp [numeral]), if_neg (by simpa using point)]
      refine ((Number.reads_readInt whole).map Json.int).congr ?_
      simp [Overlong, numeral, point, whole.count]
  · rw [if_pos (by simpa using numeral)]
    exact (reads_ok _).congr (by simp [Overlong, numeral])

/-- The declarations of a style text, each a property and a value. -/
def declarations (text : String) : List (List Char × List Char) :=
  (splitOn ';' text.toList).filterMap fun d => declaration? (trim d)

theorem parseStyle_eq (text : String) :
    parseStyle text = OrderedMap.ofList <$> (declarations text).mapM styleEntry := rfl

theorem reads_parseStyle (text : String) :
    Reads (parseStyle text) (∀ d ∈ declarations text, ¬Overlong d.2) := by
  rw [parseStyle_eq]
  refine (reads_mapM fun d _ => ?_).map _
  exact (reads_styleValue d.2).map _

/-- A number of one digit more than is read. -/
def overlong : List Char := List.replicate (mostDigits + 1) '1'

theorem overlong_overlong : Overlong overlong := by
  have all : ∀ c ∈ overlong, isDecimal c = true := by
    intro c mem
    rw [List.eq_of_mem_replicate mem]
    decide
  refine ⟨isNumeral_decimals (by simp [overlong]) all, ?_, ?_⟩
  · intro mem
    exact absurd (all '.' mem) (by decide)
  · rw [List.countP_eq_length.2 all, overlong, List.length_replicate]
    exact Nat.lt_succ_self _

theorem declarations_overlong :
    declarations (String.ofList ("order:".toList ++ overlong)) = [("order".toList, overlong)] := by
  have digit : ∀ c ∈ overlong, c = '1' := fun c mem => List.eq_of_mem_replicate mem
  have no_end : ';' ∉ "order:".toList ++ overlong := by
    simp only [List.mem_append, not_or]
    exact ⟨by decide, fun mem => absurd (digit _ mem) (by decide)⟩
  have last : ∀ text : List Char, ∀ c ∈ (text ++ overlong).getLast?, isBlank c = false := by
    intro text c mem
    rw [List.getLast?_append, Option.mem_def, Option.or_of_isSome] at mem
    · rw [digit c (List.mem_of_getLast? mem)]
      decide
    · exact List.getLast?_isSome.2 (by simp [overlong])
  have whole : trim ("order:".toList ++ overlong) = "order:".toList ++ overlong := by
    refine Trimmed.trim ⟨by simp, ?_, last _⟩
    intro c mem
    obtain rfl : 'o' = c := by simpa using mem
    decide
  have value : trim overlong = overlong := by
    refine Trimmed.trim ⟨by simp [overlong], ?_, last []⟩
    intro c mem
    rw [digit c (List.mem_of_head? mem)]
    decide
  have breaks : breakAt? [':'] ("order:".toList ++ overlong) = some ("order".toList, overlong) := rfl
  have property : trim "order".toList = "order".toList := by decide
  rw [declarations, String.toList_ofList, splitOn_eq_self no_end, List.filterMap_cons, List.filterMap_nil,
    whole, declaration?, breaks]
  simp only [property, value]
  rfl

/-- What a style attribute may hold: no text that declares an overlong value. -/
def ReadableStyle : Json → Prop
  | .str text => ∀ d ∈ declarations text, ¬Overlong d.2
  | _ => True

instance (value : List Char) : Decidable (Overlong value) :=
  inferInstanceAs (Decidable (_ ∧ _ ∧ _))

instance : (v : Json) → Decidable (ReadableStyle v)
  | .str text => inferInstanceAs (Decidable (∀ d ∈ declarations text, ¬Overlong d.2))
  | .null | .bool _ | .num _ | .arr _ | .obj _ => isTrue trivial

theorem reads_styleOf (v : Json) : Reads (styleOf v) (ReadableStyle v) := by
  cases v with
  | str text => exact reads_parseStyle text
  | obj members => exact reads_ok _
  | null | bool b | num n | arr items => exact reads_ok _

/-- Attributes that can be read: what becomes the style is readable. -/
def Readable (attributes : OrderedMap Json) : Prop :=
  ∀ e ∈ attributes.entries, rename e.1 = "style" → ReadableStyle e.2

instance (attributes : OrderedMap Json) : Decidable (Readable attributes) :=
  inferInstanceAs (Decidable (∀ e ∈ attributes.entries, rename e.1 = "style" → ReadableStyle e.2))

theorem reads_admitRenamed (acc : OrderedMap Json) (renamed : String) (v : Json) :
    Reads (admitRenamed acc renamed v) (renamed = "style" → ReadableStyle v) := by
  unfold admitRenamed
  by_cases style : renamed = "style"
  · subst style
    refine ((reads_styleOf v).map _).congr (by simp)
  · split
    · exact (reads_ok _).congr (by simp [style])
    split
    · exact (reads_ok _).congr (by simp [style])
    · rw [if_neg (by simpa using style)]
      exact (reads_ok _).congr (by simp [style])

theorem readableStyle_of_isAbsent {v : Json} (absent : isAbsent v = true) : ReadableStyle v := by
  cases v with
  | str text =>
    obtain rfl : text = "" := by simpa [isAbsent] using absent
    intro d mem
    exact absurd mem (List.not_mem_nil (a := d))
  | null | bool b | num n | arr items | obj members => trivial

theorem rename_of_isCustom {name : String} (custom : isCustom name = true) : rename name ≠ "style" := by
  rw [rename, if_pos custom]
  rintro rfl
  exact absurd custom (by decide)

/-- An attribute's passage, with nothing remembered. -/
def passEntry (acc : OrderedMap Json) (e : String × Json) : Except Fault (OrderedMap Json) :=
  if isAbsent e.2 then .ok acc
  else if isCustom e.1 then .ok (acc.insert e.1 e.2)
  else admitRenamed acc (rename e.1) e.2

theorem sanitize_eq (attributes : OrderedMap Json) :
    sanitize attributes = attributes.entries.foldlM passEntry .empty := by
  rw [sanitize, sanitizeVia, run_foldlM]
  refine congrArg (fun f => List.foldlM f _ _) ?_
  funext acc e
  unfold passEntry sanitizeEntry
  split
  split
  · rfl
  split
  · rfl
  · rw [run_bind]
    exact run_ofExcept (admitRenamed acc (rename _) _)

theorem reads_sanitize (attributes : OrderedMap Json) :
    Reads (sanitize attributes) (Readable attributes) := by
  rw [sanitize_eq]
  refine reads_foldlM (fun e _ acc => ?_) _
  unfold passEntry
  split
  · next absent => exact (reads_ok _).congr (by simp [readableStyle_of_isAbsent absent])
  split
  · next custom => exact (reads_ok _).congr (by simp [rename_of_isCustom custom])
  · exact reads_admitRenamed acc _ e.2

end DesignComponents.Attribute
