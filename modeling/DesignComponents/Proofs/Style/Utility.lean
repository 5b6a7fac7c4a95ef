import DesignComponents.Proofs.Attribute.Style
import DesignComponents.Proofs.Number.Range
import DesignComponents.Proofs.OrderedMap
import DesignComponents.Style.Utility

/-! Which declarations have a utility class. All have whose value is not too long. -/

set_option autoImplicit false

namespace DesignComponents.Style

open Text Reader

theorem isFigure_asciiDigits {text : List Char}
    (each : ∀ c ∈ text, isDecimal c = true ∨ c = '-' ∨ c = '.' ∨ c = '\n') :
    ∀ c ∈ Number.asciiDigits text, Number.isFigure c = true := by
  intro c mem
  obtain ⟨c', held, rfl⟩ := List.mem_map.1 mem
  rcases each c' held with decimal | rfl | rfl | rfl
  · have single : ∀ d ∈ [c'], isDecimal d = true := by simpa using decimal
    have digit := Number.asciiDigits_decimal single _ (List.mem_singleton.2 rfl)
    simp only [Number.isFigure, Bool.or_eq_true]
    exact .inl (.inl (.inl digit))
  all_goals decide

theorem numeral_chars {text : List Char} (numeral : Attribute.isNumeral text = true) :
    ∀ c ∈ text, isDecimal c = true ∨ c = '-' ∨ c = '.' ∨ c = '\n' := by
  obtain ⟨signs, digits, fraction, last, parts⟩ := Attribute.numeral_of_isNumeral numeral
  intro c mem
  rw [parts.written] at mem
  simp only [List.mem_append] at mem
  rcases mem with ((sign | digit) | behind) | final
  · rcases parts.minus with rfl | rfl
    · exact absurd sign List.not_mem_nil
    · exact .inr (.inl (List.mem_singleton.1 sign))
  · exact .inl (parts.decimals c digit)
  · rcases parts.point with rfl | ⟨places, rfl, decimals⟩
    · exact absurd behind List.not_mem_nil
    · rcases List.mem_cons.1 behind with point | place
      · exact .inr (.inr (.inl point))
      · exact .inl (decimals c place)
  · rcases parts.last with rfl | rfl
    · exact absurd final List.not_mem_nil
    · exact .inr (.inr (.inr (List.mem_singleton.1 final)))

/-! ### Colours -/

variable {p q : Place}

theorem component_length {digits : List Char} (reads : component p = some (digits, q)) :
    p.rest.length = digits.length + q.rest.length := by
  obtain ⟨-, -, -, taken⟩ := many1_eq_some.1 reads
  exact taken.length

theorem separator_length {u : Unit} (reads : separator p = some (u, q)) :
    q.rest.length ≤ p.rest.length := by
  simp only [separator, blanks, bind_eq_some, pure_eq_some] at reads
  obtain ⟨_, m, comma, blank, m', behind, -, rfl⟩ := reads
  have first := (char_eq_some.1 comma).length
  have second := (many_eq_some.1 behind).2.2.length
  omega

theorem rgb_length {r g b : List Char} (reads : rgb p = some ((r, g, b), q)) :
    r.length + g.length + b.length ≤ p.rest.length := by
  simp only [rgb, bind_eq_some, pure_eq_some, Prod.mk.injEq] at reads
  obtain ⟨_, p₁, name, _, p₂, alpha, _, p₃, bracket, r', p₄, red, _, p₅, comma, g', p₆, green, _, p₇,
    comma', b', p₈, blue, ⟨rfl, rfl, rfl⟩, rfl⟩ := reads
  have := (text_eq_some.1 name).length
  have : p₂.rest.length ≤ p₁.rest.length := by
    rcases optional_eq_some.1 alpha with ⟨_, reads, -⟩ | ⟨-, -, rfl⟩
    · have := (char_eq_some.1 reads).length
      omega
    · exact le_refl _
  have := (char_eq_some.1 bracket).length
  have := component_length red
  have := separator_length comma
  have := component_length green
  have := separator_length comma'
  have := component_length blue
  omega

theorem intensity_short (digits : List Char) (short : digits.length ≤ mostDigits) :
    ∃ n, intensity digits = .ok n := by
  rw [intensity, checkDigits_eq_ok.2 short]
  exact ⟨_, rfl⟩

theorem hexOf_short {color : List Char} (short : color.length ≤ mostDigits) :
    ∃ cs, hexOf color = .ok cs := by
  unfold hexOf
  split
  · next r g b q reads =>
    have length : r.length + g.length + b.length ≤ color.length := rgb_length reads
    obtain ⟨red, is_red⟩ := intensity_short r (by omega)
    obtain ⟨green, is_green⟩ := intensity_short g (by omega)
    obtain ⟨blue, is_blue⟩ := intensity_short b (by omega)
    rw [is_red, is_green, is_blue]
    exact ⟨_, rfl⟩
  · exact ⟨color, rfl⟩

/-! ### Utilities -/

/-- A declaration has a utility class if its value is no longer than that. -/
theorem utility_short (property : String) {value : List Char} (short : value.length ≤ 300) :
    ∃ cs, utility property value = .ok cs := by
  have color : ∃ cs, hexOf value = .ok cs := hexOf_short (short.trans (by decide))
  obtain ⟨hex, color⟩ := color
  have number : ∀ x, (if Attribute.isNumeral value then Number.readReal? value else none) = some x →
      x.Within 1000 := by
    intro x reads
    split at reads
    · next numeral =>
      exact Number.within_readReal? (isFigure_asciiDigits (numeral_chars numeral)) short reads
    · exact nomatch reads
  unfold utility
  split
  · exact ⟨_, by rw [color]; rfl⟩
  · exact ⟨_, by rw [color]; rfl⟩
  · exact ⟨_, rfl⟩
  · exact ⟨_, rfl⟩
  · exact ⟨_, rfl⟩
  · exact ⟨_, rfl⟩
  · exact ⟨_, rfl⟩
  · simp only
    split
    · obtain ⟨n, whole⟩ := ((number _ ‹_›).hundredfold (by decide) (by decide)).round?
      rw [Number.wholeBy, whole]
      exact ⟨_, rfl⟩
    · obtain ⟨n, whole⟩ := (number _ ‹_›).truncate?
      rw [Number.wholeBy, whole]
      exact ⟨_, rfl⟩
    · exact ⟨_, rfl⟩
    · exact ⟨_, rfl⟩
    · exact ⟨_, rfl⟩

theorem utilities_ok_iff {declarations : OrderedMap String} :
    (∃ classes, utilities declarations = .ok classes) ↔
      ∀ p v, declarations.get? p = some v → ∃ cs, utility p v.toList = .ok cs := by
  have each : ∀ e : String × String,
      (∃ name, String.ofList <$> utility e.1 e.2.toList = .ok name) ↔
        ∃ cs, utility e.1 e.2.toList = .ok cs := by
    intro e
    cases utility e.1 e.2.toList with
    | error f => exact ⟨nofun, nofun⟩
    | ok cs => exact ⟨fun _ => ⟨cs, rfl⟩, fun _ => ⟨String.ofList cs, rfl⟩⟩
  refine mapM_ok_iff.trans ⟨fun all p v held => ?_, fun all e mem => ?_⟩
  · exact (each (p, v)).1 (all (p, v) (OrderedMap.mem_of_get? held))
  · exact (each e).2 (all e.1 e.2 (OrderedMap.get?_of_mem mem))

end DesignComponents.Style
