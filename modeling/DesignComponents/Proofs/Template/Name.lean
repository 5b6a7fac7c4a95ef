import DesignComponents.Proofs.Markup.Rename
import DesignComponents.Proofs.Text.CharClass
import DesignComponents.Proofs.Text.Cut
import DesignComponents.Template.Adjust

/-! Passes over a tag that rename its attributes. What such a pass reads holds part of a name and
the sign after it, so a tag can be taken apart around its names and values. -/

set_option autoImplicit false

namespace DesignComponents.Template

open Text Reader Markup

/-- A character that no such pass reads but at its start. -/
def Separates (c : Char) : Prop := isWord c = false ∧ c ≠ '=' ∧ c ≠ '"'

instance (c : Char) : Decidable (Separates c) := inferInstanceAs (Decidable (_ ∧ _))

theorem separates_of_isBlank {c : Char} (blank : isBlank c = true) : Separates c := by
  refine ⟨isWord_of_isBlank blank, ?_, ?_⟩
  · rintro rfl
    exact absurd blank (by decide)
  · rintro rfl
    exact absurd blank (by decide)

/-- The pass reads each name by itself, and gives it a new name. -/
structure NamePass (r : Reader (List Char)) (name : List Char → List Char) : Prop where
  takes : Takes r
  /-- Nothing that is read has a separator in it but at its start. -/
  head : ∀ {before front back c}, back.head? = some c → Separates c → Splits r before front back
  /-- Nothing that is read has a quote in it but at its end. -/
  last : ∀ {before front back}, front.getLast? = some '"' → Splits r before front back
  quiet : ∀ {before text}, '=' ∉ text → substituteAt r before text = text
  renames : ∀ {before n}, ProperName n →
    substituteAt r before (' ' :: n ++ "=\"".toList) = ' ' :: name n ++ "=\"".toList

namespace NamePass

variable {r : Reader (List Char)} {name : List Char → List Char}

/-- A value in its place, between its quotes. -/
theorem substituteAt_value (pass : NamePass r name) {value : List Char} (idle : Idle r (quote value)) :
    substituteAt r (some '"') (value ++ ['"']) = value ++ ['"'] := by
  have whole := substitute_of_idle pass.takes idle
  have apart : quote value = ['"'] ++ (value ++ ['"']) := rfl
  rw [apart, substitute_eq_substituteAt, substituteAt_append (pass.last rfl), pass.quiet (by decide)] at whole
  exact List.append_cancel_left whole

theorem substituteAt_entries (pass : NamePass r name) {entries : List (List Char × List Char)}
    {ending : List Char} (proper : ∀ e ∈ entries, ProperName e.1)
    (idle : ∀ e ∈ entries, Idle r (quote e.2)) (plain : '=' ∉ ending) (before : Option Char) :
    substituteAt r before (entries.flatMap written ++ ending) =
      (entries.map fun e => (name e.1, e.2)).flatMap written ++ ending := by
  induction entries generalizing before with
  | nil => exact pass.quiet plain
  | cons e rest ih =>
    have later := ih (fun e' mem => proper e' (List.mem_cons_of_mem e mem))
      (fun e' mem => idle e' (List.mem_cons_of_mem e mem)) (some '"')
    have text : (e :: rest).flatMap written ++ ending = (' ' :: e.1 ++ "=\"".toList) ++
        ((e.2 ++ ['"']) ++ (rest.flatMap written ++ ending)) := by
      simp [written]
    have named : (' ' :: e.1 ++ "=\"".toList).getLast? = some '"' := by
      rw [List.getLast?_append]
      rfl
    have valued : (e.2 ++ ['"']).getLast? = some '"' := List.getLast?_concat
    -- Nothing is read across a quote, so the name, the value and the other entries are replaced apart.
    rw [text, substituteAt_append (pass.last named), substituteAt_append (pass.last valued), named, valued,
      pass.renames (proper e (by simp)), Option.some_or, Option.some_or,
      pass.substituteAt_value (idle e (by simp)), later]
    simp [written]

/-- A whole tag, up to what ends it. -/
theorem substituteAt_tag (pass : NamePass r name) {tag : List Char}
    {entries : List (List Char × List Char)} {ending : List Char} (proper_tag : '=' ∉ tag)
    (proper : ∀ e ∈ entries, ProperName e.1) (idle : ∀ e ∈ entries, Idle r (quote e.2))
    (plain : '=' ∉ ending) (ends : ∃ c, ending.head? = some c ∧ Separates c) (before : Option Char) :
    substituteAt r before ('<' :: tag ++ (entries.flatMap written ++ ending)) =
      '<' :: tag ++ ((entries.map fun e => (name e.1, e.2)).flatMap written ++ ending) := by
  have next : ∃ c, (entries.flatMap written ++ ending).head? = some c ∧ Separates c := by
    cases entries with
    | nil => exact ends
    | cons e rest => exact ⟨' ', rfl, by decide⟩
  obtain ⟨c, head, separates⟩ := next
  rw [substituteAt_append (pass.head head separates), pass.quiet (by simpa using proper_tag),
    pass.substituteAt_entries proper idle plain]

end NamePass

theorem no_equals_of_properTag {tag : List Char} (proper : ProperTag tag) : '=' ∉ tag :=
  fun mem => absurd (proper.char _ mem) (by decide)

theorem no_equals_of_no_entries {m : Mark} {t : Markup.Token} (named : m.Named) (tag : m.token? = some t)
    (none_in : m.entries = []) : '=' ∉ m.write := by
  cases m with
  | text spelled => simp [Mark.token?] at tag
  | start tag entries =>
    obtain rfl : entries = [] := none_in
    simpa [Mark.write] using no_equals_of_properTag named.1
  | single tag entries blank =>
    obtain rfl : entries = [] := none_in
    have plain : '=' ∉ blank := fun mem => absurd (named.2.2 _ mem) (by decide)
    simpa [Mark.write, plain] using no_equals_of_properTag named.1
  | stop tag => simpa [Mark.write] using no_equals_of_properTag named

/-- Each tag among marks is renamed as a whole. -/
theorem NamePass.substituteAt_mark {r : Reader (List Char)} {name : List Char → List Char}
    (pass : NamePass r name) {m : Mark} {t : Markup.Token} (named : m.Named) (tag : m.token? = some t)
    (idle : ∀ e ∈ m.entries, Idle r (quote e.2)) (before : Option Char) :
    substituteAt r before m.write = (m.rename name).write := by
  cases m with
  | text spelled => simp [Mark.token?] at tag
  | start tag entries =>
    have renamed := pass.substituteAt_tag (no_equals_of_properTag named.1)
      named.2 idle (by decide : '=' ∉ ['>']) ⟨'>', rfl, by decide⟩ before
    simpa [Mark.write, Mark.rename] using renamed
  | single tag entries blank =>
    have plain : '=' ∉ blank ++ ['/', '>'] := by
      intro mem
      obtain mem | mem := List.mem_append.1 mem
      · exact absurd (named.2.2 _ mem) (by decide)
      · exact absurd mem (by decide)
    have ends : ∃ c, (blank ++ ['/', '>']).head? = some c ∧ Separates c := by
      cases blank with
      | nil => exact ⟨'/', rfl, by decide⟩
      | cons c rest => exact ⟨c, rfl, by rw [named.2.2 c (by simp)]; decide⟩
    have renamed := pass.substituteAt_tag (no_equals_of_properTag named.1)
      named.2.1 idle plain ends before
    simpa [Mark.write, Mark.rename] using renamed
  | stop tag =>
    exact pass.quiet (no_equals_of_no_entries named rfl rfl)

end DesignComponents.Template
