import DesignComponents.Markup.Clean
import DesignComponents.Proofs.Text.Cut
import DesignComponents.Proofs.Text.Trim

/-! What cleaning leaves of a text. White space is narrowed run by run, so that whatever else
stands in a text stays where it is, and a text without comments loses nothing but white space. -/

set_option autoImplicit false

namespace DesignComponents.Markup

open Text Reader

/-! ### Narrowed white space -/

/-- The text with one space for each run of white space. -/
def narrow (text : List Char) : List Char := substitute blankRun text

theorem collapseBlanks_eq (text : List Char) : collapseBlanks text = trim (narrow text) := rfl

theorem blankRun_eq_some {p q : Place} {v : List Char} :
    blankRun p = some (v, q) ↔ v = [' '] ∧ ∃ taken, taken ≠ [] ∧ Blank taken ∧
      (∀ c ∈ q.rest.head?, isBlank c = false) ∧ p.After taken q := by
  simp only [blankRun, blanks1, bind_eq_some, many1_eq_some, pure_eq_some]
  constructor
  · rintro ⟨taken, m, ⟨some_taken, all, stops, reached⟩, rfl, rfl⟩
    exact ⟨rfl, taken, some_taken, all, stops, reached⟩
  · rintro ⟨rfl, taken, some_taken, all, stops, reached⟩
    exact ⟨taken, q, ⟨some_taken, all, stops, reached⟩, rfl, rfl⟩

theorem takes_blankRun : Takes blankRun := by
  intro p v q reads
  obtain ⟨-, taken, some_taken, -, -, reached⟩ := blankRun_eq_some.1 reads
  exact ⟨taken, some_taken, reached⟩

theorem passive_blankRun : Passive blankRun :=
  (passive_atLeast 1 _).bind fun _ => passive_pure _

theorem narrow_solid {c : Char} (solid : isBlank c = false) (rest : List Char) :
    narrow (c :: rest) = c :: narrow rest := by
  refine substitute_cons takes_blankRun passive_blankRun ?_
  refine unread_iff.2 fun v q reads => ?_
  obtain ⟨-, taken, some_taken, all, -, reached⟩ := blankRun_eq_some.1 reads
  obtain ⟨d, more, rfl⟩ := List.exists_cons_of_ne_nil some_taken
  obtain ⟨rfl, -⟩ := List.cons.inj reached.rest
  rw [all c List.mem_cons_self] at solid
  exact nomatch solid

/-- White space that ends where other text begins, or at the end. -/
theorem narrow_run {blank rest : List Char} (some_blank : blank ≠ []) (all : Blank blank)
    (stops : ∀ c ∈ rest.head?, isBlank c = false) : narrow (blank ++ rest) = ' ' :: narrow rest := by
  have reads : blankRun ⟨none, blank ++ rest⟩ = some ([' '], ⟨blank.getLast?.or none, rest⟩) :=
    blankRun_eq_some.2 ⟨rfl, blank, some_blank, all, stops, Place.after_mk _ _ _⟩
  exact substitute_read takes_blankRun passive_blankRun reads

/-- Induction on a text as it is narrowed: by characters, and by runs of white space. -/
theorem runs_induction {motive : List Char → Prop} (nil : motive [])
    (solid : ∀ c rest, isBlank c = false → motive rest → motive (c :: rest))
    (run : ∀ blank rest, blank ≠ [] → Blank blank → (∀ c ∈ rest.head?, isBlank c = false) →
      motive rest → motive (blank ++ rest)) (text : List Char) : motive text := by
  induction size : text.length using Nat.strongRecOn generalizing text with
  | ind size ih =>
    cases text with
    | nil => exact nil
    | cons c rest =>
      rw [List.length_cons] at size
      cases blank : isBlank c with
      | false => exact solid c rest blank (ih rest.length (by omega) rest rfl)
      | true =>
        have shorter : (rest.dropWhile isBlank).length ≤ rest.length :=
          (List.dropWhile_suffix isBlank).length_le
        have later := ih _ (by omega) (rest.dropWhile isBlank) rfl
        have stops : ∀ d ∈ (rest.dropWhile isBlank).head?, isBlank d = false := by
          intro d first
          have := List.head?_dropWhile_not isBlank rest
          rwa [Option.mem_def.1 first] at this
        have whole := run (c :: rest.takeWhile isBlank) _ (List.cons_ne_nil _ _)
          (List.forall_mem_cons.2 ⟨blank, fun d mem => List.mem_takeWhile_imp mem⟩) stops later
        rwa [List.cons_append, List.takeWhile_append_dropWhile] at whole

/-- Other text keeps white space before it and behind it apart. -/
theorem narrow_append_solid {c : Char} (solid : isBlank c = false) (before after : List Char) :
    narrow (before ++ c :: after) = narrow before ++ c :: narrow after := by
  -- On the runs before it; the last of them ends at the character.
  induction before using runs_induction with
  | nil => exact narrow_solid solid after
  | solid d rest other ih =>
    rw [List.cons_append, narrow_solid other, narrow_solid other, ih, List.cons_append]
  | run blank rest some_blank all stops ih =>
    have stops' : ∀ d ∈ (rest ++ c :: after).head?, isBlank d = false := by
      cases rest with
      | nil =>
        rintro d ⟨⟩
        exact solid
      | cons e more => exact stops
    rw [List.append_assoc, narrow_run some_blank all stops', narrow_run some_blank all stops, ih,
      List.cons_append]

theorem narrow_append {text : List Char} (solid : ∀ c ∈ text, isBlank c = false) (rest : List Char) :
    narrow (text ++ rest) = text ++ narrow rest := by
  induction text with
  | nil => rfl
  | cons c more ih =>
    obtain ⟨first, others⟩ := List.forall_mem_cons.1 solid
    rw [List.cons_append, narrow_solid first, ih others, List.cons_append]

/-- The first character stays the first, as a space where it is white space. -/
theorem head?_narrow (text : List Char) :
    (narrow text).head? = text.head?.map fun c => if isBlank c then ' ' else c := by
  cases text using runs_induction with
  | nil => rfl
  | solid c rest other ih => simp [narrow_solid other, other]
  | run blank rest some_blank all stops ih =>
    obtain ⟨c, more, rfl⟩ := List.exists_cons_of_ne_nil some_blank
    have white := all c List.mem_cons_self
    rw [narrow_run some_blank all stops]
    simp [white]

/-- The last character stays the last, as a space where it is white space. -/
theorem getLast?_narrow (text : List Char) :
    (narrow text).getLast? = text.getLast?.map fun c => if isBlank c then ' ' else c := by
  induction text using runs_induction with
  | nil => rfl
  | solid c rest other ih =>
    rw [narrow_solid other, List.getLast?_cons, List.getLast?_cons, ih]
    cases rest.getLast? <;> simp [other]
  | run blank rest some_blank all stops ih =>
    obtain ⟨last, ends⟩ := Option.isSome_iff_exists.1 (List.getLast?_isSome.2 some_blank)
    have white := all last (List.mem_of_getLast? ends)
    rw [narrow_run some_blank all stops, List.getLast?_cons, List.getLast?_append, ih, ends]
    cases rest.getLast? <;> simp [white]

theorem getLast?_narrow_iff {c : Char} (solid : isBlank c = false) (text : List Char) :
    (narrow text).getLast? = some c ↔ text.getLast? = some c := by
  rw [getLast?_narrow]
  cases text.getLast? with
  | none => rfl
  | some d =>
    cases blank : isBlank d with
    | false => simp [blank]
    | true =>
      have other : ∀ e, isBlank e = true → e ≠ c := by
        rintro e white rfl
        rw [solid] at white
        exact nomatch white
      simp [blank, other ' ' isBlank_space, other d blank]

theorem of_mem_narrow {c : Char} {text : List Char} (mem : c ∈ narrow text) : c = ' ' ∨ c ∈ text := by
  induction text using runs_induction with
  | nil => exact .inr mem
  | solid d rest other ih =>
    rw [narrow_solid other, List.mem_cons] at mem
    obtain rfl | mem := mem
    · exact .inr List.mem_cons_self
    · exact (ih mem).imp_right (List.mem_cons_of_mem d)
  | run blank rest some_blank all stops ih =>
    rw [narrow_run some_blank all stops, List.mem_cons] at mem
    obtain rfl | mem := mem
    · exact .inl rfl
    · exact (ih mem).imp_right (List.mem_append_right blank)

/-! ### Comments -/

theorem passive_comment : Passive comment :=
  (passive_text _).bind fun _ => (passive_through _).bind fun _ => passive_pure _

theorem comment_after {p q : Place} {v : List Char} (reads : comment p = some (v, q)) :
    ∃ taken, p.After ("<!--".toList ++ taken) q := by
  simp only [comment, bind_eq_some, text_eq_some, pure_eq_some] at reads
  obtain ⟨-, m, mark, inner, m', passed, -, rfl⟩ := reads
  exact ⟨_, mark.trans (through_after (by simp) passed)⟩

theorem takes_comment : Takes comment := by
  intro p v q reads
  obtain ⟨taken, reached⟩ := comment_after reads
  exact ⟨_, by simp, reached⟩

/-- A character at which no comment begins stays. -/
theorem dropComments_cons {c : Char} {rest : List Char} (other : ¬ "<!--".toList <+: c :: rest) :
    dropComments (c :: rest) = c :: dropComments rest := by
  refine substitute_cons takes_comment passive_comment ?_
  refine unread_iff.2 fun v q reads => ?_
  obtain ⟨taken, reached⟩ := comment_after reads
  exact other ⟨taken ++ q.rest, by rw [← List.append_assoc, ← reached.rest]⟩

theorem dropComments_append {text : List Char} (plain : '<' ∉ text) (rest : List Char) :
    dropComments (text ++ rest) = text ++ dropComments rest := by
  induction text with
  | nil => rfl
  | cons c more ih =>
    rw [List.mem_cons, not_or] at plain
    have other : ¬ "<!--".toList <+: c :: (more ++ rest) := by
      intro begins
      exact plain.1 (List.cons_prefix_cons.1 begins).1
    rw [List.cons_append, dropComments_cons other, ih plain.2, List.cons_append]

end DesignComponents.Markup
