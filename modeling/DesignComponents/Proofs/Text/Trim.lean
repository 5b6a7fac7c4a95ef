import DesignComponents.Proofs.Text.CharClass
import DesignComponents.Text.Trim
import Mathlib.Data.List.TakeWhile

/-! Texts with nothing to trim. -/

set_option autoImplicit false

namespace DesignComponents.Text

/-- A text that stays as it is, and stays, where white space at the ends is dropped. -/
structure Trimmed (text : List Char) : Prop where
  some_text : text ≠ []
  first : ∀ c ∈ text.head?, isBlank c = false
  last : ∀ c ∈ text.getLast?, isBlank c = false

theorem dropWhile_head {f : Char → Bool} {text : List Char} (head : ∀ c ∈ text.head?, f c = false) :
    text.dropWhile f = text := by
  cases text with
  | nil => rfl
  | cons c rest => simp [head c rfl]

theorem trimRightBy_leads (p : Char → Bool) (text : List Char) : trimRightBy p text <+: text := by
  have reversed := List.reverse_prefix.2 (List.dropWhile_suffix (l := text.reverse) p)
  rwa [List.reverse_reverse] at reversed

theorem trimBy_leads (p : Char → Bool) (text : List Char) : trimBy p text <+: trimLeftBy p text :=
  trimRightBy_leads p (trimLeftBy p text)

/-- What trimming leaves stands in the text. -/
theorem infix_trimBy (p : Char → Bool) (text : List Char) : trimBy p text <:+: text := by
  have left : trimLeftBy p text <:+ text := List.dropWhile_suffix p
  exact (trimBy_leads p text).isInfix.trans left.isInfix

/-- It is only the ends that are trimmed. -/
theorem trimBy_ends {p : Char → Bool} {text : List Char} (head : ∀ c ∈ text.head?, p c = false)
    (last : ∀ c ∈ text.getLast?, p c = false) : trimBy p text = text := by
  rw [trimBy, trimLeftBy, dropWhile_head head, trimRightBy, dropWhile_head, List.reverse_reverse]
  rwa [List.head?_reverse]

theorem Trimmed.trim {text : List Char} (trimmed : Trimmed text) : trim text = text :=
  trimBy_ends trimmed.first trimmed.last

theorem trimmed_of_solid {text : List Char} (some_text : text ≠ [])
    (solid : ∀ c ∈ text, isBlank c = false) : Trimmed text :=
  ⟨some_text, fun c head => solid c (List.mem_of_mem_head? head),
    fun c last => solid c (List.mem_of_mem_getLast? last)⟩

/-- It is only the ends that matter. -/
theorem Trimmed.around {left right : List Char} (first : Trimmed left) (middle : List Char)
    (last : Trimmed right) : Trimmed (left ++ middle ++ right) := by
  refine ⟨by simp [first.some_text], fun c head => ?_, fun c ends => ?_⟩
  · rw [List.append_assoc, List.head?_append, Option.mem_def,
      Option.or_of_isSome (List.isSome_head?.2 first.some_text)] at head
    exact first.first c head
  · rw [List.getLast?_append, Option.mem_def,
      Option.or_of_isSome (List.getLast?_isSome.2 last.some_text)] at ends
    exact last.last c ends

theorem Trimmed.trimRight_append {text blank : List Char} (trimmed : Trimmed text)
    (blanks : ∀ c ∈ blank, isBlank c = true) : trimRight (text ++ blank) = text := by
  have last : ∀ c ∈ text.reverse.head?, isBlank c = false := by simpa using trimmed.last
  rw [trimRight, trimRightBy, List.reverse_append,
    List.dropWhile_append_of_pos fun c mem => blanks c (List.mem_reverse.1 mem), dropWhile_head last,
    List.reverse_reverse]

theorem trimmed_of_trim {text : List Char} (some_text : text ≠ []) (same : trim text = text) :
    Trimmed text := by
  have left : trimLeftBy isBlank text = text := by
    have shorter : (trimLeftBy isBlank text).length ≤ text.length :=
      (List.dropWhile_suffix isBlank).length_le
    have right : (trim text).length ≤ (trimLeftBy isBlank text).length := by
      rw [Text.trim, trimBy, trimRightBy, List.length_reverse]
      exact (List.dropWhile_suffix isBlank).length_le.trans_eq List.length_reverse
    rw [same] at right
    exact (List.dropWhile_suffix isBlank).eq_of_length (by rw [trimLeftBy] at *; omega)
  have right : text.reverse.dropWhile isBlank = text.reverse := by
    rw [Text.trim, trimBy, left, trimRightBy, List.reverse_eq_iff] at same
    exact same
  constructor
  · exact some_text
  · intro c mem
    have := List.head?_dropWhile_not isBlank text
    rw [show text.dropWhile isBlank = text from left] at this
    simpa [Option.mem_def.1 mem] using this
  · intro c mem
    have := List.head?_dropWhile_not isBlank text.reverse
    rw [right, List.head?_reverse] at this
    simpa [Option.mem_def.1 mem] using this

theorem trim_nil : trim [] = [] := rfl

/-- What is dropped at the ends is at neither end of what is left. -/
theorem ends_trimBy (p : Char → Bool) (text : List Char) :
    (∀ c ∈ (trimBy p text).head?, p c = false) ∧ ∀ c ∈ (trimBy p text).getLast?, p c = false := by
  have kept : ∀ rest : List Char, ∀ c ∈ (rest.dropWhile p).head?, p c = false := by
    intro rest c first
    have := List.head?_dropWhile_not p rest
    rw [Option.mem_def.1 first] at this
    exact this
  constructor
  · intro c first
    obtain ⟨after, whole⟩ := trimBy_leads p text
    refine kept text c ?_
    rw [← trimLeftBy, ← whole, List.head?_append, Option.mem_def.1 first]
    rfl
  · intro c last
    rw [trimBy, trimRightBy, List.getLast?_reverse] at last
    exact kept _ c last

/-- What trimming leaves, if anything, has nothing more to trim. -/
theorem trimmed_trim {text : List Char} (some_left : trim text ≠ []) : Trimmed (trim text) :=
  ⟨some_left, (ends_trimBy isBlank text).1, (ends_trimBy isBlank text).2⟩

theorem trim_trim (text : List Char) : trim (trim text) = trim text := by
  by_cases none_left : trim text = []
  · rw [none_left, trim_nil]
  · exact (trimmed_trim none_left).trim

/-- Where nothing is to be dropped the text stays. -/
theorem trimBy_solid {p : Char → Bool} {text : List Char} (solid : ∀ c ∈ text, p c = false) :
    trimBy p text = text := by
  have left : trimLeftBy p text = text := dropWhile_head fun c head => solid c (List.mem_of_mem_head? head)
  have right : text.reverse.dropWhile p = text.reverse :=
    dropWhile_head fun c head => solid c (List.mem_reverse.1 (List.mem_of_mem_head? head))
  rw [trimBy, left, trimRightBy, right, List.reverse_reverse]

/-- White space and nothing else. -/
def Blank (text : List Char) : Prop := ∀ c ∈ text, isBlank c = true

instance (text : List Char) : Decidable (Blank text) :=
  inferInstanceAs (Decidable (∀ c ∈ text, isBlank c = true))

theorem Blank.append {left right : List Char} (first : Blank left) (second : Blank right) :
    Blank (left ++ right) := by
  intro c mem
  rcases List.mem_append.1 mem with mem | mem
  · exact first c mem
  · exact second c mem

theorem trim_blank_append {blank : List Char} (blanks : Blank blank) (text : List Char) :
    trim (blank ++ text) = trim text := by
  have left : trimLeftBy isBlank (blank ++ text) = trimLeftBy isBlank text :=
    List.dropWhile_append_of_pos blanks
  rw [trim, trimBy, left]
  rfl

theorem trim_append_blank {blank : List Char} (blanks : Blank blank) (text : List Char) :
    trim (text ++ blank) = trim text := by
  have right : ∀ rest : List Char, trimRightBy isBlank (rest ++ blank) = trimRightBy isBlank rest := by
    intro rest
    rw [trimRightBy, List.reverse_append, List.dropWhile_append_of_pos, trimRightBy]
    intro c mem
    exact blanks c (List.mem_reverse.1 mem)
  rw [trim, trimBy, trimLeftBy, List.dropWhile_append]
  split
  · next none_left =>
    -- Nothing is left of the text itself, so the whole is white space.
    have whole : trimLeftBy isBlank text = [] := List.isEmpty_iff.1 none_left
    have all : blank.dropWhile isBlank = [] := List.dropWhile_eq_nil_iff.2 blanks
    rw [all, trim, trimBy, whole]
  · rw [right, trim, trimBy, trimLeftBy]

theorem trim_blank {blank : List Char} (blanks : Blank blank) : trim blank = [] :=
  trim_append_blank blanks []

/-- What would not be dropped at an end stays in the text, in its order. -/
theorem filter_trimBy (p : Char → Bool) (text : List Char) :
    (trimBy p text).filter (fun c => !p c) = text.filter fun c => !p c := by
  have kept : ∀ rest : List Char, (rest.dropWhile p).filter (fun c => !p c) = rest.filter fun c => !p c := by
    intro rest
    have none_dropped : (rest.takeWhile p).filter (fun c => !p c) = [] := by
      refine List.filter_eq_nil_iff.2 fun c mem => ?_
      simp [List.mem_takeWhile_imp mem]
    have whole : rest.filter (fun c => !p c) = (rest.takeWhile p ++ rest.dropWhile p).filter fun c => !p c := by
      rw [List.takeWhile_append_dropWhile]
    rw [whole, List.filter_append, none_dropped, List.nil_append]
  rw [trimBy, trimRightBy, List.filter_reverse, kept, List.filter_reverse, List.reverse_reverse, trimLeftBy,
    kept]

/-- It stays as often as it was there. -/
theorem count_trimBy {p : Char → Bool} {c : Char} (solid : p c = false) (text : List Char) :
    (trimBy p text).count c = text.count c := by
  have passes : (!p c) = true := by rw [solid, Bool.not_false]
  rw [← List.count_filter (p := fun c => !p c) passes, filter_trimBy,
    List.count_filter (p := fun c => !p c) passes]

theorem mem_trimBy {p : Char → Bool} {text : List Char} {c : Char} (mem : c ∈ text)
    (solid : p c = false) : c ∈ trimBy p text := by
  rw [← List.count_pos_iff, count_trimBy solid]
  exact List.count_pos_iff.2 mem

theorem trim_ne_nil {text : List Char} {c : Char} (mem : c ∈ text) (solid : isBlank c = false) :
    trim text ≠ [] := List.ne_nil_of_mem (mem_trimBy mem solid)

/-- What is no white space ends what is dropped from the right. -/
theorem trimRight_append_solid {c : Char} (solid : isBlank c = false) (before after : List Char) :
    trimRight (before ++ c :: after) = before ++ c :: trimRight after := by
  rw [trimRight, trimRightBy, trimRight, trimRightBy, List.reverse_append, List.reverse_cons,
    List.append_assoc, List.dropWhile_append]
  split
  · next all => simp [List.isEmpty_iff.1 all, solid]
  · simp

theorem trim_append_solid {c : Char} (solid : isBlank c = false) (before after : List Char) :
    trim (before ++ c :: after) = trimLeft before ++ c :: trimRight after := by
  have left : trimLeft (before ++ c :: after) = trimLeft before ++ c :: after := by
    rw [trimLeft, trimLeftBy, trimLeft, trimLeftBy, List.dropWhile_append]
    split
    · next all => simp [List.isEmpty_iff.1 all, solid]
    · rfl
  rw [trim, trimBy, ← trimLeft, left]
  exact trimRight_append_solid solid _ after

/-- Before what trimming leaves only white space is dropped. -/
theorem trimRight_eq (text : List Char) :
    ∃ lead, Blank lead ∧ trimRight text = lead ++ trim text := by
  by_cases all : Blank text
  · have none_left : text.reverse.dropWhile isBlank = [] :=
      List.dropWhile_eq_nil_iff.2 fun c mem => all c (List.mem_reverse.1 mem)
    refine ⟨[], List.forall_mem_nil _, ?_⟩
    rw [trim_blank all, trimRight, trimRightBy, none_left]
    rfl
  · obtain ⟨c, mem, solid⟩ : ∃ c ∈ text, isBlank c = false := by simpa [Blank] using all
    obtain ⟨before, after, rfl⟩ := List.append_of_mem mem
    refine ⟨before.takeWhile isBlank, fun d mem => List.mem_takeWhile_imp mem, ?_⟩
    rw [trimRight_append_solid solid, trim_append_solid solid, trimLeft, trimLeftBy, ← List.append_assoc,
      List.takeWhile_append_dropWhile]

/-- Writing each character anew trims nothing, where no spelling has blanks but that of blanks. -/
theorem Trimmed.flatMap {write : Char → List Char} {text : List Char} (trimmed : Trimmed text)
    (keeps : ∀ c, isBlank c = false → Trimmed (write c)) : Trimmed (text.flatMap write) := by
  obtain ⟨some_text, first, last⟩ := trimmed
  constructor
  · obtain ⟨c, rest, rfl⟩ := List.exists_cons_of_ne_nil some_text
    have := (keeps c (first c rfl)).some_text
    simp [this]
  · obtain ⟨c, rest, rfl⟩ := List.exists_cons_of_ne_nil some_text
    obtain ⟨some_written, head, -⟩ := keeps c (first c rfl)
    intro d mem
    rw [List.flatMap_cons, List.head?_append, Option.mem_def, Option.or_of_isSome] at mem
    · exact head d mem
    · exact List.isSome_head?.2 some_written
  · obtain ⟨init, c, rfl⟩ : ∃ init c, text = init ++ [c] :=
      ⟨text.dropLast, text.getLast some_text, (List.dropLast_concat_getLast some_text).symm⟩
    obtain ⟨some_written, -, end_plain⟩ := keeps c (last c (by simp))
    have whole : (init ++ [c]).flatMap write = init.flatMap write ++ write c := by simp
    intro d mem
    rw [whole, List.getLast?_append, Option.mem_def, Option.or_of_isSome] at mem
    · exact end_plain d mem
    · exact List.getLast?_isSome.2 some_written

/-! ### Words -/

theorem wordsAux_solid {sep : Char → Bool} {text : List Char} (solid : ∀ c ∈ text, sep c = false)
    (word : List Char) (done : List (List Char)) : wordsAux sep word text done =
      wordsAux sep (text.reverse ++ word) [] done := by
  induction text generalizing word with
  | nil => rfl
  | cons c rest ih =>
    have passed : wordsAux sep word (c :: rest) done = wordsAux sep (c :: word) rest done :=
      if_neg (Bool.eq_false_iff.1 (solid c List.mem_cons_self))
    rw [passed, ih (fun c' mem => solid c' (List.mem_cons_of_mem c mem)) (c :: word)]
    simp

theorem wordsAux_done (sep : Char → Bool) (word text : List Char) (done : List (List Char)) :
    wordsAux sep word text done = done.reverse ++ wordsAux sep word text [] := by
  induction text generalizing word done with
  | nil => cases empty : word.isEmpty <;> simp [wordsAux, empty]
  | cons c rest ih =>
    rw [wordsAux, wordsAux]
    split
    · rw [ih, ih [] (if word.isEmpty then [] else [word.reverse])]
      cases word.isEmpty <;> simp
    · exact ih _ _

/-- The words of two texts with a separator between them. -/
theorem wordsAux_append {sep : Char → Bool} {blank : Char} (separates : sep blank = true)
    (before text word : List Char) :
    wordsAux sep word (before ++ blank :: text) [] = wordsAux sep word before [] ++ wordsAux sep [] text [] := by
  induction before generalizing word with
  | nil =>
    have ended : wordsAux sep word (blank :: text) [] =
        wordsAux sep [] text (if word.isEmpty then [] else [word.reverse]) := if_pos separates
    rw [List.nil_append, ended, wordsAux_done]
    rfl
  | cons c rest ih =>
    rw [List.cons_append, wordsAux, wordsAux]
    split
    · rw [wordsAux_done, ih, wordsAux_done sep [] rest (if word.isEmpty then [] else [word.reverse]),
        List.append_assoc]
    · exact ih _

/-- No word has a separator in it. -/
theorem of_mem_wordsAux {sep : Char → Bool} {text word : List Char} {done : List (List Char)}
    (solid : ∀ c ∈ word, sep c = false) (each : ∀ w ∈ done, ∀ c ∈ w, sep c = false) :
    ∀ w ∈ wordsAux sep word text done, ∀ c ∈ w, sep c = false := by
  have entered : ∀ {word : List Char} {done : List (List Char)}, (∀ c ∈ word, sep c = false) →
      (∀ w ∈ done, ∀ c ∈ w, sep c = false) →
      ∀ w ∈ (if word.isEmpty then done else word.reverse :: done), ∀ c ∈ w, sep c = false := by
    intro word done solid each w mem
    split at mem
    · exact each w mem
    · rcases List.mem_cons.1 mem with rfl | mem
      · exact fun c mem => solid c (List.mem_reverse.1 mem)
      · exact each w mem
  induction text generalizing word done with
  | nil =>
    rw [wordsAux]
    exact fun w mem => entered solid each w (List.mem_reverse.1 mem)
  | cons c rest ih =>
    rw [wordsAux]
    split
    · exact ih nofun (entered solid each)
    · next other => exact ih (List.forall_mem_cons.2 ⟨Bool.not_eq_true _ ▸ other, solid⟩) each

theorem isBlank_space : isBlank ' ' = true := by decide

theorem words_append_blank {blank : Char} (separates : isBlank blank = true) (before text : List Char) :
    words (before ++ blank :: text) = words before ++ words text :=
  wordsAux_append separates before text []

theorem words_solid {word : List Char} (some_word : word ≠ []) (solid : ∀ c ∈ word, isBlank c = false) :
    words word = [word] := by
  rw [words, wordsAux_solid solid]
  simp [wordsAux, some_word]

/-- A word stays the last after others. -/
theorem getLast?_words {word : List Char} (some_word : word ≠ [])
    (solid : ∀ c ∈ word, isBlank c = false) (before : List Char) :
    (words word).getLast? = some word ∧ (words (before ++ ' ' :: word)).getLast? = some word := by
  rw [words_append_blank isBlank_space, words_solid some_word solid]
  exact ⟨rfl, List.getLast?_concat⟩

end DesignComponents.Text
