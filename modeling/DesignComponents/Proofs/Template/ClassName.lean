import DesignComponents.Proofs.Template.Name
import DesignComponents.Proofs.Text.Search

/-! Renaming plain classes. In a row of marks only names of attributes change, where no value and no
text holds what looks like a class. -/

set_option autoImplicit false

namespace DesignComponents.Template

open Text Reader Markup

/-- What the pass for plain classes makes of a name. -/
def classed (name : List Char) : List Char :=
  match dropPrefix? "className".toList.reverse name.reverse with
  | some lead => if lead.head?.any isWord then name else lead.reverse ++ "class".toList
  | none => name

/-- A name is changed where it ends in a class's name as a word of its own. -/
theorem classed_eq (name : List Char) :
    (∃ lead, name = lead ++ "className".toList ∧ lead.getLast?.any isWord = false ∧
        classed name = lead ++ "class".toList) ∨
      (∀ lead, name = lead ++ "className".toList → lead.getLast?.any isWord = true) ∧
        classed name = name := by
  unfold classed
  cases ends : dropPrefix? "className".toList.reverse name.reverse with
  | none =>
    refine .inr ⟨fun lead same => ?_, rfl⟩
    rw [dropPrefix?_eq_some.2 (by rw [same, List.reverse_append])] at ends
    exact nomatch ends
  | some lead =>
    have same : name = lead.reverse ++ "className".toList := by
      have := congrArg List.reverse (dropPrefix?_eq_some.1 ends)
      rwa [List.reverse_append, List.reverse_reverse, List.reverse_reverse] at this
    cases word : lead.head?.any isWord with
    | true =>
      refine .inr ⟨fun lead' same' => ?_, by simp [word]⟩
      rw [same] at same'
      rw [← List.append_cancel_right same', List.getLast?_reverse]
      exact word
    | false => exact .inl ⟨lead.reverse, same, by rwa [List.getLast?_reverse], by simp [word]⟩

theorem properName_classed {name : List Char} (proper : ProperName name) :
    ProperName (classed name) := by
  obtain ⟨lead, rfl, -, renamed⟩ | ⟨-, renamed⟩ := classed_eq name
  · rw [renamed]
    refine ⟨by simp, fun c mem => ?_⟩
    obtain mem | mem := List.mem_append.1 mem
    · exact proper.2 c (List.mem_append_left _ mem)
    · have plain := List.all_eq_true.1 (rfl : "class".toList.all isProper = true) c mem
      simpa [isProper] using plain
  · rwa [renamed]

/-- Nothing but a class's name is taken from a name. -/
theorem mem_classed {name : List Char} {c : Char} (mem : c ∈ name) (other : c ∉ "className".toList) :
    c ∈ classed name := by
  obtain ⟨lead, rfl, -, renamed⟩ | ⟨-, renamed⟩ := classed_eq name
  · rw [renamed]
    obtain mem | mem := List.mem_append.1 mem
    · exact List.mem_append_left _ mem
    · exact absurd mem other
  · rwa [renamed]

theorem of_mem_classed {name : List Char} {c : Char} (mem : c ∈ classed name) :
    c ∈ name ∨ c ∈ "class".toList := by
  obtain ⟨lead, rfl, -, renamed⟩ | ⟨-, renamed⟩ := classed_eq name
  · rw [renamed] at mem
    obtain mem | mem := List.mem_append.1 mem
    · exact .inl (List.mem_append_left _ mem)
    · exact .inr mem
  · rw [renamed] at mem
    exact .inl mem

/-! ### What the pass reads -/

theorem plainClass_exact : Exact plainClass fun before taken v =>
    before.any isWord = false ∧ taken = "className=\"".toList ∧ v = "class=\"".toList := by
  intro p v q
  simp only [plainClass, bind_eq_some, wordStart_eq_some, text_eq_some, pure_eq_some]
  constructor
  · rintro ⟨_, _, ⟨start, rfl⟩, _, m, named, rfl, rfl⟩
    exact ⟨_, by simp, ⟨start, rfl, rfl⟩, named⟩
  · rintro ⟨taken, -, ⟨start, rfl, rfl⟩, named⟩
    exact ⟨(), p, ⟨start, rfl⟩, (), q, named, rfl, rfl⟩

theorem plainClass_takes : Takes plainClass := plainClass_exact.takes

theorem plainClass_splits_head {before : Option Char} {front back : List Char} {c : Char}
    (head : back.head? = some c) (separates : Separates c) : Splits plainClass before front back := by
  refine splits_of_uncrossed plainClass_exact.regular (uncrossed_of_head plainClass_takes ?_ head)
  intro p q v taken reads reached mem
  obtain ⟨taken', -, ⟨-, rfl, -⟩, reached'⟩ := (plainClass_exact _ _ _).1 reads
  rw [reached.unique reached'] at mem
  have others : ("className=\"".toList.tail.all fun d => ¬ Separates d) = true := by decide
  exact of_decide_eq_true (List.all_eq_true.1 others c mem) separates

theorem plainClass_splits_last {before : Option Char} {front back : List Char}
    (last : front.getLast? = some '"') : Splits plainClass before front back := by
  refine splits_of_uncrossed plainClass_exact.regular (uncrossed_of_last plainClass_takes ?_ last)
  intro p q v taken reads reached
  obtain ⟨taken', -, ⟨-, rfl, -⟩, reached'⟩ := (plainClass_exact _ _ _).1 reads
  rw [reached.unique reached']
  decide

theorem plainClass_notFound {before : Option Char} {text : List Char} (clean : '=' ∉ text) :
    foundAfter plainClass before text = false := by
  refine (foundAfter_eq_false plainClass_takes).2 fun passed ahead same => ?_
  refine unread_iff.2 fun v q reads => ?_
  obtain ⟨taken, -, ⟨-, rfl, -⟩, reached⟩ := (plainClass_exact _ _ _).1 reads
  have rest : ahead = "className=\"".toList ++ q.rest := reached.rest
  exact clean (by simp [same, rest])

/-- Up to a quote, all that can be read is what stands right before it. -/
theorem plainClass_reads_end {before : Option Char} {front passed ahead : List Char} {v : List Char}
    {q : Place} (clean : '"' ∉ front) (same : front ++ ['"'] = passed ++ ahead)
    (reads : plainClass ⟨before, ahead⟩ = some (v, q)) :
    ahead = "className=\"".toList ∧ before.any isWord = false := by
  obtain ⟨taken, -, ⟨start, rfl, -⟩, reached⟩ := (plainClass_exact _ _ _).1 reads
  have rest : ahead = "className=\"".toList ++ q.rest := reached.rest
  cases left : q.rest with
  | nil => exact ⟨by rw [rest, left, List.append_nil], start⟩
  | cons c more =>
    have inside := congrArg List.dropLast same
    rw [rest, left, List.dropLast_concat, ← List.append_assoc,
      List.dropLast_append_of_ne_nil (by simp)] at inside
    exact absurd (by simp [inside]) clean

/-- A name that ends in the word is read from there on, and nothing is read before that. -/
theorem substituteAt_className {lead : List Char} (clean : '"' ∉ lead)
    (start : lead.getLast?.any isWord = false) (before : Option Char) :
    substituteAt plainClass before (' ' :: (lead ++ "className".toList) ++ "=\"".toList) =
      ' ' :: (lead ++ "class".toList) ++ "=\"".toList := by
  have text : ' ' :: (lead ++ "className".toList) ++ "=\"".toList =
      (' ' :: lead) ++ "className=\"".toList := by simp
  have here : ((' ' :: lead).getLast?.or before).any isWord = false := by
    rw [List.getLast?_cons]
    cases last : lead.getLast? with
    | none => exact isWord_of_isBlank (by decide)
    | some c => simpa [last] using start
  have reads : plainClass ⟨(' ' :: lead).getLast?.or before, "className=\"".toList⟩ =
      some ("class=\"".toList, ⟨some '"', []⟩) := by
    refine (plainClass_exact _ _ _).2 ⟨_, by simp, ⟨here, rfl, rfl⟩, ?_⟩
    exact ⟨by simp, rfl⟩
  -- What is read ends at the quote, and there is one only, so it begins where the word does.
  have passes : Passes plainClass before (' ' :: lead) "className=\"".toList := by
    intro passed ahead same some_ahead
    refine unread_iff.2 fun v q reads => ?_
    have clean' : '"' ∉ ' ' :: (lead ++ "className".toList) ++ ['='] := by simp [clean]
    have whole : (' ' :: (lead ++ "className".toList) ++ ['=']) ++ ['"'] =
        passed ++ (ahead ++ "className=\"".toList) := by
      rw [← List.append_assoc, ← same]
      simp
    have ends := (plainClass_reads_end clean' whole reads).1
    exact some_ahead (List.append_left_eq_self.1 ends)
  rw [text, substituteAt, cutAt_pass plainClass_takes passes, cutAt_some plainClass_takes reads, cutAt_nil,
    Cut.append_nil, Cut.fill_append, Cut.fill_passing, Cut.fill_piece]
  simp

/-- In a name that has the word at its end inside of another word only, nothing is read. -/
theorem notFound_name {name : List Char} (clean : '"' ∉ name)
    (word : ∀ lead, name = lead ++ "className".toList → lead.getLast?.any isWord = true)
    (before : Option Char) : foundAfter plainClass before (' ' :: name ++ "=\"".toList) = false := by
  have whole : ' ' :: name ++ "=\"".toList = (' ' :: name ++ ['=']) ++ ['"'] := by simp
  have clean' : '"' ∉ ' ' :: name ++ ['='] := by simp [clean]
  rw [foundAfter_eq_false plainClass_takes, whole]
  intro passed ahead same
  refine unread_iff.2 fun v q reads => ?_
  obtain ⟨rfl, start⟩ := plainClass_reads_end clean' same reads
  -- The blank before the name is no part of what is read, so the rest is part of the name.
  cases passed with
  | nil => exact absurd (congrArg List.head? same) (by simp)
  | cons c lead =>
    have ends : name = lead ++ "className".toList := by
      have tail : name ++ "=\"".toList = lead ++ "className".toList ++ "=\"".toList := by
        have := congrArg List.tail same
        simpa using this
      exact List.append_cancel_right tail
    have inside := word lead ends
    rw [List.getLast?_cons] at start
    cases last : lead.getLast? with
    | none => simp [last] at inside
    | some d =>
      rw [last] at inside
      simp only [last, Option.getD_some, Option.some_or] at start
      rw [inside] at start
      cases start

/-- A name with the quote after it, in its place in a tag. -/
theorem substituteAt_name {name : List Char} (clean : '"' ∉ name) (before : Option Char) :
    substituteAt plainClass before (' ' :: name ++ "=\"".toList) =
      ' ' :: classed name ++ "=\"".toList := by
  obtain ⟨lead, rfl, start, renamed⟩ | ⟨word, renamed⟩ := classed_eq name
  · rw [renamed, substituteAt_className (fun mem => clean (List.mem_append_left _ mem)) start]
  · rw [renamed, substituteAt_of_notFound plainClass_takes (notFound_name clean word before)]

theorem plainClass_namePass : NamePass plainClass classed where
  takes := plainClass_takes
  head := plainClass_splits_head
  last := plainClass_splits_last
  quiet clean := substituteAt_of_notFound plainClass_takes (plainClass_notFound clean)
  renames proper := substituteAt_name (fun mem => absurd (proper.2 _ mem).1 (by decide)) _

/-! ### Texts and rows of marks -/

/-- Texts that start with white space: such a text is not part of what stands before it. -/
def Spaced (m : Mark) : Prop := ∀ text, m = .text text → ∀ c ∈ text.head?, isBlank c = true

/-- What follows a mark starts with white space or with a tag, if there is anything. -/
theorem head_writeMarks {marks : List Mark} (spaced : ∀ m ∈ marks, Spaced m) :
    ∀ c ∈ (writeMarks marks).head?, Separates c := by
  induction marks with
  | nil => simp [writeMarks]
  | cons m rest ih =>
    intro c head
    have later := ih (fun m' mem => spaced m' (List.mem_cons_of_mem m mem)) c
    rw [writeMarks_cons] at head
    have sign : Separates '<' := by decide
    cases m with
    | text spelled =>
      cases spelled with
      | nil => exact later head
      | cons d more =>
        obtain rfl : d = c := Option.some.inj head
        exact separates_of_isBlank (spaced (.text (d :: more)) (by simp) _ rfl d rfl)
    | start tag entries => cases head; exact sign
    | single tag entries blank => cases head; exact sign
    | stop tag => cases head; exact sign

theorem plainClass_text {text : List Char} (head : ∀ c ∈ text.head?, isBlank c = true)
    (notFound : found plainClass text = false) (before : Option Char) :
    substituteAt plainClass before text = text := by
  refine substituteAt_of_notFound plainClass_takes ?_
  cases text with
  | nil => rfl
  | cons c rest =>
    rw [found, foundAfter, Bool.or_eq_false_iff] at notFound
    rw [foundAfter, notFound.2, Bool.or_false, Option.isSome_eq_false_iff, Option.isNone_iff_eq_none]
    refine unread_iff.2 fun v q reads => ?_
    obtain ⟨taken, -, ⟨-, rfl, -⟩, reached⟩ := (plainClass_exact _ _ _).1 reads
    obtain rfl : c = 'c' := congrArg (fun text : List Char => text.headD c) reached.rest
    exact absurd (head 'c' rfl) (by decide)

/-- Neither a text nor a value of the mark holds what looks like a class. -/
structure Unclassed (m : Mark) : Prop where
  text : m.token? = none → found plainClass m.write = false
  values : ∀ e ∈ m.entries, found plainClass (quote e.2) = false

instance (m : Mark) : Decidable (Unclassed m) :=
  decidable_of_iff ((m.token? = none → found plainClass m.write = false) ∧
    ∀ e ∈ m.entries, found plainClass (quote e.2) = false) ⟨fun h => ⟨h.1, h.2⟩, fun h => ⟨h.1, h.2⟩⟩

theorem substituteAt_plainClass {m : Mark} (named : m.Named) (spaced : Spaced m)
    (unclassed : Unclassed m) (before : Option Char) :
    substituteAt plainClass before m.write = (m.rename classed).write := by
  cases tag : m.token? with
  | none =>
    cases m with
    | text spelled => exact plainClass_text (spaced _ rfl) (unclassed.text rfl) before
    | start tag entries => simp [Mark.token?] at tag
    | single tag entries blank => simp [Mark.token?] at tag
    | stop tag => simp [Mark.token?] at tag
  | some t =>
    refine plainClass_namePass.substituteAt_mark named tag (fun e mem => ?_) before
    exact idle_of_notFound plainClass_takes (unclassed.values e mem)

/-- Marks are renamed one by one. -/
theorem substitute_plainClass {marks : List Mark} (named : ∀ m ∈ marks, m.Named)
    (spaced : ∀ m ∈ marks, Spaced m) (unclassed : ∀ m ∈ marks, Unclassed m) :
    substitute plainClass (writeMarks marks) = writeMarks (marks.map (Mark.rename classed)) := by
  have further : ∀ before, substituteAt plainClass before (writeMarks marks) =
      writeMarks (marks.map (Mark.rename classed)) := by
    induction marks with
    | nil => exact fun before => rfl
    | cons m rest ih =>
      intro before
      have others := fun m' mem => spaced m' (List.mem_cons_of_mem m mem)
      have later := ih (fun m' mem => named m' (List.mem_cons_of_mem m mem)) others
        (fun m' mem => unclassed m' (List.mem_cons_of_mem m mem))
      have splits : Splits plainClass before m.write (writeMarks rest) := by
        cases ahead : writeMarks rest with
        | nil => exact splits_nil before m.write
        | cons c more => exact plainClass_splits_head rfl (head_writeMarks others c (by simp [ahead]))
      rw [List.map_cons, writeMarks_cons, writeMarks_cons, substituteAt_append splits, later,
        substituteAt_plainClass (named m (by simp)) (spaced m (by simp)) (unclassed m (by simp))]
  exact further none

end DesignComponents.Template
