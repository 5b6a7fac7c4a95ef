import DesignComponents.Proofs.Markup.Mark
import DesignComponents.Proofs.Text.Search
import DesignComponents.Template.Adjust

/-! Rewriting fragments. A row of marks has no fragment of its own, so there is nothing to rewrite
but what looks like one inside a value. -/

set_option autoImplicit false

namespace DesignComponents.Template

open Text Reader Markup

/-- What the pass would rewrite in a text, if there is any. -/
def hasFragment (framework : Framework) (text : List Char) : Bool :=
  match framework with
  | .angular => occurs "<>".toList text || occurs "</>".toList text
  | _ => occurs "<></>".toList text || found fragmentLine text

/-! ### Readers of fragments -/

/-- The first sign ahead is that of a fragment, with white space before it. -/
def FragmentAhead (text : List Char) : Prop :=
  ∃ blank ahead, (∀ c ∈ blank, isBlank c = true) ∧ text = blank ++ '<' :: ahead ∧
    (">".toList <+: ahead ∨ "/>".toList <+: ahead)

/-- What is read starts with the sign of a fragment, and a quote keeps off all that is behind it. -/
structure FragmentReader {α : Type} (r : Reader α) : Prop where
  takes : Takes r
  ahead : ∀ {p x}, r p = some x → FragmentAhead p.rest
  near : ∀ {before front back} back', '"' ∉ front → (r ⟨before, front ++ '"' :: back⟩).isSome →
    (r ⟨before, front ++ '"' :: back'⟩).isSome

/-- A piece without a character ends before that character. -/
theorem ends_before {stop : Char} {piece front back rest : List Char} (clean : stop ∉ piece)
    (same : front ++ stop :: back = piece ++ rest) :
    ∃ middle, front = piece ++ middle ∧ rest = middle ++ stop :: back := by
  obtain ⟨middle, ends, later⟩ | ⟨middle, ends, later⟩ := List.append_eq_append_iff.1 same
  · cases middle with
    | nil => exact ⟨[], by simp [ends], later.symm⟩
    | cons c more =>
      obtain rfl : stop = c := (List.cons.inj later).1
      exact absurd (by simp [ends]) clean
  · exact ⟨middle, ends, later⟩

theorem text_isSome {piece : String} {before : Option Char} {rest : List Char} :
    (Reader.text piece ⟨before, rest⟩).isSome ↔ piece.toList <+: rest := by
  rw [← startsWith_iff, Reader.text, Option.isSome_map, startsWith]

theorem text_fragmentReader {piece : String} {rest : List Char} (sign : piece.toList = '<' :: rest)
    (fragment : ">".toList <+: rest ∨ "/>".toList <+: rest) (clean : '"' ∉ piece.toList) :
    FragmentReader (Reader.text piece) where
  takes p v q reads := ⟨piece.toList, by simp [sign], text_eq_some.1 reads⟩
  ahead := by
    rintro p ⟨u, q⟩ reads
    have same := (text_eq_some.1 reads).rest
    rw [sign] at same
    refine ⟨[], rest ++ q.rest, by simp, same, ?_⟩
    exact fragment.imp (·.trans (List.prefix_append _ _)) (·.trans (List.prefix_append _ _))
  near := by
    intro before front back back' _ read
    rw [text_isSome, prefix_append_cons clean] at read ⊢
    exact read

section

variable {f : Char → Bool} {stop : Char}

theorem takeWhile_stop (stops : f stop = false) (front back : List Char) :
    (front ++ stop :: back).takeWhile f = (front ++ [stop]).takeWhile f := by
  induction front with
  | nil => simp [stops]
  | cons c rest ih => simp only [List.cons_append, List.takeWhile_cons, ih]

theorem dropWhile_stop (stops : f stop = false) (front back : List Char) :
    (front ++ stop :: back).dropWhile f = (front ++ [stop]).dropWhile f ++ back := by
  induction front with
  | nil => simp [stops]
  | cons c rest ih =>
    simp only [List.cons_append, List.dropWhile_cons, ih]
    split
    · rfl
    · simp

end

/-! ### Fragments on lines of their own -/

/-- White space to the end of the text, or through a line break. -/
def EndsLine (text : List Char) : Prop :=
  text.dropWhile isBlank = [] ∨ '\n' ∈ text.takeWhile isBlank

theorem restOfLine_isSome {p : Place} : (restOfLine p).isSome ↔ EndsLine p.rest := by
  have tail : (p.rest.takeWhile isBlank).reverse.dropWhile (· != '\n') = [] ↔
      '\n' ∉ p.rest.takeWhile isBlank := by
    simp only [List.dropWhile_eq_nil_iff, List.mem_reverse, bne_iff_ne]
    exact ⟨fun all mem => all _ mem rfl, fun absent c mem same => absent (same ▸ mem)⟩
  unfold restOfLine EndsLine
  simp only [List.span_eq_takeWhile_dropWhile, List.isEmpty_iff]
  split
  · simp [*]
  · split
    · simp_all
    · simp_all

theorem restOfLine_after {p q : Place} {u : Unit} (reads : restOfLine p = some (u, q)) :
    ∃ taken, p.After taken q := by
  unfold restOfLine at reads
  simp only [List.span_eq_takeWhile_dropWhile] at reads
  have whole := List.takeWhile_append_dropWhile (p := isBlank) (l := p.rest)
  split at reads
  · next none_left =>
    cases reads
    exact ⟨p.rest.takeWhile isBlank, by
      rw [List.isEmpty_iff.1 none_left, List.append_nil] at whole
      simp [Place.past, whole], rfl⟩
  · split at reads
    · cases reads
    · cases reads
      have parts := List.takeWhile_append_dropWhile (p := (· != '\n'))
        (l := (p.rest.takeWhile isBlank).reverse)
      refine ⟨_, ?_, rfl⟩
      have blank := congrArg List.reverse parts
      rw [List.reverse_append, List.reverse_reverse] at blank
      rw [Place.past, ← List.append_assoc, blank, whole]

theorem lineStart_eq_some {p q : Place} {u : Unit} : lineStart p = some (u, q) ↔
    (p.before = none ∨ p.before = some '\n') ∧ p = q := by
  unfold lineStart
  split <;> simp_all

theorem fragmentLine_isSome {p : Place} : (fragmentLine p).isSome ↔
    (p.before = none ∨ p.before = some '\n') ∧ ∃ blank sign ahead, (∀ c ∈ blank, isBlank c = true) ∧
      (sign = "<>".toList ∨ sign = "</>".toList) ∧ p.rest = blank ++ sign ++ ahead ∧ EndsLine ahead := by
  simp only [Option.isSome_iff_exists, Prod.exists, fragmentLine, bind_eq_some, lineStart_eq_some, blanks,
    many_eq_some, Reader.oneOf, orElse_eq_some, text_eq_some, pure_eq_some, failure_eq_some]
  constructor
  · rintro ⟨_, _, _, _, ⟨start, rfl⟩, blank, m, ⟨all, -, lead⟩, _, m₁, sign, _, m₂, rest, -⟩
    have ends : EndsLine m₁.rest := restOfLine_isSome.1 (Option.isSome_iff_exists.2 ⟨_, rest⟩)
    refine ⟨start, blank, ?_⟩
    obtain ⟨_, _, reached, -, rfl⟩ | ⟨-, ⟨_, _, reached, -, rfl⟩ | ⟨-, impossible⟩⟩ := sign
    · exact ⟨_, _, all, .inl rfl, (lead.trans reached).rest, ends⟩
    · exact ⟨_, _, all, .inr rfl, (lead.trans reached).rest, ends⟩
    · exact impossible.elim
  · rintro ⟨start, blank, sign, ahead, all, signs, same, ends⟩
    have reached : p.After (blank ++ sign) ⟨(blank ++ sign).getLast?.or p.before, ahead⟩ := ⟨same, rfl⟩
    obtain ⟨m, lead, signed⟩ := Place.after_append.1 reached
    have ending : (restOfLine ⟨(blank ++ sign).getLast?.or p.before, ahead⟩).isSome :=
      restOfLine_isSome.2 ends
    obtain ⟨⟨u, q⟩, rest⟩ := Option.isSome_iff_exists.1 ending
    have stops : ∀ c ∈ m.rest.head?, isBlank c = false := by
      rw [signed.rest]
      obtain rfl | rfl := signs
      · rintro c ⟨⟩
        decide
      · rintro c ⟨⟩
        decide
    refine ⟨[], q, (), p, ⟨start, rfl⟩, blank, m, ⟨all, stops, lead⟩, ?_⟩
    obtain rfl | rfl := signs
    · exact ⟨_, _, .inl ⟨(), _, signed, rfl, rfl⟩, u, q, rest, rfl, rfl⟩
    · refine ⟨_, _, .inr ⟨?_, .inl ⟨(), _, signed, rfl, rfl⟩⟩, u, q, rest, rfl, rfl⟩
      refine unread_iff.2 fun v m' reads => ?_
      obtain ⟨_, _, other, -⟩ := bind_eq_some.1 reads
      have clash := signed.rest.symm.trans (text_eq_some.1 other).rest
      simp at clash

theorem fragmentLine_fragmentReader : FragmentReader fragmentLine where
  takes := by
    intro p v q reads
    simp only [fragmentLine, bind_eq_some, lineStart_eq_some, blanks, many_eq_some, Reader.oneOf,
      orElse_eq_some, text_eq_some, pure_eq_some, failure_eq_some] at reads
    obtain ⟨_, _, ⟨-, rfl⟩, blank, m, ⟨-, -, lead⟩, _, m₁, sign, _, m₂, rest, -, rfl⟩ := reads
    obtain ⟨ending, rest⟩ := restOfLine_after rest
    obtain ⟨_, _, reached, -, rfl⟩ | ⟨-, ⟨_, _, reached, -, rfl⟩ | ⟨-, impossible⟩⟩ := sign
    · exact ⟨_, by simp, (lead.trans reached).trans rest⟩
    · exact ⟨_, by simp, (lead.trans reached).trans rest⟩
    · exact impossible.elim
  ahead := by
    intro p x reads
    obtain ⟨-, blank, sign, ahead, all, signs, same, -⟩ :=
      fragmentLine_isSome.1 (Option.isSome_iff_exists.2 ⟨x, reads⟩)
    obtain rfl | rfl := signs
    · exact ⟨blank, '>' :: ahead, all, by simp [same], .inl ⟨ahead, rfl⟩⟩
    · exact ⟨blank, '/' :: '>' :: ahead, all, by simp [same], .inr ⟨ahead, rfl⟩⟩
  near := by
    intro before front back back' clean read
    rw [fragmentLine_isSome] at read ⊢
    obtain ⟨start, blank, sign, ahead, all, signs, same, ends⟩ := read
    have clean' : '"' ∉ blank ++ sign := by
      intro mem
      obtain mem | mem := List.mem_append.1 mem
      · exact absurd (all _ mem) (by decide)
      · obtain rfl | rfl := signs
        · exact absurd mem (by decide)
        · exact absurd mem (by decide)
    obtain ⟨middle, rfl, rfl⟩ := ends_before clean' same
    refine ⟨start, blank, sign, middle ++ '"' :: back', all, signs, List.append_assoc _ _ _, ?_⟩
    rw [EndsLine, dropWhile_stop (by decide), takeWhile_stop (by decide)] at ends ⊢
    obtain none_left | breaks := ends
    · have blank := List.dropWhile_eq_nil_iff.1 (List.append_eq_nil_iff.1 none_left).1 '"' (by simp)
      exact absurd blank (by decide)
    · exact .inr breaks

/-! ### Rows of marks -/

theorem sign_not_blank {blank : List Char} (all : ∀ c ∈ blank, isBlank c = true) : '<' ∉ blank :=
  fun mem => absurd (all _ mem) (by decide)

theorem properTag_begins {tag : List Char} (proper : ProperTag tag) (more : List Char) :
    ∃ c rest, tag ++ more = c :: rest ∧ c ≠ '>' ∧ c ≠ '/' := by
  obtain ⟨first, rest, rfl, letter, -⟩ := proper
  refine ⟨first, rest ++ more, rfl, ?_, ?_⟩
  · rintro rfl
    exact absurd letter (by decide)
  · rintro rfl
    exact absurd letter (by decide)

/-- Neither a start tag nor an end tag with a name begins as a fragment does. -/
theorem not_fragment_tag {tag : List Char} (proper : ProperTag tag) (more : List Char) :
    ¬(">".toList <+: tag ++ more ∨ "/>".toList <+: tag ++ more) ∧
      ¬(">".toList <+: '/' :: (tag ++ more) ∨ "/>".toList <+: '/' :: (tag ++ more)) := by
  obtain ⟨c, rest, opens, not_close, not_slash⟩ := properTag_begins proper more
  rw [opens]
  constructor
  · rintro (⟨_, clash⟩ | ⟨_, clash⟩)
    · exact not_close (List.cons.inj clash).1.symm
    · exact not_slash (List.cons.inj clash).1.symm
  · rintro (⟨_, clash⟩ | ⟨_, clash⟩)
    · exact absurd (List.cons.inj clash).1 (by decide)
    · exact not_close (List.cons.inj (List.cons.inj clash).2).1.symm

/-- The first sign in a row of marks is that of a tag with a name. -/
theorem not_fragmentAhead {marks : List Mark} (named : ∀ m ∈ marks, m.Named) {lead : List Char}
    (clean : '<' ∉ lead) : ¬ FragmentAhead (lead ++ writeMarks marks) := by
  rintro ⟨blank, ahead, all, same, fragment⟩
  -- On the marks; what comes before the next tag grows by each text.
  induction marks generalizing lead with
  | nil =>
    rw [writeMarks, List.flatMap_nil, List.append_nil] at same
    exact clean (by simp [same])
  | cons m rest ih =>
    have first := named m (by simp)
    have later := @ih (fun m' mem => named m' (List.mem_cons_of_mem m mem))
    have at_sign : ∀ {behind : List Char}, lead ++ '<' :: behind = blank ++ '<' :: ahead → behind = ahead :=
      fun whole => (split_unique clean (sign_not_blank all) whole).2
    rw [writeMarks_cons] at same
    cases m with
    | text spelled =>
      have clean' : '<' ∉ lead ++ spelled := fun mem => (List.mem_append.1 mem).elim clean first
      exact later clean' (by rw [List.append_assoc]; exact same)
    | start name entries =>
      obtain rfl := at_sign (by simpa [Mark.write] using same)
      exact (not_fragment_tag first.1 _).1 fragment
    | single name entries blank' =>
      obtain rfl := at_sign (by simpa [Mark.write] using same)
      exact (not_fragment_tag first.1 _).1 fragment
    | stop name =>
      have whole : lead ++ '<' :: ('/' :: (name ++ '>' :: writeMarks rest)) = blank ++ '<' :: ahead := by
        simpa [Mark.write] using same
      obtain rfl := at_sign whole
      exact (not_fragment_tag first _).2 fragment

namespace FragmentReader

variable {α : Type} {r : Reader α} {before : Option Char} {front back : List Char}

theorem none_of_not_ahead (fragments : FragmentReader r) {text : List Char}
    (absent : ¬ FragmentAhead text) : r ⟨before, text⟩ = none := by
  refine unread_iff.2 fun v q reads => ?_
  exact absent (fragments.ahead reads)

/-- No fragment starts in a text without signs that ends in a character other than white space. -/
theorem passes_solid (fragments : FragmentReader r) (clean : '<' ∉ front)
    (solid : ∀ c ∈ front.getLast?, isBlank c = false) : Passes r before front back := by
  intro passed ahead same some_ahead
  refine fragments.none_of_not_ahead ?_
  rintro ⟨blank, more, all, whole, -⟩
  have clean' : '<' ∉ ahead := fun mem => clean (by simp [same, mem])
  obtain ⟨middle, rfl, -⟩ := ends_before clean' whole.symm
  obtain ⟨last, ends⟩ := Option.isSome_iff_exists.1 (List.getLast?_isSome.2 some_ahead)
  have plain := solid last (by rw [same, List.getLast?_append, ends]; rfl)
  rw [all last (List.mem_append_left _ (List.mem_of_mem_getLast? ends))] at plain
  exact nomatch plain

theorem passes_sign (fragments : FragmentReader r) {sign : Char} (other : sign ≠ '<')
    (solid : isBlank sign = false) : Passes r before [sign] back :=
  fragments.passes_solid (by simpa using other.symm) (by simpa using solid)

/-- No fragment starts in a value that has none. -/
theorem passes_value (fragments : FragmentReader r) {value : List Char}
    (notFound : found r (quote value) = false) : Passes r (some '"') (value ++ ['"']) back := by
  intro passed ahead same some_ahead
  by_contra read
  -- Up to its first quote what is ahead is all that matters.
  have ends : '"' ∈ ahead := by
    have last : (value ++ ['"']).getLast? = some '"' := List.getLast?_concat
    rw [same, List.getLast?_append] at last
    obtain ⟨c, final⟩ := Option.isSome_iff_exists.1 (List.getLast?_isSome.2 some_ahead)
    rw [final, Option.some_or, Option.some.injEq] at last
    exact List.mem_of_mem_getLast? (last ▸ final)
  obtain ⟨front, rest, rfl, clean⟩ := List.eq_append_cons_of_mem ends
  rw [List.append_assoc, List.cons_append] at read
  have near := fragments.near rest clean (Option.isSome_iff_ne_none.2 read)
  have fails := (foundAfter_eq_false fragments.takes).1 notFound ('"' :: passed) (front ++ '"' :: rest)
    (by simp [quote, same])
  have here : passed.getLast?.or (some '"') = some (passed.getLast?.getD '"') := by
    cases passed.getLast? <;> rfl
  rw [List.getLast?_cons, Option.or_none] at fails
  rw [here, fails] at near
  exact Bool.false_ne_true near

theorem passes_entries (fragments : FragmentReader r) {entries : List (List Char × List Char)}
    (names : ∀ e ∈ entries, ProperName e.1) (notFound : ∀ e ∈ entries, found r (quote e.2) = false) :
    Passes r before (entries.flatMap written) back := by
  induction entries generalizing before with
  | nil =>
    intro passed ahead same some_ahead
    exact absurd (List.append_eq_nil_iff.1 same.symm).2 some_ahead
  | cons e rest ih =>
    have text : (e :: rest).flatMap written =
        (' ' :: e.1 ++ "=\"".toList) ++ ((e.2 ++ ['"']) ++ rest.flatMap written) := by
      simp [written]
    have named : (' ' :: e.1 ++ "=\"".toList).getLast? = some '"' := by
      rw [List.getLast?_append]
      rfl
    have later := @ih (some '"') (fun e' mem => names e' (List.mem_cons_of_mem e mem))
      (fun e' mem => notFound e' (List.mem_cons_of_mem e mem))
    rw [text]
    refine passes_append (fragments.passes_solid ?_ ?_) (passes_append ?_ ?_)
    · intro mem
      obtain mem | mem := List.mem_append.1 mem
      · obtain mem | mem := List.mem_cons.1 mem
        · exact absurd mem (by decide)
        · exact ((names e (by simp)).2 _ mem).2 rfl
      · exact absurd mem (by decide)
    · rw [named]
      rintro c ⟨⟩
      decide
    · rw [named]
      exact fragments.passes_value (notFound e (by simp))
    · rw [List.getLast?_concat]
      exact later

theorem passes_tagName (fragments : FragmentReader r) {name : List Char} (proper : ProperTag name) :
    Passes r before name back := by
  refine fragments.passes_solid ?_ fun c last => ?_
  · intro mem
    exact absurd (proper.char _ mem) (by decide)
  · exact not_blank_of_isTagChar (proper.char c (List.mem_of_mem_getLast? last))

/-- No fragment starts at the sign of a tag, since a name or a slash and a name are behind it. -/
theorem passes_opening (fragments : FragmentReader r) {m : Mark} {rest : List Mark}
    (named : ∀ m' ∈ m :: rest, m'.Named) {inner : List Char} (written : m.write = '<' :: inner)
    (passes : Passes r (some '<') inner (writeMarks rest)) :
    Passes r before m.write (writeMarks rest) := by
  have sign : Passes r before ['<'] (inner ++ writeMarks rest) := by
    intro passed ahead same some_ahead
    have first : ahead = ['<'] := by
      cases passed with
      | nil => exact same.symm
      | cons c more =>
        have nothing := (List.append_eq_nil_iff.1 (List.cons.inj same).2.symm).2
        exact absurd nothing some_ahead
    subst first
    refine fragments.none_of_not_ahead ?_
    have absent := @not_fragmentAhead (m :: rest) named [] (by simp)
    rwa [List.nil_append, writeMarks_cons, written, ← List.singleton_append, List.append_assoc] at absent
  rw [written, ← List.singleton_append]
  exact passes_append sign passes

theorem passes_mark (fragments : FragmentReader r) {m : Mark} {rest : List Mark} (named : m.Named)
    (named_rest : ∀ m ∈ rest, m.Named) (notFound : ∀ e ∈ m.entries, found r (quote e.2) = false) :
    Passes r before m.write (writeMarks rest) := by
  have all : ∀ m' ∈ m :: rest, m'.Named := List.forall_mem_cons.2 ⟨named, named_rest⟩
  cases m with
  | text spelled =>
    intro passed ahead same some_ahead
    refine fragments.none_of_not_ahead (not_fragmentAhead named_rest fun mem => named ?_)
    rw [show spelled = passed ++ ahead from same]
    exact List.mem_append_right passed mem
  | start name entries =>
    have written : (Mark.start name entries).write = '<' :: (name ++ (entries.flatMap written ++ ['>'])) := by
      simp [Mark.write]
    refine fragments.passes_opening all written (passes_append (fragments.passes_tagName named.1) ?_)
    refine passes_append (fragments.passes_entries named.2 notFound) ?_
    exact fragments.passes_sign (by decide) (by decide)
  | single name entries blank =>
    have written : (Mark.single name entries blank).write =
        '<' :: (name ++ (entries.flatMap written ++ (blank ++ ['/', '>']))) := by
      simp [Mark.write]
    refine fragments.passes_opening all written (passes_append (fragments.passes_tagName named.1) ?_)
    refine passes_append (fragments.passes_entries named.2.1 notFound) (fragments.passes_solid ?_ ?_)
    · intro mem
      obtain mem | mem := List.mem_append.1 mem
      · exact absurd (named.2.2 _ mem) (by decide)
      · exact absurd mem (by decide)
    · rw [List.getLast?_append]
      rintro c ⟨⟩
      decide
  | stop name =>
    have written : (Mark.stop name).write = '<' :: (['/'] ++ (name ++ ['>'])) := by simp [Mark.write]
    refine fragments.passes_opening all written ?_
    refine passes_append (fragments.passes_sign (by decide) (by decide)) ?_
    refine passes_append (fragments.passes_tagName named) ?_
    exact fragments.passes_sign (by decide) (by decide)

theorem notFound_writeMarks (fragments : FragmentReader r) {marks : List Mark}
    (named : ∀ m ∈ marks, m.Named)
    (notFound : ∀ m ∈ marks, ∀ e ∈ m.entries, found r (quote e.2) = false) :
    found r (writeMarks marks) = false := by
  have further : ∀ before, foundAfter r before (writeMarks marks) = false := by
    induction marks with
    | nil => exact fun before => rfl
    | cons m rest ih =>
      intro before
      have others := fun m' mem => named m' (List.mem_cons_of_mem m mem)
      have later := ih others (fun m' mem => notFound m' (List.mem_cons_of_mem m mem))
      rw [writeMarks_cons]
      exact foundAfter_append fragments.takes
        (fragments.passes_mark (named m (by simp)) others (notFound m (by simp))) (later _)
  exact further none

end FragmentReader

/-! ### The pass -/

theorem occurs_eq_found {piece : String} (some_piece : piece.toList ≠ []) (text : List Char) :
    occurs piece.toList text = found (Reader.text piece) text := by
  have further : ∀ before, occurs piece.toList text = foundAfter (Reader.text piece) before text := by
    induction text with
    | nil =>
      intro before
      simp [occurs, foundAfter, some_piece]
    | cons c rest ih =>
      intro before
      have here : startsWith piece.toList (c :: rest) = (Reader.text piece ⟨before, c :: rest⟩).isSome := by
        rw [Bool.eq_iff_iff, startsWith_iff, text_isSome]
      rw [occurs, foundAfter, here, ih (some c)]
  exact further none

theorem writeFragments_eq {framework : Framework} {text : List Char}
    (none_in : hasFragment framework text = false) : writeFragments framework text = text := by
  have others : (occurs "<></>".toList text || found fragmentLine text) = false →
      substitute fragmentLine (replaceAll "<></>".toList [] text) = text := by
    intro absent
    rw [Bool.or_eq_false_iff, ← Bool.not_eq_true, occurs_iff] at absent
    rw [replaceAll_eq_self absent.1,
      substitute_of_notFound fragmentLine_fragmentReader.takes absent.2]
  cases framework with
  | angular =>
    rw [hasFragment, Bool.or_eq_false_iff, ← Bool.not_eq_true, ← Bool.not_eq_true, occurs_iff,
      occurs_iff] at none_in
    rw [writeFragments, replaceAll_eq_self none_in.1, replaceAll_eq_self none_in.2]
  | react => exact others none_in
  | vue => exact others none_in
  | svelte => exact others none_in
  | html => exact others none_in

theorem hasFragment_writeMarks {framework : Framework} {marks : List Mark}
    (named : ∀ m ∈ marks, m.Named)
    (none_in : ∀ m ∈ marks, ∀ e ∈ m.entries, hasFragment framework (quote e.2) = false) :
    hasFragment framework (writeMarks marks) = false := by
  have start : FragmentReader (Reader.text "<>") := text_fragmentReader rfl (.inl (by decide)) (by decide)
  have stop : FragmentReader (Reader.text "</>") := text_fragmentReader rfl (.inr (by decide)) (by decide)
  have both : FragmentReader (Reader.text "<></>") :=
    text_fragmentReader rfl (.inl (by decide)) (by decide)
  have occurs_start : ∀ text, occurs "<>".toList text = found (Reader.text "<>") text :=
    occurs_eq_found (by decide)
  have occurs_stop : ∀ text, occurs "</>".toList text = found (Reader.text "</>") text :=
    occurs_eq_found (by decide)
  have occurs_both : ∀ text, occurs "<></>".toList text = found (Reader.text "<></>") text :=
    occurs_eq_found (by decide)
  have others : (∀ m ∈ marks, ∀ e ∈ m.entries,
        (occurs "<></>".toList (quote e.2) || found fragmentLine (quote e.2)) = false) →
      (occurs "<></>".toList (writeMarks marks) || found fragmentLine (writeMarks marks)) = false := by
    intro absent
    simp only [occurs_both, Bool.or_eq_false_iff] at absent ⊢
    exact ⟨both.notFound_writeMarks named fun m mem e entry => (absent m mem e entry).1,
      fragmentLine_fragmentReader.notFound_writeMarks named fun m mem e entry => (absent m mem e entry).2⟩
  -- Angular has its own pattern; the others share one.
  cases framework with
  | angular =>
    simp only [hasFragment, occurs_start, occurs_stop, Bool.or_eq_false_iff] at none_in ⊢
    exact ⟨start.notFound_writeMarks named fun m mem e entry => (none_in m mem e entry).1,
      stop.notFound_writeMarks named fun m mem e entry => (none_in m mem e entry).2⟩
  | react => exact others none_in
  | vue => exact others none_in
  | svelte => exact others none_in
  | html => exact others none_in

/-- Without a tag's sign there is no fragment. -/
theorem hasFragment_clean {framework : Framework} {text : List Char} (clean : '<' ∉ text) :
    hasFragment framework text = false := by
  have sign : ∀ piece : List Char, '<' ∈ piece → occurs piece text = false := by
    intro piece mem
    rw [← Bool.not_eq_true, occurs_iff]
    exact fun inside => clean (inside.subset mem)
  have line : found fragmentLine text = false := by
    refine (foundAfter_eq_false fragmentLine_fragmentReader.takes).2 fun passed ahead same => ?_
    refine fragmentLine_fragmentReader.none_of_not_ahead ?_
    rintro ⟨blank, more, -, rest, -⟩
    exact clean (by simp [same, rest])
  cases framework with
  | angular => rw [hasFragment, sign _ (by decide), sign _ (by decide)]; rfl
  | react => simp only [hasFragment, sign _ (by decide : '<' ∈ "<></>".toList), line, Bool.or_self]
  | vue => simp only [hasFragment, sign _ (by decide : '<' ∈ "<></>".toList), line, Bool.or_self]
  | svelte => simp only [hasFragment, sign _ (by decide : '<' ∈ "<></>".toList), line, Bool.or_self]
  | html => simp only [hasFragment, sign _ (by decide : '<' ∈ "<></>".toList), line, Bool.or_self]

end DesignComponents.Template
