import DesignComponents.Proofs.Markup.Document
import DesignComponents.Proofs.Markup.Tree
import Mathlib.Data.List.Chain
import Mathlib.Data.List.Nodup

/-! Markup as a row of marks: texts, start tags and end tags. A row of proper marks is cut at its
tags, and read mark by mark where no two texts meet. -/

set_option autoImplicit false

namespace DesignComponents.Markup

open Text Source

/-- A piece of markup as it is written. The blanks of a tag that closes itself stand before its
slash. -/
inductive Mark where
  | text (spelled : List Char)
  | start (tag : List Char) (entries : List (List Char × List Char))
  | single (tag : List Char) (entries : List (List Char × List Char)) (blank : List Char)
  | stop (tag : List Char)

/-- Attributes that are read as they are, each of them. -/
structure ProperEntries (entries : List (List Char × List Char)) : Prop where
  each : ∀ e ∈ entries, ProperEntry e
  nodup : (entries.map Prod.fst).Nodup

/-- An attribute behind one space. -/
def spaced (entry : List Char × List Char) : Attr := ⟨[' '], entry.1, entry.2⟩

theorem flatMap_written (entries : List (List Char × List Char)) :
    entries.flatMap written = (entries.map spaced).flatMap Attr.write := by
  rw [List.flatMap_map]
  rfl

theorem isBlank_of_space {blank : List Char} (blanks : ∀ c ∈ blank, c = ' ') :
    ∀ c ∈ blank, isBlank c = true := by
  intro c mem
  rw [blanks c mem]
  decide

theorem ProperEntries.spaced {entries : List (List Char × List Char)} (proper : ProperEntries entries) :
    ∀ a ∈ entries.map spaced, a.Proper := by
  intro a mem
  obtain ⟨e, entry, rfl⟩ := List.mem_map.1 mem
  obtain ⟨name, value⟩ := proper.each e entry
  exact ⟨List.cons_ne_nil _ _, isBlank_of_space fun c mem => List.mem_singleton.1 mem, name, value⟩

namespace Mark

def write : Mark → List Char
  | .text spelled => spelled
  | .start tag entries => '<' :: tag ++ entries.flatMap written ++ ['>']
  | .single tag entries blank => '<' :: tag ++ entries.flatMap written ++ blank ++ ['/', '>']
  | .stop tag => '<' :: '/' :: tag ++ ['>']

/-- The token that the mark is read as, unless it is a text. -/
def token? : Mark → Option Token
  | .text _ => none
  | .start tag entries => some (.start (String.ofList tag) (entries.flatMap written) false)
  | .single tag entries blank =>
    some (.start (String.ofList tag) (entries.flatMap written ++ blank) true)
  | .stop tag => some (.stop (String.ofList tag))

/-- A mark that is read as what it is. -/
def Proper : Mark → Prop
  | .text spelled => '<' ∉ spelled
  | .start tag entries => ProperTag tag ∧ ProperEntries entries
  | .single tag entries blank => ProperTag tag ∧ ProperEntries entries ∧ ∀ c ∈ blank, c = ' '
  | .stop tag => ProperTag tag

/-- A mark with the names of a proper one, whatever its values hold. -/
def Named : Mark → Prop
  | .text spelled => '<' ∉ spelled
  | .start tag entries => ProperTag tag ∧ ∀ e ∈ entries, ProperName e.1
  | .single tag entries blank => ProperTag tag ∧ (∀ e ∈ entries, ProperName e.1) ∧ ∀ c ∈ blank, c = ' '
  | .stop tag => ProperTag tag

theorem Proper.named {m : Mark} (proper : m.Proper) : m.Named := by
  cases m with
  | text spelled => exact proper
  | start tag entries => exact ⟨proper.1, fun e mem => (proper.2.each e mem).1⟩
  | single tag entries blank => exact ⟨proper.1, fun e mem => (proper.2.1.each e mem).1, proper.2.2⟩
  | stop tag => exact proper

def cut (m : Mark) : Cut Token :=
  match m.token? with
  | none => Cut.passing m.write
  | some t => Cut.piece t

theorem eq_text {m : Mark} (text : m.token? = none) : ∃ spelled, m = .text spelled := by
  cases m with
  | text spelled => exact ⟨spelled, rfl⟩
  | _ => exact nomatch text

theorem token_write {m : Mark} {t : Token} (proper : m.Proper) (reads : m.token? = some t)
    (before : Option Char) (rest : List Char) :
    token ⟨before, m.write ++ rest⟩ = some (t, ⟨some '>', rest⟩) := by
  cases m with
  | text spelled => simp [token?] at reads
  | start tag entries =>
    cases reads
    have read := Tag.token_read (t := ⟨false, tag, entries.map spaced, [], false⟩)
      ⟨proper.1, proper.2.spaced, by simp⟩ before rest
    simpa [write, flatMap_written, Tag.write, Tag.opening, Tag.ending, Tag.token, Tag.inner] using read
  | single tag entries blank =>
    cases reads
    have read := Tag.token_read (t := ⟨false, tag, entries.map spaced, blank, true⟩)
      ⟨proper.1, proper.2.1.spaced, isBlank_of_space proper.2.2⟩ before rest
    simpa [write, flatMap_written, Tag.write, Tag.opening, Tag.ending, Tag.token, Tag.inner] using read
  | stop tag =>
    cases reads
    have read := Tag.token_read (t := ⟨true, tag, [], [], false⟩) ⟨proper, by simp, by simp⟩ before rest
    simpa [write, Tag.write, Tag.opening, Tag.ending, Tag.token] using read

end Mark

def writeMarks (marks : List Mark) : List Char := marks.flatMap Mark.write

def cutOf (marks : List Mark) : Cut Token :=
  marks.foldr (fun m c => m.cut ++ c) (Cut.passing [])

theorem cutOf_cons (m : Mark) (rest : List Mark) : cutOf (m :: rest) = m.cut ++ cutOf rest := rfl

theorem writeMarks_cons (m : Mark) (rest : List Mark) :
    writeMarks (m :: rest) = m.write ++ writeMarks rest := rfl

theorem writeMarks_append (left right : List Mark) :
    writeMarks (left ++ right) = writeMarks left ++ writeMarks right := List.flatMap_append

theorem cutAt_writeMarks {marks : List Mark} (proper : ∀ m ∈ marks, m.Proper)
    (before : Option Char) : cutAt token ⟨before, writeMarks marks⟩ = cutOf marks := by
  induction marks generalizing before with
  | nil => rfl
  | cons m rest ih =>
    have later := ih (fun m' mem => proper m' (List.mem_cons_of_mem m mem)) none
    have first := proper m (by simp)
    rw [writeMarks_cons, cutOf_cons, Mark.cut]
    cases reads : m.token? with
    | some t =>
      simp only
      rw [cutAt_token_read (Mark.token_write first reads before _), later]
    | none =>
      obtain ⟨spelled, rfl⟩ := Mark.eq_text reads
      simp only [Mark.write]
      rw [cutAt_token_text first, later]

theorem tokens_writeMarks {marks : List Mark} (proper : ∀ m ∈ marks, m.Proper) :
    tokens (writeMarks marks) = cutOf marks :=
  cutAt_writeMarks proper none

/-! ### Attributes of a written tag -/

section

variable {entries : List (List Char × List Char)} {blank : List Char}

theorem writtenAttributes_written (proper : ProperEntries entries)
    (blanks : ∀ c ∈ blank, c = ' ') :
    (writtenAttributes (entries.flatMap written ++ blank)).entries =
      entries.map fun e => (String.ofList e.1, e.2) := by
  have names : ((entries.map spaced).map Attr.name).Nodup := by
    rw [List.map_map]
    exact proper.nodup
  rw [flatMap_written, writtenAttributes_attrs proper.spaced (isBlank_of_space blanks),
    firsts_nodup names (by simp), List.map_map]
  rfl

theorem attributesOf_written (proper : ProperEntries entries) (blanks : ∀ c ∈ blank, c = ' ') :
    (attributesOf (entries.flatMap written ++ blank)).entries =
      entries.map fun e => (String.ofList e.1, String.ofList (Entity.decode e.2)) := by
  simp [attributesOf, writtenAttributes_written proper blanks]

end

/-! ### Reading mark by mark -/

namespace Building

/-- What a cut adds to a building. -/
def run (b : Building) (c : Cut Token) : Building := (c.hits.foldl step b).appendText c.tail

theorem appendText_nil (b : Building) : b.appendText [] = b := rfl

theorem run_piece (b : Building) (t : Token) (c : Cut Token) :
    b.run (Cut.piece t ++ c) = (b.appendToken t).run c := by
  obtain ⟨hits, tail⟩ := c
  cases hits <;> simp [run, Cut.append_def, Cut.join, Cut.piece, step, appendText_nil]

theorem run_passing_piece (b : Building) (text : List Char) (t : Token) (c : Cut Token) :
    b.run (Cut.passing text ++ (Cut.piece t ++ c)) = ((b.appendText text).appendToken t).run c := by
  obtain ⟨hits, tail⟩ := c
  cases hits <;> simp [run, Cut.append_def, Cut.join, Cut.passing, Cut.piece, step]

def appendMark (b : Building) (m : Mark) : Building :=
  match m.token? with
  | none => b.appendText m.write
  | some t => b.appendToken t

def appendMarks (b : Building) (marks : List Mark) : Building := marks.foldl appendMark b

theorem appendMarks_append (b : Building) (left right : List Mark) :
    b.appendMarks (left ++ right) = (b.appendMarks left).appendMarks right :=
  List.foldl_append

/-- The building with these nodes after what it has, and so many more elements. -/
def appendAll (b : Building) (ns : List Node) : Building := ns.foldl append b

theorem append_count (b : Building) (n : Node) (count : Nat) :
    { b with count }.append n = { b.append n with count } := by
  obtain ⟨stack, roots, _⟩ := b
  cases stack <;> rfl

theorem appendAll_count (b : Building) (ns : List Node) (count : Nat) :
    { b with count }.appendAll ns = { b.appendAll ns with count } := by
  induction ns generalizing b with
  | nil => rfl
  | cons n rest ih =>
    rw [appendAll, List.foldl_cons, append_count, ← appendAll, ih]
    rfl

theorem count_appendAll (b : Building) (ns : List Node) : (b.appendAll ns).count = b.count := by
  induction ns generalizing b with
  | nil => rfl
  | cons n rest ih => rw [appendAll, List.foldl_cons, ← appendAll, ih, count_append]

/-- Inside an open element nodes become its children. -/
theorem appendAll_open (b : Building) (data : Element) (done ns : List Node) :
    { b with stack := ⟨data, done⟩ :: b.stack }.appendAll ns =
      { b with stack := ⟨data, ns.reverse ++ done⟩ :: b.stack } := by
  induction ns generalizing done with
  | nil => rfl
  | cons n rest ih =>
    have first : { b with stack := ⟨data, done⟩ :: b.stack }.append n =
        { b with stack := ⟨data, n :: done⟩ :: b.stack } := rfl
    rw [appendAll, List.foldl_cons, first, ← appendAll, ih]
    simp

/-- The end tag of the innermost open element closes that and no other. -/
theorem stop_innermost (b : Building) (data : Element) (children : List Node) :
    { b with stack := ⟨data, children⟩ :: b.stack }.appendToken (.stop data.tag) =
      b.append (.element data children.reverse) := by
  obtain ⟨stack, roots, count⟩ := b
  cases stack <;> simp [appendToken, close, unwind, append, Frame.finish]

end Building

/-- Two marks in a row that are not both texts. -/
def Mark.Apart (left right : Mark) : Prop := left.token? = none → right.token? ≠ none

/-- What lies between two tags is one text, so marks are read one by one. -/
theorem run_cutOf {marks : List Mark} (apart : marks.IsChain Mark.Apart) (b : Building) :
    b.run (cutOf marks) = b.appendMarks marks := by
  induction marks generalizing b with
  | nil => rfl
  | cons m rest ih =>
    rw [cutOf_cons, Building.appendMarks, List.foldl_cons, ← Building.appendMarks, Mark.cut,
      Building.appendMark]
    have later := ih apart.tail
    cases reads : m.token? with
    | some t =>
      simp only
      rw [Building.run_piece, later]
    | none =>
      simp only
      cases rest with
      | nil => exact congrArg (fun c => Building.run b c) (Cut.append_nil _)
      | cons m' rest =>
        -- A text is read with the tag behind it.
        have next := apart.rel reads
        obtain ⟨t, reads'⟩ := Option.ne_none_iff_exists'.1 next
        have cut_eq : cutOf (m' :: rest) = Cut.piece t ++ cutOf rest := by
          rw [cutOf_cons, Mark.cut, reads']
        rw [← later, cut_eq, Building.run_passing_piece, Building.run_piece]

theorem treeOf_writeMarks {marks : List Mark} (proper : ∀ m ∈ marks, m.Proper)
    (apart : marks.IsChain Mark.Apart) :
    treeOf (tokens (writeMarks marks)) = (Building.appendMarks {} marks).finish := by
  rw [tokens_writeMarks proper, ← run_cutOf apart]
  rfl

/-! ### Marks whose texts meet -/

namespace Building

/-- Appends marks behind a text that is still being read: texts that meet are one. -/
def appendFrom (b : Building) (lead : List Char) : List Mark → Building
  | [] => b.appendText lead
  | m :: rest =>
    match m.token? with
    | none => b.appendFrom (lead ++ m.write) rest
    | some t => ((b.appendText lead).appendToken t).appendFrom [] rest

theorem appendFrom_text (b : Building) (lead text : List Char) (rest : List Mark) :
    b.appendFrom lead (.text text :: rest) = b.appendFrom (lead ++ text) rest := rfl

theorem appendFrom_token {m : Mark} {t : Token} (reads : m.token? = some t) (b : Building)
    (lead : List Char) (rest : List Mark) :
    b.appendFrom lead (m :: rest) = ((b.appendText lead).appendToken t).appendFrom [] rest := by
  rw [appendFrom, reads]

theorem run_passing_cutOf (b : Building) (lead : List Char) (marks : List Mark) :
    b.run (Cut.passing lead ++ cutOf marks) = b.appendFrom lead marks := by
  induction marks generalizing b lead with
  | nil => exact congrArg b.run (Cut.append_nil _)
  | cons m rest ih =>
    rw [cutOf_cons, Mark.cut, appendFrom]
    cases reads : m.token? with
    | none =>
      simp only
      rw [← Cut.append_assoc, ← Cut.passing_append, ih]
    | some t =>
      simp only
      rw [run_passing_piece, ← ih, Cut.nil_append]

end Building

theorem treeOf_appendFrom {marks : List Mark} (proper : ∀ m ∈ marks, m.Proper) :
    treeOf (tokens (writeMarks marks)) = (Building.appendFrom {} [] marks).finish := by
  rw [tokens_writeMarks proper, ← Building.run_passing_cutOf, Cut.nil_append]
  rfl

/-! ### Elements in marks -/

/-- The element that a written tag opens has the attributes that its values spell. -/
theorem numbered_written {entries : List (List Char × List Char)} {blank : List Char}
    {attributes : OrderedMap Json} (proper : ProperEntries entries) (blanks : ∀ c ∈ blank, c = ' ')
    (spelled : attributes.entries =
      entries.map fun e => (String.ofList e.1, .str (String.ofList (Entity.decode e.2))))
    (number : Nat) (tag : String) :
    numbered number tag (entries.flatMap written ++ blank) =
      { id := s!"node-{number}", tag, attributes := some attributes } := by
  have same : (attributesOf (entries.flatMap written ++ blank)).mapValues Json.str = attributes := by
    refine OrderedMap.eq_of_entries ?_
    rw [OrderedMap.entries_mapValues, attributesOf_written proper blanks, spelled, List.map_map]
    rfl
  rw [numbered, same]

/-- An element that is opened, filled and closed is one node more. -/
theorem Building.stop_filled (b : Building) (data : Element) (ns : List Node) (count more : Nat) :
    { { b with count, stack := ⟨data, []⟩ :: b.stack }.appendAll ns with count := more }.appendToken
        (.stop data.tag) =
      { b.append (.element data ns) with count := more } := by
  have filled := Building.appendAll_open { b with count } data [] ns
  have stopped := Building.stop_innermost { b with count := more } data (ns.reverse ++ [])
  simp only at filled stopped ⊢
  rw [filled, stopped, Building.append_count, List.append_nil, List.reverse_reverse]

/-! ### Marks that can be read -/

def Mark.entries : Mark → List (List Char × List Char)
  | .start _ entries | .single _ entries _ => entries
  | .text _ | .stop _ => []

theorem Mark.spelledValues_token {m : Mark} {t : Token} (proper : m.Proper)
    (reads : m.token? = some t) : t.spelledValues = m.entries.map Prod.snd := by
  cases m with
  | text spelled => simp [token?] at reads
  | start tag entries =>
    cases reads
    have values := @writtenAttributes_written entries [] proper.2 (by simp)
    rw [List.append_nil] at values
    simp [Token.spelledValues, OrderedMap.values, values, Mark.entries]
  | single tag entries blank =>
    cases reads
    have values := writtenAttributes_written proper.2.1 proper.2.2
    simp [Token.spelledValues, OrderedMap.values, values, Mark.entries]
  | stop tag =>
    cases reads
    rfl

theorem spelledIn_passing (text : List Char) : spelledIn (Cut.passing text) = [text] := rfl

theorem spelledIn_piece (lead : List Char) (t : Token) (c : Cut Token) :
    spelledIn (Cut.passing lead ++ (Cut.piece t ++ c)) =
      lead :: (t.spelledValues ++ spelledIn c) := by
  obtain ⟨hits, tail⟩ := c
  cases hits <;> simp [Cut.append_def, Cut.join, Cut.passing, Cut.piece, spelledIn]

/-- Texts that lie next to each other are looked through as one, so it is the way in which they
are spelled that has to be the same. -/
theorem legible_writeMarks {write : Char → List Char} (spells : ∀ c, Entity.Spells c (write c))
    {marks : List Mark} (proper : ∀ m ∈ marks, m.Proper)
    (texts : ∀ spelled, .text spelled ∈ marks → ∃ raw : List Char, spelled = raw.flatMap write)
    (values : ∀ m ∈ marks, ∀ e ∈ m.entries, Entity.Readable e.2) :
    Legible (writeMarks marks) := by
  have further : ∀ lead : List Char,
      ∀ spelled ∈ spelledIn (Cut.passing (lead.flatMap write) ++ cutOf marks),
        Entity.Readable spelled := by
    -- On the marks, with the text that leads up to them, which grows by each text.
    induction marks with
    | nil =>
      intro lead spelled mem
      rw [cutOf, List.foldr_nil, Cut.append_nil, spelledIn_passing, List.mem_singleton] at mem
      rw [mem]
      exact Entity.readable_flatMap spells lead
    | cons m rest ih =>
      intro lead spelled mem
      have later := ih (fun m' mem => proper m' (List.mem_cons_of_mem m mem))
        (fun s mem => texts s (List.mem_cons_of_mem m mem))
        (fun m' mem => values m' (List.mem_cons_of_mem m mem))
      rw [cutOf_cons, Mark.cut] at mem
      cases reads : m.token? with
      | none =>
        obtain ⟨raw, spelling⟩ : ∃ raw : List Char, m.write = raw.flatMap write := by
          obtain ⟨s, rfl⟩ := Mark.eq_text reads
          exact texts s (by simp)
        simp only [reads, spelling] at mem
        rw [← Cut.append_assoc, ← Cut.passing_append, ← List.flatMap_append] at mem
        exact later (lead ++ raw) spelled mem
      | some t =>
        simp only [reads, spelledIn_piece, List.mem_cons, List.mem_append] at mem
        obtain rfl | mem | mem := mem
        · exact Entity.readable_flatMap spells lead
        · rw [Mark.spelledValues_token (proper m (by simp)) reads] at mem
          obtain ⟨e, entry, rfl⟩ := List.mem_map.1 mem
          exact values m (by simp) e entry
        · refine later [] spelled ?_
          rwa [List.flatMap_nil, Cut.nil_append]
  have whole := further []
  rw [Legible, tokens_writeMarks proper]
  rwa [List.flatMap_nil, Cut.nil_append] at whole

end DesignComponents.Markup
