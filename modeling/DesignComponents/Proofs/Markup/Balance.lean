import DesignComponents.Proofs.Markup.Clean
import DesignComponents.Proofs.Markup.Forest

/-! How the tags of well-formed markup are counted. The count knows no quotes: of a tag it sees
what stands before the first end sign, so a value with an end sign decides, by what stands before
that sign, whether its tag is taken for one that closes itself. -/

set_option autoImplicit false

namespace DesignComponents.Markup

open Text Reader

/-! ### Readers of tags -/

def opensTag (inside : List Char) : Bool :=
  inside.head?.any fun c => !(c == '/' || c == '!' || c == '?')

def closesTag (inside : List Char) : Bool := inside.head? == some '/'

def closesItself (inside : List Char) : Bool :=
  inside.head? != some '>' && inside.getLast? == some '/'

/-- The reader takes a tag up to the first end sign behind what the tag begins with, where it
accepts what stands before that sign. -/
structure ReadsTags (r : Reader Unit) (accept : List Char → Bool) : Prop where
  passive : Passive r
  reads : ∀ {p q u}, r p = some (u, q) ↔
    ∃ inside, accept inside = true ∧ '>' ∉ inside.tail ∧ p.After ('<' :: inside ++ ['>']) q
  /-- Narrowed white space is no matter, where a tag does not begin with it. -/
  steady : ∀ {first} (rest), isBlank first = false →
    accept (narrow (first :: rest)) = accept (first :: rest)

theorem all_notClosing {text : List Char} : (∀ c ∈ text, notClosing c = true) ↔ '>' ∉ text := by
  simp only [notClosing, bne_iff_ne]
  exact ⟨fun all mem => all _ mem rfl, fun none c mem same => none (same ▸ mem)⟩

theorem not_mem_of_tail {c : Char} {text : List Char} (first : text.head? ≠ some c)
    (others : c ∉ text.tail) : c ∉ text := by
  cases text with
  | nil => exact List.not_mem_nil
  | cons d more =>
    rw [List.mem_cons, not_or]
    exact ⟨fun same => first (congrArg some same.symm), others⟩

/-- What stands before the first end sign, and the sign. -/
theorem closing_eq_some {p q : Place} {inside : List Char} :
    (∃ m, many notClosing p = some (inside, m) ∧ ∃ u, char '>' m = some (u, q)) ↔
      '>' ∉ inside ∧ p.After (inside ++ ['>']) q := by
  simp only [many_eq_some, char_eq_some, all_notClosing]
  constructor
  · rintro ⟨m, ⟨none, -, inner⟩, u, last⟩
    exact ⟨none, inner.trans last⟩
  · rintro ⟨none, reached⟩
    obtain ⟨m, inner, last⟩ := Place.after_append.1 reached
    refine ⟨m, ⟨none, ?_, inner⟩, (), last⟩
    rw [last.rest]
    rintro c ⟨⟩
    rfl

theorem startTag_reads : ReadsTags startTag opensTag where
  passive := (passive_char _).bind fun _ => (passive_one _).bind fun _ => (passive_many _).bind fun _ =>
    passive_char _
  reads {p q u} := by
    simp only [startTag, bind_eq_some, one_eq_some]
    constructor
    · rintro ⟨_, m, mark, c, m', ⟨opens, one⟩, inner, m'', many, close⟩
      obtain ⟨none, last⟩ := closing_eq_some.1 ⟨m'', many, _, close⟩
      exact ⟨c :: inner, opens, none, ((char_eq_some.1 mark).trans one).trans last⟩
    · rintro ⟨_ | ⟨c, inner⟩, opens, none, reached⟩
      · exact nomatch opens
      obtain ⟨m, mark, reached⟩ := Place.after_cons.1 reached
      obtain ⟨m', one, last⟩ := Place.after_cons.1 reached
      obtain ⟨m'', many, _, close⟩ := closing_eq_some.2 ⟨none, last⟩
      exact ⟨(), m, char_eq_some.2 mark, c, m', ⟨opens, one⟩, inner, m'', many, close⟩
  steady rest solid := by simp [opensTag, narrow_solid solid]

theorem endTag_reads : ReadsTags endTag closesTag where
  passive := (passive_text _).bind fun _ => (passive_many _).bind fun _ => passive_char _
  reads {p q u} := by
    simp only [endTag, bind_eq_some, text_eq_some]
    constructor
    · rintro ⟨_, m, mark, inner, m', many, close⟩
      obtain ⟨none, last⟩ := closing_eq_some.1 ⟨m', many, _, close⟩
      exact ⟨'/' :: inner, rfl, none, mark.trans last⟩
    · rintro ⟨_ | ⟨c, inner⟩, closes, none, reached⟩
      · exact nomatch closes
      obtain rfl : c = '/' := by simpa [closesTag] using closes
      obtain ⟨m, mark, last⟩ := (@Place.after_append p q ['<', '/'] (inner ++ ['>'])).1 reached
      obtain ⟨m', many, _, close⟩ := closing_eq_some.2 ⟨none, last⟩
      exact ⟨(), m, mark, inner, m', many, close⟩
  steady rest solid := by simp [closesTag, narrow_solid solid]

theorem selfClosingTag_reads : ReadsTags selfClosingTag closesItself where
  passive := by
    refine (passive_char _).bind fun _ => (passive_many _).bind fun inner => ?_
    refine (passive_char _).bind fun _ => ?_
    split
    · exact passive_pure ()
    · exact passive_failure
  reads {p q u} := by
    simp only [selfClosingTag, bind_eq_some]
    constructor
    · rintro ⟨_, m, mark, inner, m', many, _, m'', close, ends⟩
      obtain ⟨none, last⟩ := closing_eq_some.1 ⟨m', many, _, close⟩
      split at ends
      · next slash =>
        obtain ⟨-, rfl⟩ := pure_eq_some.1 ends
        refine ⟨inner, ?_, fun mem => none (List.mem_of_mem_tail mem), (char_eq_some.1 mark).trans last⟩
        have first : inner.head? ≠ some '>' := fun same => none (List.mem_of_mem_head? same)
        rw [closesItself, slash, bne_iff_ne.2 first]
        rfl
      · exact (failure_eq_some.1 ends).elim
    · rintro ⟨inner, closes, none, reached⟩
      obtain ⟨first, slash⟩ : inner.head? ≠ some '>' ∧ (inner.getLast? == some '/') = true := by
        simpa [closesItself] using closes
      obtain ⟨m, mark, last⟩ := Place.after_cons.1 reached
      obtain ⟨m', many, _, close⟩ := closing_eq_some.2 ⟨not_mem_of_tail first none, last⟩
      refine ⟨(), m, char_eq_some.2 mark, inner, m', many, (), q, close, ?_⟩
      rw [if_pos slash]
      rfl
  steady {first} rest solid := by
    have last := getLast?_narrow_iff (c := '/') (by decide) (first :: rest)
    rw [closesItself, closesItself, Bool.eq_iff_iff]
    simp only [Bool.and_eq_true, beq_iff_eq, last]
    rw [narrow_solid solid]
    rfl

/-! ### Counting -/

section

variable {r : Reader Unit} {accept : List Char → Bool}

theorem ReadsTags.takes (tags : ReadsTags r accept) : Takes r := by
  intro p u q read
  obtain ⟨inside, -, -, reached⟩ := tags.reads.1 read
  exact ⟨_, by simp, reached⟩

theorem countAll_eq (text : List Char) : countAll r text = (cutAt r ⟨none, text⟩).values.length := by
  rw [countAll, cut_eq_cutAt, Place.start, Cut.values, List.length_map]

theorem ReadsTags.countAll_none (tags : ReadsTags r accept) {c : Char} {rest : List Char}
    (reads : r ⟨none, c :: rest⟩ = none) : countAll r (c :: rest) = countAll r rest := by
  rw [countAll_eq, cutAt_none tags.takes reads, Cut.values_append, Cut.values_passing, List.nil_append,
    cutAt_blind tags.takes tags.passive _ none, countAll_eq]

theorem ReadsTags.countAll_some (tags : ReadsTags r accept) {text : List Char} {u : Unit} {q : Place}
    (reads : r ⟨none, text⟩ = some (u, q)) : countAll r text = 1 + countAll r q.rest := by
  rw [countAll_eq, cutAt_some tags.takes reads, Cut.values_append, Cut.values_piece, List.length_append,
    cutAt_blind tags.takes tags.passive q.before none, countAll_eq]
  rfl

/-- Outside of tags nothing counts. -/
theorem ReadsTags.countAll_text (tags : ReadsTags r accept) {text : List Char} (plain : '<' ∉ text)
    (rest : List Char) : countAll r (text ++ rest) = countAll r rest := by
  induction text with
  | nil => rfl
  | cons c more ih =>
    rw [List.mem_cons, not_or] at plain
    rw [List.cons_append, tags.countAll_none, ih plain.2]
    refine unread_iff.2 fun u q reads => ?_
    obtain ⟨inside, -, -, reached⟩ := tags.reads.1 reads
    exact plain.1 (List.cons.inj reached.rest).1.symm

/-- What is read ends at the first end sign behind what the tag begins with. -/
theorem ReadsTags.read_iff (tags : ReadsTags r accept) {inside : List Char}
    (some_inside : inside ≠ []) (no_end : '>' ∉ inside) {rest : List Char} {u : Unit} {q : Place} :
    r ⟨none, '<' :: inside ++ '>' :: rest⟩ = some (u, q) ↔
      accept inside = true ∧ q = ⟨some '>', rest⟩ := by
  obtain ⟨c, more, rfl⟩ := List.exists_cons_of_ne_nil some_inside
  have behind : (Place.mk none ('<' :: (c :: more) ++ '>' :: rest)).After ('<' :: (c :: more) ++ ['>'])
      ⟨some '>', rest⟩ := ⟨by simp, by rw [List.getLast?_append]; rfl⟩
  rw [tags.reads]
  constructor
  · rintro ⟨taken, accepts, none, reached⟩
    have same : c :: more ++ '>' :: rest = taken ++ '>' :: q.rest := by
      simpa using (List.cons.inj reached.rest).2
    -- Both begin with one character, which is no end sign.
    have first : taken.head? ≠ some '>' := by
      intro ends
      rw [List.eq_cons_of_mem_head? ends] at same
      exact no_end (by rw [(List.cons.inj same).1]; exact List.mem_cons_self)
    obtain ⟨rfl, left⟩ := split_unique no_end (not_mem_of_tail first none) same
    refine ⟨accepts, ?_⟩
    obtain ⟨before, text⟩ := q
    have last := reached.before
    rw [List.getLast?_append] at last
    exact congr (congrArg Place.mk last) left.symm
  · rintro ⟨accepts, rfl⟩
    rw [List.mem_cons, not_or] at no_end
    exact ⟨c :: more, accepts, no_end.2, behind⟩

/-- A tag counts once, if what is seen of it is accepted. -/
theorem ReadsTags.countAll_tag (tags : ReadsTags r accept) {inside : List Char} (some_inside : inside ≠ [])
    (no_sign : '<' ∉ inside) (no_end : '>' ∉ inside) (rest : List Char) :
    countAll r ('<' :: inside ++ '>' :: rest) = (accept inside).toNat + countAll r rest := by
  cases accepts : accept inside with
  | true => exact tags.countAll_some ((tags.read_iff some_inside no_end).2 ⟨accepts, rfl⟩) (u := ())
  | false =>
    have none_read : r ⟨none, '<' :: (inside ++ '>' :: rest)⟩ = none := by
      refine unread_iff.2 fun u q reads => ?_
      rw [((tags.read_iff some_inside no_end).1 reads).1] at accepts
      exact nomatch accepts
    have no_sign' : '<' ∉ inside ++ ['>'] := by simp [no_sign]
    have passed := tags.countAll_text no_sign' rest
    rw [List.append_assoc] at passed
    rw [List.cons_append, tags.countAll_none none_read, ← List.singleton_append, passed]
    exact (Nat.zero_add _).symm

/-! ### Counting in a row of pieces -/

/-- What the count sees of a tag: all that stands before the first end sign. -/
def seen (inside : List Char) : List Char := inside.takeWhile notClosing

theorem seen_eq (inside : List Char) : '>' ∉ seen inside ∧ ∃ behind,
    inside ++ ['>'] = seen inside ++ '>' :: behind ∧ ∀ c ∈ behind, c ∈ inside ++ ['>'] := by
  refine ⟨all_notClosing.1 fun c mem => List.mem_takeWhile_imp mem, ?_⟩
  have whole : inside = seen inside ++ inside.dropWhile notClosing := List.takeWhile_append_dropWhile.symm
  cases left : inside.dropWhile notClosing with
  | nil =>
    refine ⟨[], ?_, List.forall_mem_nil _⟩
    rw [left, List.append_nil] at whole
    rw [← whole]
  | cons c more =>
    have stops := List.head?_dropWhile_not notClosing inside
    rw [left] at stops
    obtain rfl : c = '>' := by simpa [notClosing] using stops
    have apart : inside ++ ['>'] = seen inside ++ '>' :: (more ++ ['>']) := by
      nth_rewrite 1 [whole]
      rw [left, List.append_assoc, List.cons_append]
    refine ⟨more ++ ['>'], apart, fun c mem => ?_⟩
    rw [apart]
    exact List.mem_append_right _ (List.mem_cons_of_mem _ mem)

theorem seen_cons {c : Char} (no_end : c ≠ '>') (rest : List Char) : seen (c :: rest) = c :: seen rest :=
  List.takeWhile_cons_of_pos (bne_iff_ne.2 no_end)

/-- Narrowing brings in no sign. -/
theorem lacks_narrow {c : Char} (sign : c ≠ ' ') {text : List Char} (lacks : c ∉ text) :
    c ∉ narrow text := fun mem => (of_mem_narrow mem).elim sign lacks

/-- The signs of a tag stay, and the white space around them is narrowed. -/
theorem narrow_tag (lead inside behind : List Char) :
    trimRight (narrow (lead ++ '<' :: (inside ++ '>' :: behind))) =
      narrow lead ++ ('<' :: narrow inside ++ '>' :: trimRight (narrow behind)) := by
  rw [narrow_append_solid (by decide), narrow_append_solid (by decide), ← List.cons_append,
    ← List.append_assoc, trimRight_append_solid (by decide), List.append_assoc]

/-- A tag as the count sees it: up to its first end sign, and what is left behind that. -/
theorem Sign.Proper.write_seen {s : Sign} (proper : s.Proper) : '<' ∉ seen s.inside ∧ '>' ∉ seen s.inside ∧
    ∃ behind, '<' ∉ behind ∧
      ∀ rest, (Piece.sign s).write ++ rest = '<' :: (seen s.inside ++ '>' :: (behind ++ rest)) := by
  obtain ⟨unended, behind, apart, within⟩ := seen_eq s.inside
  have no_sign : '<' ∉ s.inside ++ ['>'] := by
    rw [List.mem_append, not_or]
    exact ⟨proper.no_sign, by decide⟩
  refine ⟨fun mem => no_sign (List.mem_append_left _ (List.takeWhile_subset _ mem)), unended, behind,
    fun mem => no_sign (within _ mem), fun rest => ?_⟩
  rw [Piece.write, List.cons_append, apart]
  simp

theorem ReadsTags.countAll_sign (tags : ReadsTags r accept) {s : Sign} (proper : s.Proper)
    {lead : List Char} (plain : '<' ∉ lead) : ∃ behind, '<' ∉ behind ∧ ∀ rest,
      countAll r (trimRight (narrow (lead ++ ((Piece.sign s).write ++ rest)))) =
        (accept (seen s.inside)).toNat + countAll r (trimRight (narrow (behind ++ rest))) := by
  obtain ⟨c, more, same, solid, no_end, -, -⟩ := proper.begins
  obtain ⟨no_sign_seen, unended, behind, no_sign, written⟩ := proper.write_seen
  have some_seen : seen s.inside = c :: seen more := by rw [same, seen_cons no_end]
  have some_narrow : narrow (seen s.inside) ≠ [] := by
    rw [some_seen, narrow_solid solid]
    exact List.cons_ne_nil _ _
  have accepted : accept (narrow (seen s.inside)) = accept (seen s.inside) := by
    rw [some_seen, tags.steady _ solid]
  refine ⟨behind, no_sign, fun rest => ?_⟩
  rw [written, narrow_tag, tags.countAll_text (lacks_narrow (by decide) plain),
    tags.countAll_tag some_narrow (lacks_narrow (by decide) no_sign_seen)
      (lacks_narrow (by decide) unended), accepted]

/-- In cleaned markup a tag counts if what is seen of it is accepted. What comes behind the first
end sign of a tag is text to the count, as is what comes before the next tag. -/
theorem ReadsTags.countAll_pieces (tags : ReadsTags r accept) {pieces : List Piece}
    (proper : ∀ p ∈ pieces, p.Proper) {lead : List Char} (plain : '<' ∉ lead) :
    countAll r (trimRight (narrow (lead ++ pieces.flatMap Piece.write))) =
      (pieces.filterMap Piece.sign?).countP fun s => accept (seen s.inside) := by
  -- On the pieces; the text before the next tag grows by each text, and by the end of each tag.
  induction pieces generalizing lead with
  | nil =>
    have none_left : '<' ∉ trimRight (narrow lead) := fun mem =>
      lacks_narrow (by decide) plain ((trimRightBy_leads isBlank _).subset mem)
    have passed := tags.countAll_text none_left []
    rw [List.append_nil] at passed
    rw [List.flatMap_nil, List.append_nil, passed]
    rfl
  | cons p rest ih =>
    obtain ⟨first, others⟩ := List.forall_mem_cons.1 proper
    rw [List.flatMap_cons]
    cases p with
    | text spelled =>
      have longer : '<' ∉ lead ++ spelled := by
        rw [List.mem_append, not_or]
        exact ⟨plain, first⟩
      rw [← List.append_assoc, Piece.write, ih others longer]
      rfl
    | sign s =>
      obtain ⟨behind, no_sign, counted⟩ := tags.countAll_sign first plain
      rw [counted, ih others no_sign, List.filterMap_cons, Piece.sign?, List.countP_cons]
      cases accept (seen s.inside) <;> simp [Nat.add_comm]

end

/-! ### Cleaned markup -/

theorem dropComments_pieces {pieces : List Piece} (proper : ∀ p ∈ pieces, p.Proper) :
    dropComments (pieces.flatMap Piece.write) = pieces.flatMap Piece.write := by
  induction pieces with
  | nil => rfl
  | cons p rest ih =>
    obtain ⟨first, others⟩ := List.forall_mem_cons.1 proper
    rw [List.flatMap_cons]
    cases p with
    | text spelled => rw [Piece.write, dropComments_append first, ih others]
    | sign s =>
      have no_sign : '<' ∉ s.inside ++ ['>'] := by
        rw [List.mem_append, not_or]
        exact ⟨Sign.Proper.no_sign first, by decide⟩
      have no_comment : ¬ "<!--".toList <+: '<' :: (s.inside ++ ['>'] ++ rest.flatMap Piece.write) := by
        rw [List.append_assoc]
        exact fun begins => Sign.Proper.no_comment first _ (List.cons_prefix_cons.1 begins).2
      rw [Piece.write, List.cons_append, List.cons_append, dropComments_cons no_comment,
        dropComments_append no_sign, ih others]

namespace Forest

variable {f : Forest}

theorem clean_write (proper : f.Proper) : clean f.write = trim (narrow f.write) := by
  rw [clean, collapseBlanks_eq, write, dropComments_pieces proper]

/-- Markup without white space is clean. -/
theorem clean_solid (proper : f.Proper) (some_text : f.write ≠ [])
    (solid : ∀ c ∈ f.write, isBlank c = false) : clean f.write = f.write := by
  have narrowed := narrow_append solid []
  rw [List.append_nil] at narrowed
  have whole : narrow f.write = f.write := narrowed.trans (List.append_nil _)
  have trimmed : Trimmed f.write := by
    refine ⟨some_text, fun c mem => solid c ?_, fun c mem => solid c ?_⟩
    · exact List.mem_of_mem_head? mem
    · exact List.mem_of_mem_getLast? mem
  rw [clean_write proper, whole, trimmed.trim]

theorem countAll_clean {r : Reader Unit} {accept : List Char → Bool} (tags : ReadsTags r accept)
    (proper : f.Proper) : countAll r (clean f.write) = f.signs.countP fun s => accept (seen s.inside) := by
  obtain ⟨lead, blank, same⟩ := trimRight_eq (narrow f.write)
  have counted := tags.countAll_pieces proper (List.not_mem_nil : '<' ∉ [])
  rw [List.nil_append, ← Forest.write, same, tags.countAll_text (lacks blank (by decide))] at counted
  rw [clean_write proper, counted]
  rfl

end Forest

/-! ### Balance -/

namespace Sign

/-- The tag is taken for one of an element that closes itself. -/
def looksClosed (s : Sign) : Bool := (seen s.inside).getLast? == some '/'

variable {s : Sign}

theorem Proper.seen (proper : s.Proper) : opensTag (seen s.inside) = (s.isStart || s.isSingle) ∧
    closesTag (seen s.inside) = s.isStop ∧ closesItself (seen s.inside) = s.looksClosed := by
  obtain ⟨first, rest, inside, -, no_end, opens, closes⟩ := proper.begins
  rw [looksClosed, opens, closes, inside, seen_cons no_end]
  simp [opensTag, closesTag, closesItself, no_end]

/-- No tag has an end sign before its own, and what is no tag does not end as one. -/
def Plain : Sign → Prop
  | .aside inside => '>' ∉ inside ∧ Unslashed inside
  | .start head | .single head => ∀ a ∈ head.attrs, '>' ∉ a.value
  | .stop .. => True

instance : (s : Sign) → Decidable s.Plain
  | .aside inside => inferInstanceAs (Decidable ('>' ∉ inside ∧ '/' ∉ inside.getLast?))
  | .start head | .single head => inferInstanceAs (Decidable (∀ a ∈ head.attrs, '>' ∉ a.value))
  | .stop .. => inferInstanceAs (Decidable True)

theorem looksClosed_of_plain (proper : s.Proper) (plain : s.Plain) : s.looksClosed = s.isSingle := by
  have whole : ∀ {inside : List Char}, '>' ∉ inside → Markup.seen inside = inside := by
    intro inside none
    exact List.takeWhile_eq_self_iff.2 (all_notClosing.2 none)
  have open_end : ∀ {inside : List Char}, Unslashed inside → (inside.getLast? == some '/') = false :=
    fun unslashed => beq_eq_false_iff_ne.2 unslashed
  -- Each tag is seen whole, so what it ends in tells.
  cases s with
  | aside inside =>
    rw [looksClosed, Sign.inside, whole plain.1, open_end plain.2]
    rfl
  | start head =>
    rw [looksClosed, Sign.inside, whole (Head.Proper.no_end proper plain),
      open_end (Head.Proper.unslashed proper)]
    rfl
  | single head =>
    have none : '>' ∉ head.write ++ ['/'] := by
      rw [List.mem_append, not_or]
      exact ⟨Head.Proper.no_end proper plain, by decide⟩
    rw [looksClosed, Sign.inside, whole none]
    simp [isSingle]
  | stop name gap =>
    obtain ⟨named, blank⟩ := proper
    have no_name : '>' ∉ name := lacks named.proper.tagText (by decide)
    have no_gap : '>' ∉ gap := lacks blank (by decide)
    have none : '>' ∉ '/' :: name ++ gap := by simp [no_name, no_gap]
    have some_name : name ++ gap ≠ [] := List.append_ne_nil_of_left_ne_nil named.proper.1 gap
    have last : ('/' :: name ++ gap).getLast? = (name ++ gap).getLast? :=
      List.getLast?_append_of_ne_nil ['/'] some_name
    have ends : Unslashed ('/' :: name ++ gap) := by
      rw [Unslashed, last]
      exact named.proper.unslashed.append (Blank.unslashed blank)
    rw [looksClosed, Sign.inside, whole none, open_end ends]
    rfl

end Sign

theorem countP_opens (signs : List Sign) : (signs.countP fun s => s.isStart || s.isSingle) =
    signs.countP Sign.isStart + signs.countP Sign.isSingle := by
  induction signs with
  | nil => rfl
  | cons s rest ih =>
    simp only [List.countP_cons, ih]
    cases s <;> simp [Sign.isStart, Sign.isSingle] <;> omega

namespace Forest

variable {f : Forest}

/-- The tags that are taken for elements that close themselves. -/
def looksClosed (f : Forest) : Nat := f.signs.countP Sign.looksClosed

/-- The elements that close themselves. -/
def singles (f : Forest) : Nat := f.signs.countP Sign.isSingle

def stops (f : Forest) : Nat := f.signs.countP Sign.isStop

theorem countTags_clean (proper : f.Proper) : countTags (clean f.write) =
    ⟨(f.stops + f.singles : Nat) - (f.looksClosed : Nat), f.stops, f.looksClosed⟩ := by
  have seen := fun s mem => Sign.Proper.seen (proper.signs s mem)
  have opening : countAll startTag (clean f.write) = f.stops + f.singles := by
    rw [countAll_clean startTag_reads proper, List.countP_congr fun s mem => by rw [(seen s mem).1],
      countP_opens, countP_isStart]
    rfl
  have closing : countAll endTag (clean f.write) = f.stops := by
    rw [countAll_clean endTag_reads proper, List.countP_congr fun s mem => by rw [(seen s mem).2.1]]
    rfl
  have closed : countAll selfClosingTag (clean f.write) = f.looksClosed := by
    rw [countAll_clean selfClosingTag_reads proper,
      List.countP_congr fun s mem => by rw [(seen s mem).2.2]]
    rfl
  rw [countTags, opening, closing, closed]

theorem balanced_clean (proper : f.Proper) :
    balanced (clean f.write) = true ↔ f.looksClosed = f.singles := by
  rw [balanced, countTags_clean proper, beq_iff_eq]
  simp only
  omega

/-- Where no value holds an end sign all tags are taken for what they are. -/
theorem looksClosed_of_plain (proper : f.Proper) (plain : ∀ s ∈ f.signs, s.Plain) :
    f.looksClosed = f.singles :=
  List.countP_congr fun s mem => by rw [Sign.looksClosed_of_plain (proper.signs s mem) (plain s mem)]

end Forest

/-! ### Drawings -/

/-- The name that is looked for, in letters of any case. -/
def NamesSvg (name : List Char) : Prop :=
  List.Forall₂ (fun small c => sameLetter small c = true) "svg".toList name

theorem svgStart_read {name : List Char} {c : Char} (named : NamesSvg name)
    (ends : (isBlank c || c == '>' || c == '/') = true) (before : Option Char) (rest : List Char) :
    ∃ q, svgStart ⟨before, '<' :: name ++ c :: rest⟩ = some ((), q) := by
  have last : (Place.mk (name.getLast?.or (some '<')) (c :: rest)).After [c] ⟨some c, rest⟩ := ⟨rfl, rfl⟩
  refine ⟨⟨some c, rest⟩, ?_⟩
  simp only [svgStart, bind_eq_some]
  refine ⟨(), ⟨some '<', name ++ c :: rest⟩, rfl, (), _, letters_eq_some.2 ⟨name, named, ?_⟩, c, _,
    one_eq_some.2 ⟨ends, last⟩, rfl⟩
  exact Place.after_mk _ _ _

/-- What is read behind some text is found. -/
theorem found_append {α : Type} {r : Reader α} (takes : Takes r) {passed ahead : List Char} {v : α}
    {q : Place} (reads : r ⟨passed.getLast?, ahead⟩ = some (v, q)) : found r (passed ++ ahead) = true := by
  by_contra absent
  have fails := (foundAfter_eq_false takes).1 (Bool.eq_false_iff.2 absent) passed ahead rfl
  rw [Option.or_none, reads] at fails
  exact nomatch fails

theorem takes_svgStart : Takes svgStart := by
  intro p v q reads
  simp only [svgStart, bind_eq_some, letters_eq_some, char_eq_some, one_eq_some] at reads
  obtain ⟨_, m, mark, _, m', ⟨name, -, named⟩, c, m'', ⟨-, last⟩, done⟩ := reads
  obtain ⟨-, rfl⟩ := pure_eq_some.1 done
  exact ⟨_, by simp, (mark.trans named).trans last⟩

namespace Forest

/-- The markup of a drawing. -/
def Draws (f : Forest) : Prop := ∃ s ∈ f.signs, ∃ head ∈ s.head?, NamesSvg head.name

theorem draws_of_svg {head : Head} {f : Forest} (named : head.name = "svg".toList)
    (mem : .start head ∈ f.signs) : f.Draws := by
  refine ⟨_, mem, head, rfl, ?_⟩
  rw [named]
  exact .cons (by decide) (.cons (by decide) (.cons (by decide) .nil))

theorem hasSvg_clean {f : Forest} (proper : f.Proper) (draws : f.Draws) :
    hasSvg (clean f.write) = true := by
  obtain ⟨s, mem, head, held, named⟩ := draws
  obtain ⟨before, after, text⟩ := write_of_mem mem
  obtain ⟨⟨name, -⟩, behind, inside, stops⟩ := (proper.signs s mem).behind_name held
  have cleaned : clean f.write = trimLeft (narrow before) ++
      ('<' :: head.name ++ (narrow behind ++ '>' :: trimRight (narrow after))) := by
    rw [clean_write proper, text, inside, narrow_append_solid (by decide), List.append_assoc,
      narrow_append name.not_blank, narrow_append_solid (by decide), trim_append_solid (by decide),
      ← List.append_assoc, trimRight_append_solid (by decide)]
    simp
  -- Narrowed, the character behind the name is of its class.
  obtain ⟨c, rest, same, ends⟩ : ∃ c rest, narrow behind ++ '>' :: trimRight (narrow after) = c :: rest ∧
      (isBlank c || c == '>' || c == '/') = true := by
    have first := head?_narrow behind
    cases behind with
    | nil => exact ⟨'>', _, rfl, rfl⟩
    | cons d more =>
      rw [List.eq_cons_of_mem_head? first]
      refine ⟨_, _, rfl, ?_⟩
      obtain blank | rfl := stops d rfl
      · simp only [if_pos blank]
        decide
      · decide
  obtain ⟨q, reads⟩ := svgStart_read named ends (trimLeft (narrow before)).getLast? rest
  rw [hasSvg, cleaned, same]
  exact found_append takes_svgStart reads

end Forest

end DesignComponents.Markup
