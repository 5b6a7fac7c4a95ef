import DesignComponents.Text.Reader
import Mathlib.Data.List.Forall2
import Mathlib.Data.List.TakeDrop
import Mathlib.Data.List.TakeWhile

/-! What readers take. Each primitive reader has one law that says what it takes and where it
leaves off; from these follow the shapes of what composed readers take. -/

set_option autoImplicit false

namespace DesignComponents.Text

variable {α β : Type}

/-! ### Pieces of fixed text -/

theorem dropPrefix?_eq_some {piece text rest : List Char} :
    dropPrefix? piece text = some rest ↔ text = piece ++ rest := by
  induction piece generalizing text with
  | nil => simp [dropPrefix?]
  | cons p piece ih =>
    cases text with
    | nil => simp [dropPrefix?]
    | cons c text =>
      by_cases same : p = c
      · simp [dropPrefix?, same, ih]
      · simp [dropPrefix?, same, Ne.symm same]

/-- What comes before the first `piece` that ends at `after`, less what was passed over. -/
theorem breakAfter_eq_some {piece passed text before after : List Char}
    (found : breakAfter piece passed text = some (before, after)) :
    ∃ skipped, before = passed.reverse ++ skipped ∧ text = skipped ++ piece ++ after := by
  induction text generalizing passed with
  | nil =>
    cases piece with
    | nil => exact ⟨[], by simpa [breakAfter, eq_comm] using found⟩
    | cons p piece => simp [breakAfter] at found
  | cons c rest ih =>
    rw [breakAfter] at found
    split at found
    · next here =>
      cases found
      exact ⟨[], by simp, by simpa using dropPrefix?_eq_some.1 here⟩
    · obtain ⟨skipped, rfl, rfl⟩ := ih found
      exact ⟨c :: skipped, by simp, by simp⟩

namespace Place

/-- `q` is the place that is reached from `p` by reading `taken`. -/
structure After (p : Place) (taken : List Char) (q : Place) : Prop where
  rest : p.rest = taken ++ q.rest
  before : q.before = taken.getLast?.or p.before

theorem after_nil {p q : Place} : p.After [] q ↔ p = q := by
  constructor
  · rintro ⟨rest, before⟩
    cases p
    cases q
    simp_all
  · rintro rfl
    exact ⟨rfl, rfl⟩

theorem After.trans {p m q : Place} {first last : List Char} (left : p.After first m)
    (right : m.After last q) : p.After (first ++ last) q := by
  constructor
  · rw [left.rest, right.rest, List.append_assoc]
  · rw [right.before, left.before, List.getLast?_append, Option.or_assoc]

theorem after_append {p q : Place} {first last : List Char} :
    p.After (first ++ last) q ↔ ∃ m, p.After first m ∧ m.After last q := by
  constructor
  · rintro ⟨rest, before⟩
    refine ⟨⟨first.getLast?.or p.before, last ++ q.rest⟩, ⟨by simp [rest], rfl⟩, rfl, ?_⟩
    rw [before, List.getLast?_append, Option.or_assoc]
  · rintro ⟨m, left, right⟩
    exact left.trans right

theorem after_cons {p q : Place} {c : Char} {taken : List Char} :
    p.After (c :: taken) q ↔ ∃ m, p.After [c] m ∧ m.After taken q :=
  @after_append p q [c] taken

theorem After.length {p q : Place} {taken : List Char} (reached : p.After taken q) :
    p.rest.length = taken.length + q.rest.length := by
  rw [reached.rest, List.length_append]

theorem After.unique {p q : Place} {taken taken' : List Char} (reached : p.After taken q)
    (reached' : p.After taken' q) : taken = taken' :=
  List.append_cancel_right (reached.rest.symm.trans reached'.rest)

/-- The place after a piece of the text that lies ahead. -/
theorem after_mk (before : Option Char) (taken rest : List Char) :
    (Place.mk before (taken ++ rest)).After taken ⟨taken.getLast?.or before, rest⟩ :=
  ⟨rfl, rfl⟩

/-- What is read before a cut is read as well where the text ends at the cut. -/
theorem after_cut {before after : Option Char} {front middle back taken : List Char} :
    (Place.mk before (front ++ back)).After taken ⟨after, middle ++ back⟩ ↔
      (Place.mk before front).After taken ⟨after, middle⟩ := by
  constructor
  · rintro ⟨rest, before⟩
    refine ⟨?_, before⟩
    simpa [← List.append_assoc] using rest
  · rintro ⟨rest, before⟩
    refine ⟨?_, before⟩
    simpa [← List.append_assoc] using rest

end Place

namespace Reader

/-! ### Composed readers -/

theorem unread_iff {r : Reader α} {p : Place} : r p = none ↔ ∀ v q, r p ≠ some (v, q) :=
  Option.eq_none_iff_forall_ne_some.trans Prod.forall

theorem bind_eq_some {r : Reader α} {f : α → Reader β} {p : Place} {x : β × Place} :
    (r >>= f) p = some x ↔ ∃ v m, r p = some (v, m) ∧ f v m = some x := by
  simp [bind, StateT.bind, Option.bind_eq_some_iff]

theorem pure_eq_some {v w : α} {p q : Place} :
    (pure v : Reader α) p = some (w, q) ↔ v = w ∧ p = q := by
  change some (v, p) = some (w, q) ↔ v = w ∧ p = q
  simp

theorem failure_eq_some {x : α × Place} {p : Place} :
    (failure : Reader α) p = some x ↔ False := by
  simp [failure, StateT.failure]

theorem map_eq_some {r : Reader α} {f : α → β} {p q : Place} {w : β} :
    (f <$> r) p = some (w, q) ↔ ∃ v, r p = some (v, q) ∧ f v = w := by
  simp [Functor.map, StateT.map, Option.bind_eq_some_iff]

theorem orElse_eq_some {r s : Reader α} {p : Place} {x : α × Place} :
    (r <|> s) p = some x ↔ r p = some x ∨ r p = none ∧ s p = some x := by
  simp only [HOrElse.hOrElse, OrElse.orElse, Alternative.orElse, StateT.orElse]
  cases r p <;> simp

theorem optional_eq_some {r : Reader α} {p q : Place} {v : Option α} :
    optional r p = some (v, q) ↔
      (∃ w, r p = some (w, q) ∧ some w = v) ∨ r p = none ∧ none = v ∧ p = q := by
  simp only [optional, orElse_eq_some, map_eq_some, pure_eq_some]
  cases read : r p with
  | none =>
    have none_mapped : (some <$> r) p = none := by simp [Functor.map, StateT.map, read]
    simp [none_mapped]
  | some x =>
    have some_mapped : (some <$> r) p = some (some x.1, x.2) := map_eq_some.2 ⟨x.1, read, rfl⟩
    simp [some_mapped]

/-! ### Primitive readers -/

section

variable {f : Char → Bool} {p q : Place} {u : Unit}

theorem one_eq_some {c : Char} : one f p = some (c, q) ↔ f c = true ∧ p.After [c] q := by
  obtain ⟨before, rest⟩ := p
  obtain ⟨before', rest'⟩ := q
  cases rest with
  | nil => simpa [one] using fun _ h => by simpa using h.rest
  | cons d rest =>
    constructor
    · intro reads
      by_cases holds : f d = true
      · simp only [one, holds, if_true, Option.some.injEq, Prod.mk.injEq, Place.mk.injEq] at reads
        obtain ⟨rfl, rfl, rfl⟩ := reads
        exact ⟨holds, rfl, rfl⟩
      · simp [one, holds] at reads
    · rintro ⟨holds, ⟨rest_eq, before_eq⟩⟩
      simp only [List.cons_append, List.nil_append, List.cons.injEq] at rest_eq
      obtain ⟨rfl, rfl⟩ := rest_eq
      simp only [List.getLast?_singleton, Option.some_or] at before_eq
      simp [one, holds, before_eq]

theorem char_eq_some {c : Char} : char c p = some (u, q) ↔ p.After [c] q := by
  simp only [char, bind_eq_some, pure_eq_some, one_eq_some, beq_iff_eq]
  constructor
  · rintro ⟨d, m, ⟨rfl, reached⟩, -, rfl⟩
    exact reached
  · intro reached
    exact ⟨c, q, ⟨rfl, reached⟩, trivial, rfl⟩

theorem text_eq_some {piece : String} :
    text piece p = some (u, q) ↔ p.After piece.toList q := by
  simp only [text, Option.map_eq_some_iff, dropPrefix?_eq_some, Prod.mk.injEq]
  constructor
  · rintro ⟨rest, ahead, -, rfl⟩
    exact ⟨ahead, rfl⟩
  · rintro ⟨rest_eq, before_eq⟩
    refine ⟨q.rest, rest_eq, trivial, ?_⟩
    rw [Place.past, ← before_eq]

theorem letters_eq_some {word : String} :
    letters word p = some (u, q) ↔ ∃ taken,
      List.Forall₂ (fun small c => sameLetter small c = true) word.toList taken ∧ p.After taken q := by
  have further : ∀ (smalls : List Char) (p : Place),
      (smalls.forM (fun small => do let _ ← one (sameLetter small)) : Reader Unit) p = some (u, q) ↔
        ∃ taken, List.Forall₂ (fun small c => sameLetter small c = true) smalls taken ∧
          p.After taken q := by
    intro smalls
    induction smalls with
    | nil =>
      intro p
      refine pure_eq_some.trans ⟨?_, ?_⟩
      · rintro ⟨-, rfl⟩
        exact ⟨[], .nil, Place.after_nil.2 rfl⟩
      · rintro ⟨_, ⟨⟩, reached⟩
        exact ⟨rfl, Place.after_nil.1 reached⟩
    | cons small rest ih =>
      intro p
      refine bind_eq_some.trans ⟨?_, ?_⟩
      · rintro ⟨_, m, read, others⟩
        obtain ⟨c, _, one, done⟩ := bind_eq_some.1 read
        obtain ⟨same, first⟩ := one_eq_some.1 one
        obtain ⟨-, rfl⟩ := pure_eq_some.1 done
        obtain ⟨taken, further, last⟩ := (ih _).1 others
        exact ⟨c :: taken, .cons same further, first.trans last⟩
      · rintro ⟨_ | ⟨c, taken⟩, others, reached⟩
        · exact nomatch others
        cases others with
        | cons same others =>
          obtain ⟨m, first, last⟩ := Place.after_cons.1 reached
          refine ⟨(), m, bind_eq_some.2 ⟨c, m, one_eq_some.2 ⟨same, first⟩, rfl⟩, (ih m).2 ?_⟩
          exact ⟨taken, others, last⟩
  exact further word.toList p

/-- One of some words, none of which begins another. -/
theorem oneOf_eq_some {words : List String} {word : String}
    (apart : ∀ v ∈ words, ∀ w ∈ words, v.toList <+: w.toList → v = w) :
    oneOf words p = some (word, q) ↔ word ∈ words ∧ p.After word.toList q := by
  induction words with
  | nil => simp [oneOf, failure_eq_some]
  | cons first rest ih =>
    have others := ih fun v known w known' =>
      apart v (List.mem_cons_of_mem first known) w (List.mem_cons_of_mem first known')
    have here : (do text first; pure first : Reader String) p = some (word, q) ↔
        first = word ∧ p.After first.toList q := by
      simp only [bind_eq_some, text_eq_some, pure_eq_some]
      exact ⟨fun ⟨_, _, reached, same, stay⟩ => ⟨same, stay ▸ reached⟩,
        fun ⟨same, reached⟩ => ⟨(), q, reached, same, rfl⟩⟩
    rw [oneOf, orElse_eq_some, here, others, List.mem_cons]
    constructor
    · rintro (⟨rfl, reached⟩ | ⟨-, known, reached⟩)
      · exact ⟨.inl rfl, reached⟩
      · exact ⟨.inr known, reached⟩
    · rintro ⟨rfl | known, reached⟩
      · exact .inl ⟨rfl, reached⟩
      by_cases same : first = word
      · exact .inl ⟨same, same ▸ reached⟩
      -- Where the first word stood here too, one of the two would begin the other.
      refine .inr ⟨?_, known, reached⟩
      refine unread_iff.2 fun v m reads => ?_
      obtain ⟨_, m', stands, -⟩ := bind_eq_some.1 reads
      have begins : first.toList <+: p.rest := ⟨_, (text_eq_some.1 stands).rest.symm⟩
      have begins' : word.toList <+: p.rest := ⟨_, reached.rest.symm⟩
      have mem := List.mem_cons_of_mem first known
      obtain shorter | longer := List.prefix_or_prefix_of_prefix begins begins'
      · exact same (apart first List.mem_cons_self word mem shorter)
      · exact same (apart word mem first List.mem_cons_self longer).symm

/-- One of two words and a sign behind it. -/
theorem accepts_letters {first second : String} {sign : Char} {text : List Char}
    (accepted : accepts (do letters first <|> letters second; char sign) text = true) :
    ∃ word ∈ [first, second], ∃ taken rest, text = taken ++ sign :: rest ∧
      List.Forall₂ (fun small c => sameLetter small c = true) word.toList taken := by
  obtain ⟨⟨u, q⟩, reads⟩ := Option.isSome_iff_exists.1 accepted
  obtain ⟨_, m, word, after⟩ := bind_eq_some.1 reads
  have after := (char_eq_some.1 after).rest
  have behind : ∀ taken, (Place.start text).After taken m → text = taken ++ sign :: q.rest := by
    intro taken reached
    rw [← List.singleton_append, ← after]
    exact reached.rest
  obtain word | ⟨-, word⟩ := orElse_eq_some.1 word
  · obtain ⟨taken, same, reached⟩ := letters_eq_some.1 word
    exact ⟨first, by simp, taken, q.rest, behind taken reached, same⟩
  · obtain ⟨taken, same, reached⟩ := letters_eq_some.1 word
    exact ⟨second, by simp, taken, q.rest, behind taken reached, same⟩

theorem many_eq_some {taken : List Char} :
    many f p = some (taken, q) ↔
      (∀ c ∈ taken, f c = true) ∧ (∀ c ∈ q.rest.head?, f c = false) ∧ p.After taken q := by
  obtain ⟨before, rest⟩ := p
  obtain ⟨before', rest'⟩ := q
  simp only [many, List.span_eq_takeWhile_dropWhile, Option.some.injEq, Prod.mk.injEq,
    Place.past, Place.mk.injEq]
  constructor
  · rintro ⟨rfl, rfl, rfl⟩
    refine ⟨fun c mem => List.mem_takeWhile_imp mem, ?_, ?_⟩
    · intro c mem
      have := List.head?_dropWhile_not f rest
      simp only [Option.mem_def] at mem
      simpa [mem] using this
    · exact ⟨by simp, rfl⟩
  · rintro ⟨all, stops, ⟨rest_eq, before_eq⟩⟩
    simp only at rest_eq before_eq stops
    have none_more : rest'.takeWhile f = [] := by
      cases rest' with
      | nil => rfl
      | cons c cs => simp [stops c rfl]
    have all_more : rest'.dropWhile f = rest' := by
      cases rest' with
      | nil => rfl
      | cons c cs => simp [stops c rfl]
    rw [rest_eq, List.takeWhile_append_of_pos all, List.dropWhile_append_of_pos all, none_more,
      all_more, List.append_nil, before_eq]
    exact ⟨rfl, rfl, rfl⟩

/-- There is one way to cut a text where a class of characters ends. -/
theorem span_unique {left left' right right' : List Char} (same : left ++ right = left' ++ right')
    (all : ∀ c ∈ left, f c = true) (stops : ∀ c ∈ right.head?, f c = false)
    (all' : ∀ c ∈ left', f c = true) (stops' : ∀ c ∈ right'.head?, f c = false) :
    left = left' ∧ right = right' := by
  have first : many f ⟨none, left ++ right⟩ = some (left, ⟨left.getLast?.or none, right⟩) :=
    many_eq_some.2 ⟨all, stops, Place.after_mk _ _ _⟩
  have second : many f ⟨none, left' ++ right'⟩ = some (left', ⟨left'.getLast?.or none, right'⟩) :=
    many_eq_some.2 ⟨all', stops', Place.after_mk _ _ _⟩
  rw [same, second] at first
  simp only [Option.some.injEq, Prod.mk.injEq, Place.mk.injEq] at first
  exact ⟨first.1.symm, first.2.2.symm⟩

/-- There is one way to cut a text at the first of a sign. -/
theorem split_unique {sign : Char} {left left' right right' : List Char} (plain : sign ∉ left)
    (plain' : sign ∉ left') (same : left ++ sign :: right = left' ++ sign :: right') :
    left = left' ∧ right = right' := by
  have other : ∀ {text : List Char}, sign ∉ text → ∀ c ∈ text, (c != sign) = true := by
    intro text plain c mem
    exact bne_iff_ne.2 fun same => plain (same ▸ mem)
  have stops : ∀ {rest : List Char}, ∀ c ∈ (sign :: rest).head?, (c != sign) = false := by
    rintro rest c ⟨⟩
    exact bne_self_eq_false sign
  have both := span_unique same (other plain) stops (other plain') stops
  exact ⟨both.1, (List.cons.inj both.2).2⟩

theorem atLeast_eq_some {least : Nat} {taken : List Char} :
    atLeast least f p = some (taken, q) ↔ least ≤ taken.length ∧
      (∀ c ∈ taken, f c = true) ∧ (∀ c ∈ q.rest.head?, f c = false) ∧ p.After taken q := by
  simp only [atLeast, bind_eq_some, many_eq_some]
  constructor
  · rintro ⟨xs, m, reads, done⟩
    by_cases enough : least ≤ xs.length
    · rw [if_pos enough, pure_eq_some] at done
      obtain ⟨rfl, rfl⟩ := done
      exact ⟨enough, reads⟩
    · simp [enough, failure_eq_some] at done
  · rintro ⟨enough, reads⟩
    exact ⟨taken, q, reads, by rw [if_pos enough, pure_eq_some]; exact ⟨rfl, rfl⟩⟩

theorem many1_eq_some {taken : List Char} :
    many1 f p = some (taken, q) ↔ taken ≠ [] ∧
      (∀ c ∈ taken, f c = true) ∧ (∀ c ∈ q.rest.head?, f c = false) ∧ p.After taken q := by
  rw [many1, atLeast_eq_some, Nat.one_le_iff_ne_zero, Ne, List.length_eq_zero_iff]

theorem through_after {piece : String} {before : List Char} (some_piece : piece.toList ≠ [])
    (reads : through piece p = some (before, q)) : p.After (before ++ piece.toList) q := by
  simp only [through, Option.map_eq_some_iff, Prod.mk.injEq, Prod.exists] at reads
  obtain ⟨before, after, breaks, rfl, rfl⟩ := reads
  obtain ⟨skipped, same, ahead⟩ := breakAfter_eq_some breaks
  simp only [List.reverse_nil, List.nil_append] at same
  subst same
  refine ⟨by simpa [Place.past] using ahead, ?_⟩
  rw [Place.past, List.getLast?_append]
  obtain ⟨last, ends⟩ := Option.isSome_iff_exists.1 (List.getLast?_isSome.2 some_piece)
  simp [ends]

theorem wordStart_eq_some :
    wordStart p = some (u, q) ↔ p.before.any isWord = false ∧ p = q := by
  unfold wordStart
  cases p.before.any isWord <;> simp

end

/-! ### Reading over and over -/

/-- `r` is read again and again from `p` on, and is not read at `q`. -/
inductive Repeats (r : Reader Unit) : Place → Place → Prop where
  | stop {p : Place} : r p = none → Repeats r p p
  | step {p m q : Place} {u : Unit} : r p = some (u, m) → Repeats r m q → Repeats r p q

/-- Whatever is read takes a character of the text. -/
def Takes (r : Reader α) : Prop :=
  ∀ ⦃p v q⦄, r p = some (v, q) → ∃ taken, taken ≠ [] ∧ p.After taken q

theorem Takes.shortens {r : Reader α} (takes : Takes r) {p q : Place} {v : α}
    (reads : r p = some (v, q)) : q.rest.length < p.rest.length := by
  obtain ⟨taken, some_taken, reached⟩ := takes reads
  have := List.length_pos_iff.2 some_taken
  have := reached.length
  omega

theorem Repeats.after {r : Reader Unit} (takes : Takes r) {p q : Place} (repeats : Repeats r p q) :
    ∃ taken, p.After taken q := by
  induction repeats with
  | stop _ => exact ⟨[], Place.after_nil.2 rfl⟩
  | step reads _ ih =>
    obtain ⟨first, -, reached⟩ := takes reads
    obtain ⟨others, further⟩ := ih
    exact ⟨_, reached.trans further⟩

theorem repeats_skipManyFrom {r : Reader Unit} (takes : Takes r) {fuel : List Char} {p : Place}
    (enough : p.rest.length ≤ fuel.length) : Repeats r p (skipManyFrom r fuel p) := by
  -- On the fuel: a step takes one of it, and no less of the text.
  induction fuel generalizing p with
  | nil =>
    refine .stop ?_
    refine unread_iff.2 fun u q reads => ?_
    have := takes.shortens reads
    simp only [List.length_nil] at enough
    omega
  | cons c fuel ih =>
    rw [skipManyFrom]
    cases reads : r p with
    | none => exact .stop reads
    | some x =>
      have := takes.shortens reads
      simp only [List.length_cons] at enough
      exact .step reads (ih (by omega))

theorem Repeats.unique {r : Reader Unit} {p q q' : Place} (first : Repeats r p q)
    (second : Repeats r p q') : q = q' := by
  induction first with
  | stop none_read =>
    cases second with
    | stop _ => rfl
    | step reads _ => simp [none_read] at reads
  | step reads _ ih =>
    cases second with
    | stop none_read => simp [none_read] at reads
    | step reads' further =>
      rw [reads] at reads'
      cases reads'
      exact ih further

theorem skipMany_eq_some {r : Reader Unit} (takes : Takes r) {p q : Place} {u : Unit} :
    skipMany r p = some (u, q) ↔ Repeats r p q := by
  have repeats := repeats_skipManyFrom takes (Nat.le_refl p.rest.length)
  simp only [skipMany, Option.some.injEq, Prod.mk.injEq, true_and]
  constructor
  · rintro rfl
    exact repeats
  · exact repeats.unique

/-! ### Exact readers

Most readers end at a fixed character, so what they take is settled by its shape alone. -/

/-- The reader takes precisely the pieces of a shape, whatever comes after them. -/
def Exact (r : Reader α) (Shape : Option Char → List Char → α → Prop) : Prop :=
  ∀ p v q, r p = some (v, q) ↔ ∃ taken, taken ≠ [] ∧ Shape p.before taken v ∧ p.After taken q

/-- What cutting asks of a reader: it takes something, and the text beyond what it takes can only
make it take more. -/
structure Regular (r : Reader α) : Prop where
  takes : Takes r
  /-- What is read before a cut is read as well where the text ends at the cut. -/
  stays : ∀ {before after front middle back v},
    r ⟨before, front ++ back⟩ = some (v, ⟨after, middle ++ back⟩) →
      r ⟨before, front⟩ = some (v, ⟨after, middle⟩)
  /-- Where something is read, something is read however the text goes on. -/
  grows : ∀ {before front back}, r ⟨before, front ++ back⟩ = none → r ⟨before, front⟩ = none

section

variable {r : Reader α} {Shape : Option Char → List Char → α → Prop}

theorem Exact.takes (exact : Exact r Shape) : Takes r := by
  intro p v q reads
  obtain ⟨taken, some_taken, -, reached⟩ := (exact _ _ _).1 reads
  exact ⟨taken, some_taken, reached⟩

/-- The text beyond a piece is of no matter. -/
theorem Exact.cut (exact : Exact r Shape) {before after : Option Char} {front middle back : List Char}
    {v : α} : r ⟨before, front ++ back⟩ = some (v, ⟨after, middle ++ back⟩) ↔
      r ⟨before, front⟩ = some (v, ⟨after, middle⟩) := by
  simp only [exact _ _ _, Place.after_cut]

theorem Exact.regular (exact : Exact r Shape) : Regular r where
  takes := exact.takes
  stays := exact.cut.1
  grows none_read := by
    refine unread_iff.2 fun v q reads => ?_
    rw [exact.cut.2 reads] at none_read
    exact nomatch none_read

end

/-- Repetitions up to a cut are the same where the text ends at the cut. -/
theorem Repeats.stays {r : Reader Unit} (regular : Regular r) {p q : Place}
    (repeats : Repeats r p q) {before after : Option Char} {front middle back : List Char}
    (start : p = ⟨before, front ++ back⟩) (stop : q = ⟨after, middle ++ back⟩) :
    Repeats r ⟨before, front⟩ ⟨after, middle⟩ := by
  induction repeats generalizing before front with
  | stop none_read =>
    rw [start] at stop none_read
    simp only [Place.mk.injEq, List.append_cancel_right_eq] at stop
    obtain ⟨rfl, rfl⟩ := stop
    exact .stop (regular.grows none_read)
  | @step p m q u reads further ih =>
    obtain ⟨others, reached⟩ := further.after regular.takes
    -- The steps behind this one end at the cut, so this one ends before it.
    have left : m = ⟨m.before, others ++ middle ++ back⟩ := by
      rw [List.append_assoc]
      have ahead := reached.rest
      rw [stop] at ahead
      rw [← ahead]
    rw [start, left] at reads
    exact .step (regular.stays reads) (ih left stop)

theorem Takes.map {r : Reader α} (takes : Takes r) (f : α → β) : Takes (f <$> r) := by
  intro p v q reads
  obtain ⟨w, reads, -⟩ := map_eq_some.1 reads
  exact takes reads

theorem Takes.orElse {r s : Reader α} (left : Takes r) (right : Takes s) : Takes (r <|> s) := by
  intro p v q reads
  obtain reads | ⟨-, reads⟩ := orElse_eq_some.1 reads
  · exact left reads
  · exact right reads

/-! ### Readers that look ahead only -/

/-- The reader does not ask for the character before its place; it only hands it on. -/
def Passive (r : Reader α) : Prop :=
  ∀ before text, r ⟨before, text⟩ =
    (r ⟨none, text⟩).map fun x => (x.1, ⟨x.2.before.or before, x.2.rest⟩)

theorem passive_pure (v : α) : Passive (pure v : Reader α) := fun _ _ => rfl

theorem passive_failure : Passive (failure : Reader α) := fun _ _ => rfl

theorem passive_one (f : Char → Bool) : Passive (one f) := by
  intro before text
  cases text with
  | nil => rfl
  | cons c rest =>
    by_cases holds : f c = true
    · simp [one, holds]
    · simp [one, holds]

theorem passive_many (f : Char → Bool) : Passive (many f) := by
  intro before text
  simp [many, Place.past]

theorem passive_text (piece : String) : Passive (text piece) := by
  intro before rest
  cases ahead : dropPrefix? piece.toList rest <;> simp [text, ahead, Place.past]

theorem passive_through (piece : String) : Passive (through piece) := by
  intro before rest
  cases ahead : breakAt? piece.toList rest <;> simp [through, ahead, Place.past]

theorem Passive.bind {r : Reader α} {f : α → Reader β} (first : Passive r)
    (second : ∀ v, Passive (f v)) : Passive (r >>= f) := by
  intro before text
  simp only [Bind.bind, StateT.bind, first before text]
  cases read : r ⟨none, text⟩ with
  | none => rfl
  | some x =>
    obtain ⟨v, middle, rest⟩ := x
    simp only [Option.map_some, Option.bind_some, second v (middle.or before) rest,
      second v middle rest, Option.map_map]
    congr 1
    funext y
    simp [Option.or_assoc]

theorem Passive.map {r : Reader α} (passive : Passive r) (f : α → β) : Passive (f <$> r) :=
  passive.bind fun v => passive_pure (f v)

theorem Passive.orElse {r s : Reader α} (first : Passive r) (second : Passive s) :
    Passive (r <|> s) := by
  intro before text
  simp only [HOrElse.hOrElse, OrElse.orElse, Alternative.orElse, StateT.orElse, first before text]
  cases r ⟨none, text⟩ with
  | none => exact second before text
  | some x => rfl

theorem passive_char (c : Char) : Passive (char c) :=
  (passive_one _).bind fun _ => passive_pure ()

theorem Passive.optional {r : Reader α} (passive : Passive r) : Passive (optional r) :=
  Passive.orElse (passive.bind fun _ => passive_pure _) (passive_pure none)

theorem passive_atLeast (least : Nat) (f : Char → Bool) : Passive (atLeast least f) := by
  refine (passive_many f).bind fun taken => ?_
  split
  · exact passive_pure taken
  · exact passive_failure

theorem passive_skipMany {r : Reader Unit} (passive : Passive r) : Passive (skipMany r) := by
  have further : ∀ (fuel : List Char) (before : Option Char) (text : List Char),
      skipManyFrom r fuel ⟨before, text⟩ =
        ⟨(skipManyFrom r fuel ⟨none, text⟩).before.or before,
          (skipManyFrom r fuel ⟨none, text⟩).rest⟩ := by
    intro fuel
    induction fuel with
    | nil => exact fun before text => rfl
    | cons c fuel ih =>
      intro before text
      rw [skipManyFrom, skipManyFrom, passive before text]
      cases r ⟨none, text⟩ with
      | none => rfl
      | some x =>
        obtain ⟨u, after, rest⟩ := x
        simp only [Option.map_some]
        rw [ih (after.or before), ih after, Option.or_assoc]
  intro before text
  simp only [skipMany, further text before text, Option.map_some]

/-- Where something is taken, the character before is forgotten. -/
theorem Passive.blind {r : Reader α} (passive : Passive r) (takes : Takes r)
    (before after : Option Char) (text : List Char) : r ⟨before, text⟩ = r ⟨after, text⟩ := by
  rw [passive before, passive after]
  cases read : r ⟨none, text⟩ with
  | none => rfl
  | some x =>
    obtain ⟨taken, some_taken, reached⟩ := takes read
    obtain ⟨last, ends⟩ := Option.isSome_iff_exists.1 (List.getLast?_isSome.2 some_taken)
    simp [reached.before, ends]

end Reader

end DesignComponents.Text
