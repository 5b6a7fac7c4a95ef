import DesignComponents.Attribute.Markup
import DesignComponents.Proofs.Text.Cut

/-! Renaming attributes inside markup, tag by tag. Only the tags with a name to change matter, and
chunks of markup are renamed one by one wherever no chunk ends inside such a tag. -/

set_option autoImplicit false

namespace DesignComponents.Attribute

open Text Reader

/-- A tag with its attributes under their new names. -/
def renameTag (tag : List Char) : List Char :=
  ((cut written tag).map fun w => w.lead :: (rename (String.ofList w.name)).toList ++ w.rest).fill

theorem renameMarkup_eq_fill (text : List Char) :
    renameMarkup text = ((cut tag text).map renameTag).fill := by
  have tags : ∀ tag, renameTagVia (fun name => (pure (rename name) : Id String)) tag =
      pure (renameTag tag) := fun tag => Cut.fillM_id (cut written tag)
  rw [renameMarkup, renameMarkupVia, funext tags, Cut.fillM_id]

/-! ### Tags as they are read -/

theorem tag_exact : Exact tag fun _ taken v =>
    ∃ (first : Char) (inner : List Char), isAsciiLetter first = true ∧
      (∀ c ∈ inner, isTagInner c = true) ∧ taken = '<' :: first :: inner ++ ['>'] ∧ v = taken := by
  intro p v q
  simp only [tag, bind_eq_some, char_eq_some, one_eq_some, many_eq_some, pure_eq_some]
  constructor
  · rintro ⟨_, m, sign, first, m₁, ⟨letter, one⟩, inner, m₂, ⟨all, -, inside⟩, _, m₃, close, rfl, rfl⟩
    exact ⟨_, by simp, ⟨first, inner, letter, all, rfl, rfl⟩,
      ((sign.trans one).trans inside).trans close⟩
  · rintro ⟨taken, -, ⟨first, inner, letter, all, rfl, rfl⟩, reached⟩
    obtain ⟨m₂, reached, close⟩ := Place.after_append.1 reached
    obtain ⟨m, sign, reached⟩ := Place.after_cons.1 reached
    obtain ⟨m₁, one, inside⟩ := Place.after_cons.1 reached
    refine ⟨(), m, sign, first, m₁, ⟨letter, one⟩, inner, m₂, ⟨all, ?_, inside⟩, (), q, close, rfl, rfl⟩
    rw [close.rest]
    rintro c ⟨⟩
    decide

theorem passive_tag : Passive tag := by
  refine (passive_char _).bind fun _ => (passive_one _).bind fun _ => (passive_many _).bind fun _ => ?_
  exact (passive_char _).bind fun _ => passive_pure _

/-- A tag with a name to change, as it becomes. -/
def renamedTag : Reader (List Char) := do
  let found ← tag
  if renameTag found = found then failure else pure (renameTag found)

theorem renamedTag_eq_some {p q : Place} {v : List Char} : renamedTag p = some (v, q) ↔
    ∃ found, tag p = some (found, q) ∧ renameTag found ≠ found ∧ v = renameTag found := by
  simp only [renamedTag, bind_eq_some]
  constructor
  · rintro ⟨found, m, reads, done⟩
    split at done
    · exact (failure_eq_some.1 done).elim
    · next changed =>
      obtain ⟨rfl, rfl⟩ := pure_eq_some.1 done
      exact ⟨found, reads, changed, rfl⟩
  · rintro ⟨found, reads, changed, rfl⟩
    refine ⟨found, q, reads, ?_⟩
    rw [if_neg changed]
    exact pure_eq_some.2 ⟨rfl, rfl⟩

theorem renamedTag_exact : Exact renamedTag fun _ taken v =>
    ∃ (first : Char) (inner : List Char), isAsciiLetter first = true ∧
      (∀ c ∈ inner, isTagInner c = true) ∧ taken = '<' :: first :: inner ++ ['>'] ∧
      renameTag taken ≠ taken ∧ v = renameTag taken := by
  intro p v q
  simp only [renamedTag_eq_some, tag_exact _ _ _]
  constructor
  · rintro ⟨found, ⟨taken, some_taken, ⟨first, inner, letter, all, same, rfl⟩, reached⟩, changed, rfl⟩
    exact ⟨found, some_taken, ⟨first, inner, letter, all, same, changed, rfl⟩, reached⟩
  · rintro ⟨taken, some_taken, ⟨first, inner, letter, all, same, changed, rfl⟩, reached⟩
    exact ⟨taken, ⟨taken, some_taken, ⟨first, inner, letter, all, same, rfl⟩, reached⟩, changed, rfl⟩

theorem passive_renamedTag : Passive renamedTag := by
  refine passive_tag.bind fun found => ?_
  split
  · exact passive_failure
  · exact passive_pure _

theorem renamedTag_none {before : Option Char} {c : Char} {rest : List Char} (plain : c ≠ '<') :
    renamedTag ⟨before, c :: rest⟩ = none := by
  refine unread_iff.2 fun v q reads => ?_
  obtain ⟨taken, -, ⟨first, inner, -, -, rfl, -⟩, reached⟩ := (renamedTag_exact _ _ _).1 reads
  have same := reached.rest
  simp only [List.cons_append, List.cons.injEq] at same
  exact plain same.1

/-- A tag without a name to change is passed over, and so is all that is in it. -/
theorem cutAt_unchangedTag {p next : Place} {found : List Char} (reads : tag p = some (found, next))
    (same : renameTag found = found) :
    cutAt renamedTag p = Cut.passing found ++ cutAt renamedTag next := by
  obtain ⟨taken, -, ⟨first, inner, letter, all, shape, rfl⟩, reached⟩ := (tag_exact _ _ _).1 reads
  have here : p = ⟨p.before, found ++ next.rest⟩ := by rw [← reached.rest]
  have there : next = ⟨found.getLast?.or p.before, next.rest⟩ := by rw [← reached.before]
  rw [here, cutAt_pass renamedTag_exact.takes, ← there]
  intro passed ahead parts some_ahead
  -- At its sign the tag is read but does not change, and behind that no other begins in it.
  cases passed with
  | nil =>
    refine unread_iff.2 fun v q reads' => ?_
    obtain ⟨found', reads', changed, -⟩ := renamedTag_eq_some.1 reads'
    rw [List.nil_append] at parts
    rw [← parts, List.getLast?_nil, Option.none_or, ← here, reads] at reads'
    cases reads'
    exact changed same
  | cons sign passed =>
    obtain ⟨c, more, rfl⟩ := List.exists_cons_of_ne_nil some_ahead
    refine renamedTag_none ?_
    rintro rfl
    rw [shape] at parts
    simp only [List.cons_append, List.cons.injEq] at parts
    have mem : '<' ∈ first :: (inner ++ ['>']) := by simp [parts.2]
    simp only [List.mem_cons, List.mem_append, List.not_mem_nil, or_false] at mem
    obtain rfl | mem | close := mem
    · exact absurd letter (by decide)
    · exact absurd (all _ mem) (by decide)
    · exact absurd close (by decide)

/-- To rename is to replace the tags with a name to change. -/
theorem renameMarkup_eq (text : List Char) : renameMarkup text = substitute renamedTag text := by
  have further : ∀ p, ((cutAt tag p).map renameTag).fill = (cutAt renamedTag p).fill := by
    intro p
    have takes := tag_exact.takes
    have takes' := renamedTag_exact.takes
    -- Along the cut at all tags. A tag that does not change is passed over on the right.
    induction p using scan_induction takes with
    | nil before => rfl
    | pass before c rest none_read ih =>
      have none_renamed : renamedTag ⟨before, c :: rest⟩ = none := by
        refine unread_iff.2 fun v q reads => ?_
        obtain ⟨found, reads, -⟩ := renamedTag_eq_some.1 reads
        rw [none_read] at reads
        exact nomatch reads
      rw [cutAt_none takes none_read, cutAt_none takes' none_renamed, Cut.map_append, Cut.fill_append,
        Cut.fill_append, ih]
      rfl
    | read p found next reads ih =>
      rw [cutAt_some takes reads, Cut.map_append, Cut.fill_append, Cut.map_piece, Cut.fill_piece, ih]
      by_cases same : renameTag found = found
      · rw [same, cutAt_unchangedTag reads same, Cut.fill_append, Cut.fill_passing]
      · have renamed := renamedTag_eq_some.2 ⟨found, reads, same, rfl⟩
        rw [cutAt_some takes' renamed, Cut.fill_append, Cut.fill_piece]
  rw [renameMarkup_eq_fill]
  exact further (Place.start text)

end DesignComponents.Attribute
