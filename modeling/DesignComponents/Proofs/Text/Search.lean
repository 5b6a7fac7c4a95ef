import DesignComponents.Proofs.Text.Reader
import DesignComponents.Text.Search

/-! Texts in which a piece or some word occurs or does not, and texts that are cut at a separator or put
together with one. -/

set_option autoImplicit false

namespace DesignComponents.Text

variable {piece text : List Char}

theorem startsWith_iff : startsWith piece text = true ↔ piece <+: text := by
  simp only [startsWith, Option.isSome_iff_exists, dropPrefix?_eq_some]
  exact ⟨fun ⟨rest, same⟩ => ⟨rest, same.symm⟩, fun ⟨rest, same⟩ => ⟨rest, same.symm⟩⟩

theorem occurs_iff : occurs piece text = true ↔ piece <:+: text := by
  induction text with
  | nil => simp [occurs]
  | cons c rest ih =>
    rw [occurs, Bool.or_eq_true, startsWith_iff, ih, List.infix_cons_iff]

theorem replaceAux_done (old new : List Char) (skip : Nat) (text done : List Char) :
    replaceAux old new skip text done = done.reverse ++ replaceAux old new skip text [] := by
  induction text generalizing skip done with
  | nil => simp [replaceAux]
  | cons c rest ih =>
    cases skip with
    | succ k => exact ih k done
    | zero =>
      rw [replaceAux, replaceAux]
      split
      · rw [ih _ (new.reverse ++ done), ih _ (new.reverse ++ [])]
        simp
      · rw [ih _ (c :: done), ih _ [c]]
        simp

theorem replaceAux_skip (old new text rest : List Char) :
    replaceAux old new text.length (text ++ rest) [] = replaceAux old new 0 rest [] := by
  induction text with
  | nil => rfl
  | cons c text ih => exact ih

/-- Where the piece does not stand a character stays. -/
theorem replaceAll_cons {new : List Char} {c : Char} (absent : ¬ piece <+: c :: text) :
    replaceAll piece new (c :: text) = c :: replaceAll piece new text := by
  rw [← startsWith_iff] at absent
  unfold replaceAll
  split
  · rfl
  · rw [replaceAux, if_neg absent, replaceAux_done]
    rfl

theorem replaceAll_append {new : List Char} (some_piece : piece ≠ []) :
    replaceAll piece new (piece ++ text) = new ++ replaceAll piece new text := by
  obtain ⟨c, rest, rfl⟩ := List.exists_cons_of_ne_nil some_piece
  have stands : startsWith (c :: rest) (c :: (rest ++ text)) = true := startsWith_iff.2 ⟨text, rfl⟩
  rw [replaceAll, if_neg (by simp), List.cons_append, replaceAux, if_pos stands, List.length_cons,
    Nat.add_sub_cancel, replaceAux_done, replaceAux_skip, List.reverse_append, List.reverse_reverse]
  rfl

/-- A text stays as it is where there is nothing to replace. -/
theorem replaceAll_eq_self {new : List Char} (absent : ¬ piece <:+: text) :
    replaceAll piece new text = text := by
  induction text with
  | nil => cases piece <;> rfl
  | cons c rest ih =>
    rw [List.infix_cons_iff, not_or] at absent
    rw [replaceAll_cons absent.1, ih absent.2]

/-! ### Cutting and joining -/

variable {sep : Char}

/-- Cutting at a separator is the library's. -/
theorem splitOn_eq (sep : Char) (text : List Char) : splitOn sep text = text.splitOn sep := by
  have further : ∀ field done,
      splitAux sep field text done = done.reverse ++ text.splitOnPPrepend (· == sep) field := by
    induction text with
    | nil => simp [splitAux]
    | cons c rest ih =>
      intro field done
      rw [splitAux, List.splitOnPPrepend_cons_eq_if]
      by_cases here : c = sep
      · simp [here, ih]
      · simp [here, ih]
  rw [splitOn, further, List.splitOnPPrepend_nil_right, List.splitOn_eq_splitOnP]
  rfl

/-- A text without the separator is one piece. -/
theorem splitOn_eq_self (absent : sep ∉ text) : splitOn sep text = [text] := by
  rw [splitOn_eq, List.splitOn_eq_singleton absent]

/-- A piece is taken from the text, and has no separator in it. -/
theorem of_mem_splitOn {piece : List Char} (mem : piece ∈ text.splitOn sep) :
    sep ∉ piece ∧ piece ⊆ text := by
  induction text generalizing piece with
  | nil =>
    simp only [List.splitOn_nil, List.mem_singleton] at mem
    simp [mem]
  | cons c rest ih =>
    rw [List.splitOn_cons_eq_if_modifyHead] at mem
    split at mem
    · rcases List.mem_cons.1 mem with rfl | later
      · exact ⟨List.not_mem_nil, List.nil_subset _⟩
      · exact ⟨(ih later).1, List.Subset.trans (ih later).2 (List.subset_cons_self c rest)⟩
    · next other =>
      obtain ⟨first, pieces, cut⟩ := List.exists_cons_of_ne_nil (List.splitOn_ne_nil sep rest)
      rw [cut, List.modifyHead_cons] at mem
      rcases List.mem_cons.1 mem with rfl | later
      · obtain ⟨plain, part⟩ := ih (cut ▸ List.mem_cons_self)
        refine ⟨?_, List.cons_subset_cons c part⟩
        rw [List.mem_cons, not_or]
        exact ⟨fun same => other (beq_iff_eq.2 same.symm), plain⟩
      · obtain ⟨plain, part⟩ := ih (cut ▸ List.mem_cons_of_mem first later)
        exact ⟨plain, List.Subset.trans part (List.subset_cons_self c rest)⟩

theorem intercalate_cons (sep first : List Char) (rest : List (List Char)) :
    sep.intercalate (first :: rest) = first ++ rest.flatMap (sep ++ ·) := by
  induction rest generalizing first with
  | nil => simp
  | cons next rest ih => rw [List.intercalate_cons_cons, ih, List.flatMap_cons, List.append_assoc,
      List.append_assoc]

/-- What is not in the separator is in the pieces alone. -/
theorem count_join {c : Char} {between : List Char} (absent : c ∉ between) (pieces : List (List Char)) :
    (join between pieces).count c = pieces.flatten.count c := by
  have further : ∀ rest : List (List Char), (rest.flatMap (between ++ ·)).count c = rest.flatten.count c := by
    intro rest
    induction rest with
    | nil => rfl
    | cons piece rest ih =>
      rw [List.flatMap_cons, List.flatten_cons, List.count_append, List.count_append, List.count_append, ih,
        List.count_eq_zero.2 absent, Nat.zero_add]
  cases pieces with
  | nil => rfl
  | cons first rest =>
    rw [join, intercalate_cons, List.flatten_cons, List.count_append, List.count_append, further]

theorem unlines_cons (line : String) (rest : List String) :
    (unlines (line :: rest)).toList = line.toList ++ '\n' :: (unlines rest).toList := by
  simp [unlines]

theorem mem_unlines {ls : List String} {line : String} {c : Char} (mem : line ∈ ls)
    (held : c ∈ line.toList) : c ∈ (unlines ls).toList := by
  induction ls with
  | nil => exact nomatch mem
  | cons first rest ih =>
    rw [unlines_cons, List.mem_append, List.mem_cons]
    rcases List.mem_cons.1 mem with rfl | mem
    · exact .inl held
    · exact .inr (.inr (ih mem))

theorem not_mem_unlines {c : Char} (no_break : c ≠ '\n') {ls : List String}
    (absent : ∀ line ∈ ls, c ∉ line.toList) : c ∉ (unlines ls).toList := by
  induction ls with
  | nil => exact List.not_mem_nil
  | cons first rest ih =>
    obtain ⟨here, later⟩ := List.forall_mem_cons.1 absent
    rw [unlines_cons]
    simp [here, no_break, ih later]

/-- Each line that is written is read, unless it is more than one. -/
theorem mem_lines_unlines {ls : List String} {line : String} (mem : line ∈ ls)
    (unbroken : '\n' ∉ line.toList) : line.toList ∈ lines (unlines ls).toList := by
  have cut : ∀ left right : List Char,
      (left ++ '\n' :: right).splitOn '\n' = left.splitOn '\n' ++ right.splitOn '\n' := by
    intro left right
    simp only [List.splitOn_eq_splitOnP]
    exact List.splitOnP_append_cons left right (beq_self_eq_true '\n')
  rw [lines, splitOn_eq]
  induction ls with
  | nil => exact nomatch mem
  | cons first rest ih =>
    rw [unlines_cons, cut, List.mem_append]
    rcases List.mem_cons.1 mem with rfl | mem
    · exact .inl (by rw [List.splitOn_eq_singleton unbroken]; exact List.mem_singleton.2 rfl)
    · exact .inr (ih mem)

/-- A carriage return counts with a line break behind it. -/
theorem plainBreaks_return (text : List Char) : plainBreaks ('\r' :: text) =
    if text.head? = some '\n' then plainBreaks text else '\n' :: plainBreaks text := by
  by_cases both : text.head? = some '\n'
  · obtain ⟨more, rfl⟩ := List.head?_eq_some_iff.1 both
    simp [plainBreaks]
  · rw [plainBreaks.eq_3, if_neg both, if_pos rfl]
    rintro more - rfl
    exact both rfl

theorem plainBreaks_cons {c : Char} (other : c ≠ '\r') (text : List Char) :
    plainBreaks (c :: text) = c :: plainBreaks text := by
  rw [plainBreaks.eq_3 c text fun _ ret _ => other ret, if_neg other]

/-! ### Words that lie between separators -/

variable {P : List Char → Prop} {left right : List Char}

/-- One of the words occurs in the text. -/
def Holds (P : List Char → Prop) (text : List Char) : Prop := ∃ word, P word ∧ word <:+: text

theorem eq_nil_of_prefix_cons {word : List Char} (unbroken : sep ∉ word)
    (front : word <+: sep :: right) : word = [] := by
  cases word with
  | nil => rfl
  | cons c rest =>
    obtain ⟨rfl, -⟩ := List.cons_prefix_cons.1 front
    exact absurd List.mem_cons_self unbroken

/-- A word without the separator ends before it. -/
theorem prefix_append_cons {word : List Char} (unbroken : sep ∉ word) :
    word <+: left ++ sep :: right ↔ word <+: left := by
  refine ⟨fun front => ?_, fun front => front.trans (List.prefix_append left _)⟩
  induction left generalizing word with
  | nil =>
    obtain rfl := eq_nil_of_prefix_cons unbroken front
    exact List.nil_prefix
  | cons c left ih =>
    cases word with
    | nil => exact List.nil_prefix
    | cons d word =>
      rw [List.cons_append, List.cons_prefix_cons] at front
      rw [List.mem_cons, not_or] at unbroken
      exact List.cons_prefix_cons.2 ⟨front.1, ih unbroken.2 front.2⟩

theorem infix_append_cons {word : List Char} (unbroken : sep ∉ word) :
    word <:+: left ++ sep :: right ↔ word <:+: left ∨ word <:+: right := by
  constructor
  · intro held
    rcases List.infix_append_iff.1 held with inside | inside | ⟨first, second, rfl, ends, front⟩
    · exact .inl inside
    · rcases List.infix_cons_iff.1 inside with front | inside
      · rw [eq_nil_of_prefix_cons unbroken front]
        exact .inl List.nil_infix
      · exact .inr inside
    · have none_after := eq_nil_of_prefix_cons (fun mem => unbroken (List.mem_append_right _ mem)) front
      rw [none_after, List.append_nil]
      exact .inl ends.isInfix
  · rintro (inside | inside)
    · exact inside.trans (List.prefix_append left _).isInfix
    · exact inside.trans ((List.suffix_cons sep right).trans (List.suffix_append left _)).isInfix

/-- A word that has no line break is in one of the lines. -/
theorem infix_unlines {word : List Char} (some_word : word ≠ []) (unbroken : '\n' ∉ word)
    {ls : List String} : word <:+: (unlines ls).toList ↔ ∃ line ∈ ls, word <:+: line.toList := by
  induction ls with
  | nil => simpa [unlines] using some_word
  | cons line rest ih => rw [unlines_cons, infix_append_cons unbroken, ih, List.exists_mem_cons_iff]

/-- Where the piece does not occur before a separator that it lacks, the text is cut at the piece behind
the separator. -/
theorem breakAt?_append_cons {piece after : List Char} (some_piece : piece ≠ []) (unbroken : sep ∉ piece)
    (absent : ¬ piece <:+: left) :
    breakAt? piece (left ++ sep :: (piece ++ after)) = some (left ++ [sep], after) := by
  have stays : ∀ {c : Char} {rest : List Char}, ¬ piece <+: c :: rest → dropPrefix? piece (c :: rest) = none := by
    intro c rest elsewhere
    rwa [← startsWith_iff, startsWith, Bool.not_eq_true, Option.isSome_eq_false_iff,
      Option.isNone_iff_eq_none] at elsewhere
  have further : ∀ passed, breakAfter piece passed (left ++ sep :: (piece ++ after)) =
      some (passed.reverse ++ left ++ [sep], after) := by
    -- On what comes before the separator, where the piece begins nowhere.
    induction left with
    | nil =>
      intro passed
      have here : dropPrefix? piece (piece ++ after) = some after := dropPrefix?_eq_some.2 rfl
      obtain ⟨c, rest, shape⟩ := List.exists_cons_of_ne_nil some_piece
      rw [List.nil_append, breakAfter, stays fun front => some_piece (eq_nil_of_prefix_cons unbroken front)]
      rw [shape] at here ⊢
      simp only [List.cons_append] at here ⊢
      rw [breakAfter, here]
      simp
    | cons c left ih =>
      intro passed
      rw [List.infix_cons_iff, not_or] at absent
      have later : dropPrefix? piece (c :: (left ++ sep :: (piece ++ after))) = none := stays fun front =>
        absent.1 ((@prefix_append_cons sep (c :: left) (piece ++ after) piece unbroken).1 front)
      rw [List.cons_append, breakAfter, later, ih absent.2]
      simp
  exact further []

/-- A word is not found before its first character is. -/
theorem infix_append_of_head {c : Char} {rest : List Char} (absent : c ∉ left) :
    c :: rest <:+: left ++ right ↔ c :: rest <:+: right := by
  induction left with
  | nil => exact Iff.rfl
  | cons d left ih =>
    rw [List.mem_cons, not_or] at absent
    rw [List.cons_append, List.infix_cons_iff, List.cons_prefix_cons, ih absent.2]
    simp [absent.1]

theorem holds_append_cons (unbroken : ∀ word, P word → sep ∉ word) :
    Holds P (left ++ sep :: right) ↔ Holds P left ∨ Holds P right := by
  constructor
  · rintro ⟨word, one, inside⟩
    rcases (infix_append_cons (unbroken word one)).1 inside with inside | inside
    · exact .inl ⟨word, one, inside⟩
    · exact .inr ⟨word, one, inside⟩
  · rintro (⟨word, one, inside⟩ | ⟨word, one, inside⟩)
    · exact ⟨word, one, (infix_append_cons (unbroken word one)).2 (.inl inside)⟩
    · exact ⟨word, one, (infix_append_cons (unbroken word one)).2 (.inr inside)⟩

theorem holds_intercalate (unbroken : ∀ word, P word → sep ∉ word) {pieces : List (List Char)}
    (some_pieces : pieces ≠ []) :
    Holds P ([sep].intercalate pieces) ↔ ∃ piece ∈ pieces, Holds P piece := by
  induction pieces with
  | nil => contradiction
  | cons piece rest ih =>
    cases rest with
    | nil => simp
    | cons next rest =>
      have apart : [sep].intercalate (piece :: next :: rest) =
          piece ++ sep :: [sep].intercalate (next :: rest) := by
        rw [List.intercalate_cons_cons]
        simp
      rw [apart, holds_append_cons unbroken, ih (by simp)]
      simp

end DesignComponents.Text
