import DesignComponents.Number.Reading
import DesignComponents.Proofs.Text.Search
import DesignComponents.Text.Entity

/-! What components put style sheets into, and where it ends: the text of a style element, up to the
first end tag of one, and a template literal, up to the first backtick that is not escaped. -/

set_option autoImplicit false

namespace DesignComponents.Component

open Text

/-! ### Style elements -/

/-- The start of an end tag, in letters of either case. -/
def IsStyleEnd (word : List Char) : Prop := Number.asciiLower word = "</style".toList

instance (word : List Char) : Decidable (IsStyleEnd word) :=
  inferInstanceAs (Decidable (Number.asciiLower word = "</style".toList))

/-- The text of a style element, and what ends it. -/
def styleText : List Char → Option (List Char × List Char)
  | [] => none
  | c :: rest =>
    if IsStyleEnd ((c :: rest).take 7) then some ([], c :: rest)
    else (styleText rest).map fun (text, ending) => (c :: text, ending)

theorem IsStyleEnd.length {word : List Char} (ends : IsStyleEnd word) : word.length = 7 := by
  have same := congrArg List.length ends
  rwa [Number.asciiLower, List.length_map] at same

theorem IsStyleEnd.not_mem {word : List Char} (ends : IsStyleEnd word) {c : Char}
    (other : Number.asciiLower [c] = [c] ∧ c ∉ "</style".toList) : c ∉ word := by
  intro mem
  refine other.2 ?_
  rw [← (ends : Number.asciiLower word = _)]
  refine List.mem_map.2 ⟨c, mem, ?_⟩
  simpa [Number.asciiLower] using other.1

/-- An end tag in a text is one at its start, or further in. -/
theorem holds_cons {P : List Char → Prop} {c : Char} {rest : List Char} :
    Holds P (c :: rest) ↔ (∃ word, P word ∧ word <+: c :: rest) ∨ Holds P rest := by
  simp only [Holds, List.infix_cons_iff, and_or_left, exists_or]

theorem IsStyleEnd.no_break {word : List Char} (ends : IsStyleEnd word) : '\n' ∉ word :=
  ends.not_mem (by decide)

theorem isStyleEnd_take {text ending : List Char} :
    IsStyleEnd ((text ++ '\n' :: ending).take 7) ↔ ∃ word, IsStyleEnd word ∧ word <+: text := by
  constructor
  · intro ends
    refine ⟨_, ends, ?_⟩
    have front : text ++ ['\n'] <+: text ++ '\n' :: ending := ⟨ending, by simp⟩
    rcases List.prefix_or_prefix_of_prefix (List.take_prefix 7 _) front with short | long
    · rcases List.prefix_concat_iff.1 short with same | inside
      · exact absurd (by rw [same]; simp) ends.no_break
      · exact inside
    · exact absurd (long.subset (by simp)) ends.no_break
  · rintro ⟨word, ends, front⟩
    have whole : word <+: text ++ '\n' :: ending := front.trans (List.prefix_append _ _)
    rw [List.prefix_iff_eq_take, ends.length] at whole
    rwa [← whole]

/-- The text before a line break and an end tag is the whole text, unless it has an end tag in it. -/
theorem styleText_iff {text ending : List Char} (ends : IsStyleEnd (ending.take 7)) :
    styleText (text ++ '\n' :: ending) = some (text ++ ['\n'], ending) ↔ ¬Holds IsStyleEnd text := by
  induction text with
  | nil =>
    obtain ⟨c, rest, rfl⟩ : ∃ c rest, ending = c :: rest := by
      apply List.exists_cons_of_ne_nil
      rintro rfl
      exact absurd ends (by decide)
    have later : ¬IsStyleEnd (('\n' :: c :: rest).take 7) := fun is => is.no_break (by simp)
    refine iff_of_true ?_ ?_
    · rw [List.nil_append, styleText, if_neg later, styleText, if_pos ends]
      rfl
    · rintro ⟨word, is, inside⟩
      rw [List.eq_nil_of_infix_nil inside] at is
      exact absurd is (by decide)
  | cons c rest ih =>
    -- What begins here and is an end tag lies in the text: it cannot reach over the line break.
    have start : IsStyleEnd ((c :: (rest ++ '\n' :: ending)).take 7) ↔
        ∃ word, IsStyleEnd word ∧ word <+: c :: rest := @isStyleEnd_take (c :: rest) ending
    rw [holds_cons, not_or, ← start, ← ih, List.cons_append, styleText]
    by_cases here : IsStyleEnd ((c :: (rest ++ '\n' :: ending)).take 7)
    · rw [if_pos here]
      refine iff_of_false (fun same => ?_) fun both => both.1 here
      exact nomatch congrArg Prod.fst (Option.some.inj same)
    · rw [if_neg here, and_iff_right here]
      simp only [Option.map_eq_some_iff, Prod.mk.injEq, List.cons_append, List.cons.injEq, true_and,
        Prod.exists]
      constructor
      · rintro ⟨text, ending, found, rfl, rfl⟩
        exact found
      · exact fun found => ⟨_, _, found, rfl, rfl⟩

/-! ### Template literals -/

/-- The UTF-16 units of a code point. -/
def unitsAt (n : Nat) : List Nat :=
  if n < 0x10000 then [n] else [0xd800 + (n - 0x10000) / 0x400, 0xdc00 + (n - 0x10000) % 0x400]

def unitsOf (text : List Char) : List Nat := text.flatMap fun c => unitsAt c.toNat

/-- The unit that so many hexadecimal digits write. -/
def hexUnit (count : Nat) (text : List Char) : Option (List Nat × List Char) :=
  let digits := text.take count
  if digits.length = count ∧ digits.all Entity.isHexDigit then
    some ([Entity.ofDigits 16 digits], text.drop count)
  else none

/-- The code point that digits write up to a closing brace. -/
def bracedPoint (text : List Char) : Option (List Nat × List Char) :=
  let digits := text.takeWhile Entity.isHexDigit
  let n := Entity.ofDigits 16 digits
  match text.dropWhile Entity.isHexDigit with
  | '\x7d' :: rest => if digits ≠ [] ∧ n ≤ 0x10ffff then some (unitsAt n, rest) else none
  | _ => none

def plainEscapes : List (Char × Nat) :=
  [('b', 8), ('t', 9), ('n', 10), ('v', 11), ('f', 12), ('r', 13)]

/-- What an escape stands for, from the character behind its backslash on. -/
def readEscape (c : Char) (rest : List Char) : Option (List Nat × List Char) :=
  if c = 'x' then hexUnit 2 rest
  else if c = 'u' then
    match rest with
    | '\x7b' :: inside => bracedPoint inside
    | _ => hexUnit 4 rest
  else if isAsciiDigit c then
    if c = '0' ∧ rest.head?.any isAsciiDigit = false then some ([0], rest) else none
  else if c = '\r' ∧ rest.head? = some '\n' then some ([], rest.tail)
  else if ['\n', '\r', '\u2028', '\u2029'].contains c then some ([], rest)
  else some (((plainEscapes.lookup c).map fun n => [n]).getD (unitsAt c.toNat), rest)

def weight (text : List Char) : Nat := (unitsOf text).length

@[simp] theorem weight_cons (c : Char) (rest : List Char) :
    weight (c :: rest) = (unitsAt c.toNat).length + weight rest := by
  simp [weight, unitsOf]

theorem weight_append (left right : List Char) : weight (left ++ right) = weight left + weight right := by
  simp [weight, unitsOf]

theorem weight_suffix {left right : List Char} (suffix : left <:+ right) : weight left ≤ weight right := by
  obtain ⟨front, rfl⟩ := suffix
  rw [weight_append]
  omega

theorem unitsAt_length (n : Nat) : 0 < (unitsAt n).length ∧ (unitsAt n).length ≤ 2 := by
  unfold unitsAt
  split <;> simp

theorem hexUnit_suffix {count : Nat} {text after : List Char} {units : List Nat}
    (reads : hexUnit count text = some (units, after)) : units.length = 1 ∧ after <:+ text := by
  simp only [hexUnit, Option.ite_none_right_eq_some, Option.some.injEq, Prod.mk.injEq] at reads
  obtain ⟨-, rfl, rfl⟩ := reads
  exact ⟨rfl, List.drop_suffix count text⟩

theorem bracedPoint_suffix {text after : List Char} {units : List Nat}
    (reads : bracedPoint text = some (units, after)) : units.length ≤ 2 ∧ after <:+ text := by
  unfold bracedPoint at reads
  dsimp only at reads
  split at reads
  · next rest behind =>
    simp only [Option.ite_none_right_eq_some, Option.some.injEq, Prod.mk.injEq] at reads
    obtain ⟨-, rfl, rfl⟩ := reads
    have suffix := List.dropWhile_suffix (l := text) Entity.isHexDigit
    rw [behind] at suffix
    exact ⟨(unitsAt_length _).2, (List.suffix_cons _ rest).trans suffix⟩
  · exact nomatch reads

/-- An escape does not become longer than it is written, its backslash apart. -/
theorem readEscape_suffix {c : Char} {rest after : List Char} {units : List Nat}
    (reads : readEscape c rest = some (units, after)) :
    after <:+ rest ∧ units.length + weight after ≤ weight (c :: rest) := by
  have first := unitsAt_length c.toNat
  -- Most escapes leave an end of the rest, and their units find room in the sign itself.
  have behind : after <:+ rest → units.length ≤ (unitsAt c.toNat).length →
      after <:+ rest ∧ units.length + weight after ≤ weight (c :: rest) := by
    intro suffix short
    have := weight_suffix suffix
    rw [weight_cons]
    exact ⟨suffix, by omega⟩
  unfold readEscape at reads
  split at reads
  · obtain ⟨one, suffix⟩ := hexUnit_suffix reads
    exact behind suffix (by omega)
  · split at reads
    · split at reads
      · next inside =>
        obtain ⟨few, suffix⟩ := bracedPoint_suffix reads
        have := weight_suffix suffix
        have brace := unitsAt_length '\x7b'.toNat
        simp only [weight_cons]
        exact ⟨suffix.trans (List.suffix_cons _ inside), by omega⟩
      · obtain ⟨one, suffix⟩ := hexUnit_suffix reads
        exact behind suffix (by omega)
    · split at reads
      · simp only [Option.ite_none_right_eq_some, Option.some.injEq, Prod.mk.injEq] at reads
        obtain ⟨-, rfl, rfl⟩ := reads
        exact behind (List.suffix_refl _) (by simp; omega)
      · split at reads
        · cases reads
          exact behind (List.tail_suffix rest) (by simp)
        · split at reads
          · cases reads
            exact behind (List.suffix_refl _) (by simp)
          · cases reads
            refine behind (List.suffix_refl _) ?_
            cases plainEscapes.lookup c with
            | none => exact Nat.le_refl _
            | some n => exact first.1

/-- The value of a template literal, and what follows its closing backtick. Where something is
interpolated, or where there is no backtick, it has none. -/
def cook : List Char → Option (List Nat × List Char)
  | [] => none
  | c :: rest =>
    if c = '\x60' then some ([], rest)
    else if c = '\\' then
      match rest with
      | [] => none
      | e :: inside =>
        match _reads : readEscape e inside with
        | none => none
        | some (units, after) => (cook after).map fun (value, ending) => (units ++ value, ending)
    else if c = '$' ∧ rest.head? = some '\x7b' then none
    else if c = '\r' then
      (cook rest).map fun (value, ending) =>
        (if rest.head? = some '\n' then value else 10 :: value, ending)
    else (cook rest).map fun (value, ending) => (unitsAt c.toNat ++ value, ending)
  termination_by text => text.length
  decreasing_by
    all_goals simp only [List.length_cons]
    · have := (readEscape_suffix _reads).1.length_le
      omega
    · omega
    · omega

/-- What a template literal has no character for itself, or more than one. -/
def IsBreaking (word : List Char) : Prop :=
  word ∈ [['\x60'], ['\\'], ['\r'], ['$', '\x7b']]

instance (word : List Char) : Decidable (IsBreaking word) :=
  inferInstanceAs (Decidable (word ∈ _))

/-- A value takes no more room than what is written of it. -/
theorem cook_weight {text : List Char} {value : List Nat} {ending : List Char}
    (cooked : cook text = some (value, ending)) : value.length + weight ending < weight text := by
  -- On the cases of reading: an escape and a line break lose characters, all others keep theirs.
  fun_induction cook text generalizing value with
  | case1 => exact nomatch cooked
  | case2 rest =>
    cases cooked
    have := unitsAt_length '\x60'.toNat
    simp only [weight_cons, List.length_nil]
    omega
  | case3 => exact nomatch cooked
  | case4 => exact nomatch cooked
  | case5 e inside units after reads _ ih =>
    simp only [Option.map_eq_some_iff, Prod.mk.injEq, Prod.exists] at cooked
    obtain ⟨rest, _, cooked, rfl, rfl⟩ := cooked
    have := ih cooked
    have := (readEscape_suffix reads).2
    rw [weight_cons, List.length_append]
    omega
  | case6 => exact nomatch cooked
  | case7 rest _ _ _ ih =>
    simp only [Option.map_eq_some_iff, Prod.mk.injEq, Prod.exists] at cooked
    obtain ⟨value, _, cooked, rfl, rfl⟩ := cooked
    have := ih cooked
    have := unitsAt_length '\r'.toNat
    rw [weight_cons]
    split
    · omega
    · rw [List.length_cons]
      omega
  | case8 c rest _ _ _ _ ih =>
    simp only [Option.map_eq_some_iff, Prod.mk.injEq, Prod.exists] at cooked
    obtain ⟨value, _, cooked, rfl, rfl⟩ := cooked
    have := ih cooked
    rw [weight_cons, List.length_append]
    omega

theorem unitsOf_cons (c : Char) (rest : List Char) :
    unitsOf (c :: rest) = unitsAt c.toNat ++ unitsOf rest := rfl

theorem cook_backtick (rest : List Char) : cook ('\x60' :: rest) = some ([], rest) := by
  rw [cook.eq_def]
  simp

theorem cook_interpolation (rest : List Char) : cook ('$' :: '\x7b' :: rest) = none := by
  rw [cook.eq_def]
  simp

theorem cook_return (rest : List Char) : cook ('\r' :: rest) =
    (cook rest).map fun (value, ending) =>
      (if rest.head? = some '\n' then value else 10 :: value, ending) := by
  rw [cook.eq_def]
  simp

theorem cook_plain {c : Char} {rest : List Char} (backtick : c ≠ '\x60') (backslash : c ≠ '\\')
    (alone : ¬(c = '$' ∧ rest.head? = some '\x7b')) (ret : c ≠ '\r') : cook (c :: rest) =
      (cook rest).map fun (value, ending) => (unitsAt c.toNat ++ value, ending) := by
  rw [cook.eq_def]
  simp only [backtick, backslash, alone, ret, if_false]

/-- With an escape in it a value is shorter than what is written. -/
theorem cook_escape {rest ending : List Char} {value : List Nat}
    (cooked : cook ('\\' :: rest) = some (value, ending)) :
    value.length + weight ending < weight rest := by
  rw [cook.eq_def] at cooked
  simp only [Char.reduceEq, if_false, if_true] at cooked
  split at cooked
  · exact nomatch cooked
  · next e inside =>
    split at cooked
    · exact nomatch cooked
    · next units after reads =>
      simp only [Option.map_eq_some_iff, Prod.mk.injEq, Prod.exists] at cooked
      obtain ⟨later, _, cooked, rfl, rfl⟩ := cooked
      have := cook_weight cooked
      have := (readEscape_suffix reads).2
      rw [List.length_append]
      omega

/-- The characters that begin something else. -/
theorem breaking_iff {c : Char} {rest : List Char} : (∃ word, IsBreaking word ∧ word <+: c :: rest) ↔
    c = '\x60' ∨ c = '\\' ∨ c = '\r' ∨ (c = '$' ∧ rest.head? = some '\x7b') := by
  have brace : ['\x7b'] <+: rest ↔ rest.head? = some '\x7b' := by
    cases rest with
    | nil => simp
    | cons d rest => simp [eq_comm]
  simp only [IsBreaking, List.mem_cons, List.not_mem_nil, or_false, or_and_right, exists_or,
    exists_eq_left, List.cons_prefix_cons, List.nil_prefix, and_true, brace, eq_comm (b := c)]

/-- Where something else begins, the value is not the text that is written: it would have to be as
long as the text, and start as it does. -/
theorem cook_special {c : Char} {rest ending : List Char}
    (special : c = '\x60' ∨ c = '\\' ∨ c = '\r' ∨ (c = '$' ∧ rest.head? = some '\x7b')) :
    cook (c :: (rest ++ '\x60' :: ending)) ≠ some (unitsOf (c :: rest), ending) := by
  intro cooked
  have room : weight (rest ++ '\x60' :: ending) = weight rest + 1 + weight ending := by
    rw [weight_append, weight_cons, show (unitsAt '\x60'.toNat).length = 1 from rfl]
    omega
  have length : (unitsOf (c :: rest)).length = (unitsAt c.toNat).length + weight rest :=
    weight_cons c rest
  have first := (unitsAt_length c.toNat).1
  rcases special with rfl | rfl | rfl | ⟨rfl, brace⟩
  · rw [cook_backtick] at cooked
    have none : [] = unitsOf ('\x60' :: rest) := congrArg Prod.fst (Option.some.inj cooked)
    rw [← none, List.length_nil] at length
    omega
  · have := cook_escape cooked
    omega
  · rw [cook_return] at cooked
    simp only [Option.map_eq_some_iff, Prod.mk.injEq, Prod.exists] at cooked
    obtain ⟨value, _, cooked, same, rfl⟩ := cooked
    have := cook_weight cooked
    split at same
    · rw [same] at this
      omega
    · exact absurd (List.cons.inj same).1 (by decide)
  · obtain ⟨more, rfl⟩ := List.head?_eq_some_iff.1 brace
    rw [List.cons_append, cook_interpolation] at cooked
    exact nomatch cooked

/-- The value of a template literal is the text that is written, and ends where that ends, unless the
text has something in it that stands for something else. -/
theorem cook_iff {text ending : List Char} :
    cook (text ++ '\x60' :: ending) = some (unitsOf text, ending) ↔ ¬Holds IsBreaking text := by
  induction text with
  | nil =>
    refine iff_of_true (cook_backtick ending) ?_
    rintro ⟨word, breaking, inside⟩
    rw [List.eq_nil_of_infix_nil inside] at breaking
    exact absurd breaking (by decide)
  | cons c rest ih =>
    have ahead : (rest ++ '\x60' :: ending).head? = some '\x7b' ↔ rest.head? = some '\x7b' := by
      cases rest <;> simp
    rw [holds_cons, not_or, ← ih, breaking_iff, List.cons_append]
    by_cases special : c = '\x60' ∨ c = '\\' ∨ c = '\r' ∨ (c = '$' ∧ rest.head? = some '\x7b')
    · exact iff_of_false (cook_special special) fun both => both.1 special
    · rw [and_iff_right special]
      -- Any other character stands for itself, and the rest decides.
      simp only [not_or] at special
      obtain ⟨backtick, backslash, ret, alone⟩ := special
      rw [cook_plain backtick backslash (by rwa [ahead]) ret, unitsOf_cons]
      simp only [Option.map_eq_some_iff, Prod.mk.injEq, Prod.exists, List.append_cancel_left_eq]
      constructor
      · rintro ⟨value, _, cooked, rfl, rfl⟩
        exact cooked
      · exact fun cooked => ⟨_, _, cooked, rfl, rfl⟩

end DesignComponents.Component
