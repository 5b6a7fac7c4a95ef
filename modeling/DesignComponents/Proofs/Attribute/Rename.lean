import DesignComponents.Proofs.Attribute.Memory
import DesignComponents.Proofs.Text.CharClass

/-! Which names are renamed once and for all. Camel case leaves nothing to join, but a name with a
namespace is joined over one colon only, and it is not put into camel case. -/

set_option autoImplicit false

namespace DesignComponents

open Text Reader

namespace Identifier

/-! ### Camel case -/

/-- Whether a hyphen or an underscore stands before a small letter. -/
def hyphened : List Char → Bool
  | a :: b :: rest => ((a == '-' || a == '_') && isAsciiLower b) || hyphened (b :: rest)
  | _ => false

theorem isAsciiUpper_asciiUpper {c : Char} (lower : isAsciiLower c = true) :
    isAsciiUpper (asciiUpper c) = true := by
  have ascii : isAscii c = true := isAscii_of_alphanumeric (by simp [isAsciiAlphanumeric, isAsciiLetter, lower])
  refine @ascii_induction (fun c => isAsciiLower c = true → isAsciiUpper (asciiUpper c) = true) ?_ c
    ascii lower
  decide +kernel

theorem hyphened_of_plain {name : List Char} (no_hyphen : '-' ∉ name) (no_underscore : '_' ∉ name) :
    hyphened name = false := by
  induction name using hyphened.induct with
  | case1 a b rest ih =>
    rw [List.mem_cons, not_or] at no_hyphen no_underscore
    simp [hyphened, ih no_hyphen.2 no_underscore.2, Ne.symm no_hyphen.1, Ne.symm no_underscore.1]
  | case2 cs short => exact hyphened.eq_2 cs short

theorem joinWords_eq_self {name : List Char} (plain : hyphened name = false) : joinWords name = name := by
  induction name using joinWords.induct with
  | case1 a b rest joins ih => simp [hyphened, joins] at plain
  | case2 a b rest joins ih =>
    rw [hyphened, Bool.or_eq_false_iff] at plain
    rw [joinWords, if_neg joins, ih plain.2]
  | case3 cs short => rw [joinWords.eq_2 cs short]

/-- A name that is changed gets a capital. -/
theorem joinWords_of_small {name : List Char} (small : ∀ c ∈ joinWords name, isAsciiUpper c = false) :
    joinWords name = name := by
  induction name using joinWords.induct with
  | case1 a b rest joins ih =>
    rw [joinWords, if_pos joins] at small
    simp only [Bool.and_eq_true] at joins
    have capital := isAsciiUpper_asciiUpper joins.2
    rw [small _ List.mem_cons_self] at capital
    exact nomatch capital
  | case2 a b rest joins ih =>
    rw [joinWords, if_neg joins] at small ⊢
    rw [ih fun c mem => small c (List.mem_cons_of_mem a mem)]
  | case3 cs short => rw [joinWords.eq_2 cs short]

/-- What stands first stays there, or a capital takes its place. -/
theorem joinWords_cons (c : Char) (rest : List Char) : ∃ d more, joinWords (c :: rest) = d :: more ∧
    (d = c ∨ isAsciiUpper d = true) := by
  cases rest with
  | nil => exact ⟨c, [], rfl, .inl rfl⟩
  | cons b rest =>
    rw [joinWords]
    split
    · next joins =>
      simp only [Bool.and_eq_true] at joins
      exact ⟨_, _, rfl, .inr (isAsciiUpper_asciiUpper joins.2)⟩
    · exact ⟨_, _, rfl, .inl rfl⟩

theorem hyphened_cons {a : Char} {rest : List Char}
    (apart : (a = '-' ∨ a = '_') → ∀ c ∈ rest.head?, isAsciiLower c = false) :
    hyphened (a :: rest) = hyphened rest := by
  cases rest with
  | nil => rfl
  | cons b rest =>
    by_cases sign : a = '-' ∨ a = '_'
    · simp [hyphened, apart sign b rfl]
    · simp only [not_or] at sign
      simp [hyphened, sign]

/-- Nothing is left to join. -/
theorem hyphened_joinWords (name : List Char) : hyphened (joinWords name) = false := by
  induction name using joinWords.induct with
  | case1 a b rest joins ih =>
    -- A capital is no sign, so what comes behind it is left alone.
    rw [joinWords, if_pos joins, hyphened_cons, ih]
    simp only [Bool.and_eq_true] at joins
    have capital := isAsciiUpper_asciiUpper joins.2
    rintro (sign | sign) <;> rw [sign] at capital <;> exact absurd capital (by decide)
  | case2 a b rest joins ih =>
    rw [joinWords, if_neg joins, hyphened_cons, ih]
    -- Behind a sign that stays there is no small letter: it was none, or it is a capital now.
    intro sign c first
    obtain ⟨d, more, same, whose⟩ := joinWords_cons b rest
    rw [same] at first
    cases first
    obtain rfl | capital := whose
    · simpa [sign] using joins
    · exact not_lower_of_upper capital
  | case3 cs short =>
    rw [joinWords.eq_2 cs short]
    match cs, short with
    | [], _ => rfl
    | [a], _ => rfl
    | a :: b :: rest, short => exact (short a b rest rfl).elim

theorem camelChars_cases (name : List Char) :
    camelChars name = name ∨ camelChars name = joinWords name := by
  unfold camelChars
  split
  · exact .inl rfl
  · exact .inr rfl

theorem camelChars_camelChars (name : List Char) : camelChars (camelChars name) = camelChars name := by
  obtain same | same := camelChars_cases name
  · rw [same, same]
  · rw [same]
    unfold camelChars
    split
    · rfl
    · exact joinWords_eq_self (hyphened_joinWords name)

theorem mem_joinWords {name : List Char} {c : Char} (mem : c ∈ joinWords name) :
    c ∈ name ∨ isAsciiUpper c = true := by
  induction name using joinWords.induct with
  | case1 a b rest joins ih =>
    rw [joinWords, if_pos joins] at mem
    simp only [Bool.and_eq_true] at joins
    rcases List.mem_cons.1 mem with rfl | mem
    · exact .inr (isAsciiUpper_asciiUpper joins.2)
    · exact (ih mem).imp_left fun mem => List.mem_cons_of_mem a (List.mem_cons_of_mem b mem)
  | case2 a b rest joins ih =>
    rw [joinWords, if_neg joins] at mem
    rcases List.mem_cons.1 mem with rfl | mem
    · exact .inl List.mem_cons_self
    · exact (ih mem).imp_left (List.mem_cons_of_mem a)
  | case3 cs short =>
    rw [joinWords.eq_2 cs short] at mem
    exact .inl mem

end Identifier

namespace Attribute

open Identifier

/-! ### A namespace and its colon -/

/-- Whether a colon stands between two words. -/
def jointed : List Char → Bool
  | a :: b :: c :: rest => (isWord a && b == ':' && isWord c) || jointed (b :: c :: rest)
  | _ => false

theorem jointed_iff {name : List Char} : jointed name = true ↔ ∃ front a c back,
    name = front ++ a :: ':' :: c :: back ∧ isWord a = true ∧ isWord c = true := by
  constructor
  · intro joint
    induction name using jointed.induct with
    | case1 a b c rest ih =>
      rw [jointed, Bool.or_eq_true] at joint
      obtain here | later := joint
      · simp only [Bool.and_eq_true, beq_iff_eq] at here
        obtain ⟨⟨word, rfl⟩, word'⟩ := here
        exact ⟨[], a, c, rest, rfl, word, word'⟩
      · obtain ⟨front, a', c', back, same, words⟩ := ih later
        exact ⟨a :: front, a', c', back, by rw [same]; rfl, words⟩
    | case2 cs short => rw [jointed.eq_2 cs short] at joint; exact nomatch joint
  · rintro ⟨front, a, c, back, rfl, word, word'⟩
    -- On what stands before the joint, which has two more characters to look at.
    induction front with
    | nil => simp [jointed, word, word']
    | cons d front ih =>
      obtain ⟨b, b', rest, same⟩ : ∃ b b' rest, front ++ a :: ':' :: c :: back = b :: b' :: rest := by
        match front with
        | [] => exact ⟨_, _, _, rfl⟩
        | [e] => exact ⟨_, _, _, rfl⟩
        | e :: e' :: front => exact ⟨_, _, _, rfl⟩
      rw [List.cons_append, same, jointed, Bool.or_eq_true]
      exact .inr (same ▸ ih)

theorem colonJoint_eq_some {p q : Place} {joined : List Char} :
    colonJoint p = some (joined, q) ↔ ∃ word c, joined = word ++ upperChar c ∧ word ≠ [] ∧
      (∀ d ∈ word, isWord d = true) ∧ isWord c = true ∧ p.After (word ++ [':', c]) q := by
  simp only [colonJoint, bind_eq_some, many1_eq_some, char_eq_some, one_eq_some, pure_eq_some]
  constructor
  · rintro ⟨word, m, ⟨some_word, all, -, first⟩, _, m', colon, c, _, ⟨letter, last⟩, rfl, rfl⟩
    exact ⟨word, c, rfl, some_word, all, letter, first.trans (colon.trans last)⟩
  · rintro ⟨word, c, rfl, some_word, all, letter, reached⟩
    obtain ⟨m, first, others⟩ := Place.after_append.1 reached
    obtain ⟨m', colon, last⟩ := Place.after_cons.1 others
    refine ⟨word, m, ⟨some_word, all, ?_, first⟩, (), m', colon, c, q, ⟨letter, last⟩, rfl, rfl⟩
    intro d ahead
    rw [colon.rest] at ahead
    obtain rfl : ':' = d := by simpa using ahead
    decide

/-- A name is joined over its first colon between words, or there is none. -/
theorem dropNamespace_cases (name : List Char) :
    jointed name = false ∧ dropNamespace name = name ∨ jointed name = true ∧
      ∃ front c back, front ≠ [] ∧ name = front ++ ':' :: c :: back ∧ isWord c = true ∧
        dropNamespace name = front ++ upperChar c ++ back := by
  unfold dropNamespace
  cases found : first? colonJoint name with
  | none =>
    refine .inl ⟨?_, rfl⟩
    rw [← Bool.not_eq_true, jointed_iff]
    rintro ⟨front, a, c, back, rfl, word, word'⟩
    have fails := first?_eq_none.1 found front _ rfl
    have reads := colonJoint_eq_some.2 ⟨[a], c, rfl, by simp, by simpa using word, word',
      Place.after_mk front.getLast? [a, ':', c] back⟩
    rw [List.cons_append, List.cons_append, List.cons_append, List.nil_append, fails] at reads
    exact nomatch reads
  | some split =>
    obtain ⟨passed, joined, next⟩ := split
    obtain ⟨ahead, rfl, reads⟩ := first?_eq_some found
    obtain ⟨word, c, rfl, some_word, all, letter, reached⟩ := colonJoint_eq_some.1 reads
    obtain rfl : ahead = word ++ [':', c] ++ next.rest := reached.rest
    obtain ⟨start, a, rfl⟩ := (List.eq_nil_or_concat word).resolve_left some_word
    refine .inr ⟨jointed_iff.2 ⟨passed ++ start, a, c, next.rest, by simp, all a (by simp), letter⟩,
      passed ++ (start ++ [a]), c, next.rest, by simp, by simp, letter, by simp⟩

theorem dropNamespace_eq_self {name : List Char} :
    dropNamespace name = name ↔ jointed name = false := by
  obtain ⟨plain, same⟩ | ⟨joint, front, c, back, -, rfl, word, joined⟩ := dropNamespace_cases name
  · simp [plain, same]
  · -- What is joined has one colon less.
    rw [joined, joint]
    refine iff_of_false (fun same => ?_) (by simp)
    have fewer := congrArg (List.count ':') same
    have none_above : (upperChar c).count ':' = 0 :=
      List.count_eq_zero.2 fun mem => (upperChar_avoids word _ mem).1 rfl
    have not_colon : c ≠ ':' := by
      rintro rfl
      exact absurd word (by decide)
    simp only [List.count_append, List.count_cons, beq_self_eq_true, if_true] at fewer
    omega

/-! ### What is renamed again -/

theorem special_small : ∀ p ∈ special, ∀ c ∈ p.1.toList, c = ':' ∨ isAsciiLower c = true := by
  decide +kernel

theorem rename_special : ∀ p ∈ special, rename p.2 = p.2 := by
  decide +kernel

/-- A name with a character that is neither a colon nor a small letter is no special one. -/
theorem lookup_special {name : String} {c : Char} (mem : c ∈ name.toList)
    (other : c ≠ ':') (large : isAsciiLower c = false) : special.lookup name = none := by
  cases found : special.lookup name with
  | none => rfl
  | some renamed =>
    obtain same | lower := special_small _ (OrderedMap.mem_of_lookup found) c mem
    · exact absurd same other
    · exact absurd lower (by simp [large])

/-- A namespace is named in letters that start no custom name. -/
theorem head_of_isNamespaced {name : String} (spaced : isNamespaced name = true) :
    ':' ∈ name.toList ∧ ∃ c ∈ name.toList.head?, sameLetter 'x' c = true := by
  obtain ⟨word, one_of, taken, rest, written, same⟩ := accepts_letters spaced
  refine ⟨by simp [written], ?_⟩
  obtain rfl | rfl : word = "xlink" ∨ word = "xml" := by simpa using one_of
  all_goals
    cases same with
    | cons first _ => exact ⟨_, by rw [written]; rfl, first⟩

theorem head_of_isCustom {name : String} (custom : isCustom name = true) :
    ∃ c ∈ name.toList.head?, sameLetter 'd' c = true ∨ sameLetter 'a' c = true := by
  obtain ⟨word, one_of, taken, rest, written, same⟩ := accepts_letters custom
  obtain rfl | rfl : word = "data" ∨ word = "aria" := by simpa using one_of
  · cases same with
    | cons first _ => exact ⟨_, by rw [written]; rfl, .inl first⟩
  · cases same with
    | cons first _ => exact ⟨_, by rw [written]; rfl, .inr first⟩

theorem of_head_x {name : String} {c : Char} (first : name.toList.head? = some c)
    (letter : sameLetter 'x' c = true) :
    isCustom name = false ∧ camelChars name.toList = joinWords name.toList := by
  have low : lowerChar c = ['x'] := by simpa [sameLetter] using letter
  constructor
  · rw [← Bool.not_eq_true]
    intro custom
    obtain ⟨d, mem, same⟩ := head_of_isCustom custom
    obtain rfl : c = d := Option.some.inj (first.symm.trans mem)
    simp [sameLetter, low] at same
  · unfold camelChars
    split
    · next two =>
      obtain rfl : '-' = c := by simpa [two] using first
      exact absurd low (by decide)
    · rfl

/-- Which names stay as they are. -/
theorem rename_eq_self {name : String} (plain : special.lookup name = none) :
    rename name = name ↔ isCustom name = true ∨
      if isNamespaced name = true then jointed name.toList = false
      else camelChars name.toList = name.toList := by
  have ofList_eq : ∀ text, String.ofList text = name ↔ text = name.toList := fun text =>
    ⟨fun same => by rw [← same, String.toList_ofList], fun same => by rw [same, String.ofList_toList]⟩
  rw [rename]
  split
  · next custom => simp [custom]
  · next other =>
    simp only [plain, other, false_or, Bool.false_eq_true]
    split
    · rw [ofList_eq, dropNamespace_eq_self]
    · rw [camelCase, ofList_eq]

/-- Whether what a name becomes is renamed no further. Only a name with a namespace may be: the
namespace may have more to join behind it, or a joined name may not be in camel case. -/
def settles (name : String) : Bool :=
  isCustom name || (special.lookup name).isSome ||
    if isNamespaced (rename name) then !jointed (rename name).toList
    else !(isNamespaced name && hyphened (rename name).toList)

/-- What a name becomes is special only if the name is. -/
theorem lookup_rename {name : String} (plain : special.lookup name = none) :
    special.lookup (rename name) = none := by
  rw [rename]
  split
  · exact plain
  simp only [plain]
  split
  · obtain ⟨-, same⟩ | ⟨-, front, c, back, -, -, word, joined⟩ := dropNamespace_cases name.toList
    · rwa [same, String.ofList_toList]
    · obtain ⟨d, mem⟩ := List.exists_mem_of_ne_nil _ (upperChar_ne_nil c)
      obtain ⟨no_colon, large⟩ := upperChar_avoids word d mem
      refine lookup_special (c := d) ?_ no_colon large
      rw [String.toList_ofList, joined]
      simp [mem]
  · by_cases same : camelChars name.toList = name.toList
    · rwa [camelCase, same, String.ofList_toList]
    · -- A word was joined, so there is a capital.
      obtain ⟨c, mem, capital⟩ : ∃ c ∈ camelChars name.toList, isAsciiUpper c = true := by
        obtain kept | joined := camelChars_cases name.toList
        · exact absurd kept same
        by_contra small
        simp only [not_exists, not_and, Bool.not_eq_true, joined] at small
        exact same (joined.trans (joinWords_of_small small))
      refine lookup_special (c := c) (by rwa [camelCase, String.toList_ofList]) ?_
        (not_lower_of_upper capital)
      rintro rfl
      exact absurd capital (by decide)

theorem rename_rename_iff (name : String) :
    rename (rename name) = rename name ↔ settles name = true := by
  by_cases custom : isCustom name = true
  · have same : rename name = name := by rw [rename, if_pos custom]
    simp [settles, same, custom]
  cases found : special.lookup name with
  | some renamed =>
    have same : rename name = renamed := by rw [rename, if_neg custom, found]
    rw [same, settles, found]
    simp [rename_special _ (OrderedMap.mem_of_lookup found)]
  | none =>
    rw [Bool.not_eq_true] at custom
    rw [rename_eq_self (lookup_rename found), settles, custom, found, Option.isSome_none, Bool.false_or,
      Bool.false_or]
    by_cases spaced : isNamespaced name = true
    · -- The first letter stays, so the new name is neither custom nor a property of its own.
      obtain ⟨-, c, first, letter⟩ := head_of_isNamespaced spaced
      have first' : (rename name).toList.head? = some c := by
        rw [rename, custom, found]
        simp only [Bool.false_eq_true, if_false, spaced, if_true, String.toList_ofList]
        obtain ⟨-, same⟩ | ⟨-, front, d, back, some_front, written, -, joined⟩ :=
          dropNamespace_cases name.toList
        · rwa [same]
        · rw [joined, List.append_assoc, List.head?_append_of_ne_nil _ some_front]
          rwa [written, Option.mem_def, List.head?_append_of_ne_nil _ some_front] at first
      obtain ⟨not_custom, camel⟩ := of_head_x first' letter
      have stays : joinWords (rename name).toList = (rename name).toList ↔
          hyphened (rename name).toList = false :=
        ⟨fun same => same ▸ hyphened_joinWords _, joinWords_eq_self⟩
      rw [not_custom, camel, stays, spaced]
      split <;> simp
    · have again : camelChars (rename name).toList = (rename name).toList := by
        rw [rename, custom, found]
        simp only [Bool.false_eq_true, if_false, spaced, camelCase, String.toList_ofList,
          camelChars_camelChars]
      by_cases spaced' : isNamespaced (rename name) = true
      · obtain ⟨-, c, first, letter⟩ := head_of_isNamespaced spaced'
        simp [(of_head_x first letter).1, spaced']
      · simp [again, spaced', spaced]

/-- A name without a colon, and one that is data or special, is renamed once and for all. -/
theorem settles_of_no_colon {name : String} (plain : ':' ∉ name.toList) : settles name = true := by
  have not_spaced : ∀ {name : String}, ':' ∉ name.toList → isNamespaced name = false := fun plain =>
    Bool.eq_false_iff.2 fun spaced => plain (head_of_isNamespaced spaced).1
  rw [settles]
  cases custom : isCustom name with
  | true => rfl
  | false =>
    cases found : special.lookup name with
    | some renamed => rfl
    | none =>
      have plain' : ':' ∉ (rename name).toList := by
        rw [rename, custom, found]
        simp only [Bool.false_eq_true, if_false, not_spaced plain, camelCase, String.toList_ofList]
        obtain same | same := camelChars_cases name.toList
        · rwa [same]
        · rw [same]
          intro mem
          obtain mem | capital := mem_joinWords mem
          · exact plain mem
          · exact absurd capital (by decide)
      simp [not_spaced plain, not_spaced plain']

namespace Memory

/-- A valid memory gives what it gave for a name for that again if the name settles, and for no
other name. Every name without a colon settles. -/
theorem nameFor_nameFor (name : String) (t : Memory) (valid : t.Valid) :
    let once := (nameFor name).run t
    let twice := (nameFor once.1).run once.2
    (twice.1 = once.1 ↔ settles name = true) ∧ (':' ∉ name.toList → twice.1 = once.1) := by
  intro once twice
  obtain ⟨renamed, kept⟩ := nameFor_law name t valid
  obtain ⟨renamed', -⟩ := nameFor_law once.1 once.2 kept
  have settled : twice.1 = once.1 ↔ settles name = true := by
    rw [← rename_rename_iff, ← renamed]
    exact Eq.congr_left renamed'
  exact ⟨settled, fun plain => settled.2 (settles_of_no_colon plain)⟩

theorem nameFor_nameFor_role :
    let once := (nameFor "xlink:role").run { limit := 1 }
    once.1 = "xlinkRole" ∧ ((nameFor once.1).run once.2).1 = once.1 := by
  intro once
  refine ⟨by decide +kernel, ?_⟩
  exact (nameFor_nameFor "xlink:role" { limit := 1 } (valid_empty 1)).1.2 (by decide +kernel)

end Memory

/-- Joining a name over its colon leaves its hyphens, and the joined name is put into camel case. -/
theorem joined_name_unsettled :
    rename "xlink:foo-bar" = "xlinkFoo-bar" ∧ rename "xlinkFoo-bar" = "xlinkFooBar" := by
  decide +kernel

end Attribute

end DesignComponents
