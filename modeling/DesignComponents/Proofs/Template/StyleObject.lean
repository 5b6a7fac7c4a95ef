import DesignComponents.Proofs.Number.Reading
import DesignComponents.Proofs.Template.Static

/-! Style objects on the way through a template. An element's style is written as an object of the
script language and read back as declarations. The reader undoes the escape of a quote but not that
of a backslash, so a value comes back with its backslashes doubled. -/

set_option autoImplicit false

namespace DesignComponents.Template

open Text Reader Target Markup

/-! ### Literals -/

def doubled (c : Char) : List Char := if c == '\\' then ['\\', '\\'] else [c]

/-- The value that is read back where `v` was written. -/
def reread : Json → Json
  | .str s => .str (String.ofList (s.toList.flatMap doubled))
  | v => v

theorem untilQuote_escaped (text rest : List Char) :
    untilQuote (text.flatMap escapeLiteralChar ++ '\'' :: rest) =
      some (text.flatMap escapeLiteralChar, rest) := by
  induction text with
  | nil => rfl
  | cons c text ih =>
    rw [List.flatMap_cons, List.append_assoc]
    -- An escape is passed over as a whole, and so no quote of the text ends it.
    by_cases escaped : c = '\\' ∨ c = '\''
    · have sign : escapeLiteralChar c = ['\\', c] := if_pos (by simpa using escaped)
      have unbroken : (c == '\n') = false := by
        obtain rfl | rfl := escaped
        · rfl
        · rfl
      rw [sign, List.cons_append, List.cons_append, untilQuote, unbroken, List.nil_append, ih]
      rfl
    · have plain : escapeLiteralChar c = [c] := if_neg (by simpa using escaped)
      rw [not_or] at escaped
      rw [plain, List.cons_append, List.nil_append, untilQuote, ih]
      · rfl
      · exact escaped.2
      · exact fun _ _ same => absurd same escaped.1
      · exact fun same => absurd same escaped.1

/-- An escape begins with a backslash, and a quote is never first. -/
theorem head_escaped {text : List Char} {c : Char}
    (head : (text.flatMap escapeLiteralChar).head? = some c) :
    c = '\\' ∨ c ≠ '\'' ∧ text.head? = some c := by
  cases text with
  | nil => exact nomatch head
  | cons d text =>
    rw [List.flatMap_cons, escapeLiteralChar] at head
    split at head
    · exact .inl (Option.some.inj head).symm
    · next plain =>
      cases head
      exact .inr ⟨fun quote => plain (by simp [quote]), rfl⟩

theorem replaceAll_escaped (text : List Char) :
    replaceAll ['\\', '\''] ['\''] (text.flatMap escapeLiteralChar) = text.flatMap doubled := by
  induction text with
  | nil => rfl
  | cons c text ih =>
    rw [List.flatMap_cons, List.flatMap_cons, ← ih]
    by_cases quoted : c = '\''
    · subst quoted
      exact replaceAll_append (by simp)
    have absent : ∀ {rest : List Char}, rest.head? ≠ some '\'' → ¬ ['\\', '\''] <+: c :: rest := by
      rintro rest other ⟨more, same⟩
      rw [← (List.cons.inj same).2] at other
      exact other rfl
    -- The second backslash of an escape is followed by another escape or by a plain character.
    have later : (text.flatMap escapeLiteralChar).head? ≠ some '\'' := by
      intro head
      obtain sign | ⟨other, -⟩ := head_escaped head
      · exact absurd sign (by decide)
      · exact other rfl
    by_cases slash : c = '\\'
    · subst slash
      have pair : escapeLiteralChar '\\' ++ text.flatMap escapeLiteralChar =
          '\\' :: '\\' :: text.flatMap escapeLiteralChar := rfl
      rw [pair, replaceAll_cons (absent (by simp)), replaceAll_cons (absent later)]
      rfl
    · have plain : escapeLiteralChar c = [c] := if_neg (by simp [slash, quoted])
      have once : doubled c = [c] := if_neg (by simpa using slash)
      rw [plain, once, List.singleton_append, replaceAll_cons (absent later)]
      rfl

theorem literal_str (s : String) :
    literal (.str s) = '\'' :: s.toList.flatMap escapeLiteralChar ++ ['\''] := rfl

/-- A quoted text is read as it was but for its backslashes. -/
theorem unquoted_literal (s : String) : unquoted (literal (.str s)) = s.toList.flatMap doubled := by
  have starts : startsWith ['\''] (literal (.str s)) = true := startsWith_iff.2 ⟨_, rfl⟩
  have ends : endsWith ['\''] (literal (.str s)) = true := by
    rw [endsWith, startsWith_iff, literal_str, List.reverse_append]
    exact List.prefix_append _ _
  have inside : ((literal (.str s)).drop 1).dropLast = s.toList.flatMap escapeLiteralChar :=
    List.dropLast_concat
  rw [unquoted, starts, ends, inside]
  exact replaceAll_escaped s.toList

/-! ### What an object may hold -/

/-- A text or a whole number. -/
inductive Scalar : Json → Prop where
  | text (s : String) : Scalar (.str s)
  | whole (n : Int) : Scalar (.num (.int n))

/-- Word characters and dollar signs, as in an identifier of the script language. -/
structure IsKey (name : List Char) : Prop where
  some_name : name ≠ []
  each : ∀ c ∈ name, (isWord c || c == '$') = true

/-- A style: at least one entry, each with an identifier for its name and a text or a whole number
for its value. -/
structure Entries (members : List (String × Json)) : Prop where
  some_members : members ≠ []
  keys : ∀ e ∈ members, IsKey e.1.toList
  values : ∀ e ∈ members, Scalar e.2

/-- A number has neither white space in it nor a sign that means something in an object. -/
theorem plain_ofInt {n : Int} : ∀ c ∈ Decimal.ofInt n, isBlank c = false ∧ c ≠ '\'' ∧ (c != ',') = true := by
  intro c mem
  obtain rfl | digit := Decimal.mem_ofInt mem
  · decide
  have word : isWord c = true := isWord_of_alphanumeric (by simp [isAsciiAlphanumeric, digit])
  refine ⟨not_blank_of_isWord word, ?_, bne_iff_ne.2 ?_⟩
  · rintro rfl
    exact absurd word (by decide)
  · rintro rfl
    exact absurd word (by decide)

/-- A number is read as it is. -/
theorem unquoted_ofInt (n : Int) : unquoted (Decimal.ofInt n) = Decimal.ofInt n := by
  have starts : startsWith ['\''] (Decimal.ofInt n) = false := by
    refine Bool.eq_false_iff.2 fun starts => ?_
    obtain ⟨more, same⟩ := startsWith_iff.1 starts
    have quote : '\'' ∈ Decimal.ofInt n := by
      rw [← same]
      exact List.mem_cons_self
    exact (plain_ofInt _ quote).2.1 rfl
  rw [unquoted, starts]
  rfl

theorem trimmed_key {name : List Char} (named : IsKey name) : Trimmed name := by
  refine trimmed_of_solid named.some_name fun c mem => Bool.eq_false_iff.2 fun blank => ?_
  have letter := named.each c mem
  rw [isWord_of_isBlank blank, Bool.false_or, beq_iff_eq] at letter
  subst letter
  exact absurd blank (by decide)

theorem trimmed_literal {v : Json} (scalar : Scalar v) : Trimmed (literal v) := by
  cases scalar with
  | text s =>
    refine ⟨by simp [literal_str], ?_, ?_⟩
    · rintro c ⟨⟩
      decide
    · rw [literal_str, List.getLast?_concat]
      rintro c ⟨⟩
      decide
  | whole n => exact trimmed_of_solid (Decimal.ofInt_ne_nil n) fun c mem => (plain_ofInt c mem).1

theorem spelled_reread {v : Json} (scalar : Scalar v) : (reread v).spelled = unquoted (literal v) := by
  cases scalar with
  | text s => rw [unquoted_literal, reread, Json.spelled, String.toList_ofList]
  | whole n => exact (unquoted_ofInt n).symm

/-! ### Reading an object -/

theorem untilQuote_eq_some {text value after : List Char} (reads : untilQuote text = some (value, after)) :
    text = value ++ '\'' :: after := by
  induction text using untilQuote.induct generalizing value after with
  | case1 => exact nomatch reads
  | case2 rest =>
    cases reads
    rfl
  | case3 c rest broken =>
    rw [untilQuote, if_pos broken] at reads
    exact nomatch reads
  | case4 c rest unbroken ih =>
    rw [untilQuote, if_neg unbroken] at reads
    obtain ⟨⟨value, after⟩, further, same⟩ := Option.map_eq_some_iff.1 reads
    cases same
    rw [ih further]
    rfl
  | case5 => exact nomatch reads
  | case6 c rest no_quote no_pair no_end ih =>
    rw [untilQuote] at reads
    · obtain ⟨⟨value, after⟩, further, same⟩ := Option.map_eq_some_iff.1 reads
      cases same
      rw [ih further]
      rfl
    · exact no_quote
    · exact no_pair
    · exact no_end

theorem quotedValue_after {p q : Place} {value : List Char} (reads : quotedValue p = some (value, q)) :
    p.After value q := by
  unfold quotedValue at reads
  split at reads
  · next rest ahead =>
    obtain ⟨⟨inner, after⟩, found, same⟩ := Option.map_eq_some_iff.1 reads
    cases same
    refine ⟨?_, ?_⟩
    · rw [ahead, untilQuote_eq_some found]
      simp [Place.past]
    · rw [Place.past, List.getLast?_append]
      rfl
  · cases reads

theorem objectValue_after {p q : Place} {value : List Char} (reads : objectValue p = some (value, q)) :
    ∃ lead, p.After (lead ++ value) q := by
  obtain ⟨lead, m, blank, reads⟩ := bind_eq_some.1 reads
  have reached := (many_eq_some.1 blank).2.2
  refine ⟨lead, reached.trans ?_⟩
  obtain quoted | ⟨-, plain⟩ := orElse_eq_some.1 reads
  · exact quotedValue_after quoted
  · obtain ⟨text, m', taken, done⟩ := bind_eq_some.1 plain
    split at done
    · exact (failure_eq_some.1 done).elim
    · obtain ⟨rfl, rfl⟩ := pure_eq_some.1 done
      exact (many_eq_some.1 taken).2.2

theorem key_takes : Takes key := by
  intro p name q reads
  obtain word | ⟨-, quoted⟩ := orElse_eq_some.1 reads
  · obtain ⟨some_name, -, -, reached⟩ := many1_eq_some.1 word
    exact ⟨name, some_name, reached⟩
  · simp only [quotedKey, bind_eq_some, char_eq_some, many_eq_some, pure_eq_some] at quoted
    obtain ⟨_, m, first, inner, m₁, ⟨-, -, inside⟩, _, m₂, last, rfl, rfl⟩ := quoted
    exact ⟨_, by simp, (first.trans inside).trans last⟩

theorem pair_takes : Takes pair := by
  intro p v q reads
  simp only [pair, blanks, bind_eq_some, many_eq_some, char_eq_some, pure_eq_some] at reads
  obtain ⟨name, m, named, blank, m₁, ⟨-, -, lead⟩, _, m₂, sign, value, m₃, valued, rfl, rfl⟩ := reads
  obtain ⟨taken, some_taken, reached⟩ := key_takes named
  obtain ⟨lead', reached'⟩ := objectValue_after valued
  exact ⟨_, by simp [some_taken], ((reached.trans lead).trans sign).trans reached'⟩

/-- An entry as it is written. -/
def writeEntry (e : String × Json) : List Char := e.1.toList ++ ": ".toList ++ literal e.2

section

variable {before : Option Char} {rest : List Char}

theorem objectValue_literal {v : Json} (scalar : Scalar v) (ends : ∀ c ∈ rest.head?, c = ',') :
    ∃ after, objectValue ⟨before, ' ' :: literal v ++ rest⟩ = some (literal v, ⟨after, rest⟩) := by
  have lead : ∀ {c : Char} {more : List Char}, isBlank c = false →
      blanks ⟨before, ' ' :: c :: more⟩ = some ([' '], ⟨some ' ', c :: more⟩) := by
    intro c more solid
    refine many_eq_some.2 ⟨by decide, ?_, rfl, rfl⟩
    rintro d ⟨⟩
    exact solid
  cases scalar with
  | text s =>
    have quoted : quotedValue ⟨some ' ', literal (.str s) ++ rest⟩ = some (literal (.str s), ⟨some '\'', rest⟩) := by
      have whole : literal (.str s) ++ rest = '\'' :: (s.toList.flatMap escapeLiteralChar ++ '\'' :: rest) := by
        simp [literal_str]
      rw [whole, quotedValue]
      simp only [untilQuote_escaped]
      rfl
    refine ⟨some '\'', bind_eq_some.2 ⟨[' '], ⟨some ' ', literal (.str s) ++ rest⟩, lead (by decide), ?_⟩⟩
    exact orElse_eq_some.2 (.inl quoted)
  | whole n =>
    -- A number is no quoted value, so it is read to the comma.
    have whole : ' ' :: literal (.num (.int n)) ++ rest = ' ' :: (Decimal.ofInt n ++ rest) := rfl
    obtain ⟨first, others, shape⟩ := List.exists_cons_of_ne_nil (Decimal.ofInt_ne_nil n)
    obtain ⟨solid, no_quote, -⟩ := plain_ofInt first (shape ▸ List.mem_cons_self)
    have unquoted : quotedValue ⟨some ' ', Decimal.ofInt n ++ rest⟩ = none := by
      rw [shape, List.cons_append, quotedValue]
      split
      · next same => exact absurd (List.cons.inj same).1 no_quote
      · rfl
    let after := (Decimal.ofInt n).getLast?.or (some ' ')
    have taken : many (· != ',') ⟨some ' ', Decimal.ofInt n ++ rest⟩ =
        some (Decimal.ofInt n, ⟨after, rest⟩) := by
      refine many_eq_some.2 ⟨fun c mem => (plain_ofInt c mem).2.2, fun c head => ?_, Place.after_mk _ _ _⟩
      rw [ends c head]
      rfl
    have blank : blanks ⟨before, ' ' :: (Decimal.ofInt n ++ rest)⟩ =
        some ([' '], ⟨some ' ', Decimal.ofInt n ++ rest⟩) := by
      rw [shape]
      exact lead solid
    rw [whole]
    refine ⟨after, bind_eq_some.2 ⟨_, _, blank, orElse_eq_some.2 (.inr ⟨unquoted, ?_⟩)⟩⟩
    exact bind_eq_some.2 ⟨_, _, taken, by simp [pure_eq_some, literal]⟩

theorem key_word {name : List Char} (named : IsKey name) :
    ∃ after, key ⟨before, name ++ ':' :: rest⟩ = some (name, ⟨after, ':' :: rest⟩) := by
  refine ⟨_, orElse_eq_some.2 (.inl (many1_eq_some.2 ⟨named.some_name, named.each, ?_, Place.after_mk _ _ _⟩))⟩
  rintro c ⟨⟩
  decide

/-- What was written is one pair. -/
theorem pair_writeEntry {e : String × Json} (named : IsKey e.1.toList) (scalar : Scalar e.2)
    (ends : ∀ c ∈ rest.head?, c = ',') :
    ∃ after, pair ⟨before, writeEntry e ++ rest⟩ = some ((e.1.toList, literal e.2), ⟨after, rest⟩) := by
  have whole : writeEntry e ++ rest = e.1.toList ++ ':' :: (' ' :: literal e.2 ++ rest) := by
    simp [writeEntry]
  obtain ⟨after, keyed⟩ := @key_word before (' ' :: literal e.2 ++ rest) _ named
  obtain ⟨last, valued⟩ := @objectValue_literal (some ':') rest _ scalar ends
  have unspaced : blanks ⟨after, ':' :: (' ' :: literal e.2 ++ rest)⟩ =
      some ([], ⟨after, ':' :: (' ' :: literal e.2 ++ rest)⟩) := by
    refine many_eq_some.2 ⟨List.forall_mem_nil _, ?_, rfl, rfl⟩
    rintro c ⟨⟩
    decide
  rw [whole]
  refine ⟨last, ?_⟩
  simp only [pair, bind_eq_some, char_eq_some, pure_eq_some]
  exact ⟨_, _, keyed, _, _, unspaced, (), _, ⟨rfl, rfl⟩, _, _, valued, rfl, rfl⟩

end

def writeBody (members : List (String × Json)) : List Char := join ", ".toList (members.map writeEntry)

theorem writeBody_single (e : String × Json) : writeBody [e] = writeEntry e := by
  simp [writeBody, join]

/-- What stands between two entries is in neither. -/
theorem writeBody_cons_cons (e next : String × Json) (rest : List (String × Json)) :
    writeBody (e :: next :: rest) = writeEntry e ++ ',' :: ' ' :: writeBody (next :: rest) := by
  simp [writeBody, join, List.intercalate_cons_cons]

theorem pair_none {before : Option Char} {c : Char} {rest : List Char}
    (sign : (isWord c || c == '$') = false) (other : c ≠ '\'') : pair ⟨before, c :: rest⟩ = none := by
  refine unread_iff.2 fun v q reads => ?_
  obtain ⟨name, m, named, -⟩ := bind_eq_some.1 reads
  obtain word | ⟨-, quoted⟩ := orElse_eq_some.1 named
  · obtain ⟨some_name, all, -, reached⟩ := many1_eq_some.1 word
    obtain ⟨d, others, rfl⟩ := List.exists_cons_of_ne_nil some_name
    obtain rfl : c = d := (List.cons.inj reached.rest).1
    rw [all c List.mem_cons_self] at sign
    exact nomatch sign
  · obtain ⟨_, m₁, first, -⟩ := bind_eq_some.1 quoted
    exact other (List.cons.inj (char_eq_some.1 first).rest).1

/-- The pairs of a written object are its entries. -/
theorem findAll_writeBody {members : List (String × Json)} (keys : ∀ e ∈ members, IsKey e.1.toList)
    (values : ∀ e ∈ members, Scalar e.2) :
    findAll pair (writeBody members) = members.map fun e => (e.1.toList, literal e.2) := by
  have further : ∀ before, (cutAt pair ⟨before, writeBody members⟩).values =
      members.map fun e => (e.1.toList, literal e.2) := by
    -- On the entries, for any character before them.
    induction members with
    | nil => exact fun before => rfl
    | cons e rest ih =>
      intro before
      rw [List.forall_mem_cons] at keys values
      have later := ih keys.2 values.2
      have first := fun {ending} ends => @pair_writeEntry before ending e keys.1 values.1 ends
      cases rest with
      | nil =>
        obtain ⟨after, reads⟩ := @first [] nofun
        rw [List.append_nil] at reads
        rw [writeBody_single, cutAt_some pair_takes reads, cutAt_nil, Cut.append_nil]
        rfl
      | cons next rest =>
        obtain ⟨after, reads⟩ := @first (',' :: ' ' :: writeBody (next :: rest)) (by rintro c ⟨⟩; rfl)
        -- Neither the comma nor the space behind it begins a pair.
        rw [writeBody_cons_cons, cutAt_some pair_takes reads,
          cutAt_none pair_takes (pair_none (by decide) (by decide)),
          cutAt_none pair_takes (pair_none (by decide) (by decide)), Cut.values_append, Cut.values_append,
          Cut.values_append, later]
        rfl
  exact further none

/-! ### What comes back -/

/-- An entry as a declaration of a style sheet. -/
def declared (e : String × Json) : List Char :=
  Style.propertyChars e.1.toList ++ ": ".toList ++ Style.valueChars (Style.property e.1) e.2

def declarations (members : List (String × Json)) : List Char :=
  join "; ".toList (members.map declared)

/-- The entries as they are read back. -/
def readBack (members : List (String × Json)) : List (String × Json) :=
  members.map fun e => (e.1, reread e.2)

theorem declaration_literal {e : String × Json} (named : IsKey e.1.toList) (scalar : Scalar e.2) :
    declaration e.1.toList (literal e.2) = declared (e.1, reread e.2) := by
  have unquoted_name : trimBy (· == '\'') e.1.toList = e.1.toList := by
    refine trimBy_solid fun c mem => beq_eq_false_iff_ne.2 ?_
    rintro rfl
    exact absurd (named.each _ mem) (by decide)
  have text : (Json.str (String.ofList (unquoted (literal e.2)))).spelled = (reread e.2).spelled := by
    rw [spelled_reread scalar, Json.spelled, String.toList_ofList]
  rw [declaration, unquoted_name, (trimmed_literal scalar).trim, declared, Style.valueChars, Style.valueChars, text]
  rfl

theorem styleText_writeBody {members : List (String × Json)} (keys : ∀ e ∈ members, IsKey e.1.toList)
    (values : ∀ e ∈ members, Scalar e.2) : styleText (writeBody members) = declarations (readBack members) := by
  rw [styleText, findAll_writeBody keys values, declarations, readBack, List.map_map, List.map_map]
  refine congrArg (join "; ".toList) (List.map_congr_left fun e mem => ?_)
  exact declaration_literal (keys e mem) (values e mem)

theorem count_doubled (text : List Char) : (text.flatMap doubled).count '\\' = 2 * text.count '\\' := by
  induction text with
  | nil => rfl
  | cons c rest ih =>
    rw [List.flatMap_cons, List.count_append, ih]
    by_cases slash : c = '\\'
    · subst slash
      rw [List.count_cons_self, Nat.mul_succ, Nat.add_comm]
      rfl
    · have once : doubled c = [c] := if_neg (by simpa using slash)
      rw [once, List.count_cons_of_ne slash, List.count_cons_of_ne slash, List.count_nil, Nat.zero_add]

theorem count_valueChars (property : String) (v : Json) :
    (Style.valueChars property v).count '\\' = v.spelled.count '\\' := by
  have kept : (trim v.spelled).count '\\' = v.spelled.count '\\' := count_trimBy (by decide) _
  unfold Style.valueChars
  dsimp only
  split
  · rw [List.count_append, kept]
    rfl
  · exact kept

theorem count_reread {v : Json} (scalar : Scalar v) :
    (reread v).spelled.count '\\' = v.spelled.count '\\' + v.spelled.count '\\' := by
  cases scalar with
  | text s =>
    rw [reread, Json.spelled, String.toList_ofList, count_doubled, Nat.two_mul]
    rfl
  | whole n =>
    have none_in : (Decimal.ofInt n).count '\\' = 0 := by
      refine List.count_eq_zero.2 fun mem => ?_
      obtain sign | digit := Decimal.mem_ofInt mem
      · exact absurd sign (by decide)
      · exact absurd digit (by decide)
    have number : (reread (.num (.int n))).spelled = (Json.num (.int n)).spelled := rfl
    have spelled : (Json.num (.int n)).spelled = Decimal.ofInt n := rfl
    rw [number, spelled, none_in]

/-- As many backslashes come on top as there are in the values. -/
theorem count_readBack {members : List (String × Json)} (values : ∀ e ∈ members, Scalar e.2) :
    (declarations (readBack members)).count '\\' = (declarations members).count '\\' +
      (members.flatMap fun e => e.2.spelled).count '\\' := by
  rw [declarations, declarations, count_join (by decide), count_join (by decide)]
  induction members with
  | nil => rfl
  | cons e rest ih =>
    rw [List.forall_mem_cons] at values
    have value := count_reread values.1
    have later := ih values.2
    simp only [readBack, declared, List.map_cons, List.flatten_cons, List.flatMap_cons, List.count_append,
      count_valueChars, value] at later ⊢
    omega

theorem reread_eq_self {v : Json} (scalar : Scalar v) (plain : '\\' ∉ v.spelled) : reread v = v := by
  cases scalar with
  | text s =>
    have once : s.toList.flatMap doubled = s.toList.flatMap ([·]) := by
      refine List.flatMap_congr fun c mem => if_neg fun slash => plain ?_
      rw [← beq_iff_eq.1 slash]
      exact mem
    rw [reread, once, List.flatMap_singleton', String.ofList_toList]
  | whole n => rfl

/-- The declarations are the style's own just where no value has a backslash. -/
theorem declarations_readBack {members : List (String × Json)} (values : ∀ e ∈ members, Scalar e.2) :
    declarations (readBack members) = declarations members ↔ ∀ e ∈ members, '\\' ∉ e.2.spelled := by
  constructor
  · -- Equal texts have equally many backslashes.
    intro same e mem
    have none_added : (members.flatMap fun e => e.2.spelled).count '\\' = 0 := by
      have counts := count_readBack values
      rw [same] at counts
      omega
    exact fun slash => List.count_eq_zero.1 none_added (List.mem_flatMap.2 ⟨e, mem, slash⟩)
  · intro plain
    have itself : readBack members = members.map id := by
      refine List.map_congr_left fun e mem => ?_
      rw [reread_eq_self (values e mem) (plain e mem)]
      rfl
    rw [itself, List.map_id]

/-! ### Objects in a template -/

/-- A text that an object can hold: it is on one line, and the sign that ends the object is not in it. -/
structure Whole (text : List Char) : Prop where
  unbroken : '\n' ∉ text
  unclosed : ¬ "\x7d\x7d".toList <:+: text

theorem whole_of_plain {text : List Char} (unbroken : '\n' ∉ text) (no_brace : '\x7d' ∉ text) :
    Whole text := ⟨unbroken, fun inside => no_brace (inside.subset (by simp))⟩

/-- What stands between two texts keeps them apart. -/
theorem Whole.append {left right : List Char} (first : Whole left) (second : Whole right) {sep : Char}
    (separates : sep ≠ '\n' ∧ sep ≠ '\x7d') : Whole (left ++ sep :: right) where
  unbroken mem := by
    obtain mem | same | mem := List.mem_append.1 mem |>.imp_right List.mem_cons.1
    · exact first.unbroken mem
    · exact separates.1 same.symm
    · exact second.unbroken mem
  unclosed inside := by
    have apart : sep ∉ "\x7d\x7d".toList := by simpa using separates.2
    exact ((infix_append_cons apart).1 inside).elim first.unclosed second.unclosed

/-- The sign that ends an object is written where it is meant. -/
theorem infix_escaped {text : List Char}
    (inside : "\x7d\x7d".toList <:+: text.flatMap escapeLiteralChar) : "\x7d\x7d".toList <:+: text := by
  induction text with
  | nil => exact inside
  | cons c text ih =>
    rw [List.flatMap_cons] at inside
    by_cases brace : c = '\x7d'
    · -- A second brace right behind this one is none that an escape begins with.
      subst brace
      obtain front | inside := List.infix_cons_iff.1 inside
      · obtain ⟨more, same⟩ := (List.cons_prefix_cons.1 front).2
        obtain sign | ⟨-, head⟩ := head_escaped (congrArg List.head? same.symm)
        · exact absurd sign (by decide)
        · obtain ⟨rest, rfl⟩ : ∃ rest, text = '\x7d' :: rest := List.head?_eq_some_iff.1 head
          exact ⟨[], rest, rfl⟩
      · exact List.infix_cons (ih inside)
    · refine List.infix_cons (ih ((infix_append_of_head fun mem => ?_).1 inside))
      unfold escapeLiteralChar at mem
      split at mem
      · obtain sign | same := List.mem_cons.1 mem |>.imp_right List.mem_singleton.1
        · exact absurd sign (by decide)
        · exact brace same.symm
      · exact brace (List.mem_singleton.1 mem).symm

theorem Whole.escaped {text : List Char} (whole : Whole text) :
    Whole (text.flatMap escapeLiteralChar) := by
  refine ⟨fun mem => ?_, fun inside => whole.unclosed (infix_escaped inside)⟩
  obtain ⟨c, held, mem⟩ := List.mem_flatMap.1 mem
  unfold escapeLiteralChar at mem
  split at mem
  · obtain sign | same := List.mem_cons.1 mem |>.imp_right List.mem_singleton.1
    · exact absurd sign (by decide)
    · exact whole.unbroken (same ▸ held)
  · exact whole.unbroken (List.mem_singleton.1 mem ▸ held)

theorem whole_key {name : List Char} (named : IsKey name) : Whole name := by
  refine whole_of_plain (fun mem => ?_) (fun mem => ?_)
  · exact absurd (named.each _ mem) (by decide)
  · exact absurd (named.each _ mem) (by decide)

theorem whole_literal {v : Json} (scalar : Scalar v) (whole : Whole v.spelled) : Whole (literal v) := by
  have none_in : Whole [] := whole_of_plain List.not_mem_nil List.not_mem_nil
  cases scalar with
  | text s => exact none_in.append (whole.escaped.append none_in (by decide)) (by decide)
  | whole n => exact whole

theorem whole_writeEntry {e : String × Json} (named : IsKey e.1.toList) (scalar : Scalar e.2)
    (whole : Whole e.2.spelled) : Whole (writeEntry e) := by
  have none_in : Whole [] := whole_of_plain List.not_mem_nil List.not_mem_nil
  have parts : writeEntry e = e.1.toList ++ ':' :: ([] ++ ' ' :: literal e.2) := by simp [writeEntry]
  rw [parts]
  exact (whole_key named).append (none_in.append (whole_literal scalar whole) (by decide)) (by decide)

theorem whole_writeBody {members : List (String × Json)} (keys : ∀ e ∈ members, IsKey e.1.toList)
    (values : ∀ e ∈ members, Scalar e.2) (whole : ∀ e ∈ members, Whole e.2.spelled) :
    Whole (writeBody members) := by
  have none_in : Whole [] := whole_of_plain List.not_mem_nil List.not_mem_nil
  induction members with
  | nil => exact none_in
  | cons e rest ih =>
    rw [List.forall_mem_cons] at keys values whole
    have first := whole_writeEntry keys.1 values.1 whole.1
    cases rest with
    | nil => rwa [writeBody_single]
    | cons next rest =>
      have later := ih keys.2 values.2 whole.2
      rw [writeBody_cons_cons]
      exact first.append (none_in.append later (by decide)) (by decide)

theorem trimmed_writeBody {members : List (String × Json)} (entries : Entries members) :
    Trimmed (writeBody members) := by
  obtain ⟨some_members, keys, values⟩ := entries
  induction members with
  | nil => contradiction
  | cons e rest ih =>
    rw [List.forall_mem_cons] at keys values
    have first : Trimmed (writeEntry e) := (trimmed_key keys.1).around ": ".toList (trimmed_literal values.1)
    cases rest with
    | nil => rwa [writeBody_single]
    | cons next rest =>
      have later := ih (by simp) keys.2 values.2
      have parts : writeBody (e :: next :: rest) = writeEntry e ++ ", ".toList ++ writeBody (next :: rest) := by
        simp [writeBody_cons_cons]
      rw [parts]
      exact first.around _ later

theorem passive_styleObject : Passive styleObject := by
  refine (passive_text _).bind fun _ => (passive_many _).bind fun _ =>
    ((passive_through _).map _).bind fun object => ?_
  split
  · exact passive_failure
  · exact passive_pure _

theorem passive_writeStyle : Passive Template.writeStyle := passive_styleObject.bind fun _ => passive_pure _

/-- The attribute that a style comes back as. -/
def styleAttribute (css : List Char) : List Char := "style=".toList ++ quote css

theorem writeStyle_reads {members : List (String × Json)} (entries : Entries members)
    (whole : ∀ e ∈ members, Whole e.2.spelled) (before : Option Char) (back : List Char) :
    ∃ after, Template.writeStyle ⟨before, Target.writeStyle members ++ back⟩ =
      some (styleAttribute (declarations (readBack members)), ⟨after, back⟩) := by
  have body := whole_writeBody entries.keys entries.values whole
  have trimmed := trimmed_writeBody entries
  have text : Target.writeStyle members ++ back =
      "style=\x7b\x7b".toList ++ ' ' :: (writeBody members ++ ' ' :: ("\x7d\x7d".toList ++ back)) := by
    have written : Target.writeStyle members =
        "style=\x7b\x7b".toList ++ [' '] ++ writeBody members ++ ([' '] ++ "\x7d\x7d".toList) := rfl
    rw [written]
    simp only [List.append_assoc, List.cons_append, List.nil_append]
  have blank : blanks ⟨some '\x7b', ' ' :: (writeBody members ++ ' ' :: ("\x7d\x7d".toList ++ back))⟩ =
      some ([' '], ⟨some ' ', writeBody members ++ ' ' :: ("\x7d\x7d".toList ++ back)⟩) := by
    refine many_eq_some.2 ⟨by decide, fun c head => ?_, rfl, rfl⟩
    rw [List.head?_append, Option.mem_def, Option.or_of_isSome (List.isSome_head?.2 trimmed.some_text)] at head
    exact trimmed.first c head
  have closed : Reader.through "\x7d\x7d" ⟨some ' ', writeBody members ++ ' ' :: ("\x7d\x7d".toList ++ back)⟩ =
      some (writeBody members ++ [' '], ⟨some '\x7d', back⟩) := by
    rw [through, breakAt?_append_cons (by decide) (by decide) body.unclosed]
    rfl
  have object : (trimRight <$> Reader.through "\x7d\x7d")
        ⟨some ' ', writeBody members ++ ' ' :: ("\x7d\x7d".toList ++ back)⟩ =
      some (writeBody members, ⟨some '\x7d', back⟩) :=
    map_eq_some.2 ⟨_, closed, trimmed.trimRight_append (by decide)⟩
  have opened : ∀ rest, Reader.text "style=\x7b\x7b" ⟨before, "style=\x7b\x7b".toList ++ rest⟩ =
      some ((), ⟨some '\x7b', rest⟩) := fun rest => text_eq_some.2 ⟨rfl, by simp⟩
  have unbroken : (writeBody members).contains '\n' = false := by simpa using body.unbroken
  refine ⟨some '\x7d', bind_eq_some.2 ⟨writeBody members, ⟨some '\x7d', back⟩, ?_, ?_⟩⟩
  · rw [text, styleObject]
    refine bind_eq_some.2 ⟨(), _, opened _, ?_⟩
    refine bind_eq_some.2 ⟨_, _, blank, bind_eq_some.2 ⟨_, _, object, ?_⟩⟩
    rw [unbroken]
    rfl
  · rw [styleText_writeBody entries.keys entries.values]
    rfl

/-! ### Elements with a style -/

section

variable {indent : Int} {tag css : List Char} {left right : List (List Char × List Char)} {inner : List Mark}

/-- What stands before the style of an element. -/
def frontOf (indent : Int) (tag : List Char) (left : List (List Char × List Char)) : List Char :=
  pad indent ++ '<' :: tag ++ left.flatMap written ++ [' ']

/-- What stands behind the style of an element. -/
def backOf (indent : Int) (tag : List Char) (right : List (List Char × List Char)) (inner : List Mark) :
    List Char := right.flatMap written ++ elementRest indent tag inner

/-- The marks of an element whose style comes as a text. -/
def styledMarks (indent : Int) (tag : List Char) (left : List (List Char × List Char)) (css : List Char)
    (right : List (List Char × List Char)) (inner : List Mark) : List Mark :=
  .text (pad indent) :: marksWith indent tag (left ++ ("style".toList, css) :: right) inner

theorem writeMarks_styledMarks : writeMarks (styledMarks indent tag left css right inner) =
    frontOf indent tag left ++ (styleAttribute css ++ backOf indent tag right inner) := by
  have style : styleAttribute css = "style=".toList ++ quote css := rfl
  rw [styledMarks, writeMarks_cons, writeMarks_marksWith, frontOf, backOf, style]
  simp [Mark.write, written, quote]

theorem map_marksWith (name : List Char → List Char) (entries : List (List Char × List Char)) :
    (marksWith indent tag entries inner).map (Mark.rename name) =
      marksWith indent tag (entries.map fun e => (name e.1, e.2)) (inner.map (Mark.rename name)) := by
  unfold marksWith
  rw [apply_ite (List.map (Mark.rename name)), List.isEmpty_map]
  simp [Mark.rename]

theorem map_styledMarks {name : List Char → List Char} (kept : name "style".toList = "style".toList) :
    (styledMarks indent tag left css right inner).map (Mark.rename name) =
      styledMarks indent tag (left.map fun e => (name e.1, e.2)) css (right.map fun e => (name e.1, e.2))
        (inner.map (Mark.rename name)) := by
  rw [styledMarks, styledMarks, List.map_cons, map_marksWith, List.map_append, List.map_cons, kept]
  rfl

theorem forall_styledMarks {P : Mark → Prop} (blank : ∀ line, Blank line → P (.text line))
    (start : P (.start tag (left ++ ("style".toList, css) :: right)))
    (single : P (.single tag (left ++ ("style".toList, css) :: right) [' '])) (stop : P (.stop tag))
    (inside : ∀ m ∈ inner, P m) : ∀ m ∈ styledMarks indent tag left css right inner, P m := by
  refine List.forall_mem_cons.2 ⟨blank _ (blank_pad indent), ?_⟩
  unfold marksWith
  split
  · exact List.forall_mem_singleton.2 single
  · refine List.forall_mem_append.2 ⟨List.forall_mem_cons.2 ⟨start, inside⟩, ?_⟩
    exact List.forall_mem_cons.2 ⟨blank _ (blank_break indent), List.forall_mem_singleton.2 stop⟩

theorem named_styledMarks (proper : ProperTag tag) (names : ∀ e ∈ left ++ right, ProperName e.1)
    (inside : ∀ m ∈ inner, m.Named) : ∀ m ∈ styledMarks indent tag left css right inner, m.Named := by
  have style : ProperName "style".toList := by decide
  have entries : ∀ e ∈ left ++ ("style".toList, css) :: right, ProperName e.1 := by
    intro e mem
    obtain mem | rfl | mem := List.mem_append.1 mem |>.imp_right List.mem_cons.1
    · exact names e (List.mem_append_left _ mem)
    · exact style
    · exact names e (List.mem_append_right _ mem)
  refine forall_styledMarks (fun line blank sign => ?_) ⟨proper, entries⟩ ⟨proper, entries, by simp⟩ proper inside
  exact absurd (blank _ sign) (by decide)

theorem styleObject_opens {p q : Place} {v : List Char} (reads : Template.writeStyle p = some (v, q)) :
    "style=\x7b\x7b".toList <+: p.rest := by
  obtain ⟨object, m, reads, -⟩ := bind_eq_some.1 reads
  obtain ⟨_, m₁, opened, -⟩ := bind_eq_some.1 reads
  exact ⟨_, (text_eq_some.1 opened).rest.symm⟩

/-- No style object starts before that of the element. -/
theorem skips_front (proper : ProperTag tag)
    (unopened : ¬ "style=\x7b\x7b".toList <:+: left.flatMap written) (back : List Char) :
    Skips Template.writeStyle (frontOf indent tag left) back := by
  have unheld : ∀ {text : List Char}, '\x7b' ∉ text → ¬ "style=\x7b\x7b".toList <:+: text :=
    fun absent inside => absent (inside.subset (by simp))
  have tagged : ¬ "style=\x7b\x7b".toList <:+: tag :=
    unheld fun mem => absurd (proper.char _ mem) (by decide)
  have attributes : ¬ "style=\x7b\x7b".toList <:+: tag ++ left.flatMap written := by
    cases left with
    | nil => simpa using tagged
    | cons e rest =>
      have lead : (e :: rest).flatMap written = ' ' :: ((written e).tail ++ rest.flatMap written) := rfl
      rw [lead] at unopened ⊢
      rw [infix_append_cons (by decide), not_or]
      exact ⟨tagged, fun inside => unopened (List.infix_cons inside)⟩
  have front : ¬ "style=\x7b\x7b".toList <:+: pad indent ++ '<' :: (tag ++ left.flatMap written) := by
    rw [infix_append_cons (by decide), not_or]
    refine ⟨unheld fun mem => ?_, attributes⟩
    exact absurd (List.eq_of_mem_replicate mem) (by decide)
  refine skips_of_shape styleObject_opens fun passed ahead same some_ahead starts => front ?_
  -- The front ends in a space, which no style object begins over.
  obtain ⟨ahead, last, rfl⟩ := (List.eq_nil_or_concat ahead).resolve_left some_ahead
  rw [List.concat_eq_append] at same starts
  have split : pad indent ++ '<' :: (tag ++ left.flatMap written) ++ [' '] = passed ++ ahead ++ [last] := by
    simpa [frontOf] using same
  obtain ⟨whole, blank⟩ := List.append_inj' split rfl
  cases blank
  rw [List.append_assoc, List.singleton_append, prefix_append_cons (by decide)] at starts
  rw [whole]
  exact starts.isInfix.trans (List.suffix_append passed ahead).isInfix

/-- The style pass changes the element's style and nothing else. -/
theorem substitute_writeStyle {members : List (String × Json)} (entries : Entries members)
    (whole : ∀ e ∈ members, Whole e.2.spelled) (proper : ProperTag tag)
    (unopened : ¬ "style=\x7b\x7b".toList <:+: left.flatMap written)
    (idle : Idle Template.writeStyle
      (writeMarks (styledMarks indent tag left (declarations (readBack members)) right inner))) :
    substitute Template.writeStyle
        (frontOf indent tag left ++ (Target.writeStyle members ++ backOf indent tag right inner)) =
      writeMarks (styledMarks indent tag left (declarations (readBack members)) right inner) := by
  have takes := writeStyle_needsBraces.takes
  obtain ⟨last, reads⟩ := writeStyle_reads entries whole none (backOf indent tag right inner)
  rw [writeMarks_styledMarks, ← List.append_assoc] at idle
  rw [writeMarks_styledMarks, substitute_skip takes passive_writeStyle (skips_front proper unopened _),
    substitute_read takes passive_writeStyle reads,
    substitute_of_idle takes (idle.suffix takes passive_writeStyle)]

end

section

variable {data : Data} {before members after : List (String × Json)} {cs : List Target.Node} {indent : Int}

/-- An element with a style, and apart from it a static one: its other attributes are texts under names
that the transformation admits, and so are those of the elements inside it. -/
structure Styled (data : Data) (before members after : List (String × Json)) (cs : List Target.Node) :
    Prop where
  element : data.kind = .element
  tag : ProperTag data.tag.toList
  attributes : data.attributes.entries = before ++ ("style", .obj members) :: after
  others : ∀ e ∈ before ++ after,
    (Attribute.isAllowed e.1 = true ∨ Attribute.isCustom e.1 = true ∧ ProperName e.1.toList) ∧
      ∃ value, e.2 = .str value
  text : data.text = .null ∨ ∃ content, data.text = .str content
  children : Target.Node.StaticAll cs

/-- The marks inside the element. -/
def innerMarks (indent : Int) (data : Data) (cs : List Target.Node) : List Mark :=
  ownMarks indent data ++ Target.Node.marksAll (indent + 1) cs

theorem Styled.toJsx (styled : Styled data before members after cs) (indent : Int) :
    Target.Node.toJsx (.node data cs) {} indent =
      .ok (frontOf indent data.tag.toList (before.map spelledEntry) ++ (Target.writeStyle members ++
        backOf indent data.tag.toList (after.map spelledEntry) (innerMarks indent data cs))) := by
  have texts := fun e mem => (styled.others e mem).2
  have attributes : (attributeList data (some {})).flatMap (' ' :: ·) =
      (before.map spelledEntry).flatMap written ++ ' ' :: Target.writeStyle members ++
        (after.map spelledEntry).flatMap written := by
    have none_passed : attributeList data (some {}) = data.attributes.entries.map writeAttribute := by
      simp [attributeList]
    rw [none_passed, styled.attributes, List.map_append, List.map_cons, List.flatMap_append, List.flatMap_cons,
      flatMap_writeAttribute fun e mem => texts e (List.mem_append_left _ mem),
      flatMap_writeAttribute fun e mem => texts e (List.mem_append_right _ mem)]
    simp [writeAttribute]
  rw [Target.Node.toJsx_root styled.element styled.text
    (styled.children.each.imp fun _ => Data.Static.textual), attributes, frontOf, backOf, innerMarks]
  simp

/-- An attribute as a template has it. -/
def templateEntry (e : String × Json) : List Char × List Char :=
  (templateName e.1.toList, escapeValue e.2.spelled)

theorem Styled.written (styled : Styled data before members after cs) :
    ∀ m ∈ innerMarks indent data cs, Target.Written Target.Data.Static m := by
  refine List.forall_mem_append.2 ⟨Target.written_ownMarks indent data, ?_⟩
  exact Target.Node.written_marksAll styled.children.each

theorem Styled.names (styled : Styled data before members after cs) :
    ∀ e ∈ (before ++ after).map spelledEntry,
      ProperName e.1 ∧ ProperName (classed e.1) ∧ ProperName (templateName e.1) := by
  refine List.forall_mem_map.2 fun e mem => ?_
  have admitted := (styled.others e mem).1
  refine ⟨?_, properName_templateName admitted⟩
  obtain allowed | ⟨-, proper⟩ := admitted
  · exact (Attribute.proper_of_isAllowed allowed).1
  · exact proper

/-- The marks of the element with its style as it is read back. -/
def readMarks (indent : Int) (data : Data) (before members after : List (String × Json))
    (cs : List Target.Node) : List Mark :=
  styledMarks indent data.tag.toList (before.map spelledEntry) (declarations (readBack members))
    (after.map spelledEntry) (innerMarks indent data cs)

theorem Styled.named (styled : Styled data before members after cs) :
    ∀ m ∈ readMarks indent data before members after cs, m.Named := by
  refine named_styledMarks styled.tag (fun e mem => ?_) fun m mem => ?_
  · rw [← List.map_append] at mem
    exact (styled.names e mem).1
  · exact ((styled.written m mem).proper fun _ => Target.Data.Static.proper).named

theorem Styled.renamed (styled : Styled data before members after cs) :
    ∀ m ∈ readMarks indent data before members after cs,
      ∀ e ∈ m.entries, ProperName (classed e.1) ∧ ProperName (templateName e.1) := by
  have style : ProperName (classed "style".toList) ∧ ProperName (templateName "style".toList) := by decide
  have entries : ∀ e ∈ before.map spelledEntry ++
      ("style".toList, declarations (readBack members)) :: after.map spelledEntry,
      ProperName (classed e.1) ∧ ProperName (templateName e.1) := by
    have names := styled.names
    rw [List.map_append, List.forall_mem_append] at names
    exact List.forall_mem_append.2 ⟨fun e mem => (names.1 e mem).2,
      List.forall_mem_cons.2 ⟨style, fun e mem => (names.2 e mem).2⟩⟩
  exact forall_styledMarks (fun _ _ => List.forall_mem_nil _) entries entries (List.forall_mem_nil _)
    fun m mem => properName_of_written (styled.written m mem)

theorem Styled.spaced (styled : Styled data before members after cs) :
    ∀ m ∈ readMarks indent data before members after cs, Spaced m := by
  refine forall_styledMarks (fun line blank text same c head => ?_) nofun nofun nofun fun m mem text same =>
    (styled.written m mem).head_blank same
  cases same
  exact blank c (List.mem_of_mem_head? head)

/-- The style comes back in its place, its declarations in their order, and the rest of the element is
changed in the names of its attributes alone. The declarations are those of the style itself just where
no value has a backslash. -/
theorem adjustFor_styled {framework : Framework} (other : framework ≠ .react)
    (styled : Styled data before members after cs) (entries : Entries members)
    (whole : ∀ e ∈ members, Whole e.2.spelled)
    (unopened : ¬ "style=\x7b\x7b".toList <:+: (before.map spelledEntry).flatMap written)
    (kept : ∀ m ∈ readMarks indent data before members after cs, Kept framework m)
    (unbound : Unbound framework (writeMarks (readMarks indent data before members after cs))) :
    ∃ jsx, Target.Node.toJsx (.node data cs) {} indent = .ok jsx ∧
      adjustFor framework jsx = frontOf indent data.tag.toList (before.map templateEntry) ++
        (styleAttribute (declarations (readBack members)) ++ backOf indent data.tag.toList
          (after.map templateEntry) ((innerMarks indent data cs).map (Mark.rename templateName))) ∧
      (declarations (readBack members) = declarations members ↔ ∀ e ∈ members, '\\' ∉ e.2.spelled) := by
  refine ⟨_, styled.toJsx indent, ?_, declarations_readBack entries.values⟩
  have style : templateName "style".toList = "style".toList := by decide
  -- Once the style is read back the element is a row of marks, on which the passes are known.
  have bindings : adjustBindings framework (frontOf indent data.tag.toList (before.map spelledEntry) ++
      (Target.writeStyle members ++ backOf indent data.tag.toList (after.map spelledEntry)
        (innerMarks indent data cs))) =
      adjustBindings framework (writeMarks (readMarks indent data before members after cs)) := by
    rw [adjustBindings, adjustBindings, substitute_of_idle writeStyle_needsBraces.takes unbound.style,
      substitute_writeStyle entries whole styled.tag unopened unbound.style]
    rfl
  rw [adjustFor_eq other, bindings, ← adjustFor_eq other,
    adjustFor_writeMarks other styled.named styled.renamed styled.spaced kept unbound, readMarks,
    map_styledMarks style, writeMarks_styledMarks, List.map_map, List.map_map]
  rfl

end

/-- A label with quotes, a number and a backslash in its style. -/
def labelStyle : List (String × Json) :=
  [("fill", .str "red"), ("fontFamily", .str "'Arial', b:\"c\""), ("fontSize", .num (.int 12)),
    ("content", .str "a\\b")]

def label : Data where
  tag := "text"
  attributes := ⟨[("className", .str "a"), ("style", .obj labelStyle), ("strokeWidth", .str "2")], by decide⟩

theorem adjustFor_styled_label :
    Framework.vue ≠ .react ∧
      Styled label [("className", .str "a")] labelStyle [("strokeWidth", .str "2")] [.text "<x>"] ∧
      Entries labelStyle ∧ (∀ e ∈ labelStyle, Whole e.2.spelled) ∧
      ¬ "style=\x7b\x7b".toList <:+: ([("className", Json.str "a")].map spelledEntry).flatMap written ∧
      (∀ m ∈ readMarks 1 label [("className", .str "a")] labelStyle [("strokeWidth", .str "2")]
        [.text "<x>"], Kept .vue m) ∧
      Unbound .vue (writeMarks (readMarks 1 label [("className", .str "a")] labelStyle
        [("strokeWidth", .str "2")] [.text "<x>"])) ∧
      ∃ jsx, Target.Node.toJsx (.node label [.text "<x>"]) {} 1 = .ok jsx ∧
        adjustFor .vue jsx = frontOf 1 label.tag.toList ([("className", Json.str "a")].map templateEntry) ++
          (styleAttribute (declarations (readBack labelStyle)) ++ backOf 1 label.tag.toList
            ([("strokeWidth", Json.str "2")].map templateEntry)
            ((innerMarks 1 label [.text "<x>"]).map (Mark.rename templateName))) ∧
        (declarations (readBack labelStyle) = declarations labelStyle ↔
          ∀ e ∈ labelStyle, '\\' ∉ e.2.spelled) := by
  have styled : Styled label [("className", .str "a")] labelStyle [("strokeWidth", .str "2")] [.text "<x>"] := by
    refine ⟨rfl, by decide, rfl, ?_, .inl rfl, ⟨_, rfl⟩, trivial⟩
    exact List.forall_mem_cons.2 ⟨⟨.inl (by decide +kernel), _, rfl⟩,
      List.forall_mem_cons.2 ⟨⟨.inl (by decide +kernel), _, rfl⟩, List.forall_mem_nil _⟩⟩
  have entries : Entries labelStyle := by
    refine ⟨by decide, fun e mem => ?_, fun e mem => ?_⟩
    · have keys : ∀ e ∈ labelStyle, e.1.toList ≠ [] ∧ ∀ c ∈ e.1.toList, (isWord c || c == '$') = true := by
        decide +kernel
      exact ⟨(keys e mem).1, (keys e mem).2⟩
    · simp only [labelStyle, List.mem_cons, List.not_mem_nil, or_false] at mem
      obtain rfl | rfl | rfl | rfl := mem
      · exact .text _
      · exact .text _
      · exact .whole _
      · exact .text _
  have whole : ∀ e ∈ labelStyle, Whole e.2.spelled := by
    have plain : ∀ e ∈ labelStyle, '\n' ∉ e.2.spelled ∧ '\x7d' ∉ e.2.spelled := by decide +kernel
    exact fun e mem => whole_of_plain (plain e mem).1 (plain e mem).2
  have unopened : ¬ "style=\x7b\x7b".toList <:+:
      ([("className", Json.str "a")].map spelledEntry).flatMap written := by decide +kernel
  have kept : ∀ m ∈ readMarks 1 label [("className", .str "a")] labelStyle [("strokeWidth", .str "2")]
      [.text "<x>"], Kept .vue m := by decide +kernel
  have unbound : Unbound .vue (writeMarks (readMarks 1 label [("className", .str "a")] labelStyle
      [("strokeWidth", .str "2")] [.text "<x>"])) := unbound_of_unbraced (by decide +kernel) (by decide +kernel)
  exact ⟨by decide, styled, entries, whole, unopened, kept, unbound,
    adjustFor_styled (by decide) styled entries whole unopened kept unbound⟩

def boxWith (content : String) : Data where
  tag := "g"
  attributes := ⟨[("style", .obj [("content", .str content)])], by simp⟩

/-- The template of an element that has a text in its style. -/
def boxTemplate (content : String) : Option String :=
  (Target.Node.toJsx (.node (boxWith content) []) {} 0).toOption.map fun jsx =>
    String.ofList (adjustFor .html jsx)

/-- A backslash comes back as two. An object ends at the first sign that ends one, and no line break is
read in it. And the passes do not tell a style from what they look for. -/
theorem styles_are_rewritten :
    (declarations [("content", .str "a\\b")] = "content: a\\b".toList ∧
      boxTemplate "a\\b" = some "<g style=\"content: a\\\\b\" />") ∧
    boxTemplate "a\nb" = some "<g style=\x7b\x7d />" ∧
    boxTemplate "a\x7d\x7db" = some "<g style=\"content: 'a\"b' \x7d\x7d />" ∧
    boxTemplate "\x7bx\x7d" = some "<g style=\"content: \" />" ∧
    boxTemplate "className=\"" = some "<g style=\"content: class=\"\" />" ∧
    boxTemplate "x aB=c" = some "<g style=\"content: x a-b=c\" />" := by
  refine ⟨⟨?_, ?_⟩, ?_, ?_, ?_, ?_, ?_⟩ <;> decide +kernel

end DesignComponents.Template
