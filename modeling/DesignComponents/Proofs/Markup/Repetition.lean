import DesignComponents.Proofs.Markup.Pass
import Mathlib.Data.List.Basic

/-! Repetitions in a row of attributes. The pass that takes them out knows them by the end of the
name before them, so it can take an attribute with a name of its own for one. -/

set_option autoImplicit false

namespace DesignComponents.Markup

open Text Reader

/-! ### What is left of a row -/

/-- Whether a name in letters is the end of the name before it. -/
def isTail (name tail : List Char) : Bool := tail.isSuffixOf name && tail.all isWord

/-- The attributes that the first pass leaves. An attribute goes where `held` takes its name for a
repetition; behind it that goes for its own name only, and behind one that stays for each end of
the name. -/
def squeeze (held : List Char → Bool) : List Attr → List Attr
  | [] => []
  | a :: rest =>
    if held a.name then squeeze (· == a.name) rest else a :: squeeze (isTail a.name) rest

theorem squeeze_sublist (held : List Char → Bool) (attrs : List Attr) :
    (squeeze held attrs).Sublist attrs := by
  induction attrs generalizing held with
  | nil => exact List.Sublist.slnil
  | cons a rest ih =>
    rw [squeeze]
    split
    · exact (ih _).cons a
    · exact (ih _).cons_cons a

theorem squeeze_unheld {held : List Char → Bool} {attrs : List Attr}
    (none : ∀ a ∈ attrs.head?, held a.name = false) :
    squeeze held attrs = squeeze (fun _ => false) attrs := by
  cases attrs with
  | nil => rfl
  | cons a rest => simp [squeeze, none a rfl]

theorem squeeze_run (name : List Char) (attrs : List Attr) :
    squeeze (· == name) attrs = squeeze (fun _ => false) (attrs.dropWhile (·.name == name)) := by
  induction attrs with
  | nil => rfl
  | cons a rest ih =>
    by_cases same : a.name = name
    · simp [squeeze, same, ih]
    · simp [squeeze, same]

/-! ### Values -/

section

variable {r : Reader (List Char)} {After : List Char → Prop}

/-- Where what is read has a quote, and something behind it that does not stand there, a text is
passed over up to its quote. -/
theorem skips_quote (shape : ∀ {p v q}, r p = some (v, q) →
      ∃ front back, '"' ∉ front ∧ p.rest = front ++ '"' :: back ∧ After back)
    {text back : List Char} (plain : '"' ∉ text) (fails : ¬After back) :
    Skips r (text ++ ['"']) back := by
  refine @skips_of_shape r
    (fun t => ∃ front back, '"' ∉ front ∧ t = front ++ '"' :: back ∧ After back) _ _ shape ?_
  rintro passed ahead same some_ahead ⟨front, back', no_quote, written, behind⟩
  obtain ⟨inner, last, rfl⟩ := (List.eq_nil_or_concat' ahead).resolve_left some_ahead
  rw [← List.append_assoc] at same
  obtain ⟨rfl, ending⟩ := List.append_inj' same rfl
  obtain rfl := List.cons.inj ending |>.1
  have no_inner : '"' ∉ inner := fun mem => plain (List.mem_append_right _ mem)
  rw [List.append_assoc, List.singleton_append] at written
  obtain ⟨-, rfl⟩ := split_unique no_inner no_quote written
  exact fails behind

end

/-! ### What is read -/

/-- White space, the name and the opening of a value. -/
def RepeatAhead (name text : List Char) : Prop :=
  ∃ blank rest : List Char, blank ≠ [] ∧ (∀ c ∈ blank, isBlank c = true) ∧
    text = blank ++ (name ++ '=' :: '"' :: rest)

/-- A word with a value, and the word again with the opening of a value. -/
def StartsRepeat (text : List Char) : Prop :=
  ∃ name value behind : List Char, name ≠ [] ∧ (∀ c ∈ name, isWord c = true) ∧ '"' ∉ value ∧
    RepeatAhead name behind ∧ text = name ++ '=' :: '"' :: (value ++ '"' :: behind)

theorem repeatAhead_of_reads {name : List Char} (some_name : name ≠ [])
    (word : ∀ c ∈ name, isWord c = true) {p q : Place} {u : Unit}
    (reads : repeatOf name p = some (u, q)) : RepeatAhead name p.rest := by
  obtain ⟨taken, -, ⟨blank, value, some_blank, blanks, -, rfl⟩, reached⟩ :=
    (repeatOf_exact some_name word p u q).1 reads
  exact ⟨blank, value ++ '"' :: q.rest, some_blank, blanks, by simpa using reached.rest⟩

theorem startsRepeat_of_reads {p q : Place} {v : List Char} (reads : duplicates p = some (v, q)) :
    StartsRepeat p.rest := by
  obtain ⟨name, value, m, m', some_name, word, all, reached, again, -, -⟩ :=
    duplicates_eq_some.1 reads
  have no_quote : '"' ∉ value := lacks all (by decide)
  exact ⟨name, value, m.rest, some_name, word, no_quote, repeatAhead_of_reads some_name word again,
    by simpa using reached.rest⟩

theorem isPlainName_of_isWord {c : Char} (word : isWord c = true) : isPlainName c = true := by
  simp [isPlainName, word]

theorem StartsRepeat.begins {text : List Char} (starts : StartsRepeat text) : Begins text := by
  obtain ⟨name, value, behind, -, word, -, -, rfl⟩ := starts
  exact ⟨[], name, value ++ '"' :: behind, by simp, fun c mem => isPlainName_of_isWord (word c mem), rfl⟩

theorem StartsRepeat.head {text : List Char} (starts : StartsRepeat text) :
    ∃ c ∈ text.head?, isWord c = true := by
  obtain ⟨name, value, behind, some_name, word, -, -, rfl⟩ := starts
  obtain ⟨c, more, rfl⟩ := List.exists_cons_of_ne_nil some_name
  exact ⟨c, rfl, word c List.mem_cons_self⟩

/-- Behind its first quote, two quotes enclose what looks named. -/
theorem StartsRepeat.quote {text : List Char} (starts : StartsRepeat text) :
    ∃ front back : List Char, '"' ∉ front ∧ text = front ++ '"' :: back ∧ ¬Calm back := by
  obtain ⟨name, value, behind, some_name, word, plain, ⟨blank, rest, some_blank, blanks, rfl⟩, rfl⟩ :=
    starts
  have no_quote : '"' ∉ name := lacks word (by decide)
  have no_quote' : '"' ∉ blank := lacks blanks (by decide)
  refine ⟨name ++ ['='], value ++ '"' :: (blank ++ (name ++ '=' :: '"' :: rest)), by simp [no_quote],
    by simp, fun calm => ?_⟩
  refine calm (blank ++ name ++ ['=']) ⟨value, rest, plain, by simp [no_quote, no_quote'], by simp⟩ ?_
  exact ⟨blank, name, some_blank, blanks, some_name, word, rfl⟩

/-- The word that is repeated is all that stands before the sign. -/
theorem startsRepeat_name {name value text : List Char} (plain : '=' ∉ name) (closed : '"' ∉ value)
    (starts : StartsRepeat (name ++ '=' :: '"' :: (value ++ '"' :: text))) :
    (∀ c ∈ name, isWord c = true) ∧ RepeatAhead name text := by
  obtain ⟨name', value', behind, -, word, closed', ahead, same⟩ := starts
  have plain' : '=' ∉ name' := lacks word (by decide)
  obtain ⟨rfl, quoted⟩ := split_unique plain plain' same
  obtain ⟨-, rfl⟩ := split_unique closed closed' (List.cons.inj quoted).2
  exact ⟨word, ahead⟩

theorem not_repeatAhead_end {name text : List Char} (word : ∀ c ∈ name, isWord c = true)
    (ends : Ends text) : ¬RepeatAhead name text := by
  rintro ⟨blank, rest, -, blanks, rfl⟩
  exact ends.blocks ⟨blank, name, rest, blanks, fun c mem => isPlainName_of_isWord (word c mem), by simp⟩

/-- Before an attribute it is its name that is repeated. -/
theorem repeatAhead_attr {a : Attr} (proper : a.Proper) {name text : List Char}
    (word : ∀ c ∈ name, isWord c = true) (ahead : RepeatAhead name (a.write ++ text)) :
    a.name = name := by
  obtain ⟨blank, rest, -, blanks, same⟩ := ahead
  have apart : a.write ++ text = a.lead ++ (a.name ++ '=' :: '"' :: (a.value ++ '"' :: text)) := by
    simp [Attr.write]
  rw [apart] at same
  have plain : ∀ c ∈ name, isBlank c = false :=
    fun c mem => isBlank_of_inName (isPlainName_of_isWord (word c mem))
  have no_equals : '=' ∉ name := lacks word (by decide)
  obtain ⟨-, same⟩ := span_unique same proper.blank (head_label proper.name.not_blank _) blanks
    (head_label plain _)
  exact (split_unique proper.name.no_equals no_equals same).1

theorem repeatOf_attr {a : Attr} (proper : a.Proper) (word : ∀ c ∈ a.name, isWord c = true)
    (before : Option Char) (text : List Char) :
    repeatOf a.name ⟨before, a.write ++ text⟩ = some ((), ⟨some '"', text⟩) := by
  have all : ∀ c ∈ a.value, notQuote c = true :=
    fun c mem => bne_iff_ne.2 fun quote => proper.value (quote ▸ mem)
  refine (repeatOf_exact proper.name.1 word _ _ _).2 ⟨a.write, by simp [Attr.write],
    ⟨a.lead, a.value, proper.some_lead, proper.blank, all, by simp [Attr.write]⟩, rfl, ?_⟩
  rw [Attr.write, List.getLast?_concat]
  rfl

/-- All attributes of the name that come in a row are read. -/
theorem repeats_attrs {name : List Char} (some_name : name ≠ []) (word : ∀ c ∈ name, isWord c = true)
    {attrs : List Attr} {text : List Char} (proper : ∀ a ∈ attrs, a.Proper) (ends : Ends text)
    (before : Option Char) : ∃ after, Repeats (repeatOf name) ⟨before, attrs.flatMap Attr.write ++ text⟩
      ⟨after, (attrs.dropWhile (·.name == name)).flatMap Attr.write ++ text⟩ := by
  have stops : ∀ {before text}, ¬RepeatAhead name text → repeatOf name ⟨before, text⟩ = none := by
    intro before text fails
    refine unread_iff.2 fun u q reads => ?_
    exact fails (repeatAhead_of_reads some_name word reads)
  -- On the row: an attribute of the name is one repetition more, any other ends them.
  induction attrs generalizing before with
  | nil => exact ⟨before, .stop (stops (not_repeatAhead_end word ends))⟩
  | cons a rest ih =>
    have first := proper a List.mem_cons_self
    rw [List.flatMap_cons, List.append_assoc]
    by_cases same : a.name = name
    · obtain ⟨after, more⟩ := ih (fun b mem => proper b (List.mem_cons_of_mem a mem)) (some '"')
      subst same
      rw [List.dropWhile_cons_of_pos (by simp)]
      exact ⟨after, .step (repeatOf_attr first word before _) more⟩
    · rw [List.dropWhile_cons_of_neg (by simpa using same), List.flatMap_cons, List.append_assoc]
      exact ⟨before, .stop (stops fun ahead => same (repeatAhead_attr first word ahead))⟩

theorem skips_unword {front back : List Char} (unword : ∀ c ∈ front, isWord c = false) :
    Skips duplicates front back := by
  refine skips_of_shape startsRepeat_of_reads fun passed ahead same some_ahead starts => ?_
  obtain ⟨c, head, word⟩ := starts.head
  obtain ⟨d, more, rfl⟩ := List.exists_cons_of_ne_nil some_ahead
  obtain rfl : d = c := by simpa using head
  rw [unword d (by simp [same])] at word
  exact nomatch word

/-- A part of a name, up to the end of it that is repeated, if there is one. -/
theorem skips_part {part tail value text : List Char} (plain : '=' ∉ part ++ tail) (closed : '"' ∉ value)
    (single : ∀ c ahead, (∀ d ∈ c :: ahead ++ tail, isWord d = true) → (c :: ahead) <:+ part →
      ¬RepeatAhead (c :: ahead ++ tail) text) :
    Skips duplicates part (tail ++ '=' :: '"' :: (value ++ '"' :: text)) := by
  refine skips_of_shape startsRepeat_of_reads fun passed ahead same some_ahead starts => ?_
  obtain ⟨c, more, rfl⟩ := List.exists_cons_of_ne_nil some_ahead
  have no_equals : '=' ∉ c :: more ++ tail := fun mem => plain (by
    rw [same, List.append_assoc]
    exact List.mem_append_right _ mem)
  rw [← List.append_assoc] at starts
  obtain ⟨word, again⟩ := startsRepeat_name no_equals closed starts
  exact single c more word ⟨passed, same.symm⟩ again

theorem isTail_iff {name tail : List Char} :
    isTail name tail = true ↔ tail <:+ name ∧ ∀ c ∈ tail, isWord c = true := by
  simp [isTail]

theorem skips_lead {a : Attr} (proper : a.Proper) (back : List Char) : Skips duplicates a.lead back :=
  skips_unword fun c mem => isWord_of_isBlank (proper.blank c mem)

/-- An attribute that none follows whose name is the end of its own. -/
theorem substitute_single {a : Attr} {rest : List Attr} {text : List Char}
    (proper : ∀ b ∈ a :: rest, b.Proper) (calm : Calm (rest.flatMap Attr.write ++ text))
    (ends : Ends text) (single : ∀ b ∈ rest.head?, isTail a.name b.name = false) :
    substitute duplicates (a.write ++ (rest.flatMap Attr.write ++ text)) =
      a.write ++ substitute duplicates (rest.flatMap Attr.write ++ text) := by
  have first := proper a List.mem_cons_self
  have no_equals : '=' ∉ a.name ++ [] := by simpa using first.name.no_equals
  have name : Skips duplicates a.name
      ([] ++ '=' :: '"' :: (a.value ++ '"' :: (rest.flatMap Attr.write ++ text))) := by
    -- A repetition would be read in the next attribute, and its name would be an end of this one's.
    refine skips_part no_equals first.value fun c ahead word suffix again => ?_
    rw [List.append_nil] at word again
    cases rest with
    | nil => exact not_repeatAhead_end word ends again
    | cons b more =>
      rw [List.flatMap_cons, List.append_assoc] at again
      have next := proper b (List.mem_cons_of_mem a List.mem_cons_self)
      have named := repeatAhead_attr next word again
      have tail : isTail a.name b.name = true := isTail_iff.2 (named ▸ ⟨suffix, word⟩)
      rw [single b rfl] at tail
      exact nomatch tail
  have sign : Skips duplicates ['=', '"'] ((a.value ++ ['"']) ++ (rest.flatMap Attr.write ++ text)) :=
    skips_unword (by decide)
  have value : Skips duplicates (a.value ++ ['"']) (rest.flatMap Attr.write ++ text) :=
    skips_quote (fun reads => (startsRepeat_of_reads reads).quote) first.value (not_not_intro calm)
  have apart : a.write = a.lead ++ (a.name ++ (['=', '"'] ++ (a.value ++ ['"']))) := by
    simp [Attr.write]
  have whole : Skips duplicates a.write (rest.flatMap Attr.write ++ text) := by
    rw [apart]
    exact (skips_lead first _).append (Skips.append (by simpa using name) (sign.append value))
  exact substitute_skip duplicates_takes passive_duplicates whole

/-- An attribute and all that follow whose name is the same end of its own. -/
theorem substitute_run {a b : Attr} {rest : List Attr} {text : List Char}
    (proper : ∀ b' ∈ a :: b :: rest, b'.Proper) (ends : Ends text)
    (tail : isTail a.name b.name = true) :
    substitute duplicates (a.write ++ (b.write ++ (rest.flatMap Attr.write ++ text))) =
      a.write ++ substitute duplicates
        ((rest.dropWhile (·.name == b.name)).flatMap Attr.write ++ text) := by
  have first := proper a List.mem_cons_self
  have next := proper b (by simp)
  obtain ⟨⟨part, named⟩, word⟩ := isTail_iff.1 tail
  have no_equals : '=' ∉ part ++ b.name := named ▸ first.name.no_equals
  have name : Skips duplicates part (b.name ++ '=' :: '"' :: (a.value ++ '"' ::
      (b.write ++ (rest.flatMap Attr.write ++ text)))) := by
    -- A longer end of the name is not what follows: that is the name of the next attribute.
    refine skips_part no_equals first.value fun c ahead longer _ again => ?_
    have same := repeatAhead_attr next longer again
    have lengths := congrArg List.length same
    simp only [List.length_append, List.length_cons] at lengths
    omega
  have later : ∀ b' ∈ rest, b'.Proper := fun b' mem => proper b' (by simp [mem])
  obtain ⟨after, others⟩ := repeats_attrs next.name.1 word later ends (some '"')
  have all : ∀ c ∈ a.value, notQuote c = true :=
    fun c mem => bne_iff_ne.2 fun quote => first.value (quote ▸ mem)
  have read : duplicates ⟨none, b.name ++ '=' :: '"' :: (a.value ++ '"' ::
      (b.write ++ (rest.flatMap Attr.write ++ text)))⟩ =
      some (b.name ++ "=\"".toList ++ a.value ++ ['"'],
        ⟨after, (rest.dropWhile (·.name == b.name)).flatMap Attr.write ++ text⟩) := by
    refine duplicates_eq_some.2 ⟨b.name, a.value, ⟨some '"', b.write ++ (rest.flatMap Attr.write ++ text)⟩,
      ⟨some '"', rest.flatMap Attr.write ++ text⟩, next.name.1, word, all, ⟨by simp, ?_⟩,
      repeatOf_attr next word _ _, others, rfl⟩
    rw [List.getLast?_append, List.getLast?_concat]
    rfl
  have apart : a.write ++ (b.write ++ (rest.flatMap Attr.write ++ text)) = a.lead ++ (part ++
      (b.name ++ '=' :: '"' :: (a.value ++ '"' :: (b.write ++ (rest.flatMap Attr.write ++ text))))) := by
    simp [Attr.write, ← named]
  rw [apart, substitute_skip duplicates_takes passive_duplicates (skips_lead first _),
    substitute_skip duplicates_takes passive_duplicates name,
    substitute_read duplicates_takes passive_duplicates read]
  simp [Attr.write, ← named]

theorem substitute_duplicates {attrs : List Attr} {text : List Char} (proper : ∀ a ∈ attrs, a.Proper)
    (plain : ∀ a ∈ attrs, ¬LooksNamed a.value) (ends : Ends text) :
    substitute duplicates (attrs.flatMap Attr.write ++ text) =
      (squeeze (fun _ => false) attrs).flatMap Attr.write ++ substitute duplicates text := by
  -- On the number of attributes: behind a run it is its rest that is squeezed.
  induction size : attrs.length using Nat.strongRecOn generalizing attrs with
  | ind size ih =>
    cases attrs with
    | nil => rfl
    | cons a rest =>
      have proper' : ∀ b ∈ rest, b.Proper := fun b mem => proper b (List.mem_cons_of_mem a mem)
      have plain' : ∀ b ∈ rest, ¬LooksNamed b.value := fun b mem => plain b (List.mem_cons_of_mem a mem)
      simp only [List.length_cons] at size
      rw [List.flatMap_cons, List.append_assoc]
      by_cases single : ∀ b ∈ rest.head?, isTail a.name b.name = false
      · rw [substitute_single proper (calm_attrs proper' plain' ends.calm) ends single,
          ih rest.length (by omega) proper' plain' rfl]
        simp [squeeze, squeeze_unheld single]
      · cases rest with
        | nil => simp at single
        | cons b more =>
          have tail : isTail a.name b.name = true := by simpa using single
          have shorter : (more.dropWhile (·.name == b.name)).Sublist (b :: more) :=
            (List.dropWhile_sublist _).trans (List.sublist_cons_self b more)
          have fewer := (List.dropWhile_sublist (·.name == b.name) (l := more)).length_le
          simp only [List.length_cons] at size
          rw [List.flatMap_cons, List.append_assoc, substitute_run proper ends tail,
            ih _ (by omega) (fun b' mem => proper' b' (shorter.subset mem))
              (fun b' mem => plain' b' (shorter.subset mem)) rfl]
          simp [squeeze, tail, squeeze_run]

end DesignComponents.Markup
