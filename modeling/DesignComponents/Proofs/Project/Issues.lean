import DesignComponents.Component.Adapt
import DesignComponents.Project.Build
import DesignComponents.Proofs.Identifier
import DesignComponents.Proofs.Text.Cut

/-! What a component's files seem to lack. They are searched as texts, so a text of the design can be
taken for a type, and a name for a declaration. Nothing else can be. -/

set_option autoImplicit false

namespace DesignComponents.Project

open Text Identifier Template Style Component

/-! ### What is looked for -/

/-- The word that begins the declaration of an interface, blanks, and what a name may begin with. -/
inductive Opening : List Char → Prop
  | intro {blanks : List Char} {c : Char} (some_blank : blanks ≠ []) (blank : Blank blanks)
    (word : isWord c = true) : Opening ("interface".toList ++ blanks ++ [c])

variable {text left right word : List Char} {c : Char}

theorem interfaceName_isSome {p : Place} :
    (interfaceName p).isSome = true ↔ ∃ word, Opening word ∧ word <+: p.rest := by
  rw [Option.isSome_iff_exists]
  constructor
  · rintro ⟨⟨_, q⟩, reads⟩
    simp only [interfaceName, Reader.blanks1, Reader.bind_eq_some, Reader.text_eq_some,
      Reader.many1_eq_some, Reader.one_eq_some, Reader.pure_eq_some] at reads
    obtain ⟨_, m, front, blanks, m', ⟨some_blank, blank, -, between⟩, c, m'', ⟨word, last⟩, -⟩ := reads
    exact ⟨_, .intro some_blank blank word, m''.rest, ((front.trans between).trans last).rest.symm⟩
  · obtain ⟨before, ahead⟩ := p
    rintro ⟨_, @⟨blanks, c, some_blank, blank, word⟩, rest, rfl⟩
    have stops : ∀ d ∈ ([c] ++ rest).head?, isBlank d = false := by
      rintro d ⟨⟩
      exact not_blank_of_isWord word
    simp only [List.append_assoc]
    refine ⟨((), ⟨some c, rest⟩), Reader.bind_eq_some.2 ⟨(), _,
      Reader.text_eq_some.2 (Place.after_mk _ _ _), Reader.bind_eq_some.2 ⟨blanks, _,
        Reader.many1_eq_some.2 ⟨some_blank, blank, stops, Place.after_mk _ _ _⟩,
        Reader.bind_eq_some.2 ⟨c, _, Reader.one_eq_some.2 ⟨word, Place.after_mk _ [c] rest⟩, rfl⟩⟩⟩⟩

theorem Opening.blank_mem (opening : Opening word) : ∃ b ∈ word, isBlank b = true := by
  cases opening with
  | @intro blanks c some_blank blank _ =>
    obtain ⟨b, rest, rfl⟩ := List.exists_cons_of_ne_nil some_blank
    exact ⟨b, by simp, blank b List.mem_cons_self⟩

/-- What is neither blank nor part of a word. -/
def isSign (c : Char) : Bool := !isBlank c && !isWord c

theorem Opening.no_sign (opening : Opening word) (sign : isSign c = true) : c ∉ word := by
  simp only [isSign, Bool.and_eq_true, Bool.not_eq_true'] at sign
  cases opening with
  | @intro blanks d _ blank word =>
    simp only [List.mem_append, List.mem_singleton, not_or]
    refine ⟨⟨lacks (p := isWord) (by decide) sign.2, lacks blank sign.1⟩, ?_⟩
    rintro rfl
    exact absurd word (by simp [sign.2])

/-- Whether an interface seems to be declared in the text. -/
theorem found_interface : found interfaceName text = true ↔ Holds Opening text := by
  have further : ∀ before, foundAfter interfaceName before text = true ↔ Holds Opening text := by
    induction text with
    | nil =>
      intro before
      refine ⟨fun none => absurd none (by simp [foundAfter]), ?_⟩
      rintro ⟨word, opening, inside⟩
      obtain ⟨b, mem, -⟩ := opening.blank_mem
      exact absurd (inside.subset mem) List.not_mem_nil
    | cons c rest ih =>
      intro before
      rw [foundAfter, Bool.or_eq_true, interfaceName_isSome, ih]
      simp only [Holds, List.infix_cons_iff, and_or_left, exists_or]
  exact further none

theorem holds_cut (sign : isSign c = true) :
    Holds Opening (left ++ c :: right) ↔ Holds Opening left ∨ Holds Opening right :=
  holds_append_cons fun _ opening => opening.no_sign sign

theorem not_holds_unspaced (unspaced : Unspaced text) : ¬ Holds Opening text := by
  rintro ⟨word, opening, inside⟩
  obtain ⟨b, mem, blank⟩ := opening.blank_mem
  rw [unspaced b (inside.subset mem)] at blank
  exact nomatch blank

/-- Before a blank the word itself has to end the text. -/
theorem holds_spaced (unspaced : Unspaced left) (word : isWord c = true) :
    Holds Opening (left ++ ' ' :: c :: right) ↔
      "interface".toList <:+ left ∨ Holds Opening (c :: right) := by
  constructor
  · rintro ⟨_, opening, inside⟩
    obtain ⟨b, mem, blank⟩ := opening.blank_mem
    rcases List.infix_append_iff.1 inside with inside | inside | ⟨first, second, same, ends, front⟩
    · exact absurd ⟨_, opening, inside⟩ (not_holds_unspaced unspaced)
    · rcases List.infix_cons_iff.1 inside with front | inside
      · cases opening with
        | intro => exact nomatch (List.cons_prefix_cons.1 front).1
      · exact .inr ⟨_, opening, inside⟩
    · left
      have solid : ∀ d ∈ first, (!isBlank d) = true := fun d held => by
        simpa using unspaced d (ends.subset held)
      cases second with
      | nil =>
        rw [List.append_nil] at same
        rw [unspaced b (ends.subset (same ▸ mem))] at blank
        exact nomatch blank
      | cons e more =>
        obtain ⟨rfl, -⟩ := List.cons_prefix_cons.1 front
        cases opening with
        | @intro blanks d some_blank all _ =>
          obtain ⟨e, blanks, rfl⟩ := List.exists_cons_of_ne_nil some_blank
          have apart := Reader.span_unique (f := fun d => !isBlank d)
            (same.symm.trans (List.append_assoc _ _ _)) solid (by rintro _ ⟨⟩; decide) (by decide)
            (by rintro _ ⟨⟩; simp [all e List.mem_cons_self])
          rw [← apart.1]
          exact ends
  · rintro (⟨front, rfl⟩ | ⟨opening, one, inside⟩)
    · refine ⟨_, .intro (List.cons_ne_nil ' ' []) (by decide) word, front, right, by simp⟩
    · have later : c :: right <:+ left ++ ' ' :: c :: right :=
        (List.suffix_cons ' ' _).trans (List.suffix_append left _)
      exact ⟨opening, one, inside.trans later.isInfix⟩

instance (text : List Char) : Decidable (Unspaced text) :=
  inferInstanceAs (Decidable (∀ c ∈ text, isBlank c = false))

theorem not_holds_nil : ¬ Holds Opening [] := not_holds_unspaced nofun

theorem holds_blank_append (blank : Blank left) : Holds Opening (left ++ right) ↔ Holds Opening right := by
  have no_head : 'i' ∉ left := lacks blank (by decide)
  refine exists_congr fun word => and_congr_right fun opening => ?_
  cases opening with
  | intro => exact infix_append_of_head no_head

/-- Lines that are empty or end in a sign are searched one by one. -/
theorem holds_unlines {ls : List String} (closed : ∀ line ∈ ls, line.toList.getLast?.all isSign = true) :
    Holds Opening (unlines ls).toList ↔ ∃ line ∈ ls, Holds Opening line.toList := by
  induction ls with
  | nil => simpa [unlines] using not_holds_nil
  | cons line rest ih =>
    obtain ⟨here, later⟩ := List.forall_mem_cons.1 closed
    have behind : Holds Opening ('\n' :: (unlines rest).toList) ↔
        ∃ line ∈ rest, Holds Opening line.toList :=
      (holds_blank_append (by decide : Blank ['\n'])).trans (ih later)
    rw [unlines_cons, List.exists_mem_cons_iff]
    -- Cut at the sign that ends the line.
    rcases List.eq_nil_or_concat line.toList with none | ⟨front, c, shape⟩
    · rw [none, List.nil_append, behind, or_iff_right not_holds_nil]
    · rw [shape, List.concat_eq_append] at here ⊢
      have sign : isSign c = true := by simpa using here
      rw [List.append_assoc, List.singleton_append, holds_cut sign, holds_cut sign, behind,
        or_iff_left not_holds_nil]

theorem not_holds_append_space (unspaced : Unspaced left) : ¬ Holds Opening (left ++ [' ']) := by
  rintro ⟨word, opening, inside⟩
  rw [List.infix_concat_iff, List.suffix_concat_iff] at inside
  rcases inside with (none | ⟨front, same, -⟩) | inside
  · obtain ⟨b, mem, -⟩ := opening.blank_mem
    rw [none] at mem
    exact absurd mem List.not_mem_nil
  · cases opening with
    | intro _ _ word =>
      obtain rfl := List.singleton_inj.1 (List.append_inj' same rfl).2
      exact absurd word (by decide)
  · exact not_holds_unspaced unspaced ⟨word, opening, inside⟩

instance (text : List Char) : Decidable (Holds Opening text) := decidable_of_iff _ found_interface

/-! ### Lines with a name in them -/

/-- A line in which nothing is found: neither an interface nor the type of React components. It ends in a
sign if it is not empty. -/
structure Neutral (line : String) : Prop where
  ended : line.toList.getLast?.all isSign = true
  undeclared : ¬ Holds Opening line.toList
  untyped : mentions line.toList ": React.FC" = false

theorem neutral_iff {line : String} : Neutral line ↔ line.toList.getLast?.all isSign = true ∧
    ¬ Holds Opening line.toList ∧ mentions line.toList ": React.FC" = false :=
  ⟨fun ⟨ended, undeclared, untyped⟩ => ⟨ended, undeclared, untyped⟩,
    fun ⟨ended, undeclared, untyped⟩ => ⟨ended, undeclared, untyped⟩⟩

instance (line : String) : Decidable (Neutral line) := decidable_of_iff _ neutral_iff.symm

theorem mentions_iff {code : List Char} {word : String} :
    mentions code word = true ↔ word.toList <:+: code := occurs_iff

theorem mentions_eq_false {code : List Char} {word : String} :
    mentions code word = false ↔ ¬ word.toList <:+: code := by
  rw [← Bool.not_eq_true, mentions_iff]

theorem mentions_cut {word : String} (other : c ∉ word.toList) :
    mentions (left ++ c :: right) word = true ↔ mentions left word = true ∨ mentions right word = true := by
  simp only [mentions_iff, infix_append_cons other]

theorem mentions_unlines {word : String} (some_word : word.toList ≠ []) (unbroken : '\n' ∉ word.toList)
    {ls : List String} :
    mentions (unlines ls).toList word = true ↔ ∃ line ∈ ls, mentions line.toList word = true := by
  simp only [mentions_iff, infix_unlines some_word unbroken]

theorem mentions_unlines_eq_false {word : String} (some_word : word.toList ≠ [])
    (unbroken : '\n' ∉ word.toList) {ls : List String}
    (absent : ∀ line ∈ ls, mentions line.toList word = false) :
    mentions (unlines ls).toList word = false := by
  rw [← Bool.not_eq_true, mentions_unlines some_word unbroken]
  rintro ⟨line, held, inside⟩
  rw [absent line held] at inside
  exact nomatch inside

theorem untyped_of_colon (absent : ':' ∉ text) : mentions text ": React.FC" = false :=
  mentions_eq_false.2 fun inside => absent (inside.subset (by decide))

/-- Behind a sign that the type has not there is none without a colon. -/
theorem untyped_cut (other : c ∉ ": React.FC".toList) (front : mentions left ": React.FC" = false)
    (absent : ':' ∉ right) : mentions (left ++ c :: right) ": React.FC" = false := by
  rw [← Bool.not_eq_true, mentions_cut other, front, untyped_of_colon absent]
  simp

section

variable {line : String} {front middle back : List Char} {a b : Char}

/-- What is fixed of a line that has a word between two signs. -/
structure Slot (front : List Char) (a b : Char) (back : List Char) : Prop where
  signs : isSign a = true ∧ isSign b = true
  ended : (b :: back).getLast?.all isSign = true
  undeclared : ¬ Holds Opening front ∧ ¬ Holds Opening back
  untyped : a ∉ ": React.FC".toList ∧ mentions front ": React.FC" = false ∧ ':' ∉ b :: back

instance : Decidable (Slot front a b back) :=
  decidable_of_iff ((isSign a = true ∧ isSign b = true) ∧ (b :: back).getLast?.all isSign = true ∧
      (¬ Holds Opening front ∧ ¬ Holds Opening back) ∧
      a ∉ ": React.FC".toList ∧ mentions front ": React.FC" = false ∧ ':' ∉ b :: back)
    ⟨fun ⟨signs, ended, undeclared, untyped⟩ => ⟨signs, ended, undeclared, untyped⟩,
      fun ⟨signs, ended, undeclared, untyped⟩ => ⟨signs, ended, undeclared, untyped⟩⟩

theorem Slot.neutral (slot : Slot front a b back) (nothing : ¬ Holds Opening middle) (colon : ':' ∉ middle)
    (written : line.toList = front ++ a :: (middle ++ b :: back)) : Neutral line := by
  obtain ⟨⟨first, last⟩, ended, undeclared, other, untyped, no_colon⟩ := slot
  rw [neutral_iff, written]
  refine ⟨?_, ?_, ?_⟩
  · have some_back := List.cons_ne_nil b back
    rwa [← List.cons_append, ← List.append_assoc, List.getLast?_append_of_ne_nil _ some_back]
  · rw [holds_cut first, holds_cut last, not_or, not_or]
    exact ⟨undeclared.1, nothing, undeclared.2⟩
  · refine untyped_cut other untyped ?_
    rw [List.mem_append, not_or]
    exact ⟨colon, no_colon⟩

end

section

variable {name : String} (proper : IsComponentName name.toList)

include proper

theorem unspaced_name : Unspaced name.toList := fun c mem =>
  not_blank_of_isWord (isWord_of_alphanumeric (proper.alphanumeric c mem))

theorem no_colon_name : ':' ∉ name.toList := lacks proper.alphanumeric (by decide)

theorem Slot.neutral_name {line : String} {front back : List Char} {a b : Char}
    (slot : Slot front a b back) (written : line.toList = front ++ a :: (name.toList ++ b :: back)) :
    Neutral line :=
  slot.neutral (not_holds_unspaced (unspaced_name proper)) (no_colon_name proper) written

end

/-! ### Tests -/

/-- What is found in the test of a component of that name: the import of one that ends in the word looks
like the declaration of an interface. -/
def issuesOfTest (name : String) : List String :=
  if endsWith "interface".toList name.toList && !mentions name.toList "export" then
    ["Interface defined but not exported"]
  else []

/-- A neutral line that exports nothing, whatever the component is called. -/
structure Inert (name line : String) : Prop where
  neutral : Neutral line
  unexported : mentions line.toList "export" = true → mentions name.toList "export" = true

theorem inert_of_closed {name line other : String}
    (closed : Neutral line ∧ mentions line.toList "export" = false) : line ≠ other → Inert name line :=
  fun _ => ⟨closed.1, fun exports => nomatch closed.2.symm.trans exports⟩

/-- How the import of a component into its test ends. -/
def importEndings : List String := ["';", ".vue';", ".svelte';"]

theorem importEndings_fixed : ∀ ending ∈ importEndings, Unspaced ending.toList ∧ ':' ∉ ending.toList ∧
    ending.toList.getLast?.any isSign = true ∧ ending.toList.head?.any (· ∉ "export".toList) = true ∧
    mentions ending.toList.tail "export" = false := by
  decide

section

variable {name ending : String}

theorem Slot.inert {line : String} {front middle back : List Char} {a b : Char} (slot : Slot front a b back)
    (fixed : (a ∉ "export".toList ∧ b ∉ "export".toList) ∧ mentions front "export" = false ∧
      mentions back "export" = false)
    (nothing : ¬ Holds Opening middle) (colon : ':' ∉ middle)
    (within : mentions middle "export" = true → mentions name.toList "export" = true)
    (written : line.toList = front ++ a :: (middle ++ b :: back)) : Inert name line := by
  refine ⟨slot.neutral nothing colon written, fun exports => within ?_⟩
  obtain ⟨⟨first, last⟩, before, behind⟩ := fixed
  rw [written, mentions_cut first, mentions_cut last, before, behind] at exports
  simpa using exports

theorem toList_import : (s!"import {name} from '../{name}" ++ ending).toList =
    "import".toList ++ ' ' :: (name.toList ++ ' ' :: ("from '..".toList ++
      '/' :: (name.toList ++ ending.toList))) := by
  simp [toString]

variable (proper : IsComponentName name.toList) (known : ending ∈ importEndings)

include proper known

/-- A component that is imported under its name declares an interface if that ends in the word. -/
theorem holds_import : Holds Opening (s!"import {name} from '../{name}" ++ ending).toList ↔
      "interface".toList <:+ name.toList := by
  have apart : (s!"import {name} from '../{name}" ++ ending).toList =
      ("import".toList ++ ' ' :: (name.toList ++ ' ' :: "from ".toList)) ++
        '\'' :: ("../".toList ++ name.toList ++ ending.toList) := by
    simp [toString]
  have nothing : ¬ Holds Opening ("../".toList ++ name.toList ++ ending.toList) := by
    refine not_holds_unspaced fun c mem => ?_
    rcases List.mem_append.1 mem with mem | mem
    · rcases List.mem_append.1 mem with mem | mem
      · exact (by decide : Unspaced "../".toList) c mem
      · exact unspaced_name proper c mem
    · exact (importEndings_fixed ending known).1 c mem
  have behind : Holds Opening (name.toList ++ ' ' :: "from ".toList) ↔
      "interface".toList <:+ name.toList := by
    have last : ¬ Holds Opening "from ".toList := by decide
    exact (holds_spaced (unspaced_name proper) (by decide)).trans (or_iff_left last)
  rw [apart, holds_cut (by decide), or_iff_left nothing, ← behind]
  obtain ⟨c, rest, written⟩ : ∃ c rest, name.toList = c :: rest := by
    generalize name.toList = text at proper
    cases proper
    exact ⟨_, _, rfl⟩
  have word : isWord c = true := isWord_of_alphanumeric (proper.alphanumeric c (by simp [written]))
  have other : ¬ "interface".toList <:+ "import".toList := by decide
  rw [written, List.cons_append, holds_spaced (by decide) word, or_iff_right other]

theorem untyped_import :
    mentions (s!"import {name} from '../{name}" ++ ending).toList ": React.FC" = false := by
  refine untyped_of_colon ?_
  have colon := no_colon_name proper
  have last := (importEndings_fixed ending known).2.1
  simp [toString, colon, last]

omit proper in
theorem ended_import : (s!"import {name} from '../{name}" ++ ending).toList.getLast?.all isSign = true := by
  obtain ⟨-, -, last, -⟩ := importEndings_fixed ending known
  rw [String.toList_append, List.getLast?_append]
  cases ends : ending.toList.getLast? with
  | none =>
    rw [ends] at last
    exact nomatch last
  | some c =>
    rw [ends] at last
    exact last

omit proper in
theorem exports_import
    (exports : mentions (s!"import {name} from '../{name}" ++ ending).toList "export" = true) :
    mentions name.toList "export" = true := by
  obtain ⟨-, -, -, first, behind⟩ := importEndings_fixed ending known
  cases written : ending.toList with
  | nil => simp [written] at first
  | cons c rest =>
    rw [written] at first behind
    have other : c ∉ "export".toList := by simpa using first
    have fixed : mentions "import".toList "export" = false ∧
        mentions "from '..".toList "export" = false := by
      decide
    rw [toList_import, written, mentions_cut (by decide), mentions_cut (by decide), mentions_cut (by decide),
      mentions_cut other, fixed.1, fixed.2] at exports
    rw [List.tail_cons] at behind
    simpa [behind] using exports

/-- Of a test whose other lines are inert only the import counts. -/
theorem typeIssues_test {ls : List String} (mem : s!"import {name} from '../{name}" ++ ending ∈ ls)
    (others : ∀ l ∈ ls, l ≠ s!"import {name} from '../{name}" ++ ending → Inert name l) :
    typeIssues (unlines ls).toList = issuesOfTest name := by
  have either : ∀ l ∈ ls, l = s!"import {name} from '../{name}" ++ ending ∨ Inert name l :=
    fun l held => or_iff_not_imp_left.2 (others l held)
  have untyped : mentions (unlines ls).toList ": React.FC" = false := by
    refine mentions_unlines_eq_false (by decide) (by decide) fun l held => ?_
    rcases either l held with rfl | inert
    · exact untyped_import proper known
    · exact inert.neutral.untyped
  have exported : mentions (unlines ls).toList "export" = mentions name.toList "export" := by
    rw [Bool.eq_iff_iff, mentions_unlines (by decide) (by decide)]
    constructor
    · rintro ⟨l, held, inside⟩
      rcases either l held with rfl | inert
      · exact exports_import known inside
      · exact inert.unexported inside
    · intro inside
      refine ⟨_, mem, ?_⟩
      rw [toList_import, mentions_cut (by decide), mentions_cut (by decide)]
      exact .inr (.inl inside)
  have declared : found interfaceName (unlines ls).toList = endsWith "interface".toList name.toList := by
    have ended : ∀ l ∈ ls, l.toList.getLast?.all isSign = true := by
      intro l held
      rcases either l held with rfl | inert
      · exact ended_import known
      · exact inert.neutral.ended
    rw [Bool.eq_iff_iff, found_interface, holds_unlines ended, endsWith, startsWith_iff, List.reverse_prefix]
    constructor
    · rintro ⟨l, held, opening⟩
      rcases either l held with rfl | inert
      · exact (holds_import proper known).1 opening
      · exact absurd opening inert.neutral.undeclared
    · exact fun ends => ⟨_, mem, (holds_import proper known).2 ends⟩
  rw [typeIssues, untyped, exported, declared, issuesOfTest]
  rfl

end

section

variable {name : String} (proper : IsComponentName name.toList) (typed : Bool)

include proper

/-- A line of a test with the component's name between two signs. -/
theorem inert_between {line : String} {front back : List Char} {a b : Char} (slot : Slot front a b back)
    (fixed : (a ∉ "export".toList ∧ b ∉ "export".toList) ∧ mentions front "export" = false ∧
      mentions back "export" = false)
    (written : line.toList = front ++ a :: (name.toList ++ b :: back)) : Inert name line :=
  slot.inert fixed (not_holds_unspaced (unspaced_name proper)) (no_colon_name proper) id written

theorem inert_describe : Inert name s!"describe('{name}', () => \x7b" := by
  have slot : Slot "describe(".toList '\'' '\'' ", () => \x7b".toList := by decide
  exact inert_between proper slot (by decide) (by simp [toString])

theorem typeIssues_reactTest : typeIssues (TestFile.react name typed).code.toList = issuesOfTest name := by
  have used : Inert name s!"    const \x7b container \x7d = render(<{name} />);" := by
    have slot : Slot "    const \x7b container \x7d = render(".toList '<' '/' ">);".toList := by decide
    have within : mentions (name.toList ++ [' ']) "export" = true →
        mentions name.toList "export" = true := by
      rw [mentions_cut (by decide)]
      exact fun exports => exports.resolve_right (by decide)
    have nothing := not_holds_append_space (unspaced_name proper)
    refine slot.inert (by decide) nothing ?_ within (by simp [toString])
    simp [no_colon_name proper]
  refine typeIssues_test proper (by decide : "';" ∈ importEndings) (List.mem_of_getElem? (i := 2) rfl) ?_
  simp only [List.forall_mem_cons]
  exact ⟨inert_of_closed (by decide), inert_of_closed (by decide), fun other => absurd rfl other,
    inert_of_closed (by decide), fun _ => inert_describe proper, inert_of_closed (by decide), fun _ => used,
    inert_of_closed (by decide), inert_of_closed (by decide), inert_of_closed (by decide), nofun⟩

theorem typeIssues_vueTest : typeIssues (TestFile.vue name typed).code.toList = issuesOfTest name := by
  have slot : Slot "    const wrapper = mount".toList '(' ')' ";".toList := by decide
  have used : Inert name s!"    const wrapper = mount({name});" :=
    inert_between proper slot (by decide) (by simp [toString])
  refine typeIssues_test proper (by decide : ".vue';" ∈ importEndings) (List.mem_of_getElem? (i := 1) rfl) ?_
  simp only [List.forall_mem_cons]
  exact ⟨inert_of_closed (by decide), fun other => absurd rfl other, inert_of_closed (by decide),
    fun _ => inert_describe proper, inert_of_closed (by decide), fun _ => used, inert_of_closed (by decide),
    inert_of_closed (by decide), inert_of_closed (by decide), nofun⟩

theorem typeIssues_svelteTest : typeIssues (TestFile.svelte name typed).code.toList = issuesOfTest name := by
  have slot : Slot "    const \x7b container \x7d = render".toList '(' ')' ";".toList := by decide
  have used : Inert name s!"    const \x7b container \x7d = render({name});" :=
    inert_between proper slot (by decide) (by simp [toString])
  refine typeIssues_test proper (by decide : ".svelte';" ∈ importEndings) (List.mem_of_getElem? (i := 1) rfl) ?_
  simp only [List.forall_mem_cons]
  exact ⟨inert_of_closed (by decide), fun other => absurd rfl other, inert_of_closed (by decide),
    fun _ => inert_describe proper, inert_of_closed (by decide), fun _ => used, inert_of_closed (by decide),
    inert_of_closed (by decide), inert_of_closed (by decide), nofun⟩

theorem proper_class : IsComponentName (name ++ "Component").toList := by
  have suffix : ∀ c ∈ "Component".toList, isAsciiAlphanumeric c = true := by decide
  rw [String.toList_append]
  generalize name.toList = text at proper
  cases proper with
  | intro capital others =>
    exact .intro capital fun d mem => (List.mem_append.1 mem).elim (others d) (suffix d)

/-- The import of a class tells where the class is, in a text without blanks and colons. -/
theorem neutral_importClass : Neutral s!"import \x7b {name}Component \x7d from './{slug name}.component';" := by
  have plain := slug_signless name
  have file : ∀ c ∈ "./".toList ++ ((slug name).toList ++ ".component';".toList),
      isBlank c = false ∧ c ≠ ':' := by
    have fixed : ∀ c ∈ "./".toList ++ ".component';".toList, isBlank c = false ∧ c ≠ ':' := by decide
    intro c mem
    rw [List.mem_append, List.mem_append] at mem
    rcases mem with mem | mem | mem
    · exact fixed c (List.mem_append_left _ mem)
    · exact ⟨plain.unspaced c mem, fun same => plain.not_mem (by decide) (same ▸ mem)⟩
    · exact fixed c (List.mem_append_right _ mem)
  have slot : Slot "import ".toList '\x7b' '\x7d'
      (" from ".toList ++ '\'' :: ("./".toList ++ ((slug name).toList ++ ".component';".toList))) := by
    refine ⟨by decide, ?_, ⟨by decide, ?_⟩, by decide, by decide, ?_⟩
    · have apart : '\x7d' :: (" from ".toList ++ '\'' :: ("./".toList ++
            ((slug name).toList ++ ".component';".toList))) =
          '\x7d' :: (" from './".toList ++ (slug name).toList) ++ ".component';".toList := by
        simp
      rw [apart, List.getLast?_append_of_ne_nil _ (by decide)]
      decide
    · rw [holds_cut (by decide), not_or]
      exact ⟨by decide, not_holds_unspaced fun c mem => (file c mem).1⟩
    · rw [List.mem_cons, List.mem_append, List.mem_cons, not_or, not_or, not_or]
      exact ⟨by decide, by decide, by decide, fun mem => (file ':' mem).2 rfl⟩
  have nothing : ¬ Holds Opening (' ' :: ((name ++ "Component").toList ++ [' '])) := by
    rw [← List.singleton_append, holds_blank_append (by decide)]
    exact not_holds_append_space (unspaced_name (proper_class proper))
  refine slot.neutral nothing ?_ (by simp [toString])
  rw [List.mem_cons, List.mem_append, not_or, not_or]
  exact ⟨by decide, no_colon_name (proper_class proper), by decide⟩

omit proper in
theorem typeIssues_neutral {ls : List String} (neutral : ∀ line ∈ ls, Neutral line) :
    typeIssues (unlines ls).toList = [] := by
  have untyped : mentions (unlines ls).toList ": React.FC" = false :=
    mentions_unlines_eq_false (by decide) (by decide) fun line held => (neutral line held).untyped
  have undeclared : found interfaceName (unlines ls).toList = false := by
    rw [← Bool.not_eq_true, found_interface, holds_unlines fun line held => (neutral line held).ended]
    rintro ⟨line, held, opening⟩
    exact (neutral line held).undeclared opening
  rw [typeIssues, untyped, undeclared]
  rfl

theorem typeIssues_angularTest : typeIssues (TestFile.angular name).code.toList = [] := by
  refine typeIssues_neutral ?_
  have slot : Slot "describe(".toList '\'' '\'' ", () => \x7b".toList ∧
      Slot "  let fixture: ComponentFixture".toList '<' '>' ";".toList ∧
      Slot "      declarations: ".toList '[' ']' [] ∧
      Slot "    fixture = TestBed.createComponent".toList '(' ')' ";".toList := by
    decide
  have named := proper_class proper
  simp only [List.forall_mem_cons]
  exact ⟨by decide, neutral_importClass proper, by decide, slot.1.neutral_name named (by simp [toString]),
    slot.2.1.neutral_name named (by simp [toString]), by decide, by decide, by decide,
    slot.2.2.1.neutral_name named (by simp [toString]), by decide,
    slot.2.2.2.neutral_name named (by simp [toString]), by decide, by decide, by decide, by decide, by decide,
    by decide, nofun⟩

/-! ### Components -/

omit proper in
theorem typeIssues_exported {ls : List String} {line : String}
    (untyped : ∀ l ∈ ls, mentions l.toList ": React.FC" = false) (mem : line ∈ ls)
    (exports : mentions line.toList "export" = true) : typeIssues (unlines ls).toList = [] := by
  have exported : mentions (unlines ls).toList "export" = true :=
    (mentions_unlines (by decide) (by decide)).2 ⟨line, mem, exports⟩
  rw [typeIssues, mentions_unlines_eq_false (by decide) (by decide) untyped, exported]
  simp

theorem typeIssues_module : typeIssues (Angular.moduleCode name).toList = [] := by
  have slot : Slot "  declarations: ".toList '[' ']' ",".toList ∧
      Slot "  exports: ".toList '[' ']' [] := by
    decide
  have untyped : mentions s!"export class {name}Module \x7b\x7d".toList ": React.FC" = false := by
    refine untyped_of_colon ?_
    simp [toString, no_colon_name proper]
  have exports : mentions s!"export class {name}Module \x7b\x7d".toList "export" = true := by
    refine mentions_iff.2 ⟨[], " class ".toList ++ name.toList ++ "Module \x7b\x7d".toList, ?_⟩
    simp [toString]
  refine typeIssues_exported ?_ (List.mem_of_getElem? (i := 9) rfl) exports
  simp only [List.forall_mem_cons]
  exact ⟨by decide, by decide, (neutral_importClass proper).untyped, by decide, by decide,
    (slot.1.neutral_name (proper_class proper) (by simp [toString])).untyped, by decide,
    (slot.2.neutral_name (proper_class proper) (by simp [toString])).untyped, by decide, untyped, nofun⟩

end

section

variable {jsx css name : String} {config : Config}

/-- A React component imports what its types need, and is exported. -/
theorem typeIssues_react : typeIssues (React.code jsx css config name).toList = [] := by
  have react : mentions (React.code jsx css config name).toList "import React" = true := by
    refine (mentions_unlines (by decide) (by decide)).2 ⟨"import React from 'react';", ?_, by decide⟩
    simp
  have exported : mentions (React.code jsx css config name).toList "export" = true := by
    rw [React.code, mentions_unlines (by decide) (by decide)]
    refine ⟨_, List.mem_append_right _ (List.mem_of_getElem? (i := 3) rfl), mentions_iff.2 ?_⟩
    split
    · exact ⟨[], " default React.memo(".toList ++ name.toList ++ ");".toList, by simp [toString]⟩
    · exact ⟨[], " default ".toList ++ name.toList ++ ";".toList, by simp [toString]⟩
  rw [typeIssues, react, exported]
  simp

/-- The words by which a missing import of React is told. -/
def reactWords : List String := [": React.FC", "import React"]

/-- A line without these words. -/
def Reactless (line : String) : Prop := ∀ word ∈ reactWords, mentions line.toList word = false

instance (line : String) : Decidable (Reactless line) :=
  inferInstanceAs (Decidable (∀ word ∈ reactWords, mentions line.toList word = false))

theorem reactWords_spaced : ∀ word ∈ reactWords, word.toList ≠ [] ∧ '\n' ∉ word.toList ∧
    ' ' ∈ word.toList ∧ word.toList.head? ≠ some ' ' ∧ word.toList.getLast? ≠ some ' ' := by
  decide

theorem mentions_unspaced {word : String} (known : word ∈ reactWords) (absent : ' ' ∉ text) :
    mentions text word = false :=
  mentions_eq_false.2 fun inside => absent (inside.subset (reactWords_spaced word known).2.2.1)

/-- Behind a sign that the words have not there is none without a space. -/
theorem reactless_cut {line : String}
    (fixed : ∀ word ∈ reactWords, c ∉ word.toList ∧ mentions left word = false) (absent : ' ' ∉ right)
    (written : line.toList = left ++ c :: right) : Reactless line := by
  intro word known
  obtain ⟨other, front⟩ := fixed word known
  rw [written, ← Bool.not_eq_true, mentions_cut other, front, mentions_unspaced known absent]
  simp

theorem reactless_spaced {line : String} {front middle back : List Char} {a b : Char}
    (fixed : ∀ word ∈ reactWords, (a ∉ word.toList ∧ b ∉ word.toList) ∧ mentions front word = false ∧
      mentions back word = false) (absent : ' ' ∉ middle)
    (written : line.toList = front ++ a :: (' ' :: (middle ++ [' ']) ++ b :: back)) : Reactless line := by
  intro word known
  obtain ⟨⟨first, last⟩, before, behind⟩ := fixed word known
  obtain ⟨some_word, -, spaced, head, ends⟩ := reactWords_spaced word known
  have nothing : mentions (' ' :: (middle ++ [' '])) word = false := by
    rw [mentions_eq_false, List.infix_cons_iff, List.infix_concat_iff, List.suffix_concat_iff]
    rintro (⟨rest, same⟩ | (none | ⟨front, same, -⟩) | inside)
    · have first := congrArg List.head? same
      rw [List.head?_append_of_ne_nil _ some_word] at first
      exact head first
    · exact some_word none
    · rw [same] at ends
      simp at ends
    · exact absent (inside.subset spaced)
  rw [written, ← Bool.not_eq_true, mentions_cut first, mentions_cut last, before, nothing, behind]
  simp

theorem mentions_only {word : String} (known : word ∈ reactWords) {ls : List String} {line : String}
    (mem : line ∈ ls) (others : ∀ l ∈ ls, l ≠ line → Reactless l) :
    mentions (unlines ls).toList word = mentions line.toList word := by
  obtain ⟨some_word, unbroken, -⟩ := reactWords_spaced word known
  rw [Bool.eq_iff_iff, mentions_unlines some_word unbroken]
  constructor
  · rintro ⟨l, held, inside⟩
    by_cases same : l = line
    · exact same ▸ inside
    · rw [others l held same word known] at inside
      exact nomatch inside
  · exact fun inside => ⟨line, mem, inside⟩

/-- Of an Angular component it is the template alone that the words can be in. -/
theorem mentions_angular {word : String} (known : word ∈ reactWords) (proper : IsComponentName name.toList) :
    mentions (Angular.code jsx config name).toList word = mentions (Angular.template jsx).toList word := by
  have slug_spaceless : ' ' ∉ (slug name).toList := (slug_signless name).not_mem (by decide)
  have spaceless : ' ' ∉ (name ++ "Component").toList := lacks (proper_class proper).alphanumeric (by decide)
  have comment : Reactless s!" * {name} — generated from design." := by
    have fixed : ∀ word ∈ reactWords, ('*' ∉ word.toList ∧ '—' ∉ word.toList) ∧
        mentions [' '] word = false ∧ mentions " generated from design.".toList word = false := by
      decide
    exact reactless_spaced fixed (lacks proper.alphanumeric (by decide)) (by simp [toString])
  have selector : Reactless s!"  selector: 'app-{slug name}'," := by
    have fixed : ∀ word ∈ reactWords, '\'' ∉ word.toList ∧ mentions "  selector: ".toList word = false := by
      decide
    have absent : ' ' ∉ "app-".toList ++ (slug name).toList ++ "',".toList := by simp [slug_spaceless]
    exact reactless_cut fixed absent (by simp [toString])
  have styles : Reactless s!"  styleUrls: ['../styles/{slug name}.{config.style.extension}']" := by
    have fixed : ∀ word ∈ reactWords, '[' ∉ word.toList ∧ mentions "  styleUrls: ".toList word = false := by
      decide
    have extension : ' ' ∉ config.style.extension.toList := by cases config.style <;> decide
    have absent : ' ' ∉ "'../styles/".toList ++ (slug name).toList ++ ".".toList ++
        config.style.extension.toList ++ "']".toList := by
      simp [slug_spaceless, extension]
    exact reactless_cut fixed absent (by simp [toString])
  have declared : Reactless s!"export class {name}Component \x7b" := by
    have fixed : ∀ word ∈ reactWords, ('s' ∉ word.toList ∧ '\x7b' ∉ word.toList) ∧
        mentions "export clas".toList word = false ∧ mentions [] word = false := by
      decide
    exact reactless_spaced fixed spaceless (by simp [toString])
  refine mentions_only known (List.mem_of_getElem? (i := 8) rfl) ?_
  simp only [List.forall_mem_cons]
  exact ⟨fun _ => by decide, fun _ => by decide, fun _ => by decide, fun _ => comment, fun _ => by decide,
    fun _ => by decide, fun _ => selector, fun _ => by decide, fun other => absurd rfl other,
    fun _ => by decide, fun _ => styles, fun _ => by decide, fun _ => declared, fun _ => by decide,
    fun _ => by decide, nofun⟩

/-- What is found in an Angular component: its template may tell the type of React components. -/
def issuesOfTemplate (jsx : String) : List String :=
  if mentions (Angular.template jsx).toList ": React.FC" &&
      !mentions (Angular.template jsx).toList "import React" then
    ["React import missing for React.FC type"]
  else []

theorem typeIssues_angular (proper : IsComponentName name.toList) :
    typeIssues (Angular.code jsx config name).toList = issuesOfTemplate jsx := by
  have exported : mentions (Angular.code jsx config name).toList "export" = true := by
    rw [Angular.code, mentions_unlines (by decide) (by decide)]
    refine ⟨_, List.mem_of_getElem? (i := 12) rfl, mentions_iff.2 ?_⟩
    exact ⟨[], " class ".toList ++ name.toList ++ "Component \x7b".toList, by simp [toString]⟩
  rw [typeIssues, mentions_angular (by decide) proper, mentions_angular (by decide) proper, exported,
    issuesOfTemplate]
  simp

end

end DesignComponents.Project
