import DesignComponents.Proofs.Style.Written

/-! Style sheets read back. A property ends at the first colon, a declaration at the next semicolon and
a rule at the next closing brace, and nothing in the values stands for anything else: so what is read
are the rules, unless a declaration has one of these signs in it. -/

set_option autoImplicit false

namespace DesignComponents.Style

open Target Text

/-! ### Reading -/

/-- What is before the first separator, and what is after it. -/
def halves? (sep : Char) (text : List Char) : Option (List Char × List Char) :=
  match text.dropWhile (· != sep) with
  | [] => none
  | _ :: after => some (text.takeWhile (· != sep), after)

/-- Reads pieces but for the last, where only white space may be. -/
def readPieces {α : Type} (one : List Char → Option α) : List (List Char) → Option (List α)
  | [] => none
  | [last] => if last.all isBlank then some [] else none
  | piece :: rest => do
    let first ← one piece
    return first :: (← readPieces one rest)

/-- Reads what each stop is the end of. -/
def readEach {α : Type} (stop : Char) (one : List Char → Option α) (text : List Char) :
    Option (List α) :=
  readPieces one (text.splitOn stop)

def readDeclaration (text : List Char) : Option (String × String) :=
  (halves? ':' text).map fun (property, value) =>
    (String.ofList (trim property), String.ofList (trim value))

def readRule (text : List Char) : Option (String × List (String × String)) := do
  let inside ← dropPrefix? ['.'] (trimLeft text)
  let (name, body) ← halves? '\x7b' inside
  let declarations ← readEach ';' readDeclaration body
  return (String.ofList (trim name), declarations)

def readRules (text : List Char) : Option (List (String × List (String × String))) :=
  readEach '\x7d' readRule text

theorem halves?_eq_some {sep : Char} {text before after : List Char} :
    halves? sep text = some (before, after) ↔ text = before ++ sep :: after ∧ sep ∉ before := by
  constructor
  · intro cut
    unfold halves? at cut
    split at cut
    · simp at cut
    · next first rest dropped =>
      cases cut
      have stops := List.head?_dropWhile_not (· != sep) text
      rw [dropped, List.head?_cons] at stops
      obtain rfl : first = sep := by simpa using stops
      refine ⟨?_, fun mem => ?_⟩
      · rw [← dropped, List.takeWhile_append_dropWhile]
      · simpa using List.mem_takeWhile_imp mem
  · rintro ⟨rfl, absent⟩
    have plain : ∀ c ∈ before, (c != sep) = true := by
      intro c mem
      exact bne_iff_ne.2 fun same => absent (same ▸ mem)
    simp only [halves?, List.dropWhile_append_of_pos plain, List.takeWhile_append_of_pos plain]
    simp

section

variable {α : Type} {stop : Char} {one : List Char → Option α} {piece rest : List Char}

theorem readEach_blank (absent : stop ∉ rest) (blank : Blank rest) : readEach stop one rest = some [] := by
  rw [readEach, List.splitOn_eq_singleton absent]
  exact if_pos (List.all_eq_true.2 blank)

theorem readEach_cons (absent : stop ∉ piece) : readEach stop one (piece ++ stop :: rest) =
    (one piece).bind fun first => (readEach stop one rest).map (first :: ·) := by
  obtain ⟨next, pieces, cut⟩ := List.exists_cons_of_ne_nil (List.splitOn_ne_nil stop rest)
  rw [readEach, readEach, List.splitOn_append_cons_self_of_not_mem absent, cut]
  cases here : one piece with
  | none => simp [readPieces, here]
  | some first =>
    cases later : readPieces one (next :: pieces) <;> simp [readPieces, here, later]

/-- All that is read comes from a piece of the text without a stop in it. -/
theorem exists_of_mem_readEach {text : List Char} {all : List α}
    (reads : readEach stop one text = some all) {a : α} (mem : a ∈ all) :
    ∃ piece, stop ∉ piece ∧ piece ⊆ text ∧ one piece = some a := by
  -- On the pieces; the last of them is blank and gives nothing.
  have each : ∀ (pieces : List (List Char)) {all : List α}, readPieces one pieces = some all →
      a ∈ all → ∃ piece ∈ pieces, one piece = some a := by
    intro pieces
    induction pieces with
    | nil => exact nofun
    | cons piece rest ih =>
      intro all reads mem
      cases rest with
      | nil =>
        simp only [readPieces, Option.ite_none_right_eq_some, Option.some.injEq] at reads
        exact absurd (reads.2 ▸ mem) List.not_mem_nil
      | cons next pieces =>
        simp only [readPieces, Option.bind_eq_bind, Option.bind_eq_some_iff, Option.pure_def,
          Option.some.injEq] at reads
        obtain ⟨first, here, others, later, rfl⟩ := reads
        rcases List.mem_cons.1 mem with rfl | mem
        · exact ⟨piece, List.mem_cons_self, here⟩
        · obtain ⟨piece', held, there⟩ := ih later mem
          exact ⟨piece', List.mem_cons_of_mem piece held, there⟩
  obtain ⟨piece, held, here⟩ := each _ reads mem
  obtain ⟨no_stop, part⟩ := of_mem_splitOn held
  exact ⟨piece, no_stop, part, here⟩

end

/-! ### What can be read back -/

/-- A declaration with no sign in it that has a meaning where it is written. -/
structure Clean (property value : String) : Prop where
  trimmed : trim property.toList = property.toList
  property : ':' ∉ property.toList ∧ ';' ∉ property.toList ∧ '\x7d' ∉ property.toList
  value : ';' ∉ value.toList ∧ '\x7d' ∉ value.toList

instance (property value : String) : Decidable (Clean property value) :=
  decidable_of_iff (_ ∧ _ ∧ _) ⟨fun ⟨h, i, j⟩ => ⟨h, i, j⟩, fun ⟨h, i, j⟩ => ⟨h, i, j⟩⟩

theorem trim_subset (text : List Char) : trim text ⊆ text := (infix_trimBy isBlank text).subset

/-- Whatever the text, what is read of it is clean. -/
theorem clean_of_readRules {text : List Char} {rules : List (String × List (String × String))}
    (reads : readRules text = some rules) {rule : String × List (String × String)}
    (mem : rule ∈ rules) {declaration : String × String} (held : declaration ∈ rule.2) :
    Clean declaration.1 declaration.2 := by
  -- The rule was cut at braces and its body at semicolons, so neither is in what is left.
  obtain ⟨piece, no_brace, -, reads⟩ := exists_of_mem_readEach reads mem
  simp only [readRule, Option.bind_eq_bind, Option.bind_eq_some_iff, Option.pure_def,
    Option.some.injEq, dropPrefix?_eq_some, Prod.exists, halves?_eq_some] at reads
  obtain ⟨inside, whole, name, body, ⟨rfl, -⟩, declarations, reads, rfl⟩ := reads
  have body_part : body ⊆ piece := by
    intro c mem
    refine (List.dropWhile_suffix isBlank).subset (?_ : c ∈ trimLeft piece)
    rw [whole]
    simp [mem]
  obtain ⟨part, no_semicolon, part_body, reads⟩ := exists_of_mem_readEach reads held
  simp only [readDeclaration, Option.map_eq_some_iff, Prod.exists, halves?_eq_some] at reads
  obtain ⟨property, value, ⟨rfl, no_colon⟩, rfl⟩ := reads
  have of_property : trim property ⊆ property ++ ':' :: value :=
    fun c mem => List.mem_append_left _ (trim_subset property mem)
  have of_value : trim value ⊆ property ++ ':' :: value :=
    fun c mem => List.mem_append_right _ (List.mem_cons_of_mem _ (trim_subset value mem))
  have outside : '\x7d' ∉ property ++ ':' :: value := fun mem => no_brace (body_part (part_body mem))
  constructor
  · simp only [String.toList_ofList, trim_trim]
  · simp only [String.toList_ofList]
    exact ⟨fun mem => no_colon (trim_subset property mem), fun mem => no_semicolon (of_property mem),
      fun mem => outside (of_property mem)⟩
  · simp only [String.toList_ofList]
    exact ⟨fun mem => no_semicolon (of_value mem), fun mem => outside (of_value mem)⟩

/-- The rules of a sheet in their order, each with its declarations. -/
def Sheet.listed (s : Sheet) : List (String × List (String × String)) :=
  s.rules.entries.map fun rule => (rule.1, rule.2.entries)

/-! ### Writing -/

/-- A declaration without its semicolon, on a line of its own. -/
def declarationText (declaration : String × String) : List Char :=
  "\n  ".toList ++ declaration.1.toList ++ ": ".toList ++ declaration.2.toList

def bodyText (declarations : List (String × String)) : List Char :=
  (declarations.flatMap fun e => declarationText e ++ [';']) ++ ['\n']

/-- A rule without its closing brace. -/
def ruleText (rule : Rule) : List Char :=
  '.' :: rule.1.toList ++ ' ' :: '\x7b' :: bodyText rule.2.entries

theorem ended_rule (rule : Rule) :
    ended (Block.lines { rule }) = ruleText rule ++ '\x7d' :: ['\n'] := by
  -- The line breaks stand behind the lines in the one, and before them in the other.
  have body : ∀ es : List (String × String),
      '\n' :: ended (es.map (declarationLine "  ".toList)) = bodyText es := by
    intro es
    induction es with
    | nil => rfl
    | cons e rest ih =>
      rw [List.map_cons, ended_cons, ih]
      simp [bodyText, declarationText, declarationLine]
  simp only [Block.lines, ended_append, ended_cons, openingLine, ruleText, ← body, List.flatMap_nil,
    ended_nil]
  simp

theorem readDeclaration_text {e : String × String} (clean : Clean e.1 e.2)
    (trimmed : trim e.2.toList = e.2.toList) : readDeclaration (declarationText e) = some e := by
  have cut : halves? ':' (declarationText e) = some ("\n  ".toList ++ e.1.toList, ' ' :: e.2.toList) := by
    refine halves?_eq_some.2 ⟨by simp [declarationText], ?_⟩
    simpa using clean.property.1
  have before : trim ("\n  ".toList ++ e.1.toList) = e.1.toList :=
    (trim_blank_append (by decide) _).trans clean.trimmed
  have after : trim (' ' :: e.2.toList) = e.2.toList :=
    (trim_blank_append (by decide : Blank [' ']) _).trans trimmed
  simp only [readDeclaration, cut, Option.map_some, before, after, String.ofList_toList]

theorem readEach_bodyText {es : List (String × String)} (clean : ∀ e ∈ es, Clean e.1 e.2)
    (trimmed : ∀ e ∈ es, trim e.2.toList = e.2.toList) :
    readEach ';' readDeclaration (bodyText es) = some es := by
  induction es with
  | nil => exact readEach_blank (by decide) (by decide)
  | cons e rest ih =>
    have later := ih (fun e mem => clean e (List.mem_cons_of_mem _ mem))
      fun e mem => trimmed e (List.mem_cons_of_mem _ mem)
    have here := clean e List.mem_cons_self
    have no_semicolon : ';' ∉ declarationText e := by
      simp [declarationText, here.property.2.1, here.value.1]
    have apart : bodyText (e :: rest) = declarationText e ++ ';' :: bodyText rest := by
      simp [bodyText]
    rw [apart, readEach_cons no_semicolon, later,
      readDeclaration_text here (trimmed e List.mem_cons_self)]
    rfl

theorem readRule_text {rule : Rule} (proper : Proper rule.1) {before : List Char}
    (blank : Blank before) (clean : ∀ e ∈ rule.2.entries, Clean e.1 e.2)
    (trimmed : ∀ e ∈ rule.2.entries, trim e.2.toList = e.2.toList) :
    readRule (before ++ ruleText rule) = some (rule.1, rule.2.entries) := by
  have left : trimLeft (before ++ ruleText rule) = ruleText rule := by
    rw [trimLeft, trimLeftBy, List.dropWhile_append_of_pos blank]
    exact dropWhile_head fun c mem => by
      obtain rfl : '.' = c := by simpa [ruleText] using mem
      decide
  have no_brace : '\x7b' ∉ rule.1.toList := proper.signless.not_mem (by decide)
  have cut : halves? '\x7b' (rule.1.toList ++ ' ' :: '\x7b' :: bodyText rule.2.entries) =
      some (rule.1.toList ++ [' '], bodyText rule.2.entries) :=
    halves?_eq_some.2 ⟨by simp, by simpa using no_brace⟩
  have name : trim (rule.1.toList ++ [' ']) = rule.1.toList :=
    (trim_append_blank (by decide) _).trans proper.signless.unspaced.trim
  rw [readRule, left]
  simp only [ruleText, List.cons_append, dropPrefix?, if_true, Option.bind_eq_bind, Option.bind_some, cut, name,
    readEach_bodyText clean trimmed, String.ofList_toList]
  rfl

theorem no_brace_ruleText {rule : Rule} (proper : Proper rule.1)
    (clean : ∀ e ∈ rule.2.entries, Clean e.1 e.2) : '\x7d' ∉ ruleText rule := by
  have no_brace : '\x7d' ∉ rule.1.toList := proper.signless.not_mem (by decide)
  have inside : ∀ e ∈ rule.2.entries, '\x7d' ∉ declarationText e ++ [';'] := by
    intro e mem
    have := clean e mem
    simp [declarationText, this.property.2.2, this.value.2]
  have body : '\x7d' ∉ rule.2.entries.flatMap fun e => declarationText e ++ [';'] := by
    intro mem
    obtain ⟨e, held, mem⟩ := List.mem_flatMap.1 mem
    exact inside e held mem
  simp [ruleText, bodyText, no_brace, body]

/-- What can be read back of rules. -/
structure Readable (rule : Rule) : Prop where
  proper : Proper rule.1
  clean : ∀ e ∈ rule.2.entries, Clean e.1 e.2
  trimmed : ∀ e ∈ rule.2.entries, trim e.2.toList = e.2.toList

theorem readRules_cons {rule : Rule} (readable : Readable rule) (before : List Char)
    (blank : Blank before) (rest : List Char) :
    readRules (before ++ (ended (Block.lines { rule }) ++ rest)) =
      (readRules ('\n' :: rest)).map ((rule.1, rule.2.entries) :: ·) := by
  have no_brace : '\x7d' ∉ before ++ ruleText rule := by
    rw [List.mem_append, not_or]
    exact ⟨lacks blank (by decide), no_brace_ruleText readable.proper readable.clean⟩
  have apart : before ++ (ended (Block.lines { rule }) ++ rest) =
      (before ++ ruleText rule) ++ '\x7d' :: '\n' :: rest := by
    rw [ended_rule]
    simp
  rw [apart, readRules, readEach_cons no_brace,
    readRule_text readable.proper blank readable.clean readable.trimmed]
  rfl

theorem readRules_flat {rules : List Rule} (readable : ∀ rule ∈ rules, Readable rule) :
    readRules (ended (linesOf (rules.map fun rule => { rule }))) =
      some (rules.map fun rule => (rule.1, rule.2.entries)) := by
  -- Before the first rule there is no line break; before each of the others there are two.
  have later : ∀ rest : List Rule, (∀ rule ∈ rest, Readable rule) →
      readRules ('\n' :: ended (rest.flatMap fun rule => [] :: Block.lines { rule })) =
        some (rest.map fun rule => (rule.1, rule.2.entries)) := by
    intro rest all
    induction rest with
    | nil => exact readEach_blank (by decide) (by decide)
    | cons rule rest ih =>
      have here := readRules_cons (all rule List.mem_cons_self) ['\n', '\n'] (by decide)
        (ended (rest.flatMap fun rule => [] :: Block.lines { rule }))
      rw [ih fun r mem => all r (List.mem_cons_of_mem rule mem)] at here
      rw [List.flatMap_cons, List.cons_append, ended_cons, ended_append]
      exact here
  cases rules with
  | nil => exact readEach_blank (by decide) (by decide)
  | cons first rest =>
    have here := readRules_cons (readable first List.mem_cons_self) [] (by decide)
      (ended (rest.flatMap fun rule => [] :: Block.lines { rule }))
    rw [later rest fun r mem => readable r (List.mem_cons_of_mem first mem)] at here
    rw [List.map_cons, linesOf, ended_append, List.flatMap_map]
    exact here

/-! ### What is declared -/

theorem value_trimmed (p : String) (v : Json) : trim (value p v).toList = (value p v).toList := by
  rw [value, String.toList_ofList]
  unfold valueChars
  dsimp only
  split
  · next length =>
    simp only [Bool.and_eq_true] at length
    have some_text : trim v.spelled ≠ [] := by
      intro none
      have numeral := length.1.2
      rw [none] at numeral
      exact absurd numeral (by decide)
    have bare := trimmed_trim some_text
    -- The unit only moves the end.
    have whole : Trimmed (trim v.spelled ++ "px".toList) := by
      refine ⟨by simp, fun c mem => bare.first c ?_, fun c mem => ?_⟩
      · rwa [List.head?_append_of_ne_nil _ some_text] at mem
      · obtain rfl : 'x' = c := by simpa using mem
        decide
    exact whole.trim
  · exact trim_trim v.spelled

theorem declared_trimmed {isRoot : Bool} {attributes : OrderedMap Json} {p v : String}
    (held : declared? isRoot attributes p = some v) : trim v.toList = v.toList := by
  rcases Option.or_eq_some_iff.1 held with style | ⟨-, held⟩
  · obtain ⟨entry, -, rfl⟩ := Option.map_eq_some_iff.1 style
    exact value_trimmed p entry.2
  · rcases Option.or_eq_some_iff.1 held with attr | ⟨-, root⟩
    · obtain ⟨entry, -, given⟩ := Option.bind_eq_some_iff.1 attr
      obtain ⟨u, -, rfl⟩ := Option.map_eq_some_iff.1 given
      exact value_trimmed p u
    · unfold ofRoot? at root
      split at root
      · have each : ∀ e ∈ [("display", "block"), ("max-width", "100%")],
            trim (e.2 : String).toList = e.2.toList := by decide +kernel
        exact each (p, v) (OrderedMap.mem_of_lookup root)
      · exact nomatch root

/-- The style sheet of any tree whose names are texts can be written, each of its rules is what is
declared of an element, and what is read of it are the rules just where every declaration is clean. -/
theorem readRules_css (name : String) (root : Node) :
    (Named (elementsOf true root) → ∃ styled sheet,
      (Sheet.extract true root).run (Sheet.make name .css) = .ok (styled, sheet)) ∧
    ∀ styled sheet, (Sheet.extract true root).run (Sheet.make name .css) = .ok (styled, sheet) →
      (∀ rule ∈ sheet.rules.entries, ∃ e ∈ elementsOf true root,
        ∀ p, rule.2.get? p = declared? e.isRoot e.data.attributes p) ∧
      (readRules sheet.css.toList = some sheet.listed ↔
        ∀ rule ∈ sheet.rules.entries, ∀ e ∈ rule.2.entries, Clean e.1 e.2) := by
  refine ⟨fun named => extract_returns true root named nofun, fun styled sheet extracts => ?_⟩
  obtain ⟨sound, -, from_elements⟩ := extract_sound extracts
  have declared : ∀ rule ∈ sheet.rules.entries, ∃ e ∈ elementsOf true root,
      ∀ p, rule.2.get? p = declared? e.isRoot e.data.attributes p := by
    intro rule mem
    obtain ⟨e, held, same⟩ := from_elements rule mem
    exact ⟨e, held, fun p => by rw [same, get?_declarationsOf]⟩
  refine ⟨declared, fun reads rule mem e held => ?_, fun clean => ?_⟩
  · exact clean_of_readRules reads (List.mem_map_of_mem mem) held
  · have readable : ∀ rule ∈ sheet.rules.entries, Readable rule := by
      intro rule mem
      obtain ⟨element, -, same⟩ := declared rule mem
      refine ⟨(sound.rules rule mem).1, clean rule mem, fun e held => ?_⟩
      exact declared_trimmed ((same e.1).symm.trans (OrderedMap.get?_of_mem held))
    rw [Sheet.css_toList sound]
    exact readRules_flat readable

theorem clean_card : ((Sheet.extract true card).run (Sheet.make "Card" .css)).map
    (fun r => r.2.rules.entries.all fun rule => rule.2.entries.all fun e => Clean e.1 e.2) =
      .ok true := by
  decide +kernel

theorem readRules_css_card : Named (elementsOf true card) ∧ ∃ styled sheet,
    (Sheet.extract true card).run (Sheet.make "Card" .css) = .ok (styled, sheet) ∧
      readRules sheet.css.toList = some sheet.listed := by
  obtain ⟨returns, reads⟩ := readRules_css "Card" card
  obtain ⟨styled, sheet, extracts⟩ := returns named_card
  have clean := clean_card
  rw [extracts] at clean
  refine ⟨named_card, styled, sheet, extracts, (reads styled sheet extracts).2.2 ?_⟩
  simpa using Except.ok.inj clean

/-- A value with a second declaration in it, and one with a second rule. -/
def breaking : Node :=
  .node {
    tag := "rect"
    attributes := .ofList [("fill", .str "red; x: y"), ("stroke", .str "a;\x7d .b \x7bc: d")] } []

theorem css_misread :
    ((Sheet.extract true breaking).run (Sheet.make "A" .css)).map (fun r => r.2.listed) = .ok [
      ("a-rect-1", [("display", "block"), ("max-width", "100%"), ("fill", "red; x: y"),
        ("stroke", "a;\x7d .b \x7bc: d")])] ∧
    ((Sheet.extract true breaking).run (Sheet.make "A" .css)).map
        (fun r => readRules r.2.css.toList) = .ok (some [
      ("a-rect-1", [("display", "block"), ("max-width", "100%"), ("fill", "red"), ("x", "y"),
        ("stroke", "a")]),
      ("b", [("c", "d")])]) := by
  decide +kernel

end DesignComponents.Style
