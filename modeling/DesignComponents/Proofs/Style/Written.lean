import DesignComponents.Proofs.Style.Rules
import DesignComponents.Proofs.Text.Search

/-! Style sheets as they are written: plain ones have each rule for itself, nested ones have all the
others in the root's. What of a document is shown in them are the declarations of the rules: a word that
stands in no other part of a sheet is in the sheet if it is in one of them. -/

set_option autoImplicit false

namespace DesignComponents.Style

open Target Text

abbrev Rule := String × Declarations

/-- A rule with the rules that are nested in it. -/
structure Block where
  rule : Rule
  inside : List Rule := []

def declarationLine (pad : List Char) (declaration : String × String) : List Char :=
  pad ++ declaration.1.toList ++ ": ".toList ++ declaration.2.toList ++ [';']

def openingLine (pad : List Char) (name : String) : List Char :=
  pad ++ '.' :: name.toList ++ " \x7b".toList

def ruleLines (pad : List Char) (rule : Rule) : List (List Char) :=
  openingLine pad rule.1 :: rule.2.entries.map (declarationLine (pad ++ "  ".toList)) ++
    [pad ++ ['\x7d']]

/-- The lines of a block, with an empty line before each rule that is nested in it. -/
def Block.lines (b : Block) : List (List Char) :=
  openingLine [] b.rule.1 :: b.rule.2.entries.map (declarationLine "  ".toList) ++
    b.inside.flatMap (fun rule => [] :: ruleLines "  ".toList rule) ++ [['\x7d']]

/-- All rules of a block. -/
def Block.rules (b : Block) : List Rule := b.rule :: b.inside

/-- Blocks with an empty line between them. -/
def linesOf : List Block → List (List Char)
  | [] => []
  | b :: rest => b.lines ++ rest.flatMap fun b => [] :: b.lines

/-- Lines that each end with a line break. -/
def ended (lines : List (List Char)) : List Char := lines.flatMap (· ++ ['\n'])

namespace Sheet

variable {s : Sheet}

/-- Each rule for itself. -/
def flat (s : Sheet) : List Block := s.rules.entries.map fun rule => { rule }

/-- The rules in the root's, if there is one. -/
def nested (s : Sheet) : List Block :=
  match s.rules.get? s.rootClass with
  | none => s.flat
  | some root =>
    [{ rule := (s.rootClass, root), inside := s.rules.entries.filter (·.1 != s.rootClass) }]

end Sheet

theorem Sheet.rules_flat (s : Sheet) : s.flat.flatMap Block.rules = s.rules.entries := by
  simp [flat, Block.rules, List.flatMap_map]

/-- Both ways to write a sheet have the same rules, if not in the same order. -/
theorem Sheet.rules_nested (s : Sheet) : (s.nested.flatMap Block.rules).Perm s.rules.entries := by
  cases held : s.rules.get? s.rootClass with
  | none => rw [nested, held, rules_flat]
  | some root =>
    obtain ⟨front, back, entries, erased⟩ := OrderedMap.entries_erase held
    have nests : s.nested.flatMap Block.rules = (s.rootClass, root) :: (front ++ back) := by
      rw [← erased]
      simp [nested, held, Block.rules, OrderedMap.erase]
    rw [nests, entries]
    exact List.perm_middle.symm

@[simp] theorem ended_nil : ended [] = [] := rfl

@[simp] theorem ended_cons (line : List Char) (lines : List (List Char)) :
    ended (line :: lines) = line ++ '\n' :: ended lines := by simp [ended]

@[simp] theorem ended_append (lines lines' : List (List Char)) :
    ended (lines ++ lines') = ended lines ++ ended lines' := List.flatMap_append

theorem ended_intercalate {lines : List (List Char)} (some_lines : lines ≠ []) :
    ['\n'].intercalate lines ++ ['\n'] = ended lines := by
  induction lines with
  | nil => contradiction
  | cons line rest ih =>
    cases rest with
    | nil => simp
    | cons next rest =>
      rw [List.intercalate_cons_cons, List.append_assoc, ih (by simp), ended_cons]
      simp

theorem declarationLines_toList (pad : String) (declarations : Declarations) :
    (Sheet.declarationLines pad declarations).map String.toList =
      declarations.entries.map (declarationLine pad.toList) := by
  rw [Sheet.declarationLines, List.map_map]
  refine List.map_congr_left fun e _ => ?_
  simp only [Function.comp_apply, declarationLine, String.toList_append]
  rfl

/-- The last line of blocks is a closing brace. -/
theorem linesOf_last {blocks : List Block} (some_blocks : blocks ≠ []) :
    ∃ front, linesOf blocks = front ++ [['\x7d']] := by
  obtain ⟨first, rest, rfl⟩ := List.exists_cons_of_ne_nil some_blocks
  rcases List.eq_nil_or_concat rest with rfl | ⟨before, last, rfl⟩
  · exact ⟨_, List.append_nil _⟩
  · refine ⟨first.lines ++ (before.flatMap fun b => [] :: b.lines) ++ ([] ::
      openingLine [] last.rule.1 :: last.rule.2.entries.map (declarationLine "  ".toList) ++
        last.inside.flatMap fun rule => [] :: ruleLines "  ".toList rule), ?_⟩
    simp [linesOf, Block.lines]

/-- A rule for itself is written as the block of that rule. -/
theorem block_toList {rule : Rule} (some_declared : rule.2.isEmpty = false) :
    (Sheet.block rule.1 rule.2).toList ++ ['\n'] = ended (Block.lines { rule }) := by
  have lines : rule.2.entries.map (declarationLine "  ".toList) ≠ [] := by
    simpa [OrderedMap.isEmpty] using some_declared
  have joined := ended_intercalate lines
  simp only [Sheet.block, String.toList_append, String.toList_intercalate, declarationLines_toList,
    Block.lines, ended_cons, ended_append, openingLine, List.flatMap_nil, ended_nil, ← joined]
  simp

/-- Rules for themselves that come after another. -/
theorem blocks_toList {rules : List Rule} (declared : ∀ rule ∈ rules, rule.2.isEmpty = false) :
    (rules.flatMap fun rule => "\n\n".toList ++ (Sheet.block rule.1 rule.2).toList) ++ ['\n'] =
      '\n' :: ended (rules.flatMap fun rule => [] :: Block.lines { rule }) := by
  induction rules with
  | nil => rfl
  | cons rule rest ih =>
    have later := ih fun r mem => declared r (List.mem_cons_of_mem rule mem)
    have here := block_toList (declared rule List.mem_cons_self)
    rw [List.flatMap_cons, List.append_assoc, later, List.flatMap_cons, List.cons_append, ended_cons,
      ended_append, ← here]
    simp

namespace Sheet

variable {s : Sheet}

theorem css_toList (sound : Sound s) : s.css.toList = ended (linesOf s.flat) := by
  have declared : ∀ rule ∈ s.rules.entries, rule.2.isEmpty = false :=
    fun rule mem => (sound.rules rule mem).2
  have all : s.rules.entries.filter (!·.2.isEmpty) = s.rules.entries :=
    List.filter_eq_self.2 fun rule mem => by rw [declared rule mem, Bool.not_false]
  rw [css, all, flat]
  cases same : s.rules.entries with
  | nil => rfl
  | cons first rest =>
    rw [same] at declared
    have here := block_toList (declared first List.mem_cons_self)
    have later := blocks_toList fun r mem => declared r (List.mem_cons_of_mem first mem)
    simp only [List.map_cons, String.toList_append, String.toList_intercalate, intercalate_cons,
      linesOf, ended_append, ← here, List.map_map, List.flatMap_map, Function.comp_def,
      List.append_assoc] at later ⊢
    rw [show "\n".toList = ['\n'] from rfl, later]
    rfl

theorem scss_toList (sound : Sound s) : s.scss.toList = ended (linesOf s.nested) := by
  unfold scss nested
  cases held : s.rules.get? s.rootClass with
  | none => exact css_toList sound
  | some root =>
    have declared : s.rules.entries.filter (fun rule => rule.1 != s.rootClass && !rule.2.isEmpty) =
        s.rules.entries.filter (·.1 != s.rootClass) := by
      refine List.filter_congr fun rule mem => ?_
      rw [(sound.rules rule mem).2, Bool.not_false, Bool.and_true]
    have nests : ∀ rule : Rule, (nestedLines rule.1 rule.2).map String.toList =
        [] :: ruleLines "  ".toList rule := by
      intro rule
      simp only [nestedLines, List.map_append, declarationLines_toList, List.map_cons,
        List.map_nil, String.toList_append]
      rfl
    simp only [declared, String.toList_append, String.toList_intercalate, List.map_append,
      declarationLines_toList, List.map_flatMap, nests, List.map_cons, List.map_nil]
    rw [show "\n".toList = ['\n'] from rfl, ended_intercalate (by simp)]
    simp only [linesOf, Block.lines, openingLine, List.flatMap_nil, List.append_nil]
    rfl

end Sheet

/-! ### What is shown -/

/-- Words that nothing in a sheet has but what is declared. -/
structure Foreign (P : List Char → Prop) : Prop where
  unbroken : ∀ word, P word → ∀ c ∈ [' ', '\n', ':', ';'], c ∉ word
  marked : ∀ word, P word → ∃ c ∈ ['<', '$', '\x60', '\\', '\r'], c ∈ word

/-- One of the words is in the declaration. -/
def HoldsIn (P : List Char → Prop) (declaration : String × String) : Prop :=
  Holds P declaration.1.toList ∨ Holds P declaration.2.toList

/-- The declarations that are written; utilities have none. -/
def Sheet.shown (s : Sheet) : List (String × String) :=
  match s.styling with
  | .tailwind => []
  | _ => s.rules.entries.flatMap fun rule => rule.2.entries

theorem exists_mem_flatMap {α β : Type} {xs : List α} {f : α → List β} {Q : β → Prop} :
    (∃ y ∈ xs.flatMap f, Q y) ↔ ∃ x ∈ xs, ∃ y ∈ f x, Q y := by
  simp only [List.mem_flatMap]
  exact ⟨fun ⟨y, ⟨x, mem, held⟩, one⟩ => ⟨x, mem, y, held, one⟩,
    fun ⟨x, mem, y, held, one⟩ => ⟨y, ⟨x, mem, held⟩, one⟩⟩

section

variable {P : List Char → Prop} (foreign : Foreign P)

include foreign

theorem Foreign.not_holds {text : List Char}
    (plain : ∀ c ∈ ['<', '$', '\x60', '\\', '\r'], c ∉ text) : ¬Holds P text := by
  rintro ⟨word, one, inside⟩
  obtain ⟨c, mark, mem⟩ := foreign.marked word one
  exact plain c mark (inside.subset mem)

theorem Foreign.not_holds_nil : ¬Holds P [] := foreign.not_holds fun _ _ => List.not_mem_nil

theorem Foreign.split {sep : Char} (separates : sep ∈ [' ', '\n', ':', ';']) {left right : List Char} :
    Holds P (left ++ sep :: right) ↔ Holds P left ∨ Holds P right :=
  holds_append_cons fun word one => foreign.unbroken word one sep separates

theorem Foreign.blank_append {pad : List Char} (spaces : ∀ c ∈ pad, c = ' ') (text : List Char) :
    Holds P (pad ++ text) ↔ Holds P text := by
  induction pad with
  | nil => rfl
  | cons c rest ih =>
    obtain rfl := spaces c List.mem_cons_self
    have skip : Holds P ([] ++ ' ' :: (rest ++ text)) ↔ Holds P [] ∨ Holds P (rest ++ text) :=
      foreign.split (by decide)
    rw [List.cons_append, ← List.nil_append (' ' :: _), skip,
      ih fun c mem => spaces c (List.mem_cons_of_mem _ mem)]
    exact or_iff_right foreign.not_holds_nil

theorem Foreign.ended (lines : List (List Char)) :
    Holds P (ended lines) ↔ ∃ line ∈ lines, Holds P line := by
  induction lines with
  | nil => simpa using foreign.not_holds_nil
  | cons line rest ih => rw [ended_cons, foreign.split (by decide), ih, List.exists_mem_cons_iff]

theorem Foreign.declarationLine {pad : List Char} (spaces : ∀ c ∈ pad, c = ' ')
    (e : String × String) : Holds P (declarationLine pad e) ↔ HoldsIn P e := by
  have apart : Style.declarationLine pad e =
      pad ++ (e.1.toList ++ ':' :: ([] ++ ' ' :: (e.2.toList ++ ';' :: []))) := by
    simp [Style.declarationLine]
  have nothing := foreign.not_holds_nil
  rw [apart, foreign.blank_append spaces, foreign.split (by decide), foreign.split (by decide),
    foreign.split (by decide), or_iff_left nothing, or_iff_right nothing, HoldsIn]

/-- Neither the first line of a rule holds any, nor the last. -/
theorem Foreign.openingLine {pad : List Char} (spaces : ∀ c ∈ pad, c = ' ') {name : String}
    (proper : Proper name) : ¬Holds P (openingLine pad name) := by
  have apart : Style.openingLine pad name = pad ++ ('.' :: name.toList ++ ' ' :: ['\x7b']) := by
    simp [Style.openingLine]
  rw [apart, foreign.blank_append spaces, foreign.split (by decide), not_or]
  refine ⟨foreign.not_holds fun c mark => ?_, foreign.not_holds (by decide)⟩
  have sign : ∀ c ∈ ['<', '$', '\x60', '\\', '\r'],
      signCodePoints.contains c.toNat = true ∧ c ≠ '.' := by decide +kernel
  obtain ⟨known, other⟩ := sign c mark
  rw [List.mem_cons, not_or]
  exact ⟨other, proper.signless.not_mem known⟩

theorem Foreign.ruleLines {pad : List Char} (spaces : ∀ c ∈ pad, c = ' ') {rule : Rule}
    (proper : Proper rule.1) :
    (∃ line ∈ ruleLines pad rule, Holds P line) ↔ ∃ e ∈ rule.2.entries, HoldsIn P e := by
  have deeper : ∀ c ∈ pad ++ "  ".toList, c = ' ' := by
    intro c mem
    rcases List.mem_append.1 mem with mem | mem
    · exact spaces c mem
    · simpa using mem
  have closing : ¬Holds P (pad ++ ['\x7d']) := by
    rw [foreign.blank_append spaces]
    exact foreign.not_holds (by decide)
  have opening := foreign.openingLine spaces proper
  simp only [Style.ruleLines, List.mem_append, List.mem_cons, List.mem_map, List.not_mem_nil, or_false,
    or_and_right, exists_or, exists_eq_left, opening, closing, false_or, or_false,
    exists_exists_and_eq_and, foreign.declarationLine deeper]

theorem Foreign.blockLines {b : Block} (proper : ∀ rule ∈ b.rules, Proper rule.1) :
    (∃ line ∈ b.lines, Holds P line) ↔ ∃ rule ∈ b.rules, ∃ e ∈ rule.2.entries, HoldsIn P e := by
  have outer := foreign.ruleLines (by decide : ∀ c ∈ [], c = ' ') (proper _ List.mem_cons_self)
  have inner : (∃ line ∈ b.inside.flatMap fun rule => [] :: Style.ruleLines "  ".toList rule,
      Holds P line) ↔ ∃ rule ∈ b.inside, ∃ e ∈ rule.2.entries, HoldsIn P e := by
    rw [exists_mem_flatMap]
    refine exists_congr fun rule => and_congr_right fun mem => ?_
    rw [List.exists_mem_cons_iff, or_iff_right foreign.not_holds_nil]
    exact foreign.ruleLines (by decide) (proper rule (List.mem_cons_of_mem _ mem))
  -- What is inside stands before the last line.
  have whole : (∃ line ∈ b.lines, Holds P line) ↔ (∃ line ∈ Style.ruleLines [] b.rule, Holds P line) ∨
      ∃ line ∈ b.inside.flatMap fun rule => [] :: Style.ruleLines "  ".toList rule, Holds P line := by
    simp only [Block.lines, Style.ruleLines, List.nil_append, List.mem_append, or_and_right, exists_or]
    exact or_right_comm
  rw [whole, outer, inner, Block.rules, List.exists_mem_cons_iff]

theorem Foreign.linesOf {blocks : List Block}
    (proper : ∀ rule ∈ blocks.flatMap Block.rules, Proper rule.1) :
    (∃ line ∈ linesOf blocks, Holds P line) ↔
      ∃ rule ∈ blocks.flatMap Block.rules, ∃ e ∈ rule.2.entries, HoldsIn P e := by
  have each : ∀ b ∈ blocks, (∃ line ∈ b.lines, Holds P line) ↔
      ∃ rule ∈ b.rules, ∃ e ∈ rule.2.entries, HoldsIn P e :=
    fun b mem => foreign.blockLines fun rule held => proper rule (List.mem_flatMap.2 ⟨b, mem, held⟩)
  rw [exists_mem_flatMap, ← exists_congr fun b => and_congr_right (each b)]
  cases blocks with
  | nil => simp [Style.linesOf]
  | cons first rest =>
    simp only [Style.linesOf, List.mem_append, or_and_right, exists_or, exists_mem_flatMap,
      List.exists_mem_cons_iff, foreign.not_holds_nil, false_or]

/-- A sheet holds one of the words if a declaration that is shown in it does. -/
theorem Foreign.render {s : Sheet} (sound : Sound s) :
    Holds P s.render.toList ↔ ∃ e ∈ s.shown, HoldsIn P e := by
  have rules : ∀ {blocks : List Block}, (blocks.flatMap Block.rules).Perm s.rules.entries →
      (Holds P (Style.ended (Style.linesOf blocks)) ↔
        ∃ e ∈ s.rules.entries.flatMap fun rule => rule.2.entries, HoldsIn P e) := by
    intro blocks perm
    have proper : ∀ rule ∈ blocks.flatMap Block.rules, Proper rule.1 :=
      fun rule mem => (sound.rules rule (perm.mem_iff.1 mem)).1
    rw [foreign.ended, foreign.linesOf proper]
    exact (exists_congr fun rule => and_congr_left fun _ => perm.mem_iff).trans
      exists_mem_flatMap.symm
  have flat : (s.flat.flatMap Block.rules).Perm s.rules.entries := by rw [s.rules_flat]
  unfold Sheet.render Sheet.shown
  cases s.styling with
  | tailwind =>
    have none : ¬Holds P Sheet.tailwindText.toList := foreign.not_holds (by decide +kernel)
    simpa using none
  | scss => rw [Sheet.scss_toList sound, rules s.rules_nested]
  | css => rw [Sheet.css_toList sound, rules flat]
  | styled => rw [Sheet.css_toList sound, rules flat]

end

end DesignComponents.Style
