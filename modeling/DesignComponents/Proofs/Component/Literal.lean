import DesignComponents.Proofs.Component.Styles
import DesignComponents.Proofs.Project.Assemble

/-! Templates in template literals. What would end the literal or interpolate in it is marked, a sign at
a time, so a literal is read back sign by sign; and no mark is parted from its sign when lines are moved
in, for neither has a line break. -/

set_option autoImplicit false

namespace DesignComponents.Component

open Text Style Target Identifier

/-! ### Reading by marks -/

/-- The signs that a mark may stand before. -/
def markable : List Char := ['\\', '\x60', '$']

/-- Reads a literal up to its closing backtick. Each mark is dropped; there is no other escape, and
nothing may be interpolated. -/
def readLiteral : List Char → Option (List Char × List Char)
  | [] => none
  | c :: rest =>
    if c = '\x60' then some ([], rest)
    else if c = '\\' then
      match rest with
      | [] => none
      | sign :: inside =>
        if sign ∈ markable then
          (readLiteral inside).map fun (text, ending) => (sign :: text, ending)
        else none
    else if c = '$' ∧ rest.head? = some '\x7b' then none
    else (readLiteral rest).map fun (text, ending) => (c :: text, ending)

theorem readLiteral_backtick (rest : List Char) : readLiteral ('\x60' :: rest) = some ([], rest) := by
  rw [readLiteral.eq_def]
  simp

theorem readLiteral_mark {sign : Char} {rest : List Char} (known : sign ∈ markable) :
    readLiteral ('\\' :: sign :: rest) =
      (readLiteral rest).map fun (text, ending) => (sign :: text, ending) := by
  rw [readLiteral, if_neg (by decide), if_pos rfl, if_pos known]

theorem readLiteral_plain {c : Char} {rest : List Char} (backtick : c ≠ '\x60') (backslash : c ≠ '\\')
    (alone : ¬(c = '$' ∧ rest.head? = some '\x7b')) : readLiteral (c :: rest) =
      (readLiteral rest).map fun (text, ending) => (c :: text, ending) := by
  rw [readLiteral.eq_def]
  simp only [backtick, backslash, alone, if_false]

/-- A marked sign stands for itself. -/
theorem cook_mark {sign : Char} {rest : List Char} (known : sign ∈ markable) :
    cook ('\\' :: sign :: rest) =
      (cook rest).map fun (value, ending) => (unitsAt sign.toNat ++ value, ending) := by
  have itself : readEscape sign rest = some (unitsAt sign.toNat, rest) := by
    simp only [markable, List.mem_cons, List.not_mem_nil, or_false] at known
    rcases known with rfl | rfl | rfl <;> rfl
  rw [cook.eq_def]
  simp only [Char.reduceEq, if_false, if_true]
  split
  · next none => rw [itself] at none; cases none
  · next units after reads =>
    rw [itself] at reads
    cases reads
    rfl

/-! ### Marking -/

namespace Angular

/-- Whether a sign is marked in front of this text. -/
def Marked (c : Char) (rest : List Char) : Prop :=
  c = '\\' ∨ c = '\x60' ∨ (c = '$' ∧ rest.head? = some '\x7b')

instance (c : Char) (rest : List Char) : Decidable (Marked c rest) :=
  inferInstanceAs (Decidable (_ ∨ _))

theorem Marked.markable {c : Char} {rest : List Char} (marked : Marked c rest) : c ∈ markable := by
  rcases marked with rfl | rfl | ⟨rfl, -⟩ <;> decide

theorem literalText_cons (c : Char) (rest : List Char) :
    literalText (c :: rest) = (if Marked c rest then ['\\', c] else [c]) ++ literalText rest := by
  by_cases opening : c = '$' ∧ rest.head? = some '\x7b'
  · obtain ⟨rfl, brace⟩ := opening
    obtain ⟨more, rfl⟩ := List.head?_eq_some_iff.1 brace
    rw [if_pos (.inr (.inr ⟨rfl, rfl⟩))]
    simp [literalText]
  · have no_opening : ∀ more, c = '$' → rest = '\x7b' :: more → False := by
      rintro more rfl rfl
      exact opening ⟨rfl, rfl⟩
    rw [literalText.eq_3 c rest no_opening]
    by_cases sign : c = '\\' ∨ c = '\x60' <;> simp [Marked, opening, sign]

/-- What is read ahead in a marked text is what stands in the text, unless it may be marked. -/
theorem head?_literalText {c : Char} (unmarked : c ∉ markable) (text ending : List Char) :
    (literalText text ++ '\x60' :: ending).head? = some c ↔ text.head? = some c := by
  simp only [markable, List.mem_cons, List.not_mem_nil, or_false, not_or] at unmarked
  cases text with
  | nil => simp [literalText, Ne.symm unmarked.2.1]
  | cons d text =>
    rw [literalText_cons]
    split
    · next marked =>
      have other : d ≠ c := by
        rintro rfl
        have := marked.markable
        simp_all [markable]
      simp [other, Ne.symm unmarked.1]
    · rfl

theorem readLiteral_literalText (text ending : List Char) :
    readLiteral (literalText text ++ '\x60' :: ending) = some (text, ending) := by
  induction text with
  | nil => exact readLiteral_backtick ending
  | cons c text ih =>
    rw [literalText_cons]
    split
    · next marked =>
      rw [List.append_assoc, List.cons_append, List.cons_append, List.nil_append,
        readLiteral_mark marked.markable, ih]
      rfl
    · next plain =>
      simp only [Marked, not_or] at plain
      rw [List.append_assoc, List.cons_append, List.nil_append, readLiteral_plain plain.2.1 plain.1, ih]
      · rfl
      · rw [head?_literalText (by decide)]
        exact plain.2.2

theorem cook_literalText (text ending : List Char) :
    cook (literalText text ++ '\x60' :: ending) = some (unitsOf (plainBreaks text), ending) := by
  induction text with
  | nil => exact cook_backtick ending
  | cons c text ih =>
    have here := literalText_cons c text
    by_cases marked : Marked c text
    · have other : c ≠ '\r' := by
        rintro rfl
        exact absurd marked.markable (by decide)
      rw [here, if_pos marked, List.append_assoc, List.cons_append, List.cons_append, List.nil_append,
        cook_mark marked.markable, ih, plainBreaks_cons other]
      rfl
    · rw [here, if_neg marked, List.append_assoc, List.cons_append, List.nil_append]
      simp only [Marked, not_or] at marked
      -- Whether a carriage return stands alone is told by the sign behind it, which marking keeps.
      by_cases ret : c = '\r'
      · rw [ret, cook_return, ih, plainBreaks_return, Option.map_some]
        simp only [head?_literalText (c := '\n') (by decide)]
        split <;> rfl
      · rw [cook_plain marked.2.1 marked.1 _ ret, ih, plainBreaks_cons ret]
        · rfl
        · rw [head?_literalText (by decide)]
          exact marked.2.2

/-! ### Lines of a marked text -/

theorem literalText_break (left right : List Char) :
    literalText (left ++ '\n' :: right) = literalText left ++ '\n' :: literalText right := by
  induction left with
  | nil => rfl
  | cons c left ih =>
    have same : Marked c (left ++ '\n' :: right) ↔ Marked c left := by
      cases left <;> simp [Marked]
    rw [List.cons_append, literalText_cons, literalText_cons, ih]
    simp only [same, List.append_assoc]

theorem literalText_join {pieces : List (List Char)} (some_piece : pieces ≠ []) :
    literalText (join ['\n'] pieces) = join ['\n'] (pieces.map literalText) := by
  induction pieces with
  | nil => exact absurd rfl some_piece
  | cons piece rest ih =>
    cases rest with
    | nil => simp [join]
    | cons next rest =>
      have later := ih (List.cons_ne_nil next rest)
      simp only [join, List.map_cons, List.intercalate_cons_cons, List.append_assoc,
        List.singleton_append] at later ⊢
      rw [literalText_break, later]

theorem not_mem_literalText {text : List Char} (unbroken : '\n' ∉ text) : '\n' ∉ literalText text := by
  induction text with
  | nil => exact unbroken
  | cons c text ih =>
    rw [List.mem_cons, not_or] at unbroken
    rw [literalText_cons]
    split <;> simp [unbroken.1, ih unbroken.2]

theorem lines_literalText (text : List Char) : lines (literalText text) = (lines text).map literalText := by
  have some_line := List.splitOn_ne_nil '\n' text
  have whole : literalText text = join ['\n'] ((text.splitOn '\n').map literalText) := by
    rw [← literalText_join some_line, join, List.intercalate_splitOn]
  rw [lines, splitOn_eq, lines, splitOn_eq, whole, join, List.splitOn_intercalate]
  · intro line mem
    obtain ⟨piece, held, rfl⟩ := List.mem_map.1 mem
    exact not_mem_literalText (of_mem_splitOn held).1
  · simp [some_line]

theorem indentLine_literalText (width : Nat) (line : List Char) :
    indentLine width (literalText line) = literalText (indentLine width line) := by
  cases line with
  | nil => rfl
  | cons c rest =>
    have spaced : ∀ n, literalText (List.replicate n ' ' ++ c :: rest) =
        List.replicate n ' ' ++ literalText (c :: rest) := by
      intro n
      induction n with
      | zero => rfl
      | succ n ih =>
        rw [List.replicate_succ, List.cons_append, literalText_cons, ih, if_neg (by simp [Marked])]
        rfl
    have some_char : (literalText (c :: rest)).isEmpty = false := by
      rw [literalText_cons]
      split <;> rfl
    rw [indentLine, some_char, indentLine]
    exact (spaced width).symm

/-- Marking and moving in may be done in either order. -/
theorem indent_literalText (width : Nat) (text : List Char) :
    indent width (literalText text) = literalText (indent width text) := by
  rw [indent, mapLines, lines_literalText, indent, mapLines, literalText_join]
  · simp only [List.map_map, Function.comp_def, indentLine_literalText]
  · rw [lines, splitOn_eq]
    simp [List.splitOn_ne_nil]

/-! ### The template of a component -/

/-- The text of the template as it is in the component, without the marks. -/
def plainTemplate (jsx : String) : String := indented 4 (dedented .angular 2 jsx)

theorem template_toList (jsx : String) :
    (template jsx).toList = literalText (plainTemplate jsx).toList := by
  simp only [template, plainTemplate, indented, String.toList_ofList, indent_literalText]

/-- The code around the template has no backtick before it. -/
theorem code_around {config : Config} {name : String} (named : config.name = .ok name) :
    ∃ lead rest : String, '\x60' ∉ lead.toList ∧ ∀ jsx, code jsx config name =
      lead ++ "  template: \x60" ++ (onOwnLines (template jsx) ++ "  \x60" ++ rest) := by
  have in_name : '\x60' ∉ name.toList := (Project.signless_of_named named).not_mem (by decide +kernel)
  have in_slug : '\x60' ∉ (slug name).toList := (slug_signless name).not_mem (by decide +kernel)
  obtain ⟨before, after, no_backtick, lines⟩ : ∃ before after : List String,
      (∀ line ∈ before, '\x60' ∉ line.toList) ∧ ∀ jsx, code jsx config name =
        unlines (before ++ "  template: \x60" :: template jsx :: "  \x60," :: after) := by
    refine ⟨[_, _, _, _, _, _, _], _, ?_, fun jsx => rfl⟩
    intro line mem
    simp only [List.mem_cons, List.not_mem_nil, or_false] at mem
    rcases mem with rfl | rfl | rfl | rfl | rfl | rfl | rfl
    all_goals simp [toString, in_name, in_slug]
  refine ⟨unlines before, ",\n" ++ unlines after, not_mem_unlines (by decide) no_backtick,
    fun jsx => ?_⟩
  rw [lines, unlines_around]
  apply String.toList_inj.1
  simp [Frame.around]

/-- In a component for Angular the first template literal has the template in it, and ends with the
backtick that is put behind every template. Read by its marks it is the template with its lines moved in;
its value is that text too, but for carriage returns, which become line breaks in any literal. -/
theorem template_read {config : Config} {name : String} (angular : config.target = .angular)
    (named : config.name = .ok name) : ∃ lead rest : String, '\x60' ∉ lead.toList ∧
      ∀ jsx css, let opened := onOwnLines (template jsx) ++ "  \x60" ++ rest
        let text := (onOwnLines (plainTemplate jsx) ++ "  ").toList
        (∃ made, adapt jsx css config = .ok made ∧
          made.code = lead ++ "  template: \x60" ++ opened) ∧
        readLiteral opened.toList = some (text, rest.toList) ∧
        cook opened.toList = some (unitsOf (plainBreaks text), rest.toList) := by
  obtain ⟨lead, rest, no_backtick, around⟩ := code_around named
  refine ⟨lead, rest, no_backtick, fun jsx css => ?_⟩
  intro opened text
  have marked : opened.toList = literalText text ++ '\x60' :: rest.toList := by
    have lines : text = [] ++ '\n' :: ((plainTemplate jsx).toList ++ '\n' :: "  ".toList) := by
      simp [text, onOwnLines]
    rw [lines, literalText_break, literalText_break, ← template_toList]
    simp [opened, onOwnLines, literalText]
  refine ⟨?_, ?_, ?_⟩
  · rw [adapt, named, angular]
    exact ⟨_, rfl, around jsx⟩
  · rw [marked, readLiteral_literalText]
  · rw [marked, cook_literalText]

theorem template_read_signs : ∃ (made : Component) (lead opened rest : String),
    adapt "\\\x60\n  $\x7b" "" { framework := .str "angular" } = .ok made ∧
      made.code = lead ++ "  template: \x60" ++ opened ∧
      readLiteral opened.toList = some ("\n    \\\x60\n    $\x7b\n  ".toList, rest.toList) := by
  have named : Config.name { framework := .str "angular" } = .ok "GeneratedComponent" := by decide +kernel
  have text : (onOwnLines (plainTemplate "\\\x60\n  $\x7b") ++ "  ").toList =
      "\n    \\\x60\n    $\x7b\n  ".toList := by decide +kernel
  have angular : Config.target { framework := .str "angular" } = .angular := by decide
  obtain ⟨lead, rest, -, each⟩ := template_read angular named
  obtain ⟨⟨made, adapts, written⟩, read, -⟩ := each "\\\x60\n  $\x7b" ""
  exact ⟨made, lead, _, rest, adapts, written, text ▸ read⟩

end Angular

end DesignComponents.Component
