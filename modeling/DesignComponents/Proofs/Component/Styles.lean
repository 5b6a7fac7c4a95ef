import DesignComponents.Component.Adapt
import DesignComponents.Proofs.Component.Container
import DesignComponents.Proofs.Style.Written
import DesignComponents.Proofs.Text.Trim

/-! Style sheets in components. They are put between two pieces of code that are the same for any sheet,
and end there just where no declaration has in it what ends the container. -/

set_option autoImplicit false

namespace DesignComponents.Component

open Text Style Target

/-! ### Frames -/

/-- Code around a style sheet. -/
structure Frame where
  before : String
  after : String

/-- The sheet on lines of its own. -/
def onOwnLines (sheet : String) : String := "\n" ++ sheet ++ "\n"

def Frame.around (f : Frame) (sheet : String) : String := f.before ++ onOwnLines sheet ++ f.after

/-- The style element has the sheet in it and nothing else. -/
def StaysInElement (f : Frame) (sheet : String) : Prop :=
  styleText (onOwnLines sheet ++ f.after).toList = some ((onOwnLines sheet).toList, f.after.toList)

/-- The template literal has the sheet for its value, and ends with the backtick that follows. -/
def StaysInLiteral (f : Frame) (sheet : String) : Prop :=
  cook (onOwnLines sheet ++ f.after).toList =
    some (unitsOf (onOwnLines sheet).toList, f.after.toList.tail)

theorem unlines_around (before : List String) (opening sheet closing : String) (after : List String) :
    unlines (before ++ opening :: sheet :: closing :: after) =
      Frame.around ⟨unlines before ++ opening, closing ++ "\n" ++ unlines after⟩ sheet := by
  simp [unlines, Frame.around, onOwnLines, String.append_assoc]

/-- The style element that a sheet is put into, by the tag that opens it. -/
def InElement (code : String → String) (tag : String) (f : Frame) : Prop :=
  (∀ css, code css = f.around (trimmed css)) ∧ (∃ lead, f.before = lead ++ tag) ∧
    f.after = "</style>\n"

/-- The template literal that a sheet is put into. -/
def InLiteral (code : String → String) (f : Frame) : Prop :=
  (∀ css, code css = f.around (indented 2 (trimmed css))) ∧
    (∃ lead, f.before = lead ++ "styled.div\x60") ∧ ∃ rest, f.after = "\x60" ++ rest

theorem inElement_of_lines {code : String → String} {tag : String} (before : List String)
    (lines : ∀ css, code css = unlines (before ++ [tag, trimmed css, "</style>"])) :
    ∃ f, InElement code tag f := by
  refine ⟨⟨unlines before ++ tag, "</style>\n"⟩, fun css => ?_, ⟨_, rfl⟩, rfl⟩
  rw [lines, unlines_around]
  rfl

theorem Vue.inElement (jsx : String) (config : Config) (name : String) :
    ∃ f, InElement (fun css => Vue.code jsx css config name) (Vue.styleTag config) f :=
  inElement_of_lines
    (["<template>", dedented .vue 2 jsx, "</template>", ""] ++
      Vue.scriptLines name config.isTyped ++ [""])
    fun css => by simp [Vue.code]

theorem Svelte.inElement (jsx : String) (config : Config) (name : String) :
    ∃ f, InElement (fun css => Svelte.code jsx css config name) (Svelte.styleTag config) f :=
  inElement_of_lines
    (Svelte.scriptLines name config.isTyped ++ ["", dedented .svelte 4 jsx, ""])
    fun css => by simp [Svelte.code]

theorem React.inLiteral (jsx : String) {config : Config} (styled : config.style = .styled)
    (name : String) : ∃ f, InLiteral (fun css => React.code jsx css config name) f := by
  obtain ⟨before, after, lines⟩ : ∃ before after : List String, ∀ css, React.code jsx css config name =
      unlines (before ++ (s!"const {name}Root = styled.div\x60") :: indented 2 (trimmed css) ::
        "\x60;" :: after) := by
    refine ⟨["import React from 'react';", React.styleImport config name, ""], ?_⟩
    simp only [React.code, styled, if_true, React.styledRoot, List.append_assoc, List.cons_append,
      List.nil_append]
    exact ⟨_, fun css => rfl⟩
  refine ⟨_, fun css => (lines css).trans (unlines_around _ _ _ _ _), ?_, ?_⟩
  · exact ⟨unlines before ++ s!"const {name}Root = ", by simp [String.append_assoc]; rfl⟩
  · exact ⟨";" ++ "\n" ++ unlines after, by simp [← String.append_assoc]⟩

/-! ### What is put into them -/

theorem trimRight_line {text : List Char} {last : Char} (solid : isBlank last = false) :
    trimRight (text ++ [last] ++ ['\n']) = text ++ [last] := by
  have break_blank : isBlank '\n' = true := by decide
  simp [trimRight, trimRightBy, solid, break_blank]

/-- A sheet ends with a line break, if it is not empty, and with no other white space. -/
theorem trimRight_render {s : Sheet} (sound : Sound s) :
    s.render.toList = [] ∨ s.render.toList = trimRight s.render.toList ++ ['\n'] := by
  have blocks : ∀ bs : List Block, ended (linesOf bs) = [] ∨
      ended (linesOf bs) = trimRight (ended (linesOf bs)) ++ ['\n'] := by
    intro bs
    by_cases none : bs = []
    · exact .inl (by rw [none]; rfl)
    · obtain ⟨front, lines⟩ := linesOf_last none
      have apart : ended (linesOf bs) = ended front ++ ['\x7d'] ++ ['\n'] := by simp [lines]
      rw [apart, trimRight_line (by decide)]
      exact .inr rfl
  -- Each kind of sheet ends with one line break, but for the sheet without rules, which is empty.
  unfold Sheet.render
  cases s.styling with
  | tailwind =>
    right
    change Sheet.tailwindText.toList = trimRight Sheet.tailwindText.toList ++ ['\n']
    decide +kernel
  | scss =>
    rw [Sheet.scss_toList sound]
    exact blocks _
  | css =>
    rw [Sheet.css_toList sound]
    exact blocks _
  | styled =>
    rw [Sheet.css_toList sound]
    exact blocks _

section

variable {P : List Char → Prop} (foreign : Foreign P)

include foreign

theorem holds_trimmed {s : Sheet} (sound : Sound s) :
    Holds P (trimmed s.render).toList ↔ ∃ e ∈ s.shown, HoldsIn P e := by
  rw [← foreign.render sound, trimmed, String.toList_ofList]
  rcases trimRight_render sound with empty | ended
  · rw [empty]
    rfl
  · conv_rhs => rw [ended]
    rw [foreign.split (by decide), or_iff_left foreign.not_holds_nil]

theorem holds_indented (width : Nat) (text : String) :
    Holds P (indented width text).toList ↔ Holds P text.toList := by
  have no_break : ∀ word, P word → '\n' ∉ word :=
    fun word one => foreign.unbroken word one '\n' (by decide)
  have line : ∀ line, Holds P (indentLine width line) ↔ Holds P line := by
    intro line
    unfold indentLine
    split
    · next empty => rw [List.isEmpty_iff.1 empty]
    · exact foreign.blank_append (fun c mem => List.eq_of_mem_replicate mem) line
  have cut : Holds P text.toList ↔ ∃ piece ∈ text.toList.splitOn '\n', Holds P piece := by
    have pieces := holds_intercalate no_break (List.splitOn_ne_nil '\n' text.toList)
    rwa [List.intercalate_splitOn] at pieces
  have some_lines : (text.toList.splitOn '\n').map (indentLine width) ≠ [] := by
    simp [List.splitOn_ne_nil]
  rw [indented, String.toList_ofList, indent, mapLines, lines, splitOn_eq, join,
    holds_intercalate no_break some_lines, cut]
  simp [line]

end

/-! ### What ends a container -/

/-- No other letter has the sign for its small one. -/
theorem small_sign : ∀ n : Fin 128, isAsciiUpper (Char.ofNat n) = true →
    Char.ofNat ((Char.ofNat n).toNat + 32) ≠ '<' := by
  decide +kernel

theorem foreign_styleEnd : Foreign IsStyleEnd where
  unbroken word ends := by
    have each : ∀ c ∈ [' ', '\n', ':', ';'],
        Number.asciiLower [c] = [c] ∧ c ∉ "</style".toList := by decide +kernel
    exact fun c mem => ends.not_mem (each c mem)
  marked word ends := by
    have held : '<' ∈ Number.asciiLower word := by
      rw [(ends : Number.asciiLower word = _)]
      decide
    obtain ⟨c, mem, same⟩ := List.mem_map.1 held
    split at same
    · next upper =>
      have ascii : isAscii c = true := by
        have := isAsciiUpper_iff.1 upper
        simp only [isAscii, decide_eq_true_eq]
        omega
      exact absurd same (ascii_induction (motive := fun c => isAsciiUpper c = true →
        Char.ofNat (c.toNat + 32) ≠ '<') small_sign ascii upper)
    · exact ⟨'<', by decide, same ▸ mem⟩

theorem foreign_breaking : Foreign IsBreaking where
  unbroken word breaking := by
    have each : ∀ word ∈ [['\x60'], ['\\'], ['\r'], ['$', '\x7b']],
        ∀ c ∈ [' ', '\n', ':', ';'], c ∉ word := by decide
    exact each word breaking
  marked word breaking := by
    have each : ∀ word ∈ [['\x60'], ['\\'], ['\r'], ['$', '\x7b']],
        ∃ c ∈ ['<', '$', '\x60', '\\', '\r'], c ∈ word := by decide
    exact each word breaking

theorem staysInElement_iff {f : Frame} (ending : f.after = "</style>\n") (sheet : String) :
    StaysInElement f sheet ↔ ¬Holds IsStyleEnd sheet.toList := by
  have nothing : ¬Holds IsStyleEnd [] := foreign_styleEnd.not_holds_nil
  have apart : (onOwnLines sheet ++ f.after).toList =
      ('\n' :: sheet.toList) ++ '\n' :: "</style>\n".toList := by
    simp [onOwnLines, ending]
  have whole : (onOwnLines sheet).toList = ('\n' :: sheet.toList) ++ ['\n'] := by
    simp [onOwnLines]
  have skip : Holds IsStyleEnd ([] ++ '\n' :: sheet.toList) ↔
      Holds IsStyleEnd [] ∨ Holds IsStyleEnd sheet.toList := foreign_styleEnd.split (by decide)
  rw [StaysInElement, apart, whole, ending, styleText_iff (by decide), ← List.nil_append ('\n' :: _),
    skip, or_iff_right nothing]

theorem staysInLiteral_iff {f : Frame} {rest : String} (ending : f.after = "\x60" ++ rest)
    (sheet : String) : StaysInLiteral f sheet ↔ ¬Holds IsBreaking sheet.toList := by
  have nothing : ¬Holds IsBreaking [] := foreign_breaking.not_holds_nil
  have apart : (onOwnLines sheet ++ f.after).toList =
      (onOwnLines sheet).toList ++ '\x60' :: rest.toList := by
    simp [ending]
  have tail : f.after.toList.tail = rest.toList := by simp [ending]
  have whole : (onOwnLines sheet).toList = [] ++ '\n' :: (sheet.toList ++ '\n' :: []) := by
    simp [onOwnLines]
  rw [StaysInLiteral, apart, tail, cook_iff, whole, foreign_breaking.split (by decide),
    foreign_breaking.split (by decide), or_iff_right nothing, or_iff_left nothing]

/-- The sheet of any tree is put into a component between code that is the same for any sheet. It stays in
the style element just where no declaration that is shown has the start of an end tag in it, and in the
template literal just where none has a backtick, a backslash, a carriage return or an interpolation. -/
theorem styles_contained {name : String} {styling : Styling} {root styled : Node} {sheet : Sheet}
    (extracts : (Sheet.extract true root).run (Sheet.make name styling) = .ok (styled, sheet))
    (jsx : String) {config : Config} {component : String} (named : config.name = .ok component) :
    ∃ made, adapt jsx sheet.render config = .ok made ∧
      (config.target = .vue → ∃ f,
        InElement (fun css => Vue.code jsx css config component) (Vue.styleTag config) f ∧
        made.code = f.around (trimmed sheet.render) ∧
        (StaysInElement f (trimmed sheet.render) ↔ ∀ e ∈ sheet.shown, ¬HoldsIn IsStyleEnd e)) ∧
      (config.target = .svelte → ∃ f,
        InElement (fun css => Svelte.code jsx css config component) (Svelte.styleTag config) f ∧
        made.code = f.around (trimmed sheet.render) ∧
        (StaysInElement f (trimmed sheet.render) ↔ ∀ e ∈ sheet.shown, ¬HoldsIn IsStyleEnd e)) ∧
      (config.target = .react → config.style = .styled → ∃ f,
        InLiteral (fun css => React.code jsx css config component) f ∧
        made.code = f.around (indented 2 (trimmed sheet.render)) ∧
        (StaysInLiteral f (indented 2 (trimmed sheet.render)) ↔
          ∀ e ∈ sheet.shown, ¬HoldsIn IsBreaking e)) := by
  obtain ⟨sound, -, -⟩ := extract_sound extracts
  obtain ⟨made, adapts, code⟩ : ∃ made, adapt jsx sheet.render config = .ok made ∧
      made.code = (write config.target jsx sheet.render config component).code := by
    rw [adapt, named]
    exact ⟨_, rfl, rfl⟩
  -- Trimming and indenting neither make nor break the words that end a container.
  have in_element : (¬Holds IsStyleEnd (trimmed sheet.render).toList) ↔
      ∀ e ∈ sheet.shown, ¬HoldsIn IsStyleEnd e := by
    rw [holds_trimmed foreign_styleEnd sound]
    simp
  have in_literal : (¬Holds IsBreaking (indented 2 (trimmed sheet.render)).toList) ↔
      ∀ e ∈ sheet.shown, ¬HoldsIn IsBreaking e := by
    rw [holds_indented foreign_breaking, holds_trimmed foreign_breaking sound]
    simp
  refine ⟨made, adapts, fun target => ?_, fun target => ?_, fun target styled => ?_⟩
  · obtain ⟨f, frame⟩ := Vue.inElement jsx config component
    rw [code, target]
    exact ⟨f, frame, frame.1 _, (staysInElement_iff frame.2.2 _).trans in_element⟩
  · obtain ⟨f, frame⟩ := Svelte.inElement jsx config component
    rw [code, target]
    exact ⟨f, frame, frame.1 _, (staysInElement_iff frame.2.2 _).trans in_element⟩
  · obtain ⟨f, frame⟩ := React.inLiteral jsx styled component
    obtain ⟨rest, ending⟩ := frame.2.2
    rw [code, target]
    exact ⟨f, frame, frame.1 _, (staysInLiteral_iff ending _).trans in_literal⟩

theorem unmarked_card : ((Sheet.extract true card).run (Sheet.make "Card" .css)).map
    (fun r => r.2.shown.all fun e => ['<', '$', '\x60', '\\', '\r'].all fun c =>
      !e.1.toList.contains c && !e.2.toList.contains c) = .ok true := by
  decide +kernel

theorem styles_contained_card : ∃ styled sheet made f,
    (Sheet.extract true card).run (Sheet.make "Card" .css) = .ok (styled, sheet) ∧
      Config.name { framework := .str "vue" } = .ok "GeneratedComponent" ∧
      adapt "<g />" sheet.render { framework := .str "vue" } = .ok made ∧
      made.code = f.around (trimmed sheet.render) ∧ StaysInElement f (trimmed sheet.render) := by
  obtain ⟨styled, sheet, extracts⟩ : ∃ styled sheet,
      (Sheet.extract true card).run (Sheet.make "Card" .css) = .ok (styled, sheet) :=
    extract_returns true card named_card nofun
  have named : Config.name { framework := .str "vue" } = .ok "GeneratedComponent" := by decide +kernel
  obtain ⟨made, adapts, vue, -, -⟩ := styles_contained extracts "<g />" named
  obtain ⟨f, -, code, stays⟩ := vue rfl
  refine ⟨styled, sheet, made, f, extracts, named, adapts, code, stays.2 fun e mem => ?_⟩
  have unmarked := unmarked_card
  rw [extracts] at unmarked
  have all := Except.ok.inj unmarked
  simp only [List.all_eq_true, Bool.and_eq_true, Bool.not_eq_true', List.contains_eq_mem,
    decide_eq_false_iff_not] at all
  rintro (inside | inside)
  · exact foreign_styleEnd.not_holds (fun c mark => (all e mem c mark).1) inside
  · exact foreign_styleEnd.not_holds (fun c mark => (all e mem c mark).2) inside

/-- A value with an end tag in it. -/
def ending : Node :=
  .node { tag := "rect", attributes := .ofList [("fill", .str "</style><script>f()</script>")] } []

theorem style_breaks_out : ((Sheet.extract true ending).run (Sheet.make "A" .css)).bind (fun r =>
    (adapt "" r.2.render { framework := .str "svelte" }).map fun made =>
      ((breakAt? "<style>".toList made.code.toList).bind fun parts => styleText parts.2).map
        fun parts => (String.ofList parts.1, String.ofList parts.2)) =
    .ok (some (
      "\n.a-rect-1 \x7b\n  display: block;\n  max-width: 100%;\n  fill: ",
      "</style><script>f()</script>;\n\x7d\n</style>\n")) := by
  decide +kernel

end DesignComponents.Component
