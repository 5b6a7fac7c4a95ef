import DesignComponents.Intake.Check
import DesignComponents.Proofs.Markup.Balance

/-! Checking well-formed markup. Such a text passes, and is left alone but for its white space where
as many of its tags look as if they closed their elements as do. Where the numbers differ it is
taken for unbalanced and rewritten, though nothing is wrong with it. -/

set_option autoImplicit false

namespace DesignComponents.Intake

open Text Markup

/-! ### What a text is checked as -/

/-- The text is cleaned and no more, and nothing is said of it. -/
structure LeftAlone (text : List Char) (c : Checked) : Prop where
  balanced : balanced (clean text) = true
  cleaned : c.cleaned = clean text
  warnings : c.warnings = []

/-- The text is taken for unbalanced. -/
structure Rewritten (text : List Char) (c : Checked) : Prop where
  unbalanced : balanced (clean text) = false
  cleaned : c.cleaned = repairVoid (clean text)
  warnings : unbalancedWarning (countTags (clean text)) ∈ c.warnings

/-- What checking makes of a text whose size is allowed. -/
def checked (text : String) : Checked :=
  ⟨(repair (clean text.toList)).1, text.utf8ByteSize, (repair (clean text.toList)).2⟩

theorem leftAlone_checked {text : String} (even : balanced (clean text.toList) = true) :
    LeftAlone text.toList (checked text) := by
  have left : repair (clean text.toList) = (clean text.toList, []) := by
    rw [balanced, beq_iff_eq] at even
    simp only [repair, if_pos even]
  constructor
  · exact even
  · rw [checked, left]
  · rw [checked, left]

theorem rewritten_checked {text : String} (uneven : balanced (clean text.toList) = false) :
    Rewritten text.toList (checked text) := by
  have made : repair (clean text.toList) = (repairVoid (clean text.toList),
      unbalancedWarning (countTags (clean text.toList)) ::
        if balanced (repairVoid (clean text.toList)) then [] else [stillUnbalancedWarning]) := by
    rw [balanced, beq_eq_false_iff_ne] at uneven
    simp only [repair, if_neg uneven]
  constructor
  · exact uneven
  · rw [checked, made]
  · rw [checked, made]
    exact List.mem_cons_self

/-- A drawing passes if its size does. -/
theorem checkText_eq {s : Settings} {text : String} (some_text : trim text.toList ≠ [])
    (svg : hasSvg (clean text.toList) = true) :
    checkText s text = (checkSize s text.utf8ByteSize).map fun _ => checked text := by
  rw [checkText, if_neg (by simpa using some_text)]
  cases checkSize s text.utf8ByteSize with
  | error t => rfl
  | ok u =>
    simp only [Bind.bind, Except.bind, svg]
    rfl

/-! ### Well-formed drawings -/

/-- A well-formed drawing passes if its size does. It is left alone where as many of its tags look
as if they closed their elements as do, so in particular where no value holds an end sign, and it is
rewritten where the numbers differ. -/
theorem check_wellFormed (s : Settings) {f : Forest} (proper : f.Proper) (draws : f.Draws) :
    ∃ c, check s (.str (String.ofList f.write)) =
        (checkSize s (String.ofList f.write).utf8ByteSize).map (fun _ => c) ∧
      (f.looksClosed = f.singles → LeftAlone f.write c) ∧
      (f.looksClosed ≠ f.singles → Rewritten f.write c) ∧
      ((∀ sign ∈ f.signs, sign.Plain) → LeftAlone f.write c) := by
  obtain ⟨text, same⟩ : ∃ text : String, text = String.ofList f.write := ⟨_, rfl⟩
  have spelled : f.write = text.toList := by rw [same, String.toList_ofList]
  have even := Forest.balanced_clean proper
  have svg := Forest.hasSvg_clean proper draws
  have some_text : trim f.write ≠ [] := by
    obtain ⟨sign, mem, -⟩ := draws
    obtain ⟨before, after, split⟩ := Forest.write_of_mem mem
    exact trim_ne_nil (c := '<') (by simp [split]) (by decide)
  rw [← same]
  rw [spelled] at even svg some_text ⊢
  refine ⟨checked text, checkText_eq some_text svg, fun looks => ?_, fun differ => ?_, fun plain => ?_⟩
  · exact leftAlone_checked (even.2 looks)
  · exact rewritten_checked (Bool.eq_false_iff.2 fun balanced => differ (even.1 balanced))
  · exact leftAlone_checked (even.2 (Forest.looksClosed_of_plain proper plain))

/-- An instruction, and a drawing with values in quotes of both kinds, one of them with an end sign
that stands behind no slash. -/
def legend : Forest :=
  .aside "?xml version=\"1.0\"?".toList <| .text ['\n'] <|
  .element ⟨"svg".toList, [⟨['\n', ' '], "width".toList, [' '], [' '], '\'', "8".toList⟩], []⟩
    (.text ['\n', ' ', ' '] <|
      .element ⟨"g".toList, [.spaced "id".toList "a > b".toList], [' ']⟩
        (.single ⟨"rect".toList, [.spaced "x".toList "1".toList], [' ']⟩ <|
          .text " a > b ".toList .nil)
        [' '] <|
      .text ['\n'] .nil)
    [] .nil

theorem check_wellFormed_legend : ∃ c, check {} (.str (String.ofList legend.write)) = .ok c ∧
    LeftAlone legend.write c ∧ c.cleaned = ("<?xml version=\"1.0\"?> <svg width = '8'> " ++
      "<g id=\"a > b\" ><rect x=\"1\" /> a > b </g > </svg>").toList := by
  have proper : legend.Proper := by decide +kernel
  have draws : legend.Draws := Forest.draws_of_svg rfl (List.mem_cons_of_mem _ List.mem_cons_self)
  have small : checkSize {} (String.ofList legend.write).utf8ByteSize = .ok () := by rfl
  obtain ⟨c, passes, alone, -, -⟩ := check_wellFormed {} proper draws
  have left := alone (by decide +kernel)
  rw [small] at passes
  refine ⟨c, passes, left, ?_⟩
  rw [left.cleaned]
  decide +kernel

/-- A drawing of one rectangle, with an end sign in a value. -/
def quotedEnd : Forest :=
  .element ⟨"svg".toList, [], []⟩
    (.single ⟨"rect".toList, [.spaced "id".toList "x>y".toList], []⟩ .nil) [] .nil

/-- The sign is taken for the end of the tag, and the drawing for unbalanced: another value is read
from what is made of it. -/
theorem quotedEnd_rewritten : quotedEnd.Proper ∧ quotedEnd.Draws ∧
    quotedEnd.write = "<svg><rect id=\"x>y\"/></svg>".toList ∧
    ∃ c, check {} (.str "<svg><rect id=\"x>y\"/></svg>") = .ok c ∧ Rewritten quotedEnd.write c ∧
      c.cleaned = "<svg><rect id=\"x/>y\"/></svg>".toList ∧
      (tokens c.cleaned).values ≠ (tokens (clean quotedEnd.write)).values := by
  have written : quotedEnd.write = "<svg><rect id=\"x>y\"/></svg>".toList := by decide +kernel
  have small : checkSize {} (String.utf8ByteSize "<svg><rect id=\"x>y\"/></svg>") = .ok () := by rfl
  have passes := @checkText_eq {} "<svg><rect id=\"x>y\"/></svg>" (by decide +kernel) (by decide +kernel)
  rw [small] at passes
  have made := @rewritten_checked "<svg><rect id=\"x>y\"/></svg>" (by decide +kernel)
  refine ⟨by decide +kernel, Forest.draws_of_svg rfl List.mem_cons_self, written, _, passes, ?_, ?_, ?_⟩
  · rwa [written]
  · rw [made.cleaned]
    decide +kernel
  · rw [made.cleaned]
    decide +kernel

end DesignComponents.Intake
