import DesignComponents.Proofs.Fault
import DesignComponents.Proofs.Text.Cut
import DesignComponents.Proofs.Text.Trim
import DesignComponents.Text.Entity

/-! Writing characters as references and reading them back. A text in which each character is
written as itself or as a reference to it is read back as it was, and each reference once; and a
text cannot be read where a decimal reference has more digits than a number is read from. -/

set_option autoImplicit false

namespace DesignComponents

section

variable {α ε : Type} {f : α → Except ε Unit} {e : ε}

theorem forM_eq_ok {xs : List α} : xs.forM f = .ok () ↔ ∀ x ∈ xs, f x = .ok () := by
  induction xs with
  | nil => simp [pure, Except.pure]
  | cons x rest ih =>
    cases first : f x with
    | error e => simp [first, bind, Except.bind]
    | ok u => simpa [first, bind, Except.bind] using ih

theorem forM_eq_error {xs : List α} (fails : xs.forM f = .error e) : ∃ x ∈ xs, f x = .error e := by
  induction xs with
  | nil => simp [pure, Except.pure] at fails
  | cons x rest ih =>
    cases first : f x with
    | error e' =>
      simp only [List.forM_eq_forM, List.forM_cons, first, bind, Except.bind, Except.error.injEq] at fails
      exact ⟨x, by simp, fails ▸ first⟩
    | ok u =>
      simp only [List.forM_eq_forM, List.forM_cons, first, bind, Except.bind] at fails
      obtain ⟨y, mem, fails⟩ := ih fails
      exact ⟨y, List.mem_cons_of_mem x mem, fails⟩

end

namespace Text.Entity

open Reader

/-! ### References take what they read -/

theorem semicolon_after {p q : Place} {written : List Char} (reads : semicolon p = some (written, q)) :
    ∃ taken, p.After taken q := by
  simp only [semicolon, orElse_eq_some, bind_eq_some, char_eq_some, pure_eq_some] at reads
  obtain ⟨-, m, reached, -, rfl⟩ | ⟨-, -, rfl⟩ := reads
  · exact ⟨_, reached⟩
  · exact ⟨[], Place.after_nil.2 rfl⟩

theorem atMost_after {limit : Nat} {f : Char → Bool} {p q : Place} {taken : List Char}
    (reads : atMost limit f p = some (taken, q)) : p.After taken q := by
  simp only [atMost, Option.some.injEq, Prod.mk.injEq] at reads
  obtain ⟨rfl, rfl⟩ := reads
  refine ⟨?_, rfl⟩
  have ahead := (List.takeWhile_prefix f).trans (List.take_prefix limit p.rest)
  exact (List.prefix_iff_eq_append.1 ahead).symm

theorem decimalReference_takes : Takes decimalReference := by
  intro p v q reads
  simp only [decimalReference, bind_eq_some, text_eq_some, many1_eq_some, pure_eq_some] at reads
  obtain ⟨-, m, mark, digits, m', ⟨-, -, -, reached⟩, written, m'', ends, -, rfl⟩ := reads
  obtain ⟨last, ends⟩ := semicolon_after ends
  exact ⟨_, by simp, (mark.trans reached).trans ends⟩

theorem hexReference_takes : Takes hexReference := by
  intro p v q reads
  simp only [hexReference, bind_eq_some, text_eq_some, one_eq_some, many1_eq_some,
    pure_eq_some] at reads
  obtain ⟨-, m, mark, x, m₁, ⟨-, small⟩, digits, m₂, ⟨-, -, -, reached⟩, written, m₃, ends, -, rfl⟩ :=
    reads
  obtain ⟨last, ends⟩ := semicolon_after ends
  exact ⟨_, by simp, ((mark.trans small).trans reached).trans ends⟩

theorem namedReference_takes : Takes namedReference := by
  intro p v q reads
  simp only [namedReference, bind_eq_some, char_eq_some] at reads
  obtain ⟨-, m, mark, name, m₁, named, reads⟩ := reads
  by_cases blank : name.isEmpty = true
  · simp [blank, failure_eq_some] at reads
  · simp only [blank, Bool.false_eq_true, if_false, bind_eq_some, pure_eq_some] at reads
    obtain ⟨written, m₂, ends, -, rfl⟩ := reads
    obtain ⟨last, ends⟩ := semicolon_after ends
    exact ⟨_, by simp, (mark.trans (atMost_after named)).trans ends⟩

theorem reference_takes : Takes reference :=
  decimalReference_takes.orElse (hexReference_takes.orElse namedReference_takes)

theorem reference_none {before : Option Char} {c : Char} {rest : List Char} (plain : c ≠ '&') :
    reference ⟨before, c :: rest⟩ = none := by
  have starts : ∀ {x}, reference ⟨before, c :: rest⟩ = some x → c = '&' := by
    intro x reads
    have first : ∀ {taken q}, (Place.mk before (c :: rest)).After ('&' :: taken) q → c = '&' := by
      intro taken q reached
      simpa using congrArg List.head? reached.rest
    simp only [reference, decimalReference, hexReference, namedReference, orElse_eq_some,
      bind_eq_some, text_eq_some, char_eq_some] at reads
    obtain ⟨-, m, mark, -⟩ | ⟨-, ⟨-, m, mark, -⟩ | ⟨-, -, m, mark, -⟩⟩ := reads
    · exact first mark
    · exact first mark
    · exact first mark
  refine unread_iff.2 fun v q reads => ?_
  exact plain (starts reads)

/-! ### Texts without references -/

theorem cut_plain {text : List Char} (plain : '&' ∉ text) : cut reference text = Cut.passing text := by
  have passed : cutAt reference ⟨none, text ++ []⟩ =
      Cut.passing text ++ cutAt reference ⟨text.getLast?.or none, []⟩ := by
    refine cutAt_pass reference_takes fun passed ahead same some_ahead => ?_
    obtain ⟨c, more, rfl⟩ := List.exists_cons_of_ne_nil some_ahead
    exact reference_none fun sign => plain (by simp [same, sign])
  rwa [List.append_nil, cutAt_nil, Cut.append_nil] at passed

theorem decode_plain {text : List Char} (plain : '&' ∉ text) : decode text = text := by
  rw [decode, substitute, cut_eq_cutAt, cutAt_map reference_takes, ← cut_eq_cutAt, cut_plain plain,
    Cut.map_passing, Cut.fill_passing]

theorem check_plain {text : List Char} (plain : '&' ∉ text) : check text = .ok () := by
  rw [check, findAll, cut_plain plain]
  rfl

/-! ### Reading back what was written -/

/-- How one character may be written: as itself, where it starts no reference, or as a reference
that stands for it and ends by itself. -/
inductive Spells (c : Char) : List Char → Prop where
  | plain : c ≠ '&' → Spells c [c]
  | reference {written : List Char} (r : Reference) :
      (∀ before rest, reference ⟨before, written ++ rest⟩ = some (r, ⟨some ';', rest⟩)) →
      r.value = [c] → r.check = .ok () → Spells c written

/-- A cut that stands for a text: with each reference put for its value, and all in reach. -/
structure StandsFor (c : Cut Reference) (text : List Char) : Prop where
  fill : (c.map Reference.value).fill = text
  check : ∀ r ∈ c.values, r.check = .ok ()

theorem StandsFor.append {c d : Cut Reference} {left right : List Char} (first : StandsFor c left)
    (second : StandsFor d right) : StandsFor (c ++ d) (left ++ right) where
  fill := by rw [Cut.map_append, Cut.fill_append, first.fill, second.fill]
  check r mem := by
    rw [Cut.values_append, List.mem_append] at mem
    exact mem.elim (first.check r) (second.check r)

variable {write : Char → List Char}

theorem cutAt_spelled (spells : ∀ c, Spells c (write c)) (before : Option Char)
    (text : List Char) : StandsFor (cutAt reference ⟨before, text.flatMap write⟩) text := by
  induction text generalizing before with
  | nil => exact ⟨rfl, by simp [cutAt_nil]⟩
  | cons c rest ih =>
    rw [List.flatMap_cons]
    have spelled := spells c
    generalize write c = written at spelled ⊢
    cases spelled with
    | plain plain =>
      rw [List.singleton_append, cutAt_none reference_takes (reference_none plain)]
      have one : StandsFor (Cut.passing [c]) [c] := ⟨by simp, by simp⟩
      exact one.append (ih (some c))
    | reference r reads value check =>
      rw [cutAt_some reference_takes (reads before _)]
      have one : StandsFor (Cut.piece r) [c] := ⟨by simp [value], by simp [check]⟩
      exact one.append (ih (some ';'))

theorem decode_flatMap (spells : ∀ c, Spells c (write c)) (text : List Char) :
    decode (text.flatMap write) = text := by
  rw [decode, substitute, cut_eq_cutAt, cutAt_map reference_takes]
  exact (cutAt_spelled spells none text).fill

/-! ### Texts that can be read -/

/-- No decimal reference has more digits than a number is read from. -/
def Readable (text : List Char) : Prop :=
  ∀ digits, .decimal digits ∈ findAll reference text → digits.length ≤ mostDigits

theorem Reference.check_eq_ok {r : Reference} :
    r.check = .ok () ↔ ∀ digits, r = .decimal digits → digits.length ≤ mostDigits := by
  cases r with
  | decimal digits => simp [check, checkDigits_eq_ok]
  | hex digits => simp [check]
  | named run => simp [check]

theorem Reference.check_eq_error {r : Reference} {fault : Fault} (fails : r.check = .error fault) :
    ∃ count, mostDigits < count ∧ fault = .tooManyDigits count := by
  cases r with
  | decimal digits => exact ⟨_, checkDigits_eq_error.1 fails⟩
  | hex digits => simp [check] at fails
  | named run => simp [check] at fails

theorem check_eq_ok {text : List Char} : check text = .ok () ↔ Readable text := by
  simp only [check, forM_eq_ok, Reference.check_eq_ok, Readable]
  constructor
  · intro all digits mem
    exact all _ mem digits rfl
  · rintro all r mem digits rfl
    exact all digits mem

theorem check_eq_error {text : List Char} {fault : Fault} (fails : check text = .error fault) :
    ∃ count, mostDigits < count ∧ fault = .tooManyDigits count := by
  obtain ⟨r, -, fails⟩ := forM_eq_error fails
  exact r.check_eq_error fails

theorem readable_flatMap (spells : ∀ c, Spells c (write c)) (text : List Char) :
    Readable (text.flatMap write) := by
  intro digits mem
  exact Reference.check_eq_ok.1 ((cutAt_spelled spells none text).check _ mem) digits rfl

/-! ### The writers of markup text -/

theorem spells_escapeTextChar (c : Char) : Spells c (escapeTextChar c) := by
  unfold escapeTextChar
  split
  · exact .reference (.named "amp;".toList) (fun _ _ => rfl) rfl rfl
  · exact .reference (.named "lt;".toList) (fun _ _ => rfl) rfl rfl
  · exact .reference (.named "gt;".toList) (fun _ _ => rfl) rfl rfl
  · exact .plain ‹_›

theorem spells_escapeValueChar (c : Char) : Spells c (escapeValueChar c) := by
  unfold escapeValueChar
  split
  · exact .reference (.named "quot;".toList) (fun _ _ => rfl) rfl rfl
  · exact .reference (.hex "27".toList) (fun _ _ => rfl) rfl rfl
  · exact spells_escapeTextChar c

/-- No spelling of a character begins or ends with white space that it does not stand for. -/
theorem trimmed_escapeTextChar (c : Char) (solid : isBlank c = false) :
    Trimmed (escapeTextChar c) := by
  unfold escapeTextChar
  split
  · exact trimmed_of_trim (by decide) (by decide)
  · exact trimmed_of_trim (by decide) (by decide)
  · exact trimmed_of_trim (by decide) (by decide)
  · exact ⟨by simp, by simpa using solid, by simpa using solid⟩

theorem escapeText_clean (text : List Char) : '<' ∉ escapeText text := by
  intro mem
  obtain ⟨c, -, mem⟩ := List.mem_flatMap.1 mem
  unfold escapeTextChar at mem
  split at mem
  · exact absurd mem (by decide)
  · exact absurd mem (by decide)
  · exact absurd mem (by decide)
  · exact absurd (List.mem_singleton.1 mem).symm ‹_›

theorem escapeValue_clean (text : List Char) : '"' ∉ escapeValue text := by
  intro mem
  obtain ⟨c, -, mem⟩ := List.mem_flatMap.1 mem
  unfold escapeValueChar escapeTextChar at mem
  split at mem
  · exact absurd mem (by decide)
  · exact absurd mem (by decide)
  · split at mem
    · exact absurd mem (by decide)
    · exact absurd mem (by decide)
    · exact absurd mem (by decide)
    · exact absurd (List.mem_singleton.1 mem).symm ‹_›

theorem decode_escapeText (text : List Char) : decode (escapeText text) = text :=
  decode_flatMap spells_escapeTextChar text

theorem decode_escapeValue (text : List Char) : decode (escapeValue text) = text :=
  decode_flatMap spells_escapeValueChar text

end Text.Entity

end DesignComponents
