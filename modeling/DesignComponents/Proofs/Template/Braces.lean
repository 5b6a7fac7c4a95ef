import DesignComponents.Proofs.Text.Cut
import DesignComponents.Proofs.Text.Search
import DesignComponents.Template.Adjust

/-! When the passes for bindings leave a text alone. Each of them reads pieces in braces only, so it
is enough that no brace is opened and then closed. -/

set_option autoImplicit false

namespace DesignComponents.Template

open Text Reader

/-- No opening brace is followed by a closing one, however much there is between. -/
def Unbraced (text : List Char) : Prop := ¬ ['\x7b', '\x7d'].Sublist text

instance (text : List Char) : Decidable (Unbraced text) := inferInstanceAs (Decidable (¬ _))

theorem Unbraced.sublist {left right : List Char} (unbraced : Unbraced right) (sub : left.Sublist right) :
    Unbraced left := fun pair => unbraced (pair.trans sub)

/-- Whatever is read has a brace that is opened and closed. -/
def NeedsBraces {α : Type} (r : Reader α) : Prop :=
  ∀ ⦃p v q⦄, r p = some (v, q) → (∃ taken, taken ≠ [] ∧ p.After taken q) ∧ ¬ Unbraced p.rest

section

variable {α : Type} {r : Reader α}

theorem NeedsBraces.takes (needs : NeedsBraces r) : Takes r := fun _ _ _ reads => (needs reads).1

theorem NeedsBraces.notFound (needs : NeedsBraces r) {text : List Char} (unbraced : Unbraced text) :
    found r text = false := by
  refine (foundAfter_eq_false needs.takes).2 fun passed ahead same => ?_
  refine unread_iff.2 fun v q reads => ?_
  refine (needs reads).2 (unbraced.sublist ?_)
  rw [same]
  exact List.sublist_append_right passed ahead

theorem NeedsBraces.idle {r : Reader (List Char)} (needs : NeedsBraces r) {text : List Char}
    (unbraced : Unbraced text) : Idle r text :=
  idle_of_notFound needs.takes (needs.notFound unbraced)

end

theorem not_unbraced_of_after {p m : Place} {taken : List Char} (reached : p.After taken m)
    (pair : ¬ Unbraced m.rest) : ¬ Unbraced p.rest := by
  intro unbraced
  refine pair (unbraced.sublist ?_)
  rw [reached.rest]
  exact List.sublist_append_right taken m.rest

theorem braced_needsBraces : NeedsBraces braced := by
  intro p v q reads
  simp only [braced, bind_eq_some, char_eq_some, many_eq_some, pure_eq_some] at reads
  obtain ⟨_, m, opened, inner, m₁, ⟨-, -, inside⟩, _, m₂, closed, rfl, rfl⟩ := reads
  have reached := (opened.trans inside).trans closed
  refine ⟨⟨_, by simp, reached⟩, fun unbraced => unbraced ?_⟩
  rw [reached.rest]
  have pair : (['\x7b'] ++ ['\x7d']).Sublist (['\x7b'] ++ inner ++ ['\x7d']) :=
    (List.sublist_append_left ['\x7b'] inner).append (List.Sublist.refl ['\x7d'])
  exact pair.trans (List.sublist_append_left _ _)

theorem boundClass_needsBraces (framework : Framework) : NeedsBraces (boundClass framework) := by
  intro p v q reads
  simp only [boundClass, bind_eq_some, wordStart_eq_some, text_eq_some, pure_eq_some] at reads
  obtain ⟨_, _, ⟨-, rfl⟩, _, m, named, inner, m₁, bound, rfl, rfl⟩ := reads
  obtain ⟨⟨taken, -, reached⟩, pair⟩ := braced_needsBraces bound
  exact ⟨⟨_, by simp, named.trans reached⟩, not_unbraced_of_after named pair⟩

theorem event_needsBraces (framework : Framework) : NeedsBraces (event framework) := by
  intro p v q reads
  simp only [event, bind_eq_some, wordStart_eq_some, text_eq_some, one_eq_some, many_eq_some,
    char_eq_some, pure_eq_some] at reads
  obtain ⟨_, _, ⟨-, rfl⟩, _, m, on, first, m₁, ⟨-, one⟩, others, m₂, ⟨-, -, many⟩, _, m₃, sign,
    handler, m₄, bound, rfl, rfl⟩ := reads
  obtain ⟨⟨taken, -, reached⟩, pair⟩ := braced_needsBraces bound
  have lead := ((on.trans one).trans many).trans sign
  exact ⟨⟨_, by simp, lead.trans reached⟩, not_unbraced_of_after lead pair⟩

theorem boundAttribute_needsBraces (framework : Framework) :
    NeedsBraces (boundAttribute framework) := by
  intro p v q reads
  simp only [boundAttribute, bind_eq_some, one_eq_some, many_eq_some, char_eq_some,
    pure_eq_some] at reads
  obtain ⟨blank, m, ⟨-, lead⟩, first, m₁, ⟨-, one⟩, others, m₂, ⟨-, -, many⟩, _, m₃, sign, inner, m₄,
    bound, rfl, rfl⟩ := reads
  obtain ⟨⟨taken, -, reached⟩, pair⟩ := braced_needsBraces bound
  have lead := ((lead.trans one).trans many).trans sign
  exact ⟨⟨_, by simp, lead.trans reached⟩, not_unbraced_of_after lead pair⟩

theorem expression_needsBraces (framework : Framework) : NeedsBraces (expression framework) := by
  intro p v q reads
  simp only [expression, bind_eq_some] at reads
  obtain ⟨inner, m, bound, done⟩ := reads
  split at done
  · exact (failure_eq_some.1 done).elim
  · obtain ⟨rfl, rfl⟩ := pure_eq_some.1 done
    exact braced_needsBraces bound

/-- A fixed piece with braces of its own. -/
theorem not_unbraced_of_text {p q : Place} {taken : List Char} (reached : p.After taken q)
    (pair : ¬ Unbraced taken) : ¬ Unbraced p.rest := by
  intro unbraced
  refine pair (unbraced.sublist ?_)
  rw [reached.rest]
  exact List.sublist_append_left taken q.rest

theorem spread_needsBraces (framework : Framework) : NeedsBraces (spread framework) := by
  intro p v q reads
  simp only [spread, blanks, bind_eq_some, many_eq_some, text_eq_some, pure_eq_some] at reads
  obtain ⟨blank, m, ⟨-, -, lead⟩, _, m₁, props, rfl, rfl⟩ := reads
  refine ⟨⟨_, by simp, lead.trans props⟩, not_unbraced_of_after lead ?_⟩
  exact not_unbraced_of_text props (by decide)

theorem writeStyle_needsBraces : NeedsBraces writeStyle := by
  intro p v q reads
  simp only [writeStyle, styleObject, blanks, bind_eq_some, text_eq_some, many_eq_some,
    map_eq_some, pure_eq_some] at reads
  obtain ⟨object, m, ⟨_, m₁, opened, blank, m₂, ⟨-, -, lead⟩, inner, m₃, ⟨raw, closed, rfl⟩, done⟩,
    rfl, rfl⟩ := reads
  have closed := through_after (by simp) closed
  have reached := (opened.trans lead).trans closed
  have last : m₃ = m := by
    split at done
    · exact (failure_eq_some.1 done).elim
    · exact (pure_eq_some.1 done).2
  subst last
  refine ⟨⟨_, by simp, reached⟩, not_unbraced_of_text reached fun unbraced => unbraced ?_⟩
  have first : ['\x7b'].Sublist "style=\x7b\x7b".toList := by decide
  have second : ['\x7d'].Sublist "\x7d\x7d".toList := by decide
  have pair := first.append (second.trans (List.sublist_append_right raw "\x7d\x7d".toList))
  exact pair.trans ((List.sublist_append_left _ blank).append (List.Sublist.refl _))

/-- No pass for bindings has anything to change, each at its turn. The first comes before classes
are renamed, and the others after. -/
structure Unbound (framework : Framework) (text : List Char) : Prop where
  style : Idle writeStyle text
  boundClass : Idle (boundClass framework) (substitute plainClass text)
  event : Idle (event framework) (substitute plainClass text)
  spread : Idle (spread framework) (substitute plainClass text)
  children : occurs "\x7bchildren\x7d".toList (substitute plainClass text) = false
  boundAttribute : Idle (boundAttribute framework) (substitute plainClass text)
  expression : Idle (expression framework) (substitute plainClass text)

/-- All that is left to do in a text without bindings is to rename plain classes. -/
theorem Unbound.adjustBindings_eq {framework : Framework} {text : List Char}
    (unbound : Unbound framework text) : adjustBindings framework text = substitute plainClass text := by
  have children : ¬ "\x7bchildren\x7d".toList <:+: substitute plainClass text := by
    rw [← occurs_iff, unbound.children]
    exact Bool.false_ne_true
  rw [adjustBindings, substitute_of_idle writeStyle_needsBraces.takes unbound.style,
    substitute_of_idle (boundClass_needsBraces framework).takes unbound.boundClass,
    substitute_of_idle (event_needsBraces framework).takes unbound.event,
    substitute_of_idle (spread_needsBraces framework).takes unbound.spread,
    replaceAll_eq_self children,
    substitute_of_idle (boundAttribute_needsBraces framework).takes unbound.boundAttribute,
    substitute_of_idle (expression_needsBraces framework).takes unbound.expression]

/-- Renaming plain classes opens and closes no brace. -/
theorem unbound_of_unbraced {framework : Framework} {text : List Char} (unbraced : Unbraced text)
    (unbraced' : Unbraced (substitute plainClass text)) : Unbound framework text where
  style := writeStyle_needsBraces.idle unbraced
  boundClass := (boundClass_needsBraces framework).idle unbraced'
  event := (event_needsBraces framework).idle unbraced'
  spread := (spread_needsBraces framework).idle unbraced'
  children := by
    rw [← Bool.not_eq_true, occurs_iff]
    intro inside
    have pair : ¬ Unbraced "\x7bchildren\x7d".toList := by decide
    exact pair (unbraced'.sublist inside.sublist)
  boundAttribute := (boundAttribute_needsBraces framework).idle unbraced'
  expression := (expression_needsBraces framework).idle unbraced'

end DesignComponents.Template
