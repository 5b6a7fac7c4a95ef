import DesignComponents.Proofs.Attribute.Memory
import DesignComponents.Proofs.Attribute.Style
import DesignComponents.Target.Transform

/-! Making a target tree. A valid memory of names changes nothing about the outcome and stays valid.
-/

set_option autoImplicit false

namespace DesignComponents.Target

open Attribute Attribute.Memory

mutual

theorem gives_transformVia : ∀ n : Source.Node,
    Gives (transformVia nameFor n) (transformVia (fun name => pure (rename name)) n)
  | .text content => by
    rw [transformVia, transformVia]
    exact gives_pure _
  | .foreign => by
    rw [transformVia, transformVia]
    exact gives_throw _
  | .fragment cs => by
    rw [transformVia, transformVia]
    exact (gives_transformAllVia cs).bind fun _ => gives_pure _
  | .element data cs => by
    rw [transformVia, transformVia]
    split
    · refine (gives_sanitize _).bind fun attributes => ?_
      exact (gives_transformAllVia cs).bind fun _ => gives_pure _
    · exact gives_pure _

theorem gives_transformAllVia : ∀ ns : List Source.Node,
    Gives (transformAllVia nameFor ns) (transformAllVia (fun name => pure (rename name)) ns)
  | [] => by
    rw [transformAllVia, transformAllVia]
    exact gives_pure _
  | n :: rest => by
    rw [transformAllVia, transformAllVia]
    refine (gives_transformVia n).bind fun _ => ?_
    exact (gives_transformAllVia rest).bind fun _ => gives_pure _

end

/-- The outcome for a node, with nothing remembered. -/
def transformed (n : Source.Node) : Except Fault (Option Node × List String) :=
  Id.run (transformVia (fun name => pure (rename name)) n).run

def transformedAll (ns : List Source.Node) : Except Fault (List Node × List String) :=
  Id.run (transformAllVia (fun name => pure (rename name)) ns).run

/-- Whatever a valid memory holds, a tree becomes the same, and the memory stays valid. -/
theorem transform_law (n : Source.Node) (t : Memory) (valid : t.Valid) :
    ((transform n).run.run t).1 = Transformed.ofResult <$> transformed n ∧
      Valid ((transform n).run.run t).2 := by
  have gives := (gives_transformVia n).bind fun result => gives_pure (Transformed.ofResult result)
  obtain ⟨same, kept⟩ := gives t valid
  refine ⟨same.trans ?_, kept⟩
  rw [run_bind, transformed]
  cases Id.run (transformVia (fun name => pure (rename name)) n).run <;> rfl

/-! ### The outcome for each kind of node -/

theorem transformed_text (content : String) :
    transformed (.text content) = .ok (some (.text content), []) := by
  rw [transformed, transformVia]
  rfl

theorem transformed_fragment (cs : List Source.Node) :
    transformed (.fragment cs) =
      (fun inside => (some (.fragment inside.1), inside.2)) <$> transformedAll cs := by
  rw [transformed, transformVia, run_bind, transformedAll]
  cases Id.run (transformAllVia (fun name => pure (rename name)) cs).run <;> rfl

/-- What an element becomes, given what becomes of its attributes. -/
def counterpart (data : Source.Element) (attributes : OrderedMap Json) : Data :=
  { tag := data.tag, attributes, text := data.text, sourceId := data.id, name := data.name }

theorem transformed_admitted {data : Source.Element} (admits : admitsTag data.tag = true)
    (cs : List Source.Node) :
    transformed (.element data cs) = do
      let attributes ← sanitize (data.attributes.getD .empty)
      let inside ← transformedAll cs
      return (some (.node (counterpart data attributes) inside.1), inside.2) := by
  rw [transformed, transformVia, if_pos admits, run_bind]
  refine congrArg _ (funext fun attributes => ?_)
  rw [run_bind]
  rfl

theorem transformed_dropped {data : Source.Element} (drops : admitsTag data.tag = false)
    (cs : List Source.Node) :
    transformed (.element data cs) = .ok (none, [droppedWarning data]) := by
  rw [transformed, transformVia, if_neg (by simp [drops])]
  rfl

theorem transformedAll_cons (n : Source.Node) (rest : List Source.Node) :
    transformedAll (n :: rest) = do
      let first ← transformed n
      let others ← transformedAll rest
      return (first.1.toList ++ others.1, first.2 ++ others.2) := by
  rw [transformedAll, transformAllVia, run_bind]
  refine congrArg _ (funext fun first => ?_)
  rw [run_bind]
  rfl

end DesignComponents.Target
