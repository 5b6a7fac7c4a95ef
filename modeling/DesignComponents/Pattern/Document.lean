import DesignComponents.Json.Basic

/-! Going through the nodes of a design document as it was exported. -/

set_option autoImplicit false

namespace DesignComponents.Pattern

abbrev Members := List (String × Json)

theorem sizeOf_append {α : Type} [SizeOf α] (xs ys : List α) :
    sizeOf (xs ++ ys) + 1 = sizeOf xs + sizeOf ys := by
  induction xs with
  | nil => simp; omega
  | cons x xs ih => simp; omega

theorem sizeOf_lookup {members : Members} {key : String} {v : Json}
    (h : members.lookup key = some v) : sizeOf v < sizeOf members := by
  induction members with
  | nil => simp at h
  | cons m ms ih =>
    obtain ⟨k, w⟩ := m
    rw [List.lookup_cons] at h
    split at h
    · simp only [Option.some.injEq] at h; subst h; simp; omega
    · have := ih h; simp; omega

/-- The values below a node. Texts and objects in their place hold no nodes. -/
def childrenOf (members : Members) : Except Fault (List Json) :=
  match members.lookup "children" with
  | some (.arr items) => .ok items
  | some v =>
    if !v.isTruthy then .ok []
    else match v with
      | .obj _ | .str _ => .ok []
      | v => .error (.notIterable v.kindName)
  | none => .ok []

theorem sizeOf_childrenOf {members : Members} {children : List Json}
    (h : childrenOf members = .ok children) : sizeOf children ≤ sizeOf members := by
  have base : sizeOf ([] : List Json) ≤ sizeOf members := by
    cases members <;> simp only [List.nil.sizeOf_spec, List.cons.sizeOf_spec] <;> omega
  unfold childrenOf at h
  split at h
  · next items hl =>
    have := sizeOf_lookup hl
    simp at h; subst h; simp at this; omega
  · split at h
    · simp at h; subst h; exact base
    · split at h
      · simp at h; subst h; exact base
      · simp at h; subst h; exact base
      · simp at h
  · simp at h; subst h; exact base

/-- The objects on the stack and below, each before those below it; what is no object is passed
over. -/
def nodesFrom : List Json → Except Fault (List Members)
  | [] => .ok []
  | .obj members :: stack =>
    match _h : childrenOf members with
    | .ok children => do return members :: (← nodesFrom (children ++ stack))
    | .error f => .error f
  | _ :: stack => nodesFrom stack
termination_by stack => sizeOf stack
decreasing_by
  · have := sizeOf_childrenOf _h
    have := sizeOf_append children stack
    simp only [List.cons.sizeOf_spec, Json.obj.sizeOf_spec]
    omega
  · simp only [List.cons.sizeOf_spec]
    omega

/-- A value that is absent stands for an object without members. -/
def orObject (v : Json) : Json := v.orElse (.obj [])

/-- The nodes of a document, in document order. -/
def documentNodes (raw : Json) : Except Fault (List Members) := do
  nodesFrom [orObject (← (orObject raw).member "document")]

end DesignComponents.Pattern
