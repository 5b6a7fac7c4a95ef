import DesignComponents.Json.Basic
import DesignComponents.OrderedMap

/-! Looking into values whose shape nobody vouches for: what is not there is null, and what is of
another kind is empty. And objects written as arrays of their members, for readers who do not keep the
order of members. -/

set_option autoImplicit false

namespace DesignComponents.Json

def toMembers : Json → List (String × Json)
  | .obj members => members
  | _ => []

def toItems : Json → List Json
  | .arr items => items
  | _ => []

def toStr : Json → String
  | .str s => s
  | _ => ""

def toStrs (v : Json) : List String := v.toItems.map toStr

def toNumber (v : Json) : Number := v.number?.getD 0

def toWhole (v : Json) : Int :=
  match v.toNumber with
  | .int n => n
  | .real x => x.truncate?.getD 0

def field? (v : Json) (key : String) : Option Json := v.toMembers.lookup key

def fieldD (v : Json) (key : String) (default : Json) : Json := (v.field? key).getD default

def field (v : Json) (key : String) : Json := v.fieldD key .null

/-- The names of an object's members. -/
def names (v : Json) : List String := v.toMembers.map Prod.fst

theorem mem_of_lookup {key : String} {v : Json} {members : List (String × Json)}
    (h : members.lookup key = some v) : (key, v) ∈ members := by
  induction members with
  | nil => simp at h
  | cons m rest ih =>
    rw [List.lookup_cons] at h
    split at h
    · next hk => grind
    · next => exact List.mem_cons_of_mem _ (ih h)

/-- What stands in a field is smaller than the object. -/
theorem sizeOf_field_items {v c : Json} {key : String} (h : c ∈ (v.field key).toItems) :
    sizeOf c < sizeOf v := by
  unfold field fieldD field? toMembers at h
  split at h
  · next members =>
    cases hl : members.lookup key with
    | none => simp [hl, toItems] at h
    | some w =>
      rw [hl, Option.getD_some] at h
      unfold toItems at h
      split at h
      · next items =>
        have hc := List.sizeOf_lt_of_mem h
        have hm := List.sizeOf_lt_of_mem (mem_of_lookup hl)
        simp only [Json.arr.sizeOf_spec, Json.obj.sizeOf_spec, Prod.mk.sizeOf_spec] at *
        omega
      · simp at h
  · simp [toItems] at h

/-! ### Members in order -/

/-- Names with values, in order. -/
def pairs (entries : List (String × Json)) : Json :=
  .arr (entries.map fun (k, v) => .arr [.str k, v])

mutual

/-- The value with every object, at every depth, as its members in order. -/
def ordered : Json → Json
  | .obj members => .obj [("map", .arr (orderedMembers members))]
  | .arr items => .arr (orderedItems items)
  | v => v

def orderedItems : List Json → List Json
  | [] => []
  | v :: rest => ordered v :: orderedItems rest

def orderedMembers : List (String × Json) → List Json
  | [] => []
  | (key, v) :: rest => .arr [.str key, ordered v] :: orderedMembers rest

end

mutual

/-- The value that is written with its members in order. -/
def ofOrdered : Json → Json
  | .obj [("map", .arr entries)] => .obj (OrderedMap.ofList (ofOrderedPairs entries)).entries
  | .arr items => .arr (ofOrderedItems items)
  | v => v

def ofOrderedItems : List Json → List Json
  | [] => []
  | v :: rest => ofOrdered v :: ofOrderedItems rest

def ofOrderedPairs : List Json → List (String × Json)
  | .arr [.str key, v] :: rest => (key, ofOrdered v) :: ofOrderedPairs rest
  | _ :: rest => ofOrderedPairs rest
  | [] => []

end

/-- The map that is written as names with values, in order. -/
def toOrderedMap (v : Json) : OrderedMap Json :=
  match v with
  | .arr entries => .ofList (ofOrderedPairs entries)
  | _ => .empty

def orderedMap (m : OrderedMap Json) : Json := pairs (m.entries.map fun (k, v) => (k, ordered v))

end DesignComponents.Json
