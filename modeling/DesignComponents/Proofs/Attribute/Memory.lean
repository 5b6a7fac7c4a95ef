import DesignComponents.Attribute.Memory
import DesignComponents.Proofs.Attribute.Markup
import DesignComponents.Proofs.Fault
import DesignComponents.Proofs.Markup.Chunk
import DesignComponents.Proofs.Number.Order
import DesignComponents.Proofs.OrderedMap
import Mathlib.Control.Monad.Writer

/-! A memory changes nothing about what names become. What it holds is what renaming gives, and
every lookup keeps it so. After any calls it holds no more than its limit lets it, and its counts
are those of the names renamed since it was cleared. In a text that is cut behind end signs no tag
reaches over the cut, so the same names are asked for in the same order: what they become is put
together again, for any way to look names up. -/

set_option autoImplicit false

namespace DesignComponents.Attribute

open Text

namespace Memory

/-- Each name that the memory holds is held with what it becomes. -/
def Valid (t : Memory) : Prop :=
  ∀ name renamed, t.held.get? name = some renamed → renamed = rename name

theorem valid_empty (limit : Number) : Valid { limit } := nofun

theorem enter_valid {t : Memory} (valid : t.Valid) (name : String) :
    Valid { t with held := t.enter name (rename name) } := by
  intro name' renamed found
  simp only [enter] at found
  by_cases same : name' = name
  · rw [same, OrderedMap.get?_insert_self] at found
    rw [same]
    exact (Option.some.inj found).symm
  · rw [OrderedMap.get?_insert_other same] at found
    split at found
    · exact nomatch found
    · exact valid name' renamed found

/-- Whether it is remembered or not, a name becomes the same. -/
theorem nameFor_law (name : String) (t : Memory) (valid : t.Valid) :
    ((nameFor name).run t).1 = rename name ∧ Valid ((nameFor name).run t).2 := by
  simp only [nameFor, StateT.run]
  cases held : t.held.get? name with
  | none => exact ⟨rfl, enter_valid valid name⟩
  | some renamed => exact ⟨valid name renamed held, valid⟩

end Memory

/-! ### Two ways to rename -/

section

variable {m n : Type → Type} [Monad m] [Monad n] (S : Simulation m n) {f : String → m String}
  {g : String → n String}

theorem related_renameTag (names : ∀ name, S.Rel (f name) (g name)) (tag : List Char) :
    S.Rel (renameTagVia f tag) (renameTagVia g tag) :=
  Cut.fillM_related S (fun _ => S.bind (names _) fun _ => S.pure _) (cut written tag)

theorem related_renameMarkup (names : ∀ name, S.Rel (f name) (g name)) (text : List Char) :
    S.Rel (renameMarkupVia f text) (renameMarkupVia g text) :=
  Cut.fillM_related S (related_renameTag S names) (cut tag text)

theorem related_sanitize (names : ∀ name, S.Rel (f name) (g name)) (attributes : OrderedMap Json) :
    (S.failing Fault).Rel (sanitizeVia f attributes) (sanitizeVia g attributes) := by
  refine (S.failing Fault).foldlM (fun acc entry => ?_) _ _
  unfold sanitizeEntry
  split
  split
  · exact (S.failing Fault).pure acc
  split
  · exact (S.failing Fault).pure _
  · exact (S.failing Fault).bind (S.failing_lift (names _)) fun renamed => S.failing_ofExcept _

end

namespace Memory

/-! ### With a memory and without -/

/-- Whatever valid memory it has, a program gives what it gives without one, and the memory is valid
afterwards. -/
def unseen : Simulation (StateM Memory) Id where
  Rel x y := ∀ t : Memory, t.Valid → (x.run t).1 = Id.run y ∧ Valid (x.run t).2
  pure _ := fun _ valid => ⟨rfl, valid⟩
  map f related := fun t valid => ⟨congrArg f (related t valid).1, (related t valid).2⟩
  bind {α β x y f g} first second := by
    intro t valid
    obtain ⟨same, kept⟩ := first t valid
    obtain ⟨same', kept'⟩ := second (x.run t).1 (x.run t).2 kept
    exact ⟨same'.trans (congrArg (fun a => Id.run (g a)) same), kept'⟩

theorem renameMarkup_law (text : List Char) (t : Memory) (valid : t.Valid) :
    ((renameMarkup text).run t).1 = Attribute.renameMarkup text ∧
      Valid ((renameMarkup text).run t).2 :=
  related_renameMarkup unseen nameFor_law text t valid

/-! ### Steps that may fail -/

section

variable {α β : Type}

/-- Whatever valid memory it has, the step ends as it does without one, and the memory is valid
afterwards, whether the step fails or not. -/
def Gives (x : ExceptT Fault (StateM Memory) α) (y : ExceptT Fault Id α) : Prop :=
  ∀ t : Memory, t.Valid → (x.run.run t).1 = Id.run y.run ∧ Valid (x.run.run t).2

theorem gives_pure (a : α) : Gives (pure a) (pure a) := (unseen.failing Fault).pure a

theorem gives_throw (e : Fault) : Gives (throw e : ExceptT Fault (StateM Memory) α) (throw e) :=
  unseen.failing_throw e

theorem Gives.bind {x : ExceptT Fault (StateM Memory) α} {y : ExceptT Fault Id α}
    {f : α → ExceptT Fault (StateM Memory) β} {g : α → ExceptT Fault Id β} (first : Gives x y)
    (second : ∀ a, Gives (f a) (g a)) : Gives (x >>= f) (y >>= g) :=
  (unseen.failing Fault).bind first second

theorem gives_sanitize (attributes : OrderedMap Json) :
    Gives (sanitizeVia nameFor attributes) (sanitizeVia (fun name => pure (rename name)) attributes) :=
  related_sanitize unseen nameFor_law attributes

end

/-! ### Calls in a row -/

/-- What is asked of a memory's owner. -/
inductive Call where
  | rename (name : String)
  | sanitize (attributes : Json)
  | style (v : Json)
  | markup (text : List Char)
  | clear

def Call.Reply : Call → Type
  | .rename .. => String
  | .sanitize .. | .style .. => Except Fault (OrderedMap Json)
  | .markup .. => List Char
  | .clear => Unit

def Call.run : (call : Call) → StateM Memory call.Reply
  | .rename name => nameFor name
  | .sanitize attributes => (sanitizeValue attributes).run
  | .style v => (pure (styleOf v) : StateM Memory _)
  | .markup text => renameMarkup text
  | .clear => (modify Memory.clear : StateM Memory Unit)

/-- Renames without a memory, and notes each name it is asked for. -/
def noted (name : String) : Writer (List String) String := do
  tell [name]
  return rename name

/-- The names that a call renames, in the order in which it needs them, repeated ones too. -/
def Call.names : Call → List String
  | .rename name => (noted name).run.2
  | .sanitize (.obj members) => (sanitizeVia noted (.ofList members)).run.run.2
  | .markup text => (renameMarkupVia noted text).run.2
  | .sanitize _ | .style _ | .clear => []

/-- A new memory after calls, the latest first. -/
def after (limit : Int) : List Call → Memory
  | [] => { limit := .int limit }
  | call :: past => (call.run.run (after limit past)).2

/-- The names renamed since the memory was last cleared. -/
def renamedSince : List Call → List String
  | [] | .clear :: _ => []
  | call :: past => renamedSince past ++ call.names

/-- A memory that was asked for these names since it was empty. -/
structure Reflects (limit : Int) (names : List String) (t : Memory) : Prop where
  valid : t.Valid
  limited : t.limit = .int limit
  bounded : (t.held.size : Int) ≤ max 1 limit
  counted : t.hits + t.misses = names.length

variable {limit : Int} {names : List String} {t : Memory}

theorem reflects_empty (limit : Int) : Reflects limit [] { limit := .int limit } where
  valid := valid_empty _
  limited := rfl
  bounded := by
    change (0 : Int) ≤ max 1 limit
    omega
  counted := rfl

/-- A memory that is full is emptied first, so there is room for one name even where the limit
leaves none. -/
theorem enter_bounded (limited : t.limit = .int limit) {name : String}
    (unknown : t.held.get? name = none) (renamed : String) :
    ((t.enter name renamed).size : Int) ≤ max 1 limit := by
  have one_more : ∀ m : OrderedMap String, m.get? name = none →
      (m.insert name renamed).size = m.size + 1 := by
    intro m new
    have fresh : name ∉ m.keys := by simp [← OrderedMap.contains_eq_true, OrderedMap.contains, new]
    rw [OrderedMap.size, OrderedMap.entries_insert_new fresh, List.length_append]
    rfl
  rw [enter, limited]
  split
  · have none_held : OrderedMap.size (OrderedMap.empty : OrderedMap String) = 0 := rfl
    rw [one_more .empty rfl, none_held]
    omega
  · next room =>
    rw [Number.le_int, Int.not_le] at room
    rw [one_more t.held unknown]
    omega

theorem nameFor_reflects (reflects : Reflects limit names t) (name : String) :
    Reflects limit (names ++ [name]) ((nameFor name).run t).2 := by
  obtain ⟨valid, limited, bounded, counted⟩ := reflects
  have valid' := (nameFor_law name t valid).2
  simp only [nameFor, StateT.run] at valid' ⊢
  cases held : t.held.get? name with
  | none =>
    rw [held] at valid'
    refine ⟨valid', limited, enter_bounded limited held _, ?_⟩
    simp only [List.length_append, List.length_singleton]
    omega
  | some renamed =>
    rw [held] at valid'
    refine ⟨valid', limited, bounded, ?_⟩
    simp only [List.length_append, List.length_singleton]
    omega

/-- A program with a memory gives what it gives where each name is noted, and its memory counts the
names that are noted. -/
def counting (limit : Int) : Simulation (StateM Memory) (Writer (List String)) where
  Rel x y := ∀ (t : Memory) (names : List String), Reflects limit names t →
    (x.run t).1 = y.run.1 ∧ Reflects limit (names ++ y.run.2) (x.run t).2
  pure _ := fun t names reflects => ⟨rfl, (List.append_nil names).symm ▸ reflects⟩
  map f related := fun t names reflects =>
    ⟨congrArg f (related t names reflects).1, (related t names reflects).2⟩
  bind {α β x y f g} first second := by
    intro t names reflects
    obtain ⟨same, kept⟩ := first t names reflects
    obtain ⟨same', kept'⟩ := second (x.run t).1 (x.run t).2 _ kept
    have names' := congrArg (fun a => (g a).run.2) same
    rw [names', List.append_assoc] at kept'
    exact ⟨same'.trans (congrArg (fun a => (g a).run.1) same), kept'⟩

theorem counting_noted (limit : Int) (name : String) :
    (counting limit).Rel (nameFor name) (noted name) :=
  fun t _ reflects => ⟨(nameFor_law name t reflects.valid).1, nameFor_reflects reflects name⟩

/-- One call: a memory that is in step with the names renamed since it was cleared stays so. -/
theorem run_reflects {past : List Call} (reflects : Reflects limit (renamedSince past) t)
    (call : Call) : Reflects limit (renamedSince (call :: past)) (call.run.run t).2 := by
  have names := counting_noted limit
  have none_renamed : Reflects limit (renamedSince past ++ []) t := by rwa [List.append_nil]
  cases call with
  | rename name => exact nameFor_reflects reflects name
  | sanitize v =>
    cases v with
    | obj members => exact (related_sanitize _ names (.ofList members) t _ reflects).2
    | null | bool | num | str | arr => exact none_renamed
  | style v => exact none_renamed
  | markup text => exact (related_renameMarkup _ names text t _ reflects).2
  | clear =>
    have empty : t.clear = { limit := .int limit } := congrArg (Memory.mk · .empty 0 0) reflects.limited
    have reset := reflects_empty limit
    rw [← empty] at reset
    exact reset

theorem after_reflects (limit : Int) (past : List Call) :
    Reflects limit (renamedSince past) (after limit past) := by
  induction past with
  | nil => exact reflects_empty limit
  | cons call past ih => exact run_reflects ih call

/-- What a call replies does not depend on what a valid memory holds. -/
theorem reply_unseen (call : Call) {t t' : Memory} (valid : t.Valid) (valid' : t'.Valid) :
    (call.run.run t).1 = (call.run.run t').1 := by
  have same : ∀ {α : Type} {x : StateM Memory α} {y : Id α}, unseen.Rel x y →
      (x.run t).1 = (x.run t').1 := fun related => (related t valid).1.trans (related t' valid').1.symm
  cases call with
  | rename name => exact same (nameFor_law name)
  | sanitize v =>
    cases v with
    | obj members => exact same (gives_sanitize (.ofList members))
    | null | bool | num | str | arr => rfl
  | style v => rfl
  | markup text => exact same (renameMarkup_law text)
  | clear => rfl

/-- What can be told of a memory after calls, which are given the latest first. -/
structure Unnoticed (limit : Int) (past : List Call) : Prop where
  /-- Any further call replies what it replies where the memory is new. -/
  replies : ∀ call : Call,
    (call.run.run (after limit past)).1 = (call.run.run { limit := .int limit }).1
  bounded : ((after limit past).held.size : Int) ≤ max 1 limit
  held : ∀ e ∈ (after limit past).held.entries, e.2 = rename e.1
  counted : (after limit past).hits + (after limit past).misses = (renamedSince past).length

/-- A memory is not noticed but in its counts, whatever its limit and whatever is asked of it. -/
theorem after_unnoticed (limit : Int) (past : List Call) : Unnoticed limit past := by
  have reflects := after_reflects limit past
  refine ⟨fun call => reply_unseen call reflects.valid (valid_empty _), reflects.bounded, fun e mem => ?_,
    reflects.counted⟩
  exact reflects.valid e.1 e.2 (OrderedMap.get?_of_mem mem)

example : renamedSince [.markup "<a b=\"c=''\" d=''>e='f'</a>".toList, .clear, .rename "g"] =
    ["b", "d"] := by
  decide +kernel

end Memory

open Reader Markup

/-! ### Texts that are cut behind end signs -/

/-- The text ends with the sign that ends a tag. -/
def EndsTag (text : List Char) : Prop := text.getLast? = some '>'

instance (text : List Char) : Decidable (EndsTag text) := inferInstanceAs (Decidable (_ = _))

variable {front back text : List Char}

/-- No tag reaches over an end sign. -/
theorem tag_splits (ends : EndsTag front) (before : Option Char) : Splits tag before front back := by
  refine splits_of_uncrossed tag_exact.regular (uncrossed_of_last tag_exact.takes ?_ ends)
  intro p q v taken reads reached
  obtain ⟨taken', -, ⟨first, inner, letter, all, rfl, -⟩, reached'⟩ := (tag_exact _ _ _).1 reads
  rw [reached.unique reached', List.dropLast_concat]
  simp only [List.mem_cons, not_or]
  refine ⟨by decide, ?_, fun inside => absurd (all _ inside) (by decide)⟩
  rintro rfl
  exact absurd letter (by decide)

theorem cut_tag_append (ends : EndsTag front) : cut tag (front ++ back) = cut tag front ++ cut tag back := by
  simp only [cut_eq_cutAt, Place.start]
  rw [tag_splits ends, cutAt_blind tag_exact.takes passive_tag (front.getLast?.or none) none]

section

variable {m : Type → Type} [Monad m] [LawfulMonad m] (rename : String → m String)

/-- A step of the cutting: behind an end sign renaming goes on as it would begin. -/
theorem renameMarkupVia_append (ends : EndsTag front) : renameMarkupVia rename (front ++ back) = do
    let left ← renameMarkupVia rename front
    let right ← renameMarkupVia rename back
    return left ++ right := by
  simp only [renameMarkupVia]
  rw [cut_tag_append ends, Cut.fillM_append]

theorem renameMarkupVia_nil : renameMarkupVia rename [] = pure [] := by
  simp [renameMarkupVia, cut, cutFrom, Place.start, Cut.fillM]

/-- A text is renamed chunk by chunk, where each chunk but the last ends with an end sign. -/
theorem renameMarkupVia_flatten {chunks : List (List Char)}
    (ends : ∀ chunk ∈ chunks.dropLast, EndsTag chunk) :
    renameMarkupVia rename chunks.flatten = List.flatten <$> chunks.mapM (renameMarkupVia rename) := by
  induction chunks with
  | nil => simp [renameMarkupVia_nil]
  | cons chunk rest ih =>
    cases rest with
    | nil => simp
    | cons next rest =>
      rw [List.dropLast_cons_cons, List.forall_mem_cons] at ends
      rw [List.flatten_cons, renameMarkupVia_append rename ends.1, ih ends.2, List.mapM_cons]
      simp

end

theorem renameMarkup_append (ends : EndsTag front) :
    renameMarkup (front ++ back) = renameMarkup front ++ renameMarkup back :=
  renameMarkupVia_append (m := Id) (fun name => pure (rename name)) ends

theorem renameMarkup_flatten {chunks : List (List Char)}
    (ends : ∀ chunk ∈ chunks.dropLast, EndsTag chunk) :
    (chunks.map renameMarkup).flatten = renameMarkup chunks.flatten := by
  have parts := renameMarkupVia_flatten (m := Id) (fun name => pure (rename name)) ends
  have each : renameMarkupVia (fun name => (pure (rename name) : Id String)) =
    fun text => pure (renameMarkup text) := rfl
  rw [each, List.mapM_pure] at parts
  exact parts.symm

/-- A cut behind an end sign goes unnoticed, be it one or those of all chunks of some size: what the
parts become is what the whole becomes, and a memory is afterwards the same. -/
theorem renameMarkup_seamless :
    (∀ front back, EndsTag front →
      renameMarkup (front ++ back) = renameMarkup front ++ renameMarkup back ∧
      Memory.renameMarkup (front ++ back) = do
        return (← Memory.renameMarkup front) ++ (← Memory.renameMarkup back)) ∧
    ∀ size text chunks, chunksOf size text = .ok chunks →
      (∀ chunk ∈ chunks.dropLast, EndsTag chunk) →
      (chunks.map renameMarkup).flatten = renameMarkup text ∧
      List.flatten <$> chunks.mapM Memory.renameMarkup = Memory.renameMarkup text := by
  constructor
  · intro front back ends
    exact ⟨renameMarkup_append ends, renameMarkupVia_append Memory.nameFor ends⟩
  · intro size text chunks cuts ends
    obtain rfl := chunksOf_flatten cuts
    exact ⟨renameMarkup_flatten ends, (renameMarkupVia_flatten Memory.nameFor ends).symm⟩

/-- Markup with end signs outside of tags and in a value. -/
def hinted : List Char := "<g a-b='1'>x > y</g><path stroke-width=\"2\" d='>'/>".toList

theorem renameMarkup_seamless_hinted :
    EndsTag "<a b-c='>".toList ∧
      renameMarkup ("<a b-c='>".toList ++ "' d-e=''>".toList) =
        renameMarkup "<a b-c='>".toList ++ renameMarkup "' d-e=''>".toList ∧
      ∃ chunks, chunksOf (.int 27) hinted = .ok chunks ∧ chunks.length = 3 ∧
        (∀ chunk ∈ chunks.dropLast, EndsTag chunk) ∧
        (chunks.map renameMarkup).flatten = renameMarkup hinted ∧
        List.flatten <$> chunks.mapM Memory.renameMarkup = Memory.renameMarkup hinted ∧
        renameMarkup hinted = "<g aB='1'>x > y</g><path strokeWidth=\"2\" d='>'/>".toList := by
  have one := renameMarkup_seamless.1 "<a b-c='>".toList "' d-e=''>".toList (by decide)
  have ends : ∀ chunk ∈ chunks 27 hinted |>.dropLast, EndsTag chunk := by decide +kernel
  have all := renameMarkup_seamless.2 (.int 27) hinted (chunks 27 hinted) rfl ends
  exact ⟨by decide, one.1, _, rfl, by decide +kernel, ends, all.1, all.2, by decide +kernel⟩

end DesignComponents.Attribute
