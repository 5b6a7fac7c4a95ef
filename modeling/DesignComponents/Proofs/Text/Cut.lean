import DesignComponents.Proofs.Simulation
import DesignComponents.Proofs.Text.Reader
import DesignComponents.Text.Cut

/-! Laws of cutting a text at the pieces that a reader reads. A cut is described by its steps, with
no count of them; and where no piece reaches over a place, the cuts of the two sides of that place
put together are the cut of the whole. -/

set_option autoImplicit false

namespace DesignComponents.Text

variable {α β : Type}

namespace Cut

/-- Text in which nothing is read. -/
def passing (text : List Char) : Cut α := ⟨[], text⟩

/-- One piece, with nothing around it. -/
def piece (v : α) : Cut α := ⟨[⟨[], v⟩], []⟩

/-- The cut of two texts in a row: what is left of the first is passed over before the first
piece of the second. -/
def join (c d : Cut α) : Cut α :=
  match d.hits with
  | [] => ⟨c.hits, c.tail ++ d.tail⟩
  | hit :: rest => ⟨c.hits ++ ⟨c.tail ++ hit.passed, hit.value⟩ :: rest, d.tail⟩

instance : Append (Cut α) := ⟨join⟩

theorem append_def (c d : Cut α) : c ++ d = c.join d := rfl

theorem append_assoc (c d e : Cut α) : c ++ d ++ e = c ++ (d ++ e) := by
  obtain ⟨hits, tail⟩ := c
  obtain ⟨hits', tail'⟩ := d
  obtain ⟨hits'', tail''⟩ := e
  cases hits' <;> cases hits'' <;> simp [append_def, join]

theorem nil_append (c : Cut α) : passing [] ++ c = c := by
  obtain ⟨hits, tail⟩ := c
  cases hits <;> simp [append_def, join, passing]

theorem append_nil (c : Cut α) : c ++ passing [] = c := by
  simp [append_def, join, passing]

theorem passing_append (left right : List Char) :
    (passing (left ++ right) : Cut α) = passing left ++ passing right := by
  simp [append_def, join, passing]

theorem values_append (c d : Cut α) : (c ++ d).values = c.values ++ d.values := by
  obtain ⟨hits, tail⟩ := c
  obtain ⟨hits', tail'⟩ := d
  cases hits' <;> simp [append_def, join, values]

theorem fill_append (c d : Cut (List Char)) : (c ++ d).fill = c.fill ++ d.fill := by
  obtain ⟨hits, tail⟩ := c
  obtain ⟨hits', tail'⟩ := d
  cases hits' <;> simp [append_def, join, fill]

/-- The cut with what was read changed by `f`. -/
def map (f : α → β) (c : Cut α) : Cut β := ⟨c.hits.map fun h => ⟨h.passed, f h.value⟩, c.tail⟩

theorem map_append (f : α → β) (c d : Cut α) : (c ++ d).map f = c.map f ++ d.map f := by
  obtain ⟨hits, tail⟩ := c
  obtain ⟨hits', tail'⟩ := d
  cases hits' <;> simp [append_def, join, map]

@[simp] theorem map_passing (f : α → β) (text : List Char) :
    (passing text).map f = passing text := rfl

@[simp] theorem map_piece (f : α → β) (v : α) : (piece v).map f = piece (f v) := rfl

@[simp] theorem fill_passing (text : List Char) : (passing text).fill = text := by
  simp [passing, fill]

@[simp] theorem fill_piece (text : List Char) : (piece text).fill = text := by
  simp [piece, fill]

@[simp] theorem values_passing (text : List Char) : (passing text : Cut α).values = [] := rfl

@[simp] theorem values_piece (v : α) : (piece v).values = [v] := rfl

/-! ### Filling with what is looked up -/

section

variable {m n : Type → Type} [Monad m] [Monad n] {g : α → List Char}

theorem fill_map (g : α → List Char) (c : Cut α) :
    (c.map g).fill = (c.hits.map fun h => h.passed ++ g h.value).flatten ++ c.tail := by
  rw [map, fill, List.flatMap_def, List.map_map]
  rfl

/-- Where the lookups are related, so are the fillings. -/
theorem fillM_related (S : Simulation m n) {f : α → m (List Char)} {f' : α → n (List Char)}
    (each : ∀ v, S.Rel (f v) (f' v)) (c : Cut α) : S.Rel (c.fillM f) (c.fillM f') := by
  refine S.bind (S.mapM (fun h => ?_) c.hits) fun parts => S.pure (parts.flatten ++ c.tail)
  exact S.bind (each h.value) fun found => S.pure (h.passed ++ found)

/-- Two cuts in a row are filled one after the other. -/
theorem fillM_append [LawfulMonad m] (f : α → m (List Char)) (c d : Cut α) :
    (c ++ d).fillM f = do
      let left ← c.fillM f
      let right ← d.fillM f
      return left ++ right := by
  obtain ⟨hits, tail⟩ := c
  obtain ⟨hits', tail'⟩ := d
  cases hits' with
  | nil => simp [append_def, join, fillM]
  | cons hit rest => simp [append_def, join, fillM, List.mapM_append]

theorem fillM_id (c : Cut α) : Id.run (c.fillM fun v => pure (g v)) = (c.map g).fill := by
  simp [fillM, fill_map, List.mapM_pure]

end

end Cut

/-- The character before a place behind `c :: passed`. -/
theorem getLast?_cons_or (c : Char) (passed : List Char) (before : Option Char) :
    (c :: passed).getLast?.or before = passed.getLast?.or (some c) := by
  rw [List.getLast?_cons]
  cases passed.getLast? <;> rfl

/-- The cut of the text from a place on. -/
def cutAt (r : Reader α) (p : Place) : Cut α := cutFrom r p.rest.length p [] []

theorem cut_eq_cutAt (r : Reader α) (text : List Char) : cut r text = cutAt r (Place.start text) :=
  rfl

section

variable {r : Reader α}

/-- Any count of steps that is no less than the text's length gives the same cut, behind what was
cut before. -/
theorem cutFrom_eq (takes : Reader.Takes r) {fuel : Nat} {p : Place}
    (enough : p.rest.length ≤ fuel) (passed : List Char) (hits : List (Hit α)) :
    cutFrom r fuel p passed hits = ⟨hits.reverse, passed.reverse⟩ ++ cutAt r p := by
  induction size : p.rest.length using Nat.strongRecOn generalizing fuel p passed hits with
  | ind size ih =>
    obtain ⟨before, text⟩ := p
    cases text with
    | nil => cases fuel <;> simp [cutFrom, cutAt, Cut.append_def, Cut.join]
    | cons c rest =>
      obtain ⟨fuel, rfl⟩ : ∃ n, fuel = n + 1 := by
        cases fuel with
        | zero => simp at enough
        | succ n => exact ⟨n, rfl⟩
      simp only [List.length_cons, Nat.add_le_add_iff_right] at enough size
      simp only [cutAt, List.length_cons, cutFrom]
      -- Both cuts take this step, and go on with less text and enough fuel.
      cases reads : r ⟨before, c :: rest⟩ with
      | none =>
        have skip := @ih rest.length (by omega) fuel ⟨some c, rest⟩ enough (c :: passed) hits rfl
        have same := @ih rest.length (by omega) _ ⟨some c, rest⟩ (Nat.le_refl _) [c] [] rfl
        simp only [skip, same]
        rw [← Cut.append_assoc]
        simp [Cut.append_def, Cut.join]
      | some read =>
        obtain ⟨v, next⟩ := read
        have shorter := takes.shortens reads
        simp only [List.length_cons] at shorter
        have skip := @ih next.rest.length (by omega) fuel next (by omega) []
          (⟨passed.reverse, v⟩ :: hits) rfl
        have same := @ih next.rest.length (by omega) rest.length next (by omega) [] [⟨[], v⟩] rfl
        simp only [List.reverse_nil] at skip same ⊢
        simp only [skip, same]
        rw [← Cut.append_assoc]
        simp [Cut.append_def, Cut.join]

theorem cutAt_nil (before : Option Char) : cutAt r ⟨before, []⟩ = Cut.passing [] := rfl

theorem cutAt_none (takes : Reader.Takes r) {before : Option Char} {c : Char}
    {rest : List Char} (reads : r ⟨before, c :: rest⟩ = none) :
    cutAt r ⟨before, c :: rest⟩ = Cut.passing [c] ++ cutAt r ⟨some c, rest⟩ := by
  simp only [cutAt, List.length_cons, cutFrom, reads]
  exact cutFrom_eq takes (p := ⟨some c, rest⟩) (Nat.le_refl _) [c] []

theorem cutAt_some (takes : Reader.Takes r) {p next : Place} {v : α}
    (reads : r p = some (v, next)) : cutAt r p = Cut.piece v ++ cutAt r next := by
  have shorter := takes.shortens reads
  obtain ⟨before, text⟩ := p
  cases text with
  | nil => simp at shorter
  | cons c rest =>
    simp only [List.length_cons] at shorter
    simp only [cutAt, List.length_cons, cutFrom, reads]
    exact cutFrom_eq takes (by omega) [] [⟨[], v⟩]

/-- Induction along a cut: at the end, past a character where nothing is read, past a piece. -/
theorem scan_induction (takes : Reader.Takes r) {motive : Place → Prop}
    (nil : ∀ before, motive ⟨before, []⟩)
    (pass : ∀ before c rest, r ⟨before, c :: rest⟩ = none → motive ⟨some c, rest⟩ →
      motive ⟨before, c :: rest⟩)
    (read : ∀ p v next, r p = some (v, next) → motive next → motive p) (p : Place) : motive p := by
  induction size : p.rest.length using Nat.strongRecOn generalizing p with
  | ind size ih =>
    obtain ⟨before, text⟩ := p
    cases text with
    | nil => exact nil before
    | cons c rest =>
      cases reads : r ⟨before, c :: rest⟩ with
      | none =>
        simp only [List.length_cons] at size
        exact pass before c rest reads (ih rest.length (by omega) ⟨some c, rest⟩ rfl)
      | some found =>
        have shorter := takes.shortens reads
        exact read _ found.1 found.2 reads (ih _ (by omega) found.2 rfl)

theorem cutAt_map (takes : Reader.Takes r) (f : α → β) (p : Place) :
    cutAt (f <$> r) p = (cutAt r p).map f := by
  induction p using scan_induction takes with
  | nil before => rfl
  | pass before c rest reads ih =>
    have mapped : (f <$> r) ⟨before, c :: rest⟩ = none := by
      simp [Functor.map, StateT.map, reads]
    rw [cutAt_none (takes.map f) mapped, cutAt_none takes reads, Cut.map_append, Cut.map_passing, ih]
  | read p v next reads ih =>
    have mapped : (f <$> r) p = some (f v, next) := Reader.map_eq_some.2 ⟨v, reads, rfl⟩
    rw [cutAt_some (takes.map f) mapped, cutAt_some takes reads, Cut.map_append, Cut.map_piece, ih]

theorem cutAt_blind (takes : Reader.Takes r) (passive : Reader.Passive r)
    (before after : Option Char) (text : List Char) :
    cutAt r ⟨before, text⟩ = cutAt r ⟨after, text⟩ := by
  cases text with
  | nil => rfl
  | cons c rest =>
    have same := passive.blind takes before after (c :: rest)
    cases reads : r ⟨before, c :: rest⟩ with
    | none => rw [cutAt_none takes reads, cutAt_none takes (same ▸ reads)]
    | some x =>
      have reads' : r ⟨after, c :: rest⟩ = some (x.1, x.2) := by rw [← same, reads]
      have reads : r ⟨before, c :: rest⟩ = some (x.1, x.2) := reads
      rw [cutAt_some takes reads, cutAt_some takes reads']

/-! ### Cutting two texts in a row -/

/-- The cut of `front ++ back` is the cut of `front` and, behind it, that of `back`. -/
def Splits (r : Reader α) (before : Option Char) (front back : List Char) : Prop :=
  cutAt r ⟨before, front ++ back⟩ =
    cutAt r ⟨before, front⟩ ++ cutAt r ⟨front.getLast?.or before, back⟩

/-- No piece that starts in `front` reaches into `back`. -/
def Uncrossed (r : Reader α) (before : Option Char) (front back : List Char) : Prop :=
  ∀ passed ahead v q, front = passed ++ ahead → ahead ≠ [] →
    r ⟨passed.getLast?.or before, ahead ++ back⟩ = some (v, q) → back.length ≤ q.rest.length

theorem Uncrossed.drop {before : Option Char} {passed front back : List Char}
    (uncrossed : Uncrossed r before (passed ++ front) back) :
    Uncrossed r (passed.getLast?.or before) front back := by
  intro passed' ahead v q same some_ahead reads
  refine uncrossed (passed ++ passed') ahead v q (by simp [same]) some_ahead ?_
  rwa [List.getLast?_append, Option.or_assoc]

/-- A piece that starts with `front` ends inside of it. -/
theorem Uncrossed.first {before : Option Char} {front back : List Char} {v : α} {next : Place}
    (uncrossed : Uncrossed r before front back) (takes : Reader.Takes r) (some_front : front ≠ [])
    (reads : r ⟨before, front ++ back⟩ = some (v, next)) : ∃ taken middle, taken ≠ [] ∧
      front = taken ++ middle ∧ next = ⟨taken.getLast?.or before, middle ++ back⟩ := by
  have within := uncrossed [] front v next rfl some_front reads
  obtain ⟨taken, some_taken, reached⟩ := takes reads
  obtain ⟨middle, left⟩ : ∃ middle, next.rest = middle ++ back := by
    obtain ⟨middle, -, same⟩ | ⟨middle, -, same⟩ := List.append_eq_append_iff.1 reached.rest
    · have none_left : middle = [] := by
        have lengths := congrArg List.length same
        simp only [List.length_append] at lengths
        exact List.length_eq_zero_iff.1 (by omega)
      exact ⟨[], by simpa [none_left] using same.symm⟩
    · exact ⟨middle, same⟩
  refine ⟨taken, middle, some_taken, ?_, ?_⟩
  · have whole := reached.rest
    rw [left, ← List.append_assoc] at whole
    exact List.append_cancel_right whole
  · rw [← left, ← reached.before]

theorem splits_of_uncrossed (regular : Reader.Regular r) {before : Option Char}
    {front back : List Char} (uncrossed : Uncrossed r before front back) :
    Splits r before front back := by
  unfold Splits
  -- By induction on the length of the front, which each character passed and each piece make shorter.
  induction length : front.length using Nat.strongRecOn generalizing before front with
  | ind size ih =>
    cases front with
    | nil => simp [cutAt_nil, Cut.nil_append]
    | cons c rest =>
      cases reads : r ⟨before, c :: rest ++ back⟩ with
      | none =>
        have alone : r ⟨before, c :: rest⟩ = none := regular.grows reads
        have dropped := @Uncrossed.drop _ _ before [c] rest back uncrossed
        have later := ih rest.length (by simp [← length]) dropped rfl
        rw [List.cons_append] at reads ⊢
        rw [cutAt_none regular.takes reads, cutAt_none regular.takes alone]
        simp only [List.getLast?_singleton, Option.some_or] at later
        rw [later, Cut.append_assoc, getLast?_cons_or]
      | some read =>
        obtain ⟨v, next⟩ := read
        obtain ⟨taken, middle, some_taken, whole, rfl⟩ :=
          uncrossed.first regular.takes (List.cons_ne_nil c rest) reads
        have alone : r ⟨before, c :: rest⟩ = some (v, ⟨taken.getLast?.or before, middle⟩) :=
          regular.stays reads
        rw [whole] at uncrossed length
        have shorter : middle.length < size := by
          have := List.length_pos_iff.2 some_taken
          rw [← length, List.length_append]
          omega
        have later := ih middle.length shorter uncrossed.drop rfl
        rw [cutAt_some regular.takes reads, cutAt_some regular.takes alone, later, Cut.append_assoc,
          whole, List.getLast?_append, Option.or_assoc]

/-- A character that no piece holds but at its end keeps pieces apart behind it. -/
theorem uncrossed_of_last {before : Option Char} {front back : List Char} {stop : Char}
    (takes : Reader.Takes r)
    (ends : ∀ {p q v taken}, r p = some (v, q) → p.After taken q → stop ∉ taken.dropLast)
    (last : front.getLast? = some stop) : Uncrossed r before front back := by
  intro passed ahead v q same some_ahead reads
  by_contra crossing
  obtain ⟨taken, -, reached⟩ := takes reads
  apply ends reads reached
  have sizes := reached.length
  have ahead_last : stop ∈ ahead.getLast? := by
    rw [same, List.getLast?_append] at last
    cases final : ahead.getLast? with
    | none => exact absurd (List.getLast?_eq_none_iff.1 final) some_ahead
    | some c => simpa [final] using last
  obtain ⟨more, longer⟩ : ∃ more, taken = ahead ++ more := by
    obtain ⟨more, h, -⟩ | ⟨more, h, left⟩ := List.append_eq_append_iff.1 reached.rest
    · exact ⟨more, h⟩
    · have := congrArg List.length left
      simp only [List.length_append] at this
      omega
  have some_more : more ≠ [] := by
    rintro rfl
    have := congrArg List.length longer
    simp only [List.length_append, List.length_nil] at this sizes
    omega
  rw [longer, List.dropLast_append_of_ne_nil some_more]
  exact List.mem_append_left _ (List.mem_of_mem_getLast? ahead_last)

/-- A character that no piece holds but at its start keeps pieces apart before it. -/
theorem uncrossed_of_head {before : Option Char} {front back : List Char} {stop : Char}
    (takes : Reader.Takes r)
    (starts : ∀ {p q v taken}, r p = some (v, q) → p.After taken q → stop ∉ taken.tail)
    (head : back.head? = some stop) : Uncrossed r before front back := by
  intro passed ahead v q same some_ahead reads
  by_contra crossing
  obtain ⟨taken, -, reached⟩ := takes reads
  apply starts reads reached
  have sizes := reached.length
  simp only [List.length_append] at sizes
  obtain ⟨more, longer, rest_eq⟩ : ∃ more, taken = ahead ++ more ∧ back = more ++ q.rest := by
    obtain ⟨more, h, h'⟩ | ⟨more, h, left⟩ := List.append_eq_append_iff.1 reached.rest
    · exact ⟨more, h, h'⟩
    · have := congrArg List.length left
      simp only [List.length_append] at this
      omega
  obtain ⟨c, cs, rfl⟩ := List.exists_cons_of_ne_nil some_ahead
  have in_more : stop ∈ more := by
    cases more with
    | nil => simp [rest_eq] at crossing
    | cons m ms =>
      rw [rest_eq] at head
      simp only [List.cons_append, List.head?_cons, Option.some.injEq] at head
      simp [head]
  rw [longer, List.cons_append, List.tail_cons]
  exact List.mem_append_right _ in_more

/-- The reader fails at each place of the front. -/
def Passes (r : Reader α) (before : Option Char) (front back : List Char) : Prop :=
  ∀ passed ahead, front = passed ++ ahead → ahead ≠ [] →
    r ⟨passed.getLast?.or before, ahead ++ back⟩ = none

theorem passes_append {before : Option Char} {left right back : List Char}
    (first : Passes r before left (right ++ back))
    (second : Passes r (left.getLast?.or before) right back) :
    Passes r before (left ++ right) back := by
  intro passed ahead same some_ahead
  obtain ⟨middle, rfl, rfl⟩ | ⟨middle, rfl, rfl⟩ := List.append_eq_append_iff.1 same
  · rw [List.getLast?_append, Option.or_assoc]
    exact second middle ahead rfl some_ahead
  · cases middle with
    | nil =>
      rw [List.append_nil] at second
      exact second [] right rfl some_ahead
    | cons c more =>
      rw [List.append_assoc]
      exact first passed (c :: more) rfl (by simp)

theorem cutAt_pass (takes : Reader.Takes r) {before : Option Char} {front back : List Char}
    (fails : Passes r before front back) :
    cutAt r ⟨before, front ++ back⟩ =
      Cut.passing front ++ cutAt r ⟨front.getLast?.or before, back⟩ := by
  induction front generalizing before with
  | nil => exact (Cut.nil_append _).symm
  | cons c rest ih =>
    -- What fails all over the text fails all over its rest.
    have later : ∀ passed ahead, rest = passed ++ ahead → ahead ≠ [] →
        r ⟨passed.getLast?.or (some c), ahead ++ back⟩ = none := by
      intro passed ahead same some_ahead
      rw [← getLast?_cons_or c passed before]
      exact fails (c :: passed) ahead (by simp [same]) some_ahead
    rw [List.cons_append, cutAt_none takes (by simpa using fails [] (c :: rest) rfl (by simp)),
      ih later, ← Cut.append_assoc, ← Cut.passing_append, getLast?_cons_or]
    rfl

/-! ### Texts in which nothing is read -/

theorem foundAfter_eq_false (takes : Reader.Takes r) {before : Option Char} {text : List Char} :
    foundAfter r before text = false ↔ ∀ passed ahead, text = passed ++ ahead →
      r ⟨passed.getLast?.or before, ahead⟩ = none := by
  have none_left : ∀ before, r ⟨before, []⟩ = none := by
    intro before
    refine Reader.unread_iff.2 fun v q reads => ?_
    have := takes.shortens reads
    simp at this
  -- The places in a text are its start and those in its rest.
  induction text generalizing before with
  | nil =>
    refine ⟨fun _ passed ahead same => ?_, fun _ => rfl⟩
    obtain ⟨-, rfl⟩ := List.append_eq_nil_iff.1 same.symm
    exact none_left _
  | cons c rest ih =>
    rw [foundAfter, Bool.or_eq_false_iff, Option.isSome_eq_false_iff, Option.isNone_iff_eq_none]
    constructor
    · rintro ⟨here, later⟩ passed ahead same
      cases passed with
      | nil =>
        obtain rfl : ahead = c :: rest := same.symm
        exact here
      | cons d passed =>
        simp only [List.cons_append, List.cons.injEq] at same
        obtain ⟨rfl, same⟩ := same
        rw [getLast?_cons_or]
        exact ih.1 later passed ahead same
    · intro all
      refine ⟨all [] (c :: rest) rfl, ih.2 fun passed ahead same => ?_⟩
      rw [← getLast?_cons_or c passed before]
      exact all (c :: passed) ahead (by simp [same])

theorem foundAfter_append (takes : Reader.Takes r) {before : Option Char} {front back : List Char}
    (passes : Passes r before front back) (later : foundAfter r (front.getLast?.or before) back = false) :
    foundAfter r before (front ++ back) = false := by
  rw [foundAfter_eq_false takes] at later ⊢
  intro passed ahead same
  obtain ⟨middle, rfl, rfl⟩ | ⟨middle, rfl, rfl⟩ := List.append_eq_append_iff.1 same
  · rw [List.getLast?_append, Option.or_assoc]
    exact later middle ahead rfl
  · cases middle with
    | nil =>
      rw [List.append_nil] at later
      exact later [] back rfl
    | cons c more => exact passes passed (c :: more) rfl (by simp)

/-- Where nothing is read the cut passes over all of the text. -/
theorem cutAt_of_notFound (takes : Reader.Takes r) {before : Option Char} {text : List Char}
    (notFound : foundAfter r before text = false) :
    cutAt r ⟨before, text⟩ = Cut.passing text := by
  have fails := (foundAfter_eq_false takes).1 notFound
  have passes := @cutAt_pass _ r takes before text [] fun passed ahead same _ => by
    rw [List.append_nil]
    exact fails passed ahead same
  rwa [List.append_nil, cutAt_nil, Cut.append_nil] at passes

/-! ### The first piece -/

theorem first?_eq_none {text : List Char} : first? r text = none ↔
    ∀ passed ahead, text = passed ++ ahead → r ⟨passed.getLast?, ahead⟩ = none := by
  have further : ∀ (text done : List Char) (before : Option Char),
      firstAfter r done before text = none ↔
        ∀ passed ahead, text = passed ++ ahead → r ⟨passed.getLast?.or before, ahead⟩ = none := by
    -- On the text, for any character before it.
    intro text
    induction text with
    | nil =>
      intro done before
      rw [firstAfter, Option.map_eq_none_iff]
      constructor
      · intro fails passed ahead same
        obtain ⟨rfl, rfl⟩ := List.append_eq_nil_iff.1 same.symm
        exact fails
      · exact fun all => all [] [] rfl
    | cons c rest ih =>
      intro done before
      rw [firstAfter]
      constructor
      · intro fails passed ahead same
        split at fails
        · exact nomatch fails
        · next none_here =>
          cases passed with
          | nil =>
            obtain rfl : c :: rest = ahead := same
            exact none_here
          | cons d passed =>
            simp only [List.cons_append, List.cons.injEq] at same
            obtain ⟨rfl, same⟩ := same
            rw [getLast?_cons_or]
            exact (ih _ _).1 fails passed ahead same
      · intro all
        have here : r ⟨before, c :: rest⟩ = none := all [] (c :: rest) rfl
        rw [here]
        refine (ih _ _).2 fun passed ahead same => ?_
        rw [← getLast?_cons_or c passed before]
        exact all (c :: passed) ahead (by rw [same, List.cons_append])
  simpa [first?] using further text [] none

theorem first?_eq_some {text passed : List Char} {v : α} {next : Place}
    (found : first? r text = some (passed, v, next)) :
    ∃ ahead, text = passed ++ ahead ∧ r ⟨passed.getLast?, ahead⟩ = some (v, next) := by
  have further : ∀ (text done : List Char),
      firstAfter r done done.head? text = some (passed, v, next) →
        ∃ skipped ahead, passed = done.reverse ++ skipped ∧ text = skipped ++ ahead ∧
          r ⟨passed.getLast?, ahead⟩ = some (v, next) := by
    -- On the text, with what was passed over before it in reverse.
    intro text
    induction text with
    | nil =>
      intro done found
      obtain ⟨read, reads, same⟩ := Option.map_eq_some_iff.1 found
      cases same
      exact ⟨[], [], (List.append_nil _).symm, rfl, by rwa [List.getLast?_reverse]⟩
    | cons c rest ih =>
      intro done found
      rw [firstAfter] at found
      split at found
      · next reads =>
        cases found
        exact ⟨[], c :: rest, (List.append_nil _).symm, rfl, by rwa [List.getLast?_reverse]⟩
      · obtain ⟨skipped, ahead, rfl, rfl, reads⟩ := ih (c :: done) found
        exact ⟨c :: skipped, ahead, by simp, rfl, reads⟩
  obtain ⟨skipped, ahead, rfl, rfl, reads⟩ := further text [] found
  exact ⟨ahead, rfl, reads⟩

/-! ### Replacing from a place on -/

/-- The text from a place on, with each piece that is read replaced by its value. -/
def substituteAt (r : Reader (List Char)) (before : Option Char) (text : List Char) : List Char :=
  (cutAt r ⟨before, text⟩).fill

theorem substitute_eq_substituteAt (r : Reader (List Char)) (text : List Char) :
    substitute r text = substituteAt r none text := rfl

section

variable {r : Reader (List Char)} {before : Option Char}

theorem substituteAt_of_notFound (takes : Reader.Takes r) {text : List Char}
    (notFound : foundAfter r before text = false) : substituteAt r before text = text := by
  rw [substituteAt, cutAt_of_notFound takes notFound, Cut.fill_passing]

theorem substitute_of_notFound (takes : Reader.Takes r) {text : List Char}
    (notFound : found r text = false) : substitute r text = text :=
  substituteAt_of_notFound takes notFound

theorem substituteAt_blind (takes : Reader.Takes r) (passive : Reader.Passive r)
    (before after : Option Char) (text : List Char) :
    substituteAt r before text = substituteAt r after text := by
  rw [substituteAt, cutAt_blind takes passive before after, substituteAt]

theorem substituteAt_append {front back : List Char} (splits : Splits r before front back) :
    substituteAt r before (front ++ back) =
      substituteAt r before front ++ substituteAt r (front.getLast?.or before) back := by
  rw [substituteAt, splits, Cut.fill_append]
  rfl

/-- The reader fails at each place of the front, whatever stands before. -/
def Skips (r : Reader (List Char)) (front back : List Char) : Prop :=
  ∀ before, Passes r before front back

theorem Skips.append {left right back : List Char} (first : Skips r left (right ++ back))
    (second : Skips r right back) : Skips r (left ++ right) back :=
  fun before => passes_append (first before) (second _)

/-- What is read has a shape that no place of the front has. -/
theorem skips_of_shape {Shape : List Char → Prop} {front back : List Char}
    (shape : ∀ {p v q}, r p = some (v, q) → Shape p.rest)
    (free : ∀ passed ahead, front = passed ++ ahead → ahead ≠ [] → ¬Shape (ahead ++ back)) :
    Skips r front back := by
  intro before passed ahead same some_ahead
  refine Reader.unread_iff.2 fun v q reads => ?_
  exact free passed ahead same some_ahead (shape reads)

theorem substitute_skip (takes : Reader.Takes r) (passive : Reader.Passive r) {front back : List Char}
    (skips : Skips r front back) : substitute r (front ++ back) = front ++ substitute r back := by
  rw [substitute, cut_eq_cutAt, Place.start, cutAt_pass takes (skips none), Cut.fill_append,
    Cut.fill_passing, cutAt_blind takes passive _ none]
  rfl

theorem substitute_read (takes : Reader.Takes r) (passive : Reader.Passive r) {text v : List Char}
    {next : Place} (reads : r ⟨none, text⟩ = some (v, next)) :
    substitute r text = v ++ substitute r next.rest := by
  rw [substitute, cut_eq_cutAt, Place.start, cutAt_some takes reads, Cut.fill_append, Cut.fill_piece,
    cutAt_blind takes passive next.before none]
  rfl

/-- One character where nothing is read. -/
theorem substitute_cons (takes : Reader.Takes r) (passive : Reader.Passive r) {c : Char}
    {rest : List Char} (reads : r ⟨none, c :: rest⟩ = none) :
    substitute r (c :: rest) = c :: substitute r rest := by
  rw [substitute, cut_eq_cutAt, Place.start, cutAt_none takes reads, Cut.fill_append, Cut.fill_passing,
    cutAt_blind takes passive (some c) none]
  rfl

theorem splits_nil (before : Option Char) (front : List Char) : Splits r before front [] := by
  rw [Splits, List.append_nil, cutAt_nil, Cut.append_nil]

end

/-! ### Cutting chunks of a text -/

/-- No piece reaches over a place where two of the texts meet. -/
def Uncut (r : Reader α) (texts : List (List Char)) : Prop :=
  ∀ left right, texts = left ++ right → Uncrossed r none left.flatten right.flatten

/-- Whether a piece that starts in the text reaches over its end. -/
def reachesOver (r : Reader α) (back : List Char) (before : Option Char) : List Char → Bool
  | [] => false
  | c :: rest =>
    (r ⟨before, c :: rest ++ back⟩).any (fun found => found.2.rest.length < back.length) ||
      reachesOver r back (some c) rest

theorem reachesOver_eq_false {before : Option Char} {front back : List Char} :
    reachesOver r back before front = false ↔ Uncrossed r before front back := by
  induction front generalizing before with
  | nil =>
    refine ⟨fun _ passed ahead v q none_front some_ahead => ?_, fun _ => rfl⟩
    exact absurd (List.append_eq_nil_iff.1 none_front.symm).2 some_ahead
  | cons c rest ih =>
    have here : (r ⟨before, c :: rest ++ back⟩).any
          (fun found => found.2.rest.length < back.length) = false ↔
        ∀ v q, r ⟨before, c :: rest ++ back⟩ = some (v, q) → back.length ≤ q.rest.length := by
      cases r ⟨before, c :: rest ++ back⟩ with
      | none => simp
      | some found =>
        obtain ⟨v, q⟩ := found
        simp
    rw [reachesOver, Bool.or_eq_false_iff, here, ih]
    constructor
    · rintro ⟨first, others⟩ passed ahead v q same some_ahead reads
      cases passed with
      | nil =>
        obtain rfl : ahead = c :: rest := same.symm
        exact first v q reads
      | cons d passed =>
        simp only [List.cons_append, List.cons.injEq] at same
        obtain ⟨rfl, same⟩ := same
        refine others passed ahead v q same some_ahead ?_
        rwa [getLast?_cons_or] at reads
    · intro uncrossed
      exact ⟨fun v q reads => uncrossed [] (c :: rest) v q rfl (by simp) reads,
        @Uncrossed.drop _ _ before [c] rest back uncrossed⟩

instance (before : Option Char) (front back : List Char) : Decidable (Uncrossed r before front back) :=
  decidable_of_iff _ reachesOver_eq_false

theorem uncut_iff {texts : List (List Char)} : Uncut r texts ↔
    ∀ n ≤ texts.length, Uncrossed r none (texts.take n).flatten (texts.drop n).flatten := by
  constructor
  · intro uncut n _
    exact uncut _ _ (List.take_append_drop n texts).symm
  · rintro each left right rfl
    have := each left.length (by simp)
    rwa [List.take_left, List.drop_left] at this

instance (texts : List (List Char)) : Decidable (Uncut r texts) := decidable_of_iff _ uncut_iff.symm

theorem uncrossed_nil (before : Option Char) (front : List Char) : Uncrossed r before front [] :=
  fun _ _ _ _ _ _ _ => Nat.zero_le _

/-- One text is not cut anywhere. -/
theorem uncut_single (text : List Char) : Uncut r [text] := by
  intro left right same
  cases left with
  | nil => intro passed ahead v q none_left some_ahead
           exact absurd (List.append_eq_nil_iff.1 none_left.symm).2 some_ahead
  | cons first left =>
    simp only [List.cons_append, List.cons.injEq] at same
    obtain ⟨-, rfl⟩ := List.append_eq_nil_iff.1 same.2.symm
    exact uncrossed_nil none _

theorem Uncrossed.blind (takes : Reader.Takes r) (passive : Reader.Passive r)
    {before after : Option Char} {front back : List Char}
    (uncrossed : Uncrossed r before front back) : Uncrossed r after front back := by
  intro passed ahead v q same some_ahead reads
  refine uncrossed passed ahead v q same some_ahead ?_
  rwa [passive.blind takes _ (passed.getLast?.or after)]

theorem Uncut.tail (takes : Reader.Takes r) (passive : Reader.Passive r) {text : List Char}
    {texts : List (List Char)} (uncut : Uncut r (text :: texts)) : Uncut r texts := by
  intro left right same
  have whole := uncut (text :: left) right (by simp [same])
  rw [List.flatten_cons] at whole
  exact whole.drop.blind takes passive

/-- Where no piece is cut through, chunks are cut one by one. -/
theorem substitute_flatten {r : Reader (List Char)} (regular : Reader.Regular r)
    (passive : Reader.Passive r) {texts : List (List Char)} (uncut : Uncut r texts) :
    substitute r texts.flatten = (texts.map (substitute r)).flatten := by
  induction texts with
  | nil => rfl
  | cons text rest ih =>
    have apart := splits_of_uncrossed regular
      (by simpa using uncut [text] rest rfl : Uncrossed r none text rest.flatten)
    have later := ih (uncut.tail regular.takes passive)
    simp only [substitute, cut_eq_cutAt, Place.start] at later ⊢
    rw [List.flatten_cons, apart, Cut.fill_append,
      cutAt_blind regular.takes passive (text.getLast?.or none) none, later, List.map_cons, List.flatten_cons]
    rfl

theorem substitute_flatten_map {r : Reader (List Char)} (regular : Reader.Regular r)
    (passive : Reader.Passive r) {f : List Char → List Char} {texts : List (List Char)}
    (uncut : Uncut r (texts.map f)) :
    substitute r (texts.map f).flatten = (texts.map fun text => substitute r (f text)).flatten := by
  rw [substitute_flatten regular passive uncut, List.map_map]
  rfl

end

/-! ### Passes that find nothing to change

Such a pass may read pieces of the text, but each of them stays as it is. -/

section

open Reader

/-- The reader, only where it would change what it takes. -/
def changing (r : Reader (List Char)) : Reader (List Char) := fun p =>
  (r p).filter fun read => read.1 ++ read.2.rest != p.rest

/-- No piece of the text, wherever it starts, would be changed. -/
def Idle (r : Reader (List Char)) (text : List Char) : Prop := found (changing r) text = false

instance (r : Reader (List Char)) (text : List Char) : Decidable (Idle r text) :=
  inferInstanceAs (Decidable (_ = _))

section

variable {r : Reader (List Char)} {p q : Place} {v : List Char}

theorem changing_eq_some :
    changing r p = some (v, q) ↔ r p = some (v, q) ∧ v ++ q.rest ≠ p.rest := by
  simp [changing, Option.filter_eq_some_iff]

theorem changing_eq_none : changing r p = none ↔ ∀ v q, r p = some (v, q) → v ++ q.rest = p.rest := by
  simp [changing, Option.filter_eq_none_iff]

theorem takes_changing (takes : Takes r) : Takes (changing r) :=
  fun _ _ _ reads => takes (changing_eq_some.1 reads).1

theorem idle_iff (takes : Takes r) {text : List Char} : Idle r text ↔ ∀ passed ahead v q,
    text = passed ++ ahead → r ⟨passed.getLast?, ahead⟩ = some (v, q) → v ++ q.rest = ahead := by
  simp only [Idle, found, foundAfter_eq_false (takes_changing takes), changing_eq_none, Option.or_none]
  exact ⟨fun all passed ahead v q same => all passed ahead same v q,
    fun all passed ahead same v q => all passed ahead v q same⟩

/-- Where nothing is read nothing is changed. -/
theorem idle_of_notFound (takes : Takes r) {text : List Char} (notFound : found r text = false) :
    Idle r text := by
  rw [idle_iff takes]
  intro passed ahead v q same reads
  have fails := (foundAfter_eq_false takes).1 notFound passed ahead same
  rw [Option.or_none, reads] at fails
  exact nomatch fails

/-- What is left of a text gives no more to change than the whole. -/
theorem Idle.suffix (takes : Takes r) (passive : Passive r) {front back : List Char}
    (idle : Idle r (front ++ back)) : Idle r back := by
  rw [idle_iff takes] at idle ⊢
  intro passed ahead v q same reads
  refine idle (front ++ passed) ahead v q (by rw [same, List.append_assoc]) ?_
  rwa [passive.blind takes _ passed.getLast?]

/-- An idle pass leaves the text as it is. -/
theorem substitute_of_idle (takes : Takes r) {text : List Char} (idle : Idle r text) :
    substitute r text = text := by
  rw [idle_iff takes] at idle
  have further : ∀ p : Place, ∀ passed, text = passed ++ p.rest → p.before = passed.getLast? →
      (cutAt r p).fill = p.rest := by
    intro p
    -- Along the cut, with what was passed so far, as the pass is idle at the places of this text only.
    induction p using scan_induction takes with
    | nil before => exact fun _ _ _ => Cut.fill_passing []
    | pass before c rest none_read ih =>
      intro passed same here
      rw [cutAt_none takes none_read, Cut.fill_append, Cut.fill_passing,
        ih (passed ++ [c]) (by simp [same]) (by simp)]
      rfl
    | read p v next reads ih =>
      intro passed same here
      obtain ⟨taken, some_taken, reached⟩ := takes reads
      have kept : v ++ next.rest = p.rest := by
        refine idle passed p.rest v next same ?_
        rw [← here]
        exact reads
      obtain rfl : v = taken := by
        rw [reached.rest] at kept
        exact List.append_cancel_right kept
      have later : next.before = (passed ++ v).getLast? := by
        rw [reached.before, here, List.getLast?_append]
      rw [cutAt_some takes reads, Cut.fill_append, Cut.fill_piece,
        ih (passed ++ v) (by rw [same, reached.rest, List.append_assoc]) later, kept]
  rw [substitute, cut_eq_cutAt]
  exact further _ [] rfl rfl

end

end

end DesignComponents.Text
