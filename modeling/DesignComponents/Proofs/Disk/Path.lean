import DesignComponents.Command.Save
import DesignComponents.Proofs.Project.Location

/-! Paths as texts. What a text means in a folder is the text that is put behind the folder's and tidied
on the letters alone: what stands between the slashes is read from left to right, and two points take
away the name before them. -/

set_option autoImplicit false

namespace DesignComponents.Disk.Path

open Text

/-! ### On texts -/

/-- The names along a path. -/
def segments (text : String) : List String := (pieces text).filter (!isIdle ·)

/-- A path behind a folder's. One from the root stands alone. -/
def appended (folder text : String) : String :=
  if isAbsolute text then text else Command.joined folder text

/-- One step of tidying. Two points stay where there is no name before them to take, except at the root. -/
def climb (rooted : Bool) (names : List String) (piece : String) : List String :=
  if isIdle piece then names
  else if piece ≠ ".." ∨ (names = [] ∧ !rooted) ∨ names.getLast? = some ".." then names ++ [piece]
  else names.dropLast

/-- The slashes that a path keeps in front. -/
def slashes (text : String) : String :=
  if isDoubled text then "//" else if isAbsolute text then "/" else ""

/-- The text of a path with no name that another one takes back. -/
def normalized (text : String) : String :=
  match slashes text ++ "/".intercalate ((pieces text).foldl (climb (isAbsolute text)) []) with
  | "" => "."
  | tidied => tidied

/-- Where a text leads in a folder. -/
def settled (folder text : String) : String := normalized (appended folder text)

/-- A path is the root's or goes on from it, name by name. Two slashes in front count as one. -/
structure Inside (root path : String) : Prop where
  absolute : isAbsolute path = isAbsolute root
  onward : segments root <+: segments path

instance (root path : String) : Decidable (Inside root path) :=
  decidable_of_iff (isAbsolute path = isAbsolute root ∧ segments root <+: segments path)
    ⟨fun both => ⟨both.1, both.2⟩, fun inside => ⟨inside.absolute, inside.onward⟩⟩

/-! ### Paths that names lead along -/

def IsName (piece : String) : Prop := '/' ∉ piece.toList ∧ piece ≠ "" ∧ piece ≠ "." ∧ piece ≠ ".."

instance (piece : String) : Decidable (IsName piece) := inferInstanceAs (Decidable (_ ∧ _))

/-- Each step along the path leads down. -/
def Plain (p : Path) : Prop := ∀ n ∈ p.names, IsName n

instance (p : Path) : Decidable p.Plain := inferInstanceAs (Decidable (∀ n ∈ p.names, IsName n))

variable {names : List String} {text : String} {p folder : Path}

theorem IsName.idle {piece : String} (name : IsName piece) : isIdle piece = false := by
  obtain ⟨-, some_piece, point, -⟩ := name
  simp [isIdle, some_piece, point]

theorem IsName.push {piece : String} (name : IsName piece) (names : List String) :
    push names piece = names ++ [piece] :=
  push_name name.2.1 name.2.2.1 name.2.2.2

theorem foldl_push_names (plain : ∀ n ∈ names, IsName n) (before : List String) :
    names.foldl push before = before ++ names := by
  induction names generalizing before with
  | nil => simp
  | cons n names ih =>
    obtain ⟨name, plain⟩ := List.forall_mem_cons.1 plain
    rw [List.foldl_cons, name.push, ih plain, List.append_assoc, List.singleton_append]

/-- What stands between slashes has none, so each step keeps the names plain. -/
theorem plain_push {piece : String} (unbroken : '/' ∉ piece.toList) (plain : ∀ n ∈ names, IsName n) :
    ∀ n ∈ push names piece, IsName n := by
  intro n mem
  unfold push at mem
  split at mem
  · exact plain n mem
  · split at mem
    · exact plain n (List.dropLast_subset _ mem)
    · rename_i moves other
      rcases List.mem_append.1 mem with mem | mem
      · exact plain n mem
      · rw [List.mem_singleton.1 mem]
        simp only [isIdle, Bool.or_eq_true, beq_iff_eq, not_or] at moves
        exact ⟨unbroken, moves.1, moves.2, other⟩

theorem unbroken_of_mem_pieces {piece : String} (mem : piece ∈ pieces text) : '/' ∉ piece.toList := by
  rw [pieces, splitOn_eq] at mem
  obtain ⟨cs, held, rfl⟩ := List.mem_map.1 mem
  rw [String.toList_ofList]
  exact (of_mem_splitOn held).1

theorem plain_foldl_push {steps : List String} (unbroken : ∀ piece ∈ steps, '/' ∉ piece.toList)
    (plain : ∀ n ∈ names, IsName n) : ∀ n ∈ steps.foldl push names, IsName n := by
  induction steps generalizing names with
  | nil => exact plain
  | cons piece steps ih =>
    obtain ⟨here, later⟩ := List.forall_mem_cons.1 unbroken
    exact ih later (plain_push here plain)

/-- Wherever a text leads from a plain folder, the path is plain. -/
theorem Plain.resolve (plain : folder.Plain) (text : String) : (folder.resolve text).Plain := by
  unfold Path.resolve
  split
  · exact plain_foldl_push (fun _ => unbroken_of_mem_pieces) nofun
  · exact plain_foldl_push (fun _ => unbroken_of_mem_pieces) plain

/-! ### Slashes in front -/

theorem pieces_append_cons (left right : List Char) :
    pieces (String.ofList (left ++ '/' :: right)) =
      pieces (String.ofList left) ++ pieces (String.ofList right) := by
  have cut : (left ++ '/' :: right).splitOn '/' = left.splitOn '/' ++ right.splitOn '/' := by
    simp only [List.splitOn_eq_splitOnP]
    exact List.splitOnP_append_cons left right (beq_self_eq_true '/')
  simp only [pieces, splitOn_eq, String.toList_ofList, cut, List.map_append]

theorem pieces_behind (left right : String) : pieces (left ++ "/" ++ right) = pieces left ++ pieces right := by
  have written : left ++ "/" ++ right = String.ofList (left.toList ++ '/' :: right.toList) := by
    rw [← String.toList_inj]
    simp
  rw [written, pieces_append_cons, String.ofList_toList, String.ofList_toList]

/-- The slashes in front of a path. -/
def front (doubled : Bool) : String := if doubled then "//" else "/"

theorem text_eq (p : Path) : p.text = front p.doubled ++ "/".intercalate p.names := rfl

theorem segments_slash (text : String) : segments ("/" ++ text) = segments text := by
  have parted : pieces ("/" ++ text) = pieces "" ++ pieces text := pieces_behind "" text
  rw [segments, parted]
  rfl

/-- They are read as they are written where no slash follows them. -/
theorem front_append (doubled : Bool) (relative : isAbsolute text = false) :
    isAbsolute (front doubled ++ text) = true ∧ isDoubled (front doubled ++ text) = doubled ∧
      segments (front doubled ++ text) = segments text := by
  rw [isAbsolute] at relative
  cases doubled with
  | false =>
    have written : (front false ++ text).toList = '/' :: text.toList := String.toList_append
    rw [isAbsolute, isDoubled, written]
    refine ⟨rfl, ?_, segments_slash text⟩
    have second : startsWith ['/', '/'] ('/' :: text.toList) = startsWith ['/'] text.toList := rfl
    rw [second, relative, Bool.false_and]
  | true =>
    have written : (front true ++ text).toList = '/' :: '/' :: text.toList := String.toList_append
    rw [isAbsolute, isDoubled, written]
    refine ⟨rfl, ?_, ?_⟩
    · have third : startsWith ['/', '/', '/'] ('/' :: '/' :: text.toList) = startsWith ['/'] text.toList := rfl
      rw [third, relative]
      rfl
    · have apart : front true = "/" ++ "/" := by decide
      rw [apart, String.append_assoc, segments_slash, segments_slash]

theorem relative_of_name {name : String} (leads : IsName name) (rest : List String) :
    isAbsolute ("/".intercalate (name :: rest)) = false := by
  rw [isAbsolute, ← Bool.not_eq_true, startsWith_iff, String.toList_intercalate, List.map_cons,
    intercalate_cons]
  obtain ⟨c, cs, same⟩ := List.exists_cons_of_ne_nil (mt String.toList_eq_nil_iff.1 leads.2.1)
  rw [same]
  intro absolute
  obtain ⟨rfl, -⟩ := List.cons_prefix_cons.1 absolute
  exact leads.1 (by rw [same]; exact List.mem_cons_self)

theorem relative_names (plain : ∀ n ∈ names, IsName n) : isAbsolute ("/".intercalate names) = false := by
  cases names with
  | nil => rfl
  | cons n names => exact relative_of_name (plain n List.mem_cons_self) names

theorem segments_names (plain : ∀ n ∈ names, IsName n) : segments ("/".intercalate names) = names := by
  by_cases none : names = []
  · subst none
    rfl
  · rw [segments, pieces_intercalate (fun n mem => (plain n mem).1) none, List.filter_eq_self]
    intro n mem
    rw [(plain n mem).idle]
    rfl

/-! ### A path's text -/

theorem Plain.text_read (plain : p.Plain) :
    isAbsolute p.text = true ∧ isDoubled p.text = p.doubled ∧ segments p.text = p.names := by
  obtain ⟨absolute, doubled, kept⟩ := front_append p.doubled (relative_names plain)
  exact ⟨absolute, doubled, kept.trans (segments_names plain)⟩

/-- Pieces that stay in place may be left out. -/
theorem foldl_segments {α : Type} {step : List α → String → List α}
    (idle : ∀ names piece, isIdle piece → step names piece = names) (text : String) (names : List α) :
    (pieces text).foldl step names = (segments text).foldl step names := by
  rw [segments]
  induction pieces text generalizing names with
  | nil => rfl
  | cons piece rest ih =>
    cases stays : isIdle piece with
    | false => rw [List.filter_cons_of_pos (by rw [stays]; rfl)]; exact ih _
    | true =>
      rw [List.filter_cons_of_neg (by rw [stays]; decide), List.foldl_cons, idle names piece stays]
      exact ih names

theorem push_idle (names : List String) (piece : String) (idle : isIdle piece) : push names piece = names :=
  if_pos idle

/-- At the root there is no name of two points to keep. -/
theorem climb_rooted (plain : ∀ n ∈ names, IsName n) (piece : String) :
    climb true names piece = push names piece := by
  have kept : names.getLast? ≠ some ".." := fun last =>
    (plain ".." (List.mem_of_getLast? last)).2.2.2 rfl
  unfold climb push
  by_cases idle : isIdle piece <;> by_cases up : piece = ".." <;> simp [idle, up, kept]

theorem foldl_climb {steps : List String} (unbroken : ∀ piece ∈ steps, '/' ∉ piece.toList)
    (plain : ∀ n ∈ names, IsName n) : steps.foldl (climb true) names = steps.foldl push names := by
  induction steps generalizing names with
  | nil => rfl
  | cons piece steps ih =>
    obtain ⟨here, later⟩ := List.forall_mem_cons.1 unbroken
    rw [List.foldl_cons, List.foldl_cons, climb_rooted plain, ih later (plain_push here plain)]

/-- A path from the root is tidied into the text of the path that it means. -/
theorem normalized_absolute (absolute : isAbsolute text = true) :
    normalized text = (Path.mk (isDoubled text) ((segments text).foldl push [])).text := by
  have slash : slashes text = front (isDoubled text) := by
    rw [slashes, absolute, if_pos rfl]
    rfl
  have steps : (pieces text).foldl (climb (isAbsolute text)) [] = (segments text).foldl push [] := by
    rw [absolute, foldl_climb (fun _ => unbroken_of_mem_pieces) (List.forall_mem_nil _),
      foldl_segments push_idle]
  have some_text : front (isDoubled text) ++ "/".intercalate ((segments text).foldl push []) ≠ "" := by
    intro none
    cases doubled : isDoubled text <;> simp [doubled, front] at none
  rw [normalized, slash, steps]
  split
  · contradiction
  · rfl

theorem Plain.normalized_text (plain : p.Plain) : normalized p.text = p.text := by
  obtain ⟨absolute, doubled, along⟩ := plain.text_read
  rw [normalized_absolute absolute, doubled, along, foldl_push_names plain]
  rfl

/-! ### A text in a folder -/

theorem intercalate_concat (names : List String) (last : String) :
    "/".intercalate (names ++ [last]) =
      if names = [] then last else "/".intercalate names ++ "/" ++ last := by
  rw [← String.toList_inj]
  cases names with
  | nil => simp
  | cons n names =>
    rw [if_neg (List.cons_ne_nil n names), String.toList_intercalate, List.map_append, List.map_cons,
      List.cons_append, intercalate_cons]
    simp [intercalate_cons]

/-- Only the root's text ends with a slash. -/
theorem Plain.endsWith_text (plain : p.Plain) : endsWith ['/'] p.text.toList = decide (p.names = []) := by
  rcases List.eq_nil_or_concat p.names with root | ⟨before, last, named⟩
  · rw [text_eq, root]
    cases p.doubled <;> rfl
  · have leads : IsName last := plain last (by simp [named])
    obtain ⟨c, cs, reversed⟩ := List.exists_cons_of_ne_nil
      (mt (List.reverse_eq_nil_iff.1 · |> String.toList_eq_nil_iff.1) leads.2.1)
    have ends : ∃ rest, p.text.toList.reverse = c :: rest := by
      rw [text_eq, named, List.concat_eq_append, intercalate_concat]
      split <;> simp [reversed]
    obtain ⟨rest, written⟩ := ends
    have other : c ≠ '/' := by
      rintro rfl
      exact leads.1 (List.mem_reverse.1 (reversed ▸ List.mem_cons_self))
    rw [endsWith, written, named, Bool.eq_iff_iff, startsWith_iff]
    simp [List.cons_prefix_cons, other.symm]

/-- What stands behind a folder stands behind the names that lead to it. -/
theorem Plain.appended_text (plain : p.Plain) (relative : isAbsolute text = false) :
    appended p.text text = front p.doubled ++ "/".intercalate (p.names ++ [text]) := by
  have some_text : p.text.isEmpty = false := by
    rw [text_eq, String.isEmpty_eq_false_iff]
    intro none
    cases doubled : p.doubled <;> simp [doubled, front] at none
  rw [appended, relative, if_neg Bool.false_ne_true, Command.joined, some_text, Bool.false_or,
    plain.endsWith_text, intercalate_concat]
  by_cases root : p.names = []
  · simp [root, text_eq]
  · simp [root, text_eq, String.append_assoc]

/-- What a text means in a folder is told by the two texts. -/
theorem Plain.text_resolve (plain : folder.Plain) (text : String) :
    (folder.resolve text).text = settled folder.text text := by
  unfold settled
  cases absolute : isAbsolute text with
  | true =>
    rw [appended, absolute, if_pos rfl, normalized_absolute absolute, Path.resolve, absolute, if_pos rfl,
      foldl_segments push_idle]
  | false =>
    have relative : isAbsolute ("/".intercalate (folder.names ++ [text])) = false := by
      cases named : folder.names with
      | nil => exact absolute
      | cons n names => exact relative_of_name (plain n (by simp [named])) (names ++ [text])
    have along : segments ("/".intercalate (folder.names ++ [text])) = folder.names ++ segments text := by
      rw [intercalate_concat]
      split
      · next root => rw [root, List.nil_append]
      · rw [segments, pieces_behind, List.filter_append]
        exact congrArg (· ++ segments text) (segments_names plain)
    obtain ⟨rooted, doubled, kept⟩ := front_append folder.doubled relative
    rw [plain.appended_text absolute, normalized_absolute rooted, doubled, kept, along, List.foldl_append,
      foldl_push_names plain, List.nil_append, Path.resolve, absolute, if_neg Bool.false_ne_true,
      foldl_segments push_idle]

/-- Being inside is told by the texts as by the names. -/
theorem contains_iff (plain : folder.Plain) (plain' : p.Plain) (single : folder.doubled = false) :
    folder.contains p = true ↔ Inside folder.text p.text := by
  obtain ⟨absolute, -, along⟩ := plain.text_read
  obtain ⟨absolute', -, along'⟩ := plain'.text_read
  rw [contains, single, Bool.not_false, Bool.true_and, List.isPrefixOf_iff_prefix, ← along, ← along']
  exact ⟨fun onward => ⟨absolute'.trans absolute.symm, onward⟩, Inside.onward⟩

end DesignComponents.Disk.Path
