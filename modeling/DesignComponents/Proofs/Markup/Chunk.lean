import DesignComponents.Markup.Chunk
import DesignComponents.Proofs.Number.Order
import Mathlib.Data.List.TakeWhile

/-! Chunks of a text in a row are the text, and each but the last ends as late as its size and the
tags let it. -/

set_option autoImplicit false

namespace DesignComponents.Markup

theorem upToLastTag_starts (window : List Char) : upToLastTag window <+: window := by
  unfold upToLastTag
  split
  · exact List.prefix_rfl
  · have ends := (List.dropWhile_suffix (l := window.reverse) (· != '>')).reverse
    simpa using ends

theorem some_upToLastTag {window : List Char} (some_window : window ≠ []) :
    upToLastTag window ≠ [] := by
  unfold upToLastTag
  split
  · exact some_window
  · next tagged => simpa using tagged

theorem firstChunk_starts (size : Nat) (text : List Char) : firstChunk size text <+: text := by
  unfold firstChunk
  split
  · exact List.prefix_rfl
  · exact (upToLastTag_starts _).trans (List.take_prefix size text)

theorem some_firstChunk {size : Nat} {text : List Char} (enough : 0 < size) (some_text : text ≠ []) :
    firstChunk size text ≠ [] := by
  unfold firstChunk
  split
  · exact some_text
  · refine some_upToLastTag fun none_taken => ?_
    obtain none_size | none_text := List.take_eq_nil_iff.1 none_taken
    · omega
    · exact some_text none_text

/-! ### Where pieces end -/

section

variable {size : Nat} {text : List Char}

theorem length_firstChunk (size : Nat) (text : List Char) : (firstChunk size text).length ≤ size := by
  unfold firstChunk
  split
  · next short => simpa using short
  · calc (upToLastTag (text.take size)).length ≤ (text.take size).length := (upToLastTag_starts _).length_le
      _ ≤ size := List.length_take_le size text

/-- A window is cut behind the last tag that ends in it, or it is left whole. -/
theorem upToLastTag_cases (window : List Char) :
    '>' ∉ window ∧ upToLastTag window = window ∨
      ∃ front back, window = front ++ ['>'] ++ back ∧ '>' ∉ back ∧ upToLastTag window = front ++ ['>'] := by
  -- In the reversed window the last sign is the first.
  have parts := List.takeWhile_append_dropWhile (p := (· != '>')) (l := window.reverse)
  have behind : '>' ∉ window.reverse.takeWhile (· != '>') := fun mem => by
    simpa using List.mem_takeWhile_imp mem
  unfold upToLastTag
  generalize window.reverse.takeWhile (· != '>') = back at parts behind
  cases rest : window.reverse.dropWhile (· != '>') with
  | nil =>
    rw [rest, List.append_nil] at parts
    rw [parts, List.mem_reverse] at behind
    exact .inl ⟨behind, rfl⟩
  | cons c front =>
    obtain rfl : c = '>' := by
      have stops := List.head?_dropWhile_not (· != '>') window.reverse
      rw [rest] at stops
      simpa using stops
    rw [rest] at parts
    have whole := congrArg List.reverse parts
    refine .inr ⟨front.reverse, back.reverse, ?_, by simpa using behind, by simp⟩
    simpa using whole.symm

/-- A piece ends where the last tag ends that fits into the size with what is before it, or it is as
long as the size and no tag ends in it. -/
def EndsLate (size : Nat) (left piece : List Char) : Prop :=
  (piece.getLast? = some '>' ∧ ∀ other, other <+: left → other.length ≤ size →
      other.getLast? = some '>' → other.length ≤ piece.length) ∨
    piece.length = size ∧ '>' ∉ piece

theorem endsLate_firstChunk (longer : size < text.length) :
    EndsLate size text (firstChunk size text) := by
  have cut : firstChunk size text = upToLastTag (text.take size) := by
    rw [firstChunk, if_neg]
    simpa using longer
  have full : (text.take size).length = size := List.length_take_of_le longer.le
  rw [cut]
  obtain ⟨none_inside, same⟩ | ⟨front, back, window, none_behind, same⟩ := upToLastTag_cases (text.take size)
  · rw [same]
    exact .inr ⟨full, none_inside⟩
  · rw [same]
    refine .inl ⟨List.getLast?_concat, fun other starts fits last => ?_⟩
    have inside : other <+: front ++ ['>'] ++ back := window ▸ List.prefix_take_iff.2 ⟨starts, fits⟩
    -- A longer one would end with a character from behind the last tag.
    by_contra beyond
    obtain ⟨more, rfl⟩ := List.prefix_of_prefix_length_le (List.prefix_append _ back) inside (by omega)
    have some_more : more ≠ [] := by
      rintro rfl
      simp at beyond
    rw [List.getLast?_append, Option.or_of_isSome (by simpa using some_more)] at last
    have behind := (List.prefix_append_right_inj _).1 inside
    exact none_behind (behind.subset (List.mem_of_getLast? last))

/-! ### All pieces -/

theorem length_left (enough : 0 < size) (some_text : text ≠ []) :
    (text.drop (firstChunk size text).length).length < text.length := by
  have taken := List.length_pos_iff.2 (some_firstChunk enough some_text)
  have given := List.length_pos_iff.2 some_text
  rw [List.length_drop]
  omega

theorem chunksFrom_succ (some_text : text ≠ []) (fuel : Nat) (done : List (List Char)) :
    chunksFrom size (fuel + 1) text done =
      chunksFrom size fuel (text.drop (firstChunk size text).length) (firstChunk size text :: done) := by
  rw [chunksFrom, if_neg (by simpa using some_text)]

/-- The pieces so far stand before the others, which any fuel gives that is enough. -/
theorem chunksFrom_eq (enough : 0 < size) {fuel : Nat} (fueled : text.length ≤ fuel)
    (done : List (List Char)) : chunksFrom size fuel text done = done.reverse ++ chunks size text := by
  -- On the length of the text: no chunk is empty, so there are no more of them than characters.
  induction length : text.length using Nat.strongRecOn generalizing fuel text done with
  | ind n ih =>
    subst length
    by_cases no_text : text = []
    · subst no_text
      cases fuel <;> simp [chunks, chunksFrom]
    · have given := List.length_pos_iff.2 no_text
      have shorter := length_left enough no_text
      have further : ∀ fuel, (text.drop (firstChunk size text).length).length ≤ fuel → ∀ done,
          chunksFrom size fuel (text.drop (firstChunk size text).length) done =
            done.reverse ++ chunks size (text.drop (firstChunk size text).length) :=
        fun fuel fueled done => ih _ shorter fueled done rfl
      obtain ⟨fuel, rfl⟩ : ∃ k, fuel = k + 1 := Nat.exists_eq_add_one.2 (by omega)
      obtain ⟨own, same⟩ : ∃ k, text.length = k + 1 := Nat.exists_eq_add_one.2 given
      rw [chunks, same, chunksFrom_succ no_text, chunksFrom_succ no_text, further fuel (by omega),
        further own (by omega)]
      simp

theorem chunks_cons (enough : 0 < size) (some_text : text ≠ []) :
    chunks size text =
      firstChunk size text :: chunks size (text.drop (firstChunk size text).length) := by
  obtain ⟨own, same⟩ : ∃ k, text.length = k + 1 := Nat.exists_eq_add_one.2 (List.length_pos_iff.2 some_text)
  have shorter := length_left enough some_text
  rw [chunks, same, chunksFrom_succ some_text, chunksFrom_eq enough (by omega)]
  rfl

/-- How a text is cut to a size. The number of a piece is its place among the pieces. -/
structure CutInto (size : Nat) (text : List Char) (pieces : List (List Char)) : Prop where
  whole : pieces.flatten = text
  nonempty : ∀ piece ∈ pieces, piece ≠ []
  fits : ∀ piece ∈ pieces, piece.length ≤ size
  /-- Of every piece but the last. -/
  late : ∀ n piece next, pieces[n]? = some piece → pieces[n + 1]? = some next →
    EndsLate size (pieces.drop n).flatten piece

theorem cutInto_chunks (enough : 0 < size) (text : List Char) : CutInto size text (chunks size text) := by
  induction length : text.length using Nat.strongRecOn generalizing text with
  | ind n ih =>
    subst length
    by_cases no_text : text = []
    · subst no_text
      exact ⟨rfl, nofun, nofun, fun n piece next here => nomatch here⟩
    · obtain ⟨whole, nonempty, fits, late⟩ := ih _ (length_left enough no_text) _ rfl
      have first := List.prefix_iff_eq_append.1 (firstChunk_starts size text)
      have others := chunks_cons enough no_text
      generalize chunks size (text.drop (firstChunk size text).length) = rest at whole nonempty fits late others
      rw [others]
      refine ⟨?_, ?_, ?_, ?_⟩
      · rw [List.flatten_cons, whole, first]
      · exact List.forall_mem_cons.2 ⟨some_firstChunk enough no_text, nonempty⟩
      · exact List.forall_mem_cons.2 ⟨length_firstChunk size text, fits⟩
      · rintro (- | n) piece next here behind
        · cases here
          rw [List.drop_zero, List.flatten_cons, whole, first]
          refine endsLate_firstChunk (not_le.1 fun short => ?_)
          -- What fits is not cut, so nothing would come behind it.
          have all : firstChunk size text = text := by rw [firstChunk, if_pos (by simpa using short)]
          rw [all, List.drop_length, List.flatten_eq_nil_iff] at whole
          have mem : next ∈ rest := List.mem_of_getElem? behind
          exact nonempty next mem (whole next mem)
        · exact late n piece next here behind

/-- A size of one gives as many pieces as there are characters. -/
theorem CutInto.length_eq {pieces : List (List Char)} (into : CutInto 1 text pieces) :
    pieces.length = text.length := by
  have ones : ∀ piece ∈ pieces, piece.length = 1 := by
    intro piece mem
    have some_piece := List.length_pos_iff.2 (into.nonempty piece mem)
    have short := into.fits piece mem
    omega
  have lengths : pieces.map List.length = List.replicate pieces.length 1 :=
    List.eq_replicate_iff.2 ⟨List.length_map _, List.forall_mem_map.2 ones⟩
  rw [← into.whole, List.length_flatten, lengths, List.sum_replicate_nat, Nat.mul_one]

/-- Whatever size a text is cut to, nothing of it is lost and nothing added. -/
theorem chunksOf_flatten {size : Number} {cs : List (List Char)}
    (cuts : chunksOf size text = .ok cs) : cs.flatten = text := by
  unfold chunksOf at cuts
  split at cuts
  · exact nomatch cuts
  · next above =>
    split at cuts
    · next n =>
      have enough : 0 < n.toNat := by
        by_contra small
        exact above ((Number.le_int n 0).2 (by omega))
      cases cuts
      exact (cutInto_chunks enough text).whole
    · unfold wholeOnly at cuts
      split at cuts
      · next none_text =>
        cases cuts
        exact (List.isEmpty_iff.1 none_text).symm
      · split at cuts
        · cases cuts
          exact List.flatten_singleton
        · exact nomatch cuts

/-- Any text is cut to any size of at least one, and its pieces are as long as tags let them be. -/
theorem chunksOf_cutInto {size : Nat} (enough : 1 ≤ size) (text : List Char) :
    ∃ pieces, chunksOf (.int size) text = .ok pieces ∧ CutInto size text pieces := by
  refine ⟨chunks size text, ?_, cutInto_chunks enough text⟩
  have above : ¬(Number.int size).le 0 = true := fun small => by
    have := (Number.le_int size 0).1 small
    omega
  rw [chunksOf, if_neg above]
  rfl

/-- Both a tag and a hard cut end a piece here. -/
theorem chunksOf_cutInto_nine : 1 ≤ 9 ∧ ∃ pieces,
    chunksOf (.int 9) "<a></a><b>0123456789</b>".toList = .ok pieces ∧
      CutInto 9 "<a></a><b>0123456789</b>".toList pieces ∧
      pieces.map String.ofList = ["<a></a>", "<b>", "012345678", "9</b>"] := by
  obtain ⟨pieces, cuts, into⟩ := @chunksOf_cutInto 9 (by decide) "<a></a><b>0123456789</b>".toList
  refine ⟨by decide, pieces, cuts, into, ?_⟩
  cases cuts
  decide +kernel

end

end DesignComponents.Markup
