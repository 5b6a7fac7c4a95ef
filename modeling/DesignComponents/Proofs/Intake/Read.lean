import DesignComponents.Intake.Read
import DesignComponents.Proofs.Attribute.Memory
import DesignComponents.Proofs.Markup.Chunk
import DesignComponents.Proofs.Markup.Optimize
import DesignComponents.Proofs.Script
import DesignComponents.Proofs.Target.Transform

/-! Reading markup in chunks against reading it at once. Each chunk is renamed and shortened on its
own, so the two agree wherever no chunk ends inside a piece that one of these passes takes. -/

set_option autoImplicit false

namespace DesignComponents.Intake

open Text Script

/-! ### What chunks become -/

/-- What a chunk becomes before the chunks are joined. -/
def transformed (chunk : List Char) : List Char :=
  Markup.optimize (Attribute.renameMarkup chunk)

/-- The chunks in which checked markup is read: one, unless it is large. -/
def chunksFor (s : Settings) (c : Checked) : Except Fault (List (List Char)) :=
  if (Number.int c.size).lt s.largeFileThreshold then .ok [c.cleaned]
  else Markup.chunksOf s.maxChunkSize c.cleaned

/-- No chunk ends inside a tag with a name to change; nor, in the chunks as they are by then, inside
attributes repeated in a row, a long decimal, or an attribute without a value. -/
structure Whole (chunks : List (List Char)) : Prop where
  tags : Uncut Attribute.renamedTag chunks
  duplicates : Uncut Markup.duplicates (chunks.map Attribute.renameMarkup)
  decimals : Uncut Markup.longDecimal
    (chunks.map fun c => substitute Markup.duplicates (Attribute.renameMarkup c))
  empties : Uncut Markup.emptyAttribute
    (chunks.map fun c =>
      substitute Markup.longDecimal (substitute Markup.duplicates (Attribute.renameMarkup c)))

theorem whole_iff {chunks : List (List Char)} : Whole chunks ↔
    Uncut Attribute.renamedTag chunks ∧
    Uncut Markup.duplicates (chunks.map Attribute.renameMarkup) ∧
    Uncut Markup.longDecimal
      (chunks.map fun c => substitute Markup.duplicates (Attribute.renameMarkup c)) ∧
    Uncut Markup.emptyAttribute
      (chunks.map fun c =>
        substitute Markup.longDecimal (substitute Markup.duplicates (Attribute.renameMarkup c))) :=
  ⟨fun ⟨tags, duplicates, decimals, empties⟩ => ⟨tags, duplicates, decimals, empties⟩,
    fun ⟨tags, duplicates, decimals, empties⟩ => ⟨tags, duplicates, decimals, empties⟩⟩

instance (chunks : List (List Char)) : Decidable (Whole chunks) :=
  decidable_of_iff _ whole_iff.symm

/-- However these settings cut the document, they cut through nothing that a pass takes. -/
def CutsWhole (s : Settings) (document : Json) : Prop :=
  ∀ c chunks, check s document = .ok c → chunksFor s c = .ok chunks → Whole chunks

instance (s : Settings) (document : Json) : Decidable (CutsWhole s document) :=
  match checks : check s document with
  | .error _ => isTrue fun _ _ checks' _ => by simp [checks] at checks'
  | .ok c =>
    match cuts : chunksFor s c with
    | .error _ => isTrue fun c' _ checks' cuts' => by
      obtain rfl : c = c' := Except.ok.inj (checks.symm.trans checks')
      simp [cuts] at cuts'
    | .ok chunks => decidable_of_iff (Whole chunks) <| by
      constructor
      · intro whole c' chunks' checks' cuts'
        obtain rfl : c = c' := Except.ok.inj (checks.symm.trans checks')
        obtain rfl : chunks = chunks' := Except.ok.inj (cuts.symm.trans cuts')
        exact whole
      · exact fun all => all c chunks checks cuts

/-- Markup that is read at once is not cut. -/
theorem whole_single (text : List Char) : Whole [text] where
  tags := uncut_single text
  duplicates := uncut_single _
  decimals := uncut_single _
  empties := uncut_single _

theorem renamed_flatten {chunks : List (List Char)} (tags : Uncut Attribute.renamedTag chunks) :
    (chunks.map Attribute.renameMarkup).flatten = Attribute.renameMarkup chunks.flatten := by
  have each : Attribute.renameMarkup = substitute Attribute.renamedTag :=
    funext Attribute.renameMarkup_eq
  rw [each, substitute_flatten Attribute.renamedTag_exact.regular Attribute.passive_renamedTag tags]

/-- Chunks that are whole become, joined, what the text becomes. -/
theorem transformed_flatten {chunks : List (List Char)} (whole : Whole chunks) :
    (chunks.map transformed).flatten = transformed chunks.flatten := by
  obtain ⟨tags, duplicates, decimals, empties⟩ := whole
  rw [transformed, Markup.optimize, ← renamed_flatten tags,
    substitute_flatten_map Markup.duplicates_regular Markup.passive_duplicates duplicates,
    substitute_flatten_map Markup.longDecimal_exact.regular Markup.passive_longDecimal decimals,
    substitute_flatten_map Markup.emptyAttribute_exact.regular Markup.passive_emptyAttribute empties]
  rfl

/-! ### What a run reads -/

section

variable {s : Settings} {channel : Channel}

/-- The memory that runs share holds names as they become. -/
def Remembers (st : Services × Listener) : Prop := st.1.names.Valid

/-- Whatever a run asks, the memory stays valid. -/
theorem answer_remembers (q : Ask) (st : Services × Listener) (valid : Remembers st) :
    Remembers (answer q st).2 := by
  obtain ⟨services, listener⟩ := st
  cases q with
  | report percent label => exact valid
  | isCancelled => exact valid
  | pause => exact valid
  | enterStage stage => exact valid
  | enterPhase phase => exact valid
  | takeTask => exact valid
  | rename markup => exact (Attribute.Memory.renameMarkup_law markup services.names valid).2
  | transform tree => exact (Target.transform_law tree services.names valid).2

/-- What a run ends with, from services whose memory is valid. -/
abbrev Yields {α : Type} (r : Run α) (Post : α → Prop) : Prop :=
  Ensures answer Remembers r Post

theorem yields_put (q : Ask) : Yields (Run.put q) fun _ => True :=
  ensures_asked (answer_remembers q) fun _ => ensures_pure trivial

theorem yields_rename (text : List Char) :
    Yields (Run.rename text) fun out => out = Attribute.renameMarkup text := by
  refine ensures_ask (fun st valid => ⟨answer_remembers (.rename text) st valid, ?_⟩) fun _ => ensures_pure
  exact (Attribute.Memory.renameMarkup_law text st.1.names valid).1

theorem yields_check : Yields Run.check fun _ => True := by
  refine ensures_asked (answer_remembers .isCancelled) fun cancelled => ?_
  split
  · exact ensures_fail
  · exact ensures_pure trivial

theorem yields_liftFault {α : Type} {r : Except Fault α} {Post : α → Prop}
    (holds : ∀ a, r = .ok a → Post a) : Yields (Run.liftFault r) Post := by
  refine ensures_lift fun a ends => holds a ?_
  cases r with
  | ok a' =>
    cases ends
    rfl
  | error e => exact nomatch ends

theorem yields_any_liftFault {α : Type} {r : Except Fault α} :
    Yields (Run.liftFault r) fun _ => True := yields_liftFault fun _ _ => trivial

theorem yields_fail {α : Type} {t : Trouble} : Yields (Run.fail t : Run α) fun _ => True :=
  ensures_fail

theorem yields_processChunk (channel : Channel) (text : List Char) :
    Yields (processChunk channel text) fun out => out = transformed text := by
  have renames : Yields (do return Markup.optimize (← Run.rename text))
      fun out => out = transformed text :=
    (yields_rename text).bind fun out renamed => ensures_pure (by rw [renamed]; rfl)
  cases channel with
  | direct => exact renames
  | workers timeout =>
    refine (yields_put .takeTask).bind fun number _ => ?_
    refine yields_any_liftFault.bind fun awaited _ => ?_
    split
    · exact yields_fail.bind fun _ _ => renames
    · exact renames

theorem yields_processChunks (channel : Channel) (total done : Nat)
    (processed chunks : List (List Char)) :
    Yields (processChunks channel Run.report total done processed chunks) fun out =>
      out = processed.reverse.flatten ++ (chunks.map transformed).flatten := by
  -- On the chunks that are left; those processed are kept in reverse.
  induction chunks generalizing done processed with
  | nil =>
    refine yields_check.bind fun _ _ => ensures_pure ?_
    simp
  | cons chunk rest ih =>
    refine yields_check.bind fun _ _ => ?_
    refine (yields_processChunk channel chunk).bind fun out became => ?_
    refine (yields_put .pause).bind fun _ _ => ?_
    refine (yields_put (.report _ _)).bind fun _ _ => ?_
    refine (ih (done + 1) (out :: processed)).imp fun out' joined => ?_
    rw [joined, became]
    simp

theorem yields_process (s : Settings) (channel : Channel) (c : Checked) :
    Yields (process s channel Run.report c) fun result =>
      ∃ chunks, chunksFor s c = .ok chunks ∧ result.1 = (chunks.map transformed).flatten := by
  unfold process chunksFor
  split
  · refine (yields_put (.enterStage .processing)).bind fun _ _ => ?_
    refine (yields_put (.report _ _)).bind fun _ _ => ?_
    refine (yields_processChunk channel c.cleaned).bind fun out became => ensures_pure ?_
    exact ⟨[c.cleaned], rfl, by simp [became]⟩
  · refine (yields_put (.enterStage .chunking)).bind fun _ _ => ?_
    refine (yields_put (.report _ _)).bind fun _ _ => ?_
    refine (yields_liftFault fun chunks cuts => cuts).bind fun chunks cuts => ?_
    refine (yields_processChunks channel _ 0 [] chunks).bind fun out joined => ensures_pure ?_
    exact ⟨chunks, cuts, joined⟩

/-- The document is checked and cut, its chunks become what they become, and what is then shortened
once more is the markup that the tree is read from. -/
def Reads (s : Settings) (document : Json) (content : Content) : Prop :=
  ∃ c chunks, check s document = .ok c ∧ chunksFor s c = .ok chunks ∧
    content.markup = Markup.optimize (chunks.map transformed).flatten ∧
    Markup.parse content.markup = .ok content.tree

theorem yields_ofMarkup (s : Settings) (channel : Channel) (document : Json) :
    Yields (ofMarkup s channel Run.report document) (Reads s document) := by
  refine (ensures_lift fun c checks => checks).bind fun c checks => ?_
  refine (yields_put (.report _ _)).bind fun _ _ => ?_
  refine (yields_put (.report _ _)).bind fun _ _ => ?_
  refine yields_check.bind fun _ _ => ?_
  refine (yields_process s channel c).bind fun result joined => ?_
  obtain ⟨combined, count, warnings⟩ := result
  obtain ⟨chunks, cuts, joined⟩ := joined
  refine (yields_put (.report _ _)).bind fun _ _ => ?_
  refine (yields_put (.report _ _)).bind fun _ _ => ?_
  refine (yields_liftFault fun tree parses => parses).bind fun tree parses => ensures_pure ?_
  exact ⟨c, chunks, checks, cuts, by rw [← joined], parses⟩

theorem yields_read (s : Settings) (channel : Channel) (text : String) :
    Yields (read s channel Run.report (.str text)) (Reads s (.str text)) := by
  refine (yields_put (.enterStage .validating)).bind fun _ _ => ?_
  have reads := (yields_ofMarkup s channel (.str text)).onFail fun t =>
    yields_put (.enterStage (stageAfter t))
  refine reads.bind fun content found => ?_
  refine (yields_put (.enterStage .done)).bind fun _ _ => ?_
  exact (yields_put (.report _ _)).bind fun _ _ => ensures_pure found

theorem checkText_eq_ok {s : Settings} {text : String} {c : Checked}
    (checks : checkText s text = .ok c) :
    c = ⟨(repair (Markup.clean text.toList)).1, text.utf8ByteSize,
      (repair (Markup.clean text.toList)).2⟩ := by
  unfold checkText at checks
  split at checks
  · exact nomatch checks
  cases size : checkSize s text.utf8ByteSize with
  | error t => simp [size, Bind.bind, Except.bind] at checks
  | ok u =>
    simp only [size, Bind.bind, Except.bind] at checks
    split at checks
    · exact nomatch checks
    · exact (Except.ok.inj checks).symm

/-- What a text is checked as depends on the settings only in whether it passes. -/
theorem check_unique {s s' : Settings} {text : String} {c c' : Checked}
    (checks : check s (.str text) = .ok c) (checks' : check s' (.str text) = .ok c') : c = c' := by
  rw [checkText_eq_ok checks, checkText_eq_ok checks']

theorem chunksFor_flatten {s : Settings} {c : Checked} {chunks : List (List Char)}
    (cuts : chunksFor s c = .ok chunks) : chunks.flatten = c.cleaned := by
  unfold chunksFor at cuts
  split at cuts
  · cases cuts
    exact List.flatten_singleton
  · exact Markup.chunksOf_flatten cuts

/-- Of one document, any two runs that end read one tree, whatever their settings and whoever
transforms the chunks, where neither cuts through what a pass takes. -/
theorem run_agrees {s s' : Settings} {channel channel' : Channel} {text : String}
    {services services' : Services} {listener listener' : Listener} {content content' : Content}
    (valid : services.names.Valid) (valid' : services'.names.Valid)
    (reads : (run s channel (.str text) services listener).1 = .ok content)
    (reads' : (run s' channel' (.str text) services' listener').1 = .ok content')
    (whole : CutsWhole s (.str text)) (whole' : CutsWhole s' (.str text)) :
    content.tree = content'.tree ∧ content.markup = content'.markup := by
  obtain ⟨c, chunks, checks, cuts, markup, parses⟩ :=
    (yields_read s channel text (services, listener) valid).2 content reads
  obtain ⟨c', chunks', checks', cuts', markup', parses'⟩ :=
    (yields_read s' channel' text (services', listener') valid').2 content' reads'
  obtain rfl := check_unique checks checks'
  have same : content.markup = content'.markup := by
    rw [markup, markup', transformed_flatten (whole c chunks checks cuts),
      transformed_flatten (whole' c chunks' checks' cuts'), chunksFor_flatten cuts,
      chunksFor_flatten cuts']
  rw [same, parses'] at parses
  exact ⟨(Except.ok.inj parses).symm, same⟩

/-- Settings by which every document is cut. -/
def chunked (size : Number) : Settings := { largeFileThreshold := 0, maxChunkSize := size }

/-- Markup that is cut behind its start tag is read as it is read at once. -/
theorem run_agrees_chunked : ∃ content content',
    (run (chunked 20) .direct (.str "<svg class=\"a\"><g x=\"1\"/></svg>") {} {}).1 = .ok content ∧
      (run {} .direct (.str "<svg class=\"a\"><g x=\"1\"/></svg>") {} {}).1 = .ok content' ∧
      content.tree = content'.tree ∧ content.markup = content'.markup := by
  have ends : ∀ {outcome : Except Trouble Content}, outcome.isOk = true →
      ∃ content, outcome = .ok content := by
    intro outcome isOk
    cases outcome with
    | ok content => exact ⟨content, rfl⟩
    | error t => exact nomatch isOk
  obtain ⟨content, reads⟩ :=
    @ends (run (chunked 20) .direct (.str "<svg class=\"a\"><g x=\"1\"/></svg>") {} {}).1
      (by decide +kernel)
  obtain ⟨content', reads'⟩ :=
    @ends (run {} .direct (.str "<svg class=\"a\"><g x=\"1\"/></svg>") {} {}).1 (by decide +kernel)
  exact ⟨content, content', reads, reads', run_agrees (Attribute.Memory.valid_empty 2048)
    (Attribute.Memory.valid_empty 2048) reads reads' (by decide +kernel) (by decide +kernel)⟩

/-- The names of the attributes that are read, element by element. -/
def namesRead (s : Settings) (text : String) : Option (List (List String)) :=
  (run s .direct (.str text) {} {}).1.toOption.map fun content =>
    content.tree.elements.map fun e => (e.1.attributes.map OrderedMap.keys).getD []

/-- What is read depends on where chunks end: inside a tag with a name to change, between attributes
repeated in a row, or inside an attribute without a value. -/
theorem reading_depends_on_cuts :
    (namesRead (chunked 5) "<svg stroke-width=\"2\"/>" = some [["stroke-width"]] ∧
      namesRead {} "<svg stroke-width=\"2\"/>" = some [["strokeWidth"]]) ∧
    (namesRead (chunked 9) "<svg a=\"\" a=\"2\"/>" = some [["a"]] ∧
      namesRead {} "<svg a=\"\" a=\"2\"/>" = some [[]]) ∧
    (namesRead (chunked 15) "<svg xb=\"1\" a=\"\" b=\"2\"/>" = some [["xb", "b"]] ∧
      namesRead {} "<svg xb=\"1\" a=\"\" b=\"2\"/>" = some [["xb"]]) := by
  decide +kernel

end

end DesignComponents.Intake
