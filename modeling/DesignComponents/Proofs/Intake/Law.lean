import DesignComponents.Proofs.Intake.Check
import DesignComponents.Proofs.Intake.Ladder
import DesignComponents.Proofs.Markup.Chunk

/-! The law of one reading, from its start to the content or the failure that it ends with: what its
listener hears, in which stage it leaves the services, and what becomes of a request to stop. -/

set_option autoImplicit false

namespace DesignComponents.Intake

/-! ### The law -/

/-- What one reading is seen to do. -/
structure Account where
  reports : List Progress
  /-- The texts whose names it has changed. -/
  transformed : List (List Char)
  outcome : Except Trouble Content
  services : Services
  listener : Listener

namespace Account

/-- Of the reading of one document while a listener listens. -/
def ofRun (s : Settings) (channel : Channel) (document : Json) (services : Services)
    (l : Listener) : Account where
  reports := reported ((read s channel Run.report document).asked answer (services, l))
  transformed := renamed ((read s channel Run.report document).asked answer (services, l))
  outcome := (run s channel document services l).1
  services := (run s channel document services l).2.1
  listener := (run s channel document services l).2.2

def Returns (a : Account) : Prop := ∃ content, a.outcome = .ok content

/-- What is reported, and where the services stand, by what the reading ends with. -/
structure Ended (l : Listener) (a : Account) : Prop where
  heard : a.listener.heard = a.reports.reverse ++ l.heard
  completes : a.Returns → ∃ earlier, a.reports = earlier ++ [complete] ∧
    ∀ p ∈ earlier, p.percent.lt 100 = true
  falls_short : ¬a.Returns → ∀ p ∈ a.reports, p.percent.lt 100 = true
  done : a.services.stage = .done ↔ a.Returns
  cancelled : a.services.stage = .cancelled ↔ ∃ t, a.outcome = .error t ∧ isCancellation t = true
  failed : a.services.stage = .failed ↔ ∃ t, a.outcome = .error t ∧ isCancellation t = false

/-- Nothing is reported, and no name is changed. -/
structure Untouched (services : Services) (a : Account) : Prop where
  reports : a.reports = []
  transformed : a.transformed = []
  names : a.services.names = services.names

/-- A listener that hears the first of the reports wants the reading to stop. -/
def Stopped (l : Listener) (count : Nat) (a : Account) : Prop :=
  ((a.reports.take count).foldl Listener.hear l).token.cancelled = true

/-- The reading of chunks. -/
structure InChunks (l : Listener) (chunks : List (List Char)) (a : Account) : Prop where
  reports : a.reports <+: chunkReports chunks.length ++ [complete]
  transformed : a.transformed <+: chunks
  all : a.Returns → a.reports = chunkReports chunks.length ++ [complete] ∧ a.transformed = chunks
  /-- A request that comes with the report of chunk `i`, or before it, ends the reading before the
  next chunk. -/
  heeds : ∀ i ≤ chunks.length, a.Stopped l (3 + i) →
    a.outcome = .error (.failure .cancelled) ∧ a.reports.length ≤ 3 + i ∧
      a.transformed <+: chunks.take i

end Account

/-- The size that counts for the limit, in bytes. -/
def sizeOf? : Json → Option Nat
  | .str text => some text.utf8ByteSize
  | document@(.obj _) => some document.byteSize
  | _ => none

def Oversized (s : Settings) (document : Json) : Prop :=
  ∃ size, sizeOf? document = some size ∧ s.maxFileSize.lt (.int size) = true

/-- The law of one reading of a document, from services and before a listener. -/
structure Account.Lawful (s : Settings) (document : Json) (services : Services) (l : Listener)
    (a : Account) : Prop where
  ended : a.Ended l
  sorted : a.reports.Pairwise fun p q => p.percent.le q.percent = true
  rises : (∀ chunks, largeChunks? s document = some chunks → chunks.length ≤ 2 ^ 50) →
    a.reports.Pairwise fun p q => p.percent.lt q.percent = true
  within : ∀ p ∈ a.reports, Number.le 5 p.percent = true ∧ p.percent.le 100 = true
  rejected : document.isObject = false → (∃ t, check s document = .error t) → a.Untouched services
  oversized : Oversized s document → a.Untouched services
  inChunks : ∀ chunks, largeChunks? s document = some chunks → a.InChunks l chunks

/-! ### The beginning and the end -/

/-- Where a reading begins. -/
abbrev begun (services : Services) (l : Listener) : Services × Listener :=
  ({ services with stage := .validating }, l)

section

variable (s : Settings) (channel : Channel) (document : Json) (services : Services) (l : Listener)

/-- What the body of a reading asks. -/
abbrev bodyAsked : List Ask := (body s channel document).asked answer (begun services l)

/-- What the body of a reading ends with, and what it leaves. -/
abbrev bodyEnds : Except Trouble Content × Services × Listener :=
  (body s channel document).exec answer (begun services l)

end

/-- What a reading asks once its body has ended. -/
def lastAsked : Except Trouble Content → List Ask
  | .ok _ => [.enterStage .done, .report complete.percent complete.label]
  | .error t => [.enterStage (stageAfter t)]

theorem read_eq (s : Settings) (channel : Channel) (document : Json) :
    read s channel Run.report document = .ask (.enterStage .validating) fun _ =>
      (Script.onFail (fun t => Run.enterStage (stageAfter t)) (body s channel document)).bind
        fun content => .ask (.enterStage .done) fun _ =>
          .ask (.report complete.percent complete.label) fun _ => .done content := rfl

section

variable {s : Settings} {channel : Channel} {document : Json} {services : Services} {l : Listener}
  {left : Services × Listener}

theorem asked_read : (read s channel Run.report document).asked answer (services, l) =
    .enterStage .validating :: (bodyAsked s channel document services l ++
      lastAsked (bodyEnds s channel document services l).1) := by
  rw [read_eq, Script.asked]
  change _ :: Script.asked answer _ (begun services l) = _
  rw [Script.asked_bind, Script.asked_onFail, Script.exec_onFail, bodyEnds, List.append_assoc]
  generalize (body s channel document).exec answer (begun services l) = ended
  obtain ⟨content | t, left⟩ := ended <;> rfl

/-- Once its body has ended, a reading says that it is done. -/
theorem ofRun_ok {content : Content}
    (ends : bodyEnds s channel document services l = (.ok content, left)) :
    Account.ofRun s channel document services l =
      { reports := reported (bodyAsked s channel document services l) ++ [complete]
        transformed := renamed (bodyAsked s channel document services l)
        outcome := .ok content
        services := { left.1 with stage := .done }
        listener := left.2.hear complete } := by
  have executes : run s channel document services l =
      (.ok content, { left.1 with stage := .done }, left.2.hear complete) := by
    rw [run, read_eq, Script.exec]
    change Script.exec answer _ (begun services l) = _
    rw [bodyEnds] at ends
    rw [Script.exec_bind, Script.exec_onFail, ends]
    rfl
  rw [Account.ofRun, executes, asked_read, ends]
  congr 1
  · exact reported_append _ _
  · exact (renamed_append _ _).trans (List.append_nil _)

/-- A reading whose body fails says no more than where it stands. -/
theorem ofRun_error {t : Trouble}
    (ends : bodyEnds s channel document services l = (.error t, left)) :
    Account.ofRun s channel document services l =
      { reports := reported (bodyAsked s channel document services l)
        transformed := renamed (bodyAsked s channel document services l)
        outcome := .error t
        services := { left.1 with stage := stageAfter t }
        listener := left.2 } := by
  have executes : run s channel document services l =
      (.error t, { left.1 with stage := stageAfter t }, left.2) := by
    rw [run, read_eq, Script.exec]
    change Script.exec answer _ (begun services l) = _
    rw [bodyEnds] at ends
    rw [Script.exec_bind, Script.exec_onFail, ends]
    rfl
  rw [Account.ofRun, executes, asked_read, ends]
  congr 1
  · exact (reported_append _ _).trans (List.append_nil _)
  · exact (renamed_append _ _).trans (List.append_nil _)

/-! ### Documents that are not read -/

/-- A reading whose body fails at once leaves all as it was. -/
theorem untouched_of_fail {t : Trouble} (fails : body s channel document = .fail t) :
    (Account.ofRun s channel document services l).Untouched services := by
  have ends : bodyEnds s channel document services l =
      (.error t, begun services l) := by
    rw [bodyEnds, fails]
    rfl
  rw [ofRun_error ends, bodyAsked, fails]
  exact ⟨rfl, rfl, rfl⟩

theorem body_rejected {t : Trouble} (markup : document.isObject = false)
    (rejects : check s document = .error t) : body s channel document = .fail t := by
  have same : body s channel document = ofMarkup s channel Run.report document := by
    cases document with
    | obj members => exact nomatch markup
    | _ => rfl
  rw [same, ofMarkup, rejects]
  rfl

theorem body_oversized (oversized : Oversized s document) :
    ∃ t, body s channel document = .fail t := by
  obtain ⟨size, counted, above⟩ := oversized
  have refused : checkSize s size =
      .error (.ofFailure (Failure.sizeLimit (.int size) s.maxFileSize)) := if_pos above
  cases document with
  | str text =>
    cases counted
    obtain ⟨t, rejects⟩ : ∃ t, check s (.str text) = .error t := by
      by_cases blank : (Text.trim text.toList).isEmpty = true
      · exact ⟨.failure emptyInput, by rw [check, checkText, if_pos blank]; rfl⟩
      · refine ⟨.ofFailure (Failure.sizeLimit (.int text.utf8ByteSize) s.maxFileSize), ?_⟩
        rw [check, checkText, if_neg blank]
        simp only [refused]
        rfl
    exact ⟨t, body_rejected rfl rejects⟩
  | obj members =>
    cases counted
    refine ⟨.ofFailure (Failure.sizeLimit (.int (Json.byteSize (.obj members))) s.maxFileSize), ?_⟩
    rw [body, ofFigma, refused]
    rfl
  -- Nothing else has a size.
  | null => cases counted
  | bool b => cases counted
  | num n => cases counted
  | arr items => cases counted

/-! ### What is carried out of the plan -/

/-- What the body of a reading asks is carried out of its plan. -/
theorem body_carried (s : Settings) (channel : Channel) (document : Json) (services : Services)
    (l : Listener) : Carried l (planOf s channel document)
      (bodyAsked s channel document services l)
      (trouble? (bodyEnds s channel document services l).1) :=
  (follows_body s channel document).carried (begun services l)

theorem heard_foldl (told : List Progress) (l : Listener) :
    (told.foldl Listener.hear l).heard = told.reverse ++ l.heard := by
  induction told generalizing l with
  | nil => rfl
  | cons p rest ih =>
    rw [List.foldl_cons, ih, List.reverse_cons, List.append_assoc]
    rfl

/-- What the body of a reading reports lies on the ladder. -/
theorem body_told (s : Settings) (channel : Channel) (document : Json) (services : Services)
    (l : Listener) : List.Sublist
      ((reported (bodyAsked s channel document services l)).map Progress.percent)
      (ladder s document) := by
  have begins := (body_carried s channel document services l).asked_eq.1
  have part := (begins.filterMap Ask.progress?).sublist.map Progress.percent
  exact part.trans (planned_sublist s channel document)

/-- Of a reading in chunks each check comes right after the reports before it, so a request to stop
that comes with one of these is heeded. -/
theorem body_heeds {chunks : List (List Char)} (large : largeChunks? s document = some chunks)
    {i : Nat} (early : i ≤ chunks.length)
    (stopped : (((reported (bodyAsked s channel document services l)).take
      (3 + i)).foldl Listener.hear l).token.cancelled = true) :
    (bodyEnds s channel document services l).1 = .error (.failure .cancelled) ∧
      (reported (bodyAsked s channel document services l)).length ≤ 3 + i ∧
      renamed (bodyAsked s channel document services l) <+: chunks.take i := by
  have carried := body_carried s channel document services l
  rw [planOf_large channel large] at carried
  generalize bodyAsked s channel document services l = asked at carried stopped ⊢
  generalize (bodyEnds s channel document services l).1 = result at carried ⊢
  have ends : trouble? result = some (.failure .cancelled) →
      result = .error (.failure .cancelled) := by
    intro cancelled
    cases result with
    | ok content => exact nomatch cancelled
    | error t => exact congrArg Except.error (Option.some.inj cancelled)
  -- The reading has got to its chunks, with three reports, or was stopped before.
  obtain ⟨later, carried, told, texts⟩ | ⟨cancelled, told, texts⟩ := carried.before_chunks
  · have from_here : (reported asked).take (3 + i) =
        [started, validated, chunking] ++ (reported later).take i := by
      rw [told, Nat.add_comm]
      rfl
    rw [from_here, List.foldl_append] at stopped
    obtain ⟨cancelled, few, first⟩ := carried.chunks_heed early stopped
    rw [told, texts]
    refine ⟨ends cancelled, ?_, first⟩
    rw [List.length_append]
    exact Nat.add_le_add_left few 3
  · rw [told, texts]
    exact ⟨ends cancelled, Nat.le_add_right_of_le (by decide), List.nil_prefix⟩

/-- What is asked in chunks is begun as planned, and carried out to the end where nothing fails. -/
theorem body_inChunks {chunks : List (List Char)} (large : largeChunks? s document = some chunks) :
    reported (bodyAsked s channel document services l) <+: chunkReports chunks.length ∧
      renamed (bodyAsked s channel document services l) <+: chunks ∧
      (trouble? (bodyEnds s channel document services l).1 = none →
        reported (bodyAsked s channel document services l) = chunkReports chunks.length ∧
          renamed (bodyAsked s channel document services l) = chunks) := by
  obtain ⟨begins, all⟩ := (body_carried s channel document services l).asked_eq
  refine ⟨?_, ?_, fun ends => ⟨?_, ?_⟩⟩
  · rw [← reported_large channel large]
    exact begins.filterMap Ask.progress?
  · have part := begins.filterMap Ask.markup?
    rwa [← renamed, ← renamed, renamed_large channel large] at part
  · rw [all ends, reported_large channel large]
  · rw [all ends, renamed_large channel large]

theorem ofRun_inChunks {chunks : List (List Char)} (large : largeChunks? s document = some chunks) :
    (Account.ofRun s channel document services l).InChunks l chunks := by
  obtain ⟨told, texts, whole⟩ := @body_inChunks s channel document services l chunks large
  have heeds := fun i early => @body_heeds s channel document services l chunks large i early
  cases ends : bodyEnds s channel document services l with
  | mk result left =>
    rw [ends] at whole heeds
    cases result with
    | ok content =>
      obtain ⟨told, texts⟩ := whole rfl
      rw [told] at heeds
      rw [ofRun_ok ends, told, texts]
      refine ⟨List.prefix_rfl, List.prefix_rfl, fun _ => ⟨rfl, rfl⟩, fun i early stopped => ?_⟩
      -- The last report comes too late to be among the first ones.
      have enough : 3 + i ≤ (chunkReports chunks.length).length := by
        simp only [chunkReports, List.length_append, List.length_map, List.length_range,
          List.length_cons, List.length_nil]
        omega
      rw [Account.Stopped, List.take_append_of_le_length enough] at stopped
      cases (heeds i early stopped).1
    | error t =>
      rw [ofRun_error ends]
      refine ⟨told.trans (List.prefix_append _ _), texts, ?_, heeds⟩
      rintro ⟨_, returned⟩
      cases returned

/-- Whatever a reading reports lies on the ladder, up to the report that all is done. -/
theorem reports_sublist (s : Settings) (channel : Channel) (document : Json) (services : Services)
    (l : Listener) : List.Sublist
      ((Account.ofRun s channel document services l).reports.map Progress.percent)
      (ladder s document ++ [100]) := by
  have told := body_told s channel document services l
  cases ends : bodyEnds s channel document services l with
  | mk result left =>
    cases result with
    | ok content =>
      rw [ofRun_ok ends, List.map_append]
      exact told.append (List.Sublist.refl _)
    | error t =>
      rw [ofRun_error ends]
      exact told.trans (List.sublist_append_left _ _)

theorem ofRun_ended (s : Settings) (channel : Channel) (document : Json) (services : Services)
    (l : Listener) : (Account.ofRun s channel document services l).Ended l := by
  have told := body_told s channel document services l
  have short : ∀ p ∈ reported (bodyAsked s channel document services l), p.percent.lt 100 = true :=
    fun p mem => (mem_ladder (told.subset (List.mem_map_of_mem mem))).2.2
  have heard : (bodyEnds s channel document services l).2.2.heard =
      (reported (bodyAsked s channel document services l)).reverse ++ l.heard := by
    rw [exec_listener, heard_foldl]
  cases ends : bodyEnds s channel document services l with
  | mk result left =>
    rw [ends] at heard
    -- A reading that returns is done; one that fails is cancelled or failed, by its trouble.
    cases result with
    | ok content =>
      rw [ofRun_ok ends]
      refine ⟨?_, fun _ => ⟨_, rfl, short⟩, fun fails => absurd ⟨content, rfl⟩ fails, ?_, ?_, ?_⟩
      · rw [List.reverse_append, List.append_assoc, ← heard]
        rfl
      · exact ⟨fun _ => ⟨content, rfl⟩, fun _ => rfl⟩
      · exact ⟨nofun, fun ⟨_, fails, _⟩ => nomatch fails⟩
      · exact ⟨nofun, fun ⟨_, fails, _⟩ => nomatch fails⟩
    | error t =>
      have none_returned : ¬∃ content, (Except.error t : Except Trouble Content) = .ok content :=
        fun ⟨_, returned⟩ => nomatch returned
      have only : ∀ stops, (∃ t', (Except.error t : Except Trouble Content) = .error t' ∧
          isCancellation t' = stops) ↔ isCancellation t = stops := by
        intro stops
        constructor
        · rintro ⟨t', same, is⟩
          cases same
          exact is
        · exact fun is => ⟨t, rfl, is⟩
      rw [ofRun_error ends]
      refine ⟨heard, fun returned => absurd returned none_returned, fun _ => short, ?_, ?_, ?_⟩
      · refine ⟨fun stage => ?_, fun returned => absurd returned none_returned⟩
        change stageAfter t = .done at stage
        unfold stageAfter at stage
        split at stage <;> cases stage
      · change stageAfter t = .cancelled ↔ _
        rw [only, stageAfter]
        cases isCancellation t <;> decide
      · change stageAfter t = .failed ↔ _
        rw [only, stageAfter]
        cases isCancellation t <;> decide

/-- Whatever the document and the settings, whoever transforms the chunks and whoever listens, a
reading is lawful. -/
theorem ofRun_lawful (s : Settings) (channel : Channel) (document : Json) (services : Services)
    (l : Listener) :
    (Account.ofRun s channel document services l).Lawful s document services l := by
  have on_ladder := reports_sublist s channel document services l
  refine ⟨ofRun_ended s channel document services l, ?_, ?_, ?_, ?_, ?_, ?_⟩
  · exact List.pairwise_map.1 ((ladder_sorted s document).sublist on_ladder)
  · exact fun few => List.pairwise_map.1 ((ladder_rises few).sublist on_ladder)
  · intro p mem
    rcases List.mem_append.1 (on_ladder.subset (List.mem_map_of_mem mem)) with mem | mem
    · obtain ⟨isSome, low, high⟩ := mem_ladder mem
      exact ⟨low, Number.le_of_lt isSome (by decide) high⟩
    · rw [List.mem_singleton.1 mem]
      decide
  · rintro markup ⟨t, rejects⟩
    exact untouched_of_fail (body_rejected markup rejects)
  · intro oversized
    obtain ⟨t, fails⟩ := @body_oversized s channel document oversized
    exact untouched_of_fail fails
  · exact fun chunks large => ofRun_inChunks large

end

/-! ### Where numbers do not rise -/

open Markup Text

/-- What a reading reports begins with what its body reports. -/
theorem body_reports (s : Settings) (channel : Channel) (document : Json) (services : Services)
    (l : Listener) : reported (bodyAsked s channel document services l) <+:
      (Account.ofRun s channel document services l).reports := by
  cases ends : bodyEnds s channel document services l with
  | mk result left =>
    cases result with
    | ok content =>
      rw [ofRun_ok ends]
      exact List.prefix_append _ _
    | error t =>
      have reports := congrArg Account.reports (ofRun_error ends)
      exact reports ▸ List.prefix_rfl

/-- All chunks are reported to who never asks to stop. -/
theorem chunks_reported {s : Settings} {document : Json} {services : Services} {l : Listener}
    {chunks : List (List Char)} (large : largeChunks? s document = some chunks) (silent : Silent l) :
    [started, validated, chunking] ++ (List.range chunks.length).map (chunkReport chunks.length) <+:
      (Account.ofRun s .direct document services l).reports := by
  have carried := body_carried s .direct document services l
  rw [planOf_large .direct large, ← List.append_assoc] at carried
  have safe : ∀ step ∈ beforeChunks ++ chunksPlan .direct chunks.length 0 chunks, step ≠ .risk := by
    refine List.forall_mem_append.2 ⟨?_, chunksPlan_safe _ _ chunks⟩
    simp [beforeChunks, Step.report]
  have reports := (carried.silent silent safe).filterMap Ask.progress?
  change reported _ <+: reported _ at reports
  rw [Plan.questions_append, reported_append, reported_chunksPlan] at reports
  simp only [Nat.zero_add] at reports
  exact reports.trans (body_reports s .direct document services l)

/-- A drawing of so many letters. -/
def drawing (count : Nat) : Forest :=
  .element ⟨"svg".toList, [], []⟩ (.text (List.replicate count 'a') .nil) [] .nil

/-- Settings by which a text is read character by character. -/
def singly (text : String) : Settings where
  maxFileSize := .int text.utf8ByteSize
  largeFileThreshold := 0
  maxChunkSize := 1

section

variable (count : Nat)

theorem drawing_write : (drawing count).write =
    "<svg>".toList ++ (List.replicate count 'a' ++ "</svg>".toList) := rfl

theorem drawing_proper : (drawing count).Proper := by
  have letters : Piece.Proper (.text (List.replicate count 'a')) := by
    intro mem
    exact absurd (List.eq_of_mem_replicate mem) (by decide)
  intro p mem
  rcases List.mem_append.1 mem with mem | mem
  · rcases List.mem_cons.1 mem with rfl | mem
    · decide
    · rw [List.mem_singleton.1 mem]
      exact letters
  · rw [List.mem_singleton.1 mem]
    decide

theorem clean_drawing : clean (drawing count).write = (drawing count).write := by
  refine Forest.clean_solid (drawing_proper count) (by simp [drawing_write]) fun c mem => ?_
  rw [drawing_write, List.mem_append, List.mem_append, List.mem_replicate] at mem
  rcases mem with mem | ⟨-, rfl⟩ | mem
  · revert c
    decide
  · decide
  · revert c
    decide

variable {count} {text : String} (spelled : text.toList = (drawing count).write)

include spelled

theorem check_drawing : check (singly text) (.str text) = .ok (checked text) ∧
    (checked text).cleaned = text.toList := by
  have cleaned : clean text.toList = text.toList := by rw [spelled, clean_drawing]
  have proper := drawing_proper count
  have plain : ∀ sign ∈ (drawing count).signs, sign.Plain :=
    List.forall_mem_cons.2 ⟨nofun, List.forall_mem_cons.2 ⟨trivial, nofun⟩⟩
  have even := (Forest.balanced_clean proper).2 (Forest.looksClosed_of_plain proper plain)
  have svg := Forest.hasSvg_clean proper (Forest.draws_of_svg rfl List.mem_cons_self)
  rw [← spelled] at even svg
  have some_text : trim text.toList ≠ [] := by
    refine trim_ne_nil (c := '<') ?_ (by decide)
    rw [spelled, drawing_write]
    exact List.mem_cons_self
  have fits : checkSize (singly text) text.utf8ByteSize = .ok () := by
    refine if_neg fun above => ?_
    exact lt_irrefl _ ((Number.lt_int _ _).1 above)
  constructor
  · rw [check, checkText_eq some_text svg, fits]
    rfl
  · rw [(leftAlone_checked even).cleaned, cleaned]

/-- There is a chunk for each character. -/
theorem largeChunks_drawing :
    ∃ chunks, largeChunks? (singly text) (.str text) = some chunks ∧ chunks.length = count + 11 := by
  obtain ⟨checks, cleaned⟩ := check_drawing spelled
  have large : ¬(Number.int (checked text).size).lt (singly text).largeFileThreshold = true := by
    intro small
    have := (Number.lt_int (checked text).size 0).1 small
    omega
  refine ⟨chunks 1 text.toList, ?_, ?_⟩
  · rw [largeChunks?, checks]
    dsimp only
    rw [if_neg large, cleaned]
    rfl
  · rw [(cutInto_chunks Nat.one_pos _).length_eq, spelled, drawing_write]
    simp

end

/-- A drawing of `2 ^ 53` characters. -/
def vast : String := String.ofList (drawing (2 ^ 53 - 11)).write

/-- A document that is no markup does not pass as markup, and is reported before it is found to be no
design either. Of so many chunks the last two are reported with one percentage. -/
theorem not_every_reading_climbs :
    ((∃ t, check {} (.obj []) = .error t) ∧
      (∃ t, (Account.ofRun {} .direct (.obj []) {} {}).outcome = .error t) ∧
      (Account.ofRun {} .direct (.obj []) {} {}).reports = [started]) ∧
    ¬(Account.ofRun (singly vast) .direct (.str vast) {} {}).reports.Pairwise
      fun p q => p.percent.lt q.percent = true := by
  refine ⟨⟨⟨_, rfl⟩, ⟨_, rfl⟩, rfl⟩, fun rises => ?_⟩
  obtain ⟨chunks, large, count⟩ :=
    @largeChunks_drawing (2 ^ 53 - 11) vast String.toList_ofList
  have enough : chunks.length = 2 ^ 53 := count
  have silent : Silent {} := ⟨rfl, fun _ => rfl⟩
  have told := @chunks_reported (singly vast) (.str vast) {} {} chunks large silent
  rw [enough] at told
  have between := (List.pairwise_append.1 (rises.sublist told.sublist)).2.1
  have last := List.pairwise_iff_getElem.1 (List.pairwise_map.1 between) (2 ^ 53 - 2) (2 ^ 53 - 1)
    (by simp) (by simp) (by omega)
  simp only [List.getElem_range] at last
  exact absurd last (by decide +kernel)

end DesignComponents.Intake
