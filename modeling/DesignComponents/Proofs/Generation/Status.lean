import DesignComponents.Project.Assessment
import DesignComponents.Proofs.Fault
import DesignComponents.Proofs.Generation.Alike
import DesignComponents.Proofs.Project.Build
import DesignComponents.Proofs.Store
import DesignComponents.Proofs.Target.Filter

/-! What a generation reports of its build, and when it returns. The status tells whether anything of the
document was dropped, unless the build takes a template or a name for code. -/

set_option autoImplicit false

namespace DesignComponents

open Script

/-! ### Logs and their status -/

namespace Project

theorem errors_level (config : Config) (jsx name : String) :
    ∀ log ∈ misreadings config jsx name, log.level = .error := by
  have each : ∀ path issues, ∀ log ∈ errors path issues, log.level = .error := by
    intro path issues log mem
    obtain ⟨issue, -, rfl⟩ := List.mem_map.1 mem
    rfl
  intro log mem
  unfold misreadings at mem
  split at mem
  · split at mem
    · exact each _ _ log mem
    · obtain ⟨test, -, mem⟩ := List.mem_flatMap.1 mem
      exact each _ _ log mem
  · exact nomatch mem

/-- Texts that are logged at a level. -/
def logged (level : Level) (texts : List String) : List Log := texts.map fun text => ⟨level, text, "", 1⟩

theorem any_logged (level : Level) (texts : List String) (other : Level) :
    (logged level texts).any (fun log => log.level = other) = (!texts.isEmpty && decide (level = other)) := by
  cases texts with
  | nil => rfl
  | cons text rest => by_cases same : level = other <;> simp [logged, same]

theorem ofLogs_logged {notes warnings : List String} {logs : List Log}
    (level : ∀ log ∈ logs, log.level = .error) (last : String) :
    Status.ofLogs (logged .info notes ++ logged .warn warnings ++ logs ++ logged .info [last]) =
      if logs ≠ [] then .error else if warnings = [] then .success else .warning := by
  have failed : logs.any (fun log => log.level = .error) = !logs.isEmpty := by
    cases logs with
    | nil => rfl
    | cons log rest => simp [level log List.mem_cons_self]
  have warned : logs.any (fun log => log.level = .warn) = false := by
    rw [List.any_eq_false]
    intro log mem
    simp [level log mem]
  simp only [Status.ofLogs, List.any_append, any_logged, failed, warned]
  cases logs <;> cases warnings <;> simp

end Project

/-! ### Assessing with the usual points -/

namespace Project

theorem succeeds_codePoints (s : Signs) : Succeeds (codePoints {} s >>= scoreOf) := by
  unfold codePoints
  cases s.typed <;> cases s.declaration <;> cases s.comments <;> exact ⟨_, rfl⟩

theorem succeeds_performancePoints {s : Signs} (few : s.options ≤ 3) :
    Succeeds (performancePoints {} s >>= scoreOf) := by
  unfold performancePoints
  generalize s.options = n at few
  obtain rfl | rfl | rfl | rfl : n = 0 ∨ n = 1 ∨ n = 2 ∨ n = 3 := by omega
  all_goals exact ⟨_, rfl⟩

theorem succeeds_maintainabilityPoints (s : Signs) : Succeeds (maintainabilityPoints {} s >>= scoreOf) := by
  unfold maintainabilityPoints
  cases s.comments <;> cases s.typed <;> cases s.tests <;> exact ⟨_, rfl⟩

theorem succeeds_securityPoints (s : Signs) : Succeeds (securityPoints {} s >>= scoreOf) := by
  unfold securityPoints
  cases s.rawMarkup <;> cases s.evaluation <;> cases s.directWrite <;> exact ⟨_, rfl⟩

/-- With the usual points every component is assessed. -/
theorem assess_usual (c : Component) (config : Config) : Succeeds (assess {} c config) := by
  have few : (Signs.of c config).options ≤ 3 := List.countP_le_length
  have accessible : Succeeds (scoreOf (accessibilityPoints {} (Signs.of c config))) := by
    unfold accessibilityPoints
    split <;> exact ⟨_, rfl⟩
  have scores : Succeeds (Scores.of {} (Signs.of c config)) := by
    refine Succeeds.bind ⟨_, rfl⟩ fun _ _ => (succeeds_codePoints _).bind fun _ _ => ?_
    refine (succeeds_performancePoints few).bind fun _ _ => accessible.bind fun _ _ => ?_
    exact (succeeds_maintainabilityPoints _).bind fun _ _ => (succeeds_securityPoints _).map _
  exact scores.map _

end Project

/-! ### After the document is read -/

/-- The listener never asks to stop. -/
structure Listener.Patient (l : Listener) : Prop where
  never : ∀ heard, l.cancels heard = false
  unasked : l.token.cancelled = false

theorem Listener.Patient.hear {l : Listener} (patient : l.Patient) (p : Progress) : (l.hear p).Patient := by
  refine ⟨patient.never, ?_⟩
  simp only [Listener.hear, patient.never]
  exact patient.unasked

namespace Generation

open Project

/-- The template and the style sheet of a document's tree. -/
def template (tree : Source.Node) (config : Config) : Except Fault Styled := do
  let result ← Target.transformed tree
  styled (Target.Transformed.ofResult result).root config

/-- What the build of a component reports, whose document was read as `content`, with its template and
style sheet as they are `made`, and called `name`. -/
structure Reported (content : Intake.Content) (config : Config) (made : Styled) (name : String)
    (g : Generated) : Prop where
  templated : template content.tree config = .ok made
  named : config.name = .ok name
  logs : g.logs = logged .info content.warnings ++
    logged .warn (content.tree.topmost.map fun e => Target.droppedWarning e.1) ++
    misreadings config (String.ofList made.jsx) name ++ logged .info [s!"Validated {g.files.length} files"]
  status : g.status = if misreadings config (String.ofList made.jsx) name ≠ [] then .error
    else if content.tree.topmost = [] then .success else .warning

/-- A component that is adapted and assembled is reported so. -/
theorem reported {content : Intake.Content} {config : Config} {result : Option Target.Node × List String}
    (becomes : Target.transformed content.tree = .ok result) {made : Styled}
    (styles : styled (Target.Transformed.ofResult result).root config = .ok made) {c : Component}
    (adapts : Component.adapt (String.ofList made.jsx) made.css config = .ok c) {planned : Layout}
    {assembled : Assembled} (assembles : assemble c planned config = .ok assembled) {g : Generated}
    (files : g.files = assembled.files)
    (logs : g.logs = logsOf content (Target.Transformed.ofResult result).warnings assembled.files config)
    (status : g.status = .ofLogs g.logs) : ∃ name, Reported content config made name g := by
  have templated : template content.tree config = .ok made := by
    rw [template, becomes]
    exact styles
  cases named : config.name with
  | error fault =>
    rw [Component.adapt, named] at adapts
    cases adapts
  | ok name =>
    obtain ⟨c', adapts', adapted⟩ := adapt_some (String.ofList made.jsx) made.css named
    obtain rfl := Except.ok.inj (adapts.symm.trans adapts')
    obtain ⟨assembled', assembles', entries, -⟩ := assemble_some named adapted adapted.textOr_code planned
    obtain rfl := Except.ok.inj (assembles.symm.trans assembles')
    -- The logs in their order: of the reading, of what was dropped, of the build and of its end.
    have whole : g.logs = logged .info content.warnings ++
        logged .warn (content.tree.topmost.map fun e => Target.droppedWarning e.1) ++
        misreadings config (String.ofList made.jsx) name ++
        logged .info [s!"Validated {g.files.length} files"] := by
      rw [logs, logsOf, buildLogs_adapted named adapted entries, (Target.filtered_ofResult becomes).warnings,
        ← files]
      simp [logged]
    refine ⟨name, templated, named, whole, ?_⟩
    rw [status, whole, ofLogs_logged (errors_level config _ name)]
    simp

section

variable {Inv : Generator × Session → Prop}

/-- A tree becomes what it becomes without a memory. -/
theorem ensures_transform (kept : ∀ q st, Inv st → Inv (Generator.answer q st).2)
    (names : ∀ st, Inv st → st.1.services.names.Valid) (tree : Source.Node) :
    Ensures Generator.answer Inv (Run.put (.transform tree)) fun out =>
      out = Target.Transformed.ofResult <$> Target.transformed tree :=
  ensures_ask (fun st inv => ⟨kept _ st inv, (Target.transform_law tree _ (names st inv)).1⟩)
    fun _ => ensures_pure

theorem ensures_liftFault {α : Type} {r : Except Fault α} {Post : α → Prop}
    (holds : ∀ a, r = .ok a → Post a) : Ensures Generator.answer Inv (Run.liftFault r) Post := by
  refine ensures_lift fun a ends => holds a ?_
  cases r with
  | ok a' =>
    cases ends
    rfl
  | error e => exact nomatch ends

end

/-- The memory of a generator in a session holds names as they become. -/
def Remembers (st : Generator × Session) : Prop := st.1.services.names.Valid

/-- Nor is the session ever stopped. -/
structure Untroubled (st : Generator × Session) : Prop where
  remembers : Remembers st
  patient : st.2.listener.Patient

theorem answer_remembers (q : Ask) (st : Generator × Session) (valid : Remembers st) :
    Remembers (Generator.answer q st).2 :=
  Generator.answer_names q st.2 valid

theorem answer_untroubled (q : Ask) (st : Generator × Session) (untroubled : Untroubled st) :
    Untroubled (Generator.answer q st).2 := by
  refine ⟨answer_remembers q st untroubled.remembers, ?_⟩
  cases q with
  | report percent label =>
    have heard : st.2.report ⟨percent, label⟩ = st.2 ∨
        (st.2.report ⟨percent, label⟩).listener = st.2.listener.hear ⟨percent, label⟩ := by
      unfold Session.report
      split
      · exact .inl rfl
      · exact .inr rfl
    change (st.2.report ⟨percent, label⟩).listener.Patient
    obtain same | heard := heard
    · rw [same]
      exact untroubled.patient
    · rw [heard]
      exact untroubled.patient.hear _
  | _ => exact untroubled.patient

theorem ends_enter (phase : Phase) (percent : Number) (label : String) :
    Ends Generator.answer Untroubled (enter phase percent label) := fun _ _ => ⟨(), rfl⟩

theorem ends_checkpoint : Ends Generator.answer Untroubled checkpoint := by
  intro st untroubled
  have unfolded : checkpoint.exec Generator.answer st =
      Script.exec Generator.answer
        (if st.2.listener.token.cancelled then Run.fail (.failure .cancelled) else .done ()) st := rfl
  rw [unfolded, untroubled.patient.unasked]
  exact ⟨(), rfl⟩

theorem ends_after {α β : Type} {r : Run α} {f : α → Run β} (first : Ends Generator.answer Untroubled r)
    (further : ∀ a, Ends Generator.answer Untroubled (f a)) :
    Ends Generator.answer Untroubled (r >>= f) :=
  first.bind (ensures_kept answer_untroubled r) fun a _ => further a

theorem ends_liftFault {α β : Type} {r : Except Fault α} {f : α → Run β} {a : α} (gives : r = .ok a)
    (further : Ends Generator.answer Untroubled (f a)) :
    Ends Generator.answer Untroubled (Run.liftFault r >>= f) := by
  subst gives
  exact further

/-- What was read is analyzed together with what it was read from. -/
def analysis (s : Settings) (content : Intake.Content) : Pattern.Analysis :=
  Pattern.analyze s.patterns content.tree ((content.figma.map Figma.File.toJson).getD .null)

/-- What a generation needs to return, once its document is read. -/
structure Ready (s : Settings) (moment : Moment) (config : Config) (content : Intake.Content) : Prop where
  usual : s.quality = {}
  timed : moment.Timed
  planned : Succeeds (plan (analysis s content).interactions (analysis s content).assets config)
  templated : Succeeds (template content.tree config)

/-- What the steps of a generation give where it is ready. -/
theorem Ready.steps {s : Settings} {moment : Moment} {config : Config} {content : Intake.Content}
    (ready : Ready s moment config content) : ∃ layout result made c quality assembled metrics,
      plan (analysis s content).interactions (analysis s content).assets config = .ok layout ∧
      Target.transformed content.tree = .ok result ∧
      styled (Target.Transformed.ofResult result).root config = .ok made ∧
      Component.adapt (String.ofList made.jsx) made.css config = .ok c ∧
      Project.assess s.quality c config = .ok quality ∧ assemble c layout config = .ok assembled ∧
      Measures.ofFiles assembled.files moment.start moment.finish = .ok metrics := by
  obtain ⟨layout, planned⟩ := ready.planned
  obtain ⟨made, templated⟩ := ready.templated
  obtain ⟨result, becomes, styles⟩ := bind_eq_ok.1 templated
  obtain ⟨name, named, -⟩ := bind_eq_ok.1 styles
  obtain ⟨c, adapts, adapted⟩ := adapt_some (String.ofList made.jsx) made.css named
  obtain ⟨assembled, assembles, -⟩ := assemble_some named adapted adapted.textOr_code layout
  obtain ⟨quality, assessed⟩ := assess_usual c config
  obtain ⟨duration, passes⟩ := ready.timed
  obtain ⟨metrics, measured⟩ : Succeeds (Measures.ofFiles assembled.files moment.start moment.finish) := by
    rw [Measures.ofFiles, passes]
    exact ⟨_, rfl⟩
  exact ⟨layout, result, made, c, quality, assembled, metrics, planned, becomes, styles, adapts,
    ready.usual.symm ▸ assessed, assembles, measured⟩

/-- What a generation does with its document once it is read. What it reports is told by what was read,
and where that is ready it returns, if nobody stops it. -/
theorem generation_reads (s : Settings) (id : String) (moment : Moment) (document : Json) (config : Config) :
    ∃ rest : Intake.Content → Run Generated,
      generation s id moment document config = (enter .analyzing 10 "Analyzing design...").bind (fun _ =>
        (Intake.read s.intake s.channel reportBand document).bind rest) ∧
      (∀ content, Ensures Generator.answer Remembers (rest content) fun g =>
        ∃ made name, Reported content config made name g) ∧
      ∀ content, Ready s moment config content → Ends Generator.answer Untroubled (rest content) := by
  refine ⟨_, rfl, fun content => ?_, fun content ready => ?_⟩
  · -- Up to the transformation nothing matters but what was read.
    iterate 5 refine ensures_after answer_remembers _ fun _ => ?_
    refine (ensures_transform answer_remembers (fun _ valid => valid) content.tree).bind fun out becomes => ?_
    refine (ensures_liftFault fun t done => becomes.symm.trans done).bind fun transformed done => ?_
    obtain ⟨result, becomes, rfl⟩ := map_eq_ok.1 done
    refine (ensures_liftFault fun made styles => styles).bind fun made styles => ?_
    iterate 2 refine ensures_after answer_remembers _ fun _ => ?_
    refine (ensures_liftFault fun c adapts => adapts).bind fun c adapts => ?_
    iterate 5 refine ensures_after answer_remembers _ fun _ => ?_
    refine (ensures_liftFault fun made assembles => assembles).bind fun made assembles => ?_
    iterate 2 refine ensures_after answer_remembers _ fun _ => ?_
    exact ensures_pure ⟨_, reported becomes styles adapts assembles rfl rfl rfl⟩
  · -- No step fails, and nobody stops the run between two of them.
    obtain ⟨layout, result, made, c, quality, assembled, metrics, planned, becomes, styles, adapts, assessed,
      assembles, measured⟩ := ready.steps
    refine ends_after ends_checkpoint fun _ => ends_after (ends_enter _ _ _) fun _ => ?_
    refine ends_liftFault planned <| ends_after ends_checkpoint fun _ => ?_
    refine ends_after (ends_enter _ _ _) fun _ => ?_
    refine Ends.bind (fun _ _ => ⟨_, rfl⟩)
      (ensures_transform answer_untroubled (fun _ untroubled => untroubled.remembers) content.tree)
      fun out transforms => ?_
    have transformed : out = .ok (Target.Transformed.ofResult result) := by
      rw [transforms, becomes]
      rfl
    refine ends_liftFault transformed <| ends_liftFault styles <| ends_after ends_checkpoint fun _ => ?_
    refine ends_after (ends_enter _ _ _) fun _ => ends_liftFault adapts ?_
    refine ends_after ends_checkpoint fun _ => ends_after (ends_enter _ _ _) fun _ => ?_
    refine ends_liftFault assessed <| ends_after ends_checkpoint fun _ => ?_
    refine ends_after (ends_enter _ _ _) fun _ => ends_liftFault assembles ?_
    exact ends_liftFault measured <| ends_after ends_checkpoint fun _ => ends_pure _

end Generation

/-! ### The status of a generation -/

namespace Generator

open Project

variable {e : Generator} {moment : Generation.Moment} {millisecond : Int} {document : Json} {config : Config}
  {l : Listener} {g : Generated}

/-- How the next generation reads its document, once it has begun. -/
def reading (e : Generator) (millisecond : Int) (document : Json) (l : Listener) :
    Except Trouble Intake.Content × Generator × Session :=
  (Intake.read e.settings.intake e.settings.channel Generation.reportBand document).exec answer
    ((e.start millisecond l).1, begun (Session.idOf millisecond (e.issued + 1)) l)

/-- The reading keeps what every answer keeps. -/
theorem reading_keeps {Inv : Generator × Session → Prop} (kept : ∀ q st, Inv st → Inv (answer q st).2)
    (begins : Inv ((e.start millisecond l).1, begun (Session.idOf millisecond (e.issued + 1)) l)) :
    Inv (e.reading millisecond document l).2 :=
  (ensures_kept kept (Intake.read e.settings.intake e.settings.channel Generation.reportBand document) _
    begins).1

/-- The document is read, and then the run goes on with what was read. -/
theorem run_reading (e : Generator) (moment : Generation.Moment) (millisecond : Int) (document : Json)
    (config : Config) (l : Listener) : ∃ rest : Intake.Content → Run Generated,
      ((e.run moment millisecond document config).exec answer (e.start millisecond l) =
        match e.reading millisecond document l with
        | (.ok content, st) => (rest content).exec answer st
        | (.error t, st) => (.error t, st)) ∧
      (∀ content, Ensures answer Generation.Remembers (rest content) fun g =>
        ∃ made name, Generation.Reported content config made name g) ∧
      ∀ content, Generation.Ready e.settings moment config content →
        Ends answer Generation.Untroubled (rest content) := by
  obtain ⟨rest, whole, told⟩ := Generation.generation_reads e.settings
    (Session.idOf millisecond (e.issued + 1)) moment document config
  refine ⟨rest, ?_, told⟩
  have begins := exec_begun ((Intake.read e.settings.intake e.settings.channel Generation.reportBand
    document).bind rest) (e.start millisecond l).1 (Session.idOf millisecond (e.issued + 1)) l
  rw [← whole, exec_bind, ← reading] at begins
  generalize e.reading millisecond document l = read at begins
  obtain ⟨content | t, st⟩ := read <;> exact begins

/-- A run that returns reports what its document gives. -/
theorem run_reported (valid : e.services.names.Valid)
    (returns : ((e.run moment millisecond document config).exec answer (e.start millisecond l)).1 = .ok g) :
    ∃ content made name, (e.reading millisecond document l).1 = .ok content ∧
      Generation.Reported content config made name g := by
  obtain ⟨rest, runs, told, -⟩ := run_reading e moment millisecond document config l
  rw [runs] at returns
  have kept : Generation.Remembers (e.reading millisecond document l).2 :=
    reading_keeps Generation.answer_remembers valid
  generalize e.reading millisecond document l = read at returns kept
  obtain ⟨result, st⟩ := read
  cases result with
  | error t => exact nomatch returns
  | ok content =>
    obtain ⟨made, name, reported⟩ := (told content st kept).2 g returns
    exact ⟨content, made, name, rfl, reported⟩

theorem returns_of_generate (returns : (e.generate moment millisecond document config l).1.result = .ok g) :
    ((e.run moment millisecond document config).exec answer (e.start millisecond l)).1 = .ok g := by
  cases ends : (e.run moment millisecond document config).exec answer (e.start millisecond l) with
  | mk result st =>
  obtain ⟨e', s⟩ := st
  rw [generate_eq ends] at returns
  cases result with
  | error t =>
    have failed : (.error t : Except Trouble Generated) = .ok g := returns
    cases failed
  | ok g' =>
    rw [finish, complete] at returns
    cases cached : e'.cache.set e'.time s.id g' g'.size with
    | mk entered cache =>
      simp only [cached] at returns
      cases entered with
      | ok u => exact returns
      | error f =>
        have failed : (.error (.fault f) : Except Trouble Generated) = .ok g := returns
        cases failed

/-- A generation that nobody stops returns, if its document is read and ready, and its result can be
cached. -/
theorem generate_returns (valid : e.services.names.Valid) (patient : l.Patient)
    (tells : Store.Tells e.cache.limits e.cache.count) {content : Intake.Content}
    (reads : (e.reading millisecond document l).1 = .ok content)
    (ready : Generation.Ready e.settings moment config content) :
    ∃ g, (e.generate moment millisecond document config l).1.result = .ok g := by
  obtain ⟨rest, runs, -, ends⟩ := run_reading e moment millisecond document config l
  have kept : Generation.Untroubled (e.reading millisecond document l).2 :=
    reading_keeps Generation.answer_untroubled ⟨valid, patient.hear _⟩
  have returns : ∃ g,
      ((e.run moment millisecond document config).exec answer (e.start millisecond l)).1 = .ok g := by
    rw [runs]
    generalize e.reading millisecond document l = read at reads kept
    obtain ⟨result, st⟩ := read
    cases reads
    exact ends content ready st kept
  obtain ⟨g, returns⟩ := returns
  -- The run leaves the cache as it was, so the result can be entered still.
  obtain ⟨services, left, -⟩ := exec_leaves (e.run moment millisecond document config)
    (e.start millisecond l).1 (e.start millisecond l).2
  refine ⟨g, ?_⟩
  cases ended : (e.run moment millisecond document config).exec answer (e.start millisecond l) with
  | mk result st =>
  obtain ⟨e', s⟩ := st
  rw [ended] at returns left
  cases returns
  have other_services : e' = { (e.start millisecond l).1 with services } := left
  have same_cache : e'.cache = e.cache := by
    rw [other_services]
    rfl
  have cached : (e'.cache.set e'.time s.id g g.size).1 = .ok () := by
    rw [same_cache]
    exact Store.set_isOk tells
  rw [generate_eq ended, finish, complete]
  generalize e'.cache.set e'.time s.id g g.size = entered at cached
  obtain ⟨entered, cache⟩ := entered
  cases cached
  rfl

/-- Of a generation that returns the status tells whether anything of its document was dropped, and no
more, unless the build takes the template or the name for code. -/
theorem generate_status (valid : e.services.names.Valid)
    (returns : (e.generate moment millisecond document config l).1.result = .ok g) :
    ∃ content made name, (e.reading millisecond document l).1 = .ok content ∧
      Generation.Reported content config made name g :=
  run_reported valid (returns_of_generate returns)

/-- A moment at which no time passes. -/
def instant : Generation.Moment := ⟨.real (.zero false), .real (.zero false), default⟩

/-- Whether a new generator reads a document ready for its component. -/
def isReady (document : String) (config : Config) : Bool :=
  match ((make {}).reading 0 (.str document) {}).1 with
  | .error _ => false
  | .ok content =>
    let analysis := Generation.analysis {} content
    decide (Succeeds (Generation.plan analysis.interactions analysis.assets config)) &&
      decide (Succeeds (Generation.template content.tree config))

theorem first_returns {document : String} (ready : isReady document config = true) :
    ∃ g, ((make {}).generate instant 0 (.str document) config {}).1.result = .ok g := by
  have tells : Store.Tells {} 0 := by
    intro n none
    obtain rfl := Nat.le_zero.1 none
    exact ⟨0, by decide +kernel⟩
  unfold isReady at ready
  cases reads : ((make {}).reading 0 (.str document) {}).1 with
  | error t => simp [reads] at ready
  | ok content =>
    rw [reads, Bool.and_eq_true, decide_eq_true_eq, decide_eq_true_eq] at ready
    exact generate_returns (sound_make {}).names ⟨fun _ => rfl, rfl⟩ tells reads
      ⟨rfl, Generation.timed_real _ _ _, ready.1, ready.2⟩

set_option maxRecDepth 100000 in
theorem generate_status_script : (make {}).services.names.Valid ∧ ∃ g,
    ((make {}).generate instant 0 (.str "<svg><script/></svg>") {} {}).1.result = .ok g ∧
      ∃ content made name, ((make {}).reading 0 (.str "<svg><script/></svg>") {}).1 = .ok content ∧
        Generation.Reported content {} made name g := by
  have valid : (make {}).services.names.Valid := (sound_make {}).names
  have ready : isReady "<svg><script/></svg>" {} = true := by decide +kernel
  obtain ⟨g, returns⟩ := first_returns ready
  exact ⟨valid, g, returns, generate_status valid returns⟩

/-- A document of which nothing is dropped, and whose build fails. -/
def Misread (document : String) (config : Config) : Prop :=
  ∃ content g, ((make {}).reading 0 (.str document) {}).1 = .ok content ∧
    ((make {}).generate instant 0 (.str document) config {}).1.result = .ok g ∧
    content.tree.topmost = [] ∧ g.status = .error

/-- Whether nothing of a document is dropped, and its template or the component's name is taken for code. -/
def isMisread (document : String) (config : Config) : Bool :=
  match ((make {}).reading 0 (.str document) {}).1, config.name with
  | .ok content, .ok name => content.tree.topmost.isEmpty &&
    match Generation.template content.tree config with
    | .ok made => !(misreadings config (String.ofList made.jsx) name).isEmpty
    | .error _ => false
  | _, _ => false

theorem misread_of_ready {document : String} (ready : isReady document config = true)
    (misread : isMisread document config = true) : Misread document config := by
  obtain ⟨g, returns⟩ := first_returns ready
  obtain ⟨content, made, name, reads, reported⟩ :=
    run_reported (sound_make {}).names (returns_of_generate returns)
  rw [isMisread, reads, reported.named] at misread
  simp only [reported.templated, Bool.and_eq_true, List.isEmpty_iff, Bool.not_eq_true'] at misread
  refine ⟨content, g, reads, returns, misread.1, ?_⟩
  rw [reported.status, if_pos]
  exact List.isEmpty_eq_false_iff.1 misread.2

set_option maxRecDepth 100000 in
/-- The text of an Angular component may tell the type of React components, and the name of a component may
end in the word for interfaces. -/
theorem misread_text_name : Misread "<svg>: React.FC</svg>" { framework := .str "angular" } ∧
    Misread "<svg/>" { componentName := .str "userinterface", unitTests := .bool true } :=
  ⟨misread_of_ready (by decide +kernel) (by decide +kernel),
    misread_of_ready (by decide +kernel) (by decide +kernel)⟩

end Generator

end DesignComponents
