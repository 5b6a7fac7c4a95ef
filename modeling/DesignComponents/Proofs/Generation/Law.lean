import DesignComponents.Generator
import DesignComponents.Proofs.Generation.Order
import DesignComponents.Proofs.Script
import DesignComponents.Proofs.Store

/-! The law of one generation, from its start to the result or the failure that it ends with: what
its listener hears, which phases its session enters, what becomes of a request to stop, and what is
left in the generator. -/

set_option autoImplicit false

namespace DesignComponents

/-! ### What is told of a session -/

/-- A session stays in its phase, enters the next one, or fails before it is done. -/
def Phase.Follows (φ ψ : Phase) : Prop := ψ = φ ∨ φ.next? = some ψ ∨ ψ = .failed ∧ φ ≠ .done

namespace Session

/-- The percentages that were heard never fall, begin at ten, and end below a hundred. -/
structure Climbs (s : Session) : Prop where
  reached : s.listener.heard.head?.map Progress.percent = some s.percent
  rises : s.listener.heard.IsChain fun later earlier => earlier.percent.le later.percent = true
  within : ∀ p ∈ s.listener.heard, p.percent.Fair ∧ Number.le 10 p.percent = true

theorem Climbs.some_reached {s : Session} (climbs : s.Climbs) :
    ∃ p earlier, s.listener.heard = p :: earlier ∧ p.percent = s.percent := by
  cases heard : s.listener.heard with
  | nil =>
    have := climbs.reached
    rw [heard] at this
    exact nomatch this
  | cons p earlier =>
    have := climbs.reached
    rw [heard] at this
    exact ⟨p, earlier, rfl, Option.some.inj this⟩

/-- Whoever listens, a fair report keeps the percentages rising. -/
theorem Climbs.report {s : Session} (climbs : s.Climbs) {p : Progress} (fair : p.percent.Fair) :
    (s.report p).Climbs := by
  obtain ⟨latest, earlier, heard, reached⟩ := climbs.some_reached
  have mem : latest ∈ s.listener.heard := by
    rw [heard]
    exact List.mem_cons_self
  obtain ⟨fair_latest, from_ten⟩ := climbs.within latest mem
  unfold Session.report
  by_cases falls : p.percent.lt s.percent = true
  · rw [if_pos falls]
    exact climbs
  · rw [if_neg falls]
    rw [← reached] at falls
    have rises := Number.le_of_not_lt fair.isSome fair_latest.isSome (Bool.eq_false_iff.2 falls)
    have chain := climbs.rises
    rw [heard] at chain
    constructor
    · rfl
    · change (p :: s.listener.heard).IsChain _
      rw [heard]
      exact .cons_cons rises chain
    · intro p' mem'
      rcases List.mem_cons.1 mem' with rfl | mem'
      · exact ⟨fair, Number.le_trans (by decide) fair_latest.isSome fair.isSome from_ten rises⟩
      · exact climbs.within p' mem'

/-- The session has the listener `l`, who asked it to stop if it was cancelled in the beginning or
when it heard of any of the progress. -/
structure Heeds (l : Listener) (s : Session) : Prop where
  cancels : s.listener.cancels = l.cancels
  asked : s.listener.token.cancelled = false →
    l.token.cancelled = false ∧ ∀ h ≠ [], h <:+ s.listener.heard → l.cancels h = false

theorem Heeds.report {l : Listener} {s : Session} (heeds : Heeds l s) (p : Progress) :
    Heeds l (s.report p) := by
  unfold Session.report
  split
  · exact heeds
  · constructor
    · exact heeds.cancels
    · intro uncancelled
      simp only [Listener.hear] at uncancelled ⊢
      cases stops : s.listener.cancels (p :: s.listener.heard) with
      | true =>
        rw [stops] at uncancelled
        exact nomatch uncancelled
      | false =>
        rw [stops] at uncancelled
        obtain ⟨started, before⟩ := heeds.asked uncancelled
        refine ⟨started, fun h some_h suffix => ?_⟩
        rcases List.suffix_cons_iff.1 suffix with rfl | suffix
        · rw [← heeds.cancels]
          exact stops
        · exact before h some_h suffix

theorem report_phase (s : Session) (p : Progress) : (s.report p).phase = s.phase := by
  unfold Session.report
  split <;> rfl

theorem report_id (s : Session) (p : Progress) : (s.report p).id = s.id := by
  unfold Session.report
  split <;> rfl

end Session

/-! ### What a run keeps -/

namespace Generator

/-- What holds between two answers in a session `id` with the listener `l`, in the generator that
was `e` when the session began. -/
structure Keeps (e : Generator) (id : String) (l : Listener) (st : Generator × Session) : Prop where
  services : st.1 = { e with services := st.1.services }
  id : st.2.id = id
  undone : st.2.phase ≠ .done
  climbs : st.2.Climbs
  heeds : st.2.Heeds l

variable {e : Generator} {id : String} {l : Listener} {st : Generator × Session} {φ ψ : Phase}
  {pool : Prop}

theorem answer_keeps {q : Ask} (leads : q.Leads pool φ ψ) (keeps : Keeps e id l st)
    (phase : st.2.phase = φ) : Keeps e id l (answer q st).2 ∧ (answer q st).2.2.phase = ψ := by
  obtain ⟨generator, session⟩ := st
  have inside : ∀ services : Services,
      Keeps e id l ({ generator with services }, session) := by
    intro services
    refine ⟨?_, keeps.id, keeps.undone, keeps.climbs, keeps.heeds⟩
    exact congrArg (fun g : Generator => { g with services }) keeps.services
  cases leads with
  | enter next undone =>
    have climbs : Session.Climbs { session with phase := ψ } :=
      ⟨keeps.climbs.reached, keeps.climbs.rises, keeps.climbs.within⟩
    have heeds : Session.Heeds l { session with phase := ψ } :=
      ⟨keeps.heeds.cancels, keeps.heeds.asked⟩
    exact ⟨⟨keeps.services, keeps.id, undone, climbs, heeds⟩, rfl⟩
  | report label fair =>
    refine ⟨⟨keeps.services, ?_, ?_, keeps.climbs.report fair, keeps.heeds.report _⟩, ?_⟩
    · exact (Session.report_id _ _).trans keeps.id
    · exact (Session.report_phase _ _).trans_ne keeps.undone
    · exact (Session.report_phase _ _).trans phase
  | isCancelled => exact ⟨keeps, phase⟩
  | pause => exact ⟨keeps, phase⟩
  | enterStage stage => exact ⟨inside _, phase⟩
  | takeTask => exact ⟨inside _, phase⟩
  | rename markup => exact ⟨inside _, phase⟩
  | transform tree => exact ⟨inside _, phase⟩

/-- The phases of the session in the states that a run passes through. -/
def phasesOf {α : Type} (r : Run α) (st : Generator × Session) : List Phase :=
  (r.states answer st).map fun st => st.2.phase

/-- What one answer keeps a whole run keeps, and its phases follow each other, up to any that may
follow the last of them. -/
theorem exec_keeps {α : Type} {r : Run α} (leads : Run.Leads pool φ r ψ) (keeps : Keeps e id l st)
    (phase : st.2.phase = φ) : Keeps e id l (r.exec answer st).2 ∧
      (∀ a, (r.exec answer st).1 = .ok a → (r.exec answer st).2.2.phase = ψ) ∧
      ∀ last, (r.exec answer st).2.2.phase.Follows last →
        (φ :: (phasesOf r st ++ [last])).IsChain Phase.Follows := by
  induction leads generalizing st with
  | done φ a =>
    refine ⟨keeps, fun _ _ => phase, fun last follows => ?_⟩
    rw [← phase]
    exact .cons_cons follows (.singleton last)
  | fail φ ψ t =>
    refine ⟨keeps, (fun _ ends => nomatch ends), fun last follows => ?_⟩
    rw [← phase]
    exact .cons_cons follows (.singleton last)
  | @ask φ χ ψ q next first further ih =>
    obtain ⟨kept, reached⟩ := answer_keeps first keeps phase
    obtain ⟨kept_after, ends, chain⟩ := ih (answer q st).1 kept reached
    -- A question stays in its phase, unless it enters the next one.
    have step : φ.Follows χ := by
      cases first with
      | enter next_is _ => exact .inr (.inl next_is)
      | _ => exact .inl rfl
    refine ⟨kept_after, ends, fun last follows => ?_⟩
    have rest := chain last follows
    rw [phasesOf, Script.states, List.map_cons, reached]
    exact .cons_cons step rest

/-! ### The beginning and the end -/

/-- What is checked last is that nobody asked to stop. -/
theorem leaves_checked {α : Type} (a : α) :
    Script.Leaves answer (Generation.checkpoint >>= fun _ => pure a : Run α) fun a' st =>
      a' = a ∧ st.2.listener.token.cancelled = false := by
  intro st a' ends
  obtain ⟨generator, session⟩ := st
  have unfolded : (Generation.checkpoint >>= fun _ => pure a : Run α).exec answer (generator, session) =
      Script.exec answer
        ((if session.listener.token.cancelled then Run.fail (.failure .cancelled) else .done ()).bind
          fun _ => .done a) (generator, session) := rfl
  rw [unfolded] at ends ⊢
  cases stops : session.listener.token.cancelled with
  | true =>
    rw [stops] at ends
    exact nomatch ends
  | false =>
    rw [stops] at ends
    cases ends
    exact ⟨rfl, stops⟩

theorem leaves_generation (s : Generation.Settings) (id : String) (moment : Generation.Moment)
    (document : Json) (config : Config) :
    Script.Leaves answer (Generation.generation s id moment document config) fun g st =>
      g.id = id ∧ st.2.listener.token.cancelled = false := by
  unfold Generation.generation
  iterate 20 refine Script.leaves_bind fun _ => ?_
  intro st g ends
  obtain ⟨rfl, unasked⟩ := leaves_checked _ st g ends
  exact ⟨rfl, unasked⟩

/-- Whether its result could be cached or not, a session is left with what is then in the cache. -/
theorem complete_leaves (e : Generator) (s : Session) (g : Generated) : (e.complete s g).2 =
    Generator.leave { e with cache := (e.cache.set e.time s.id g g.size).2 } s := by
  simp only [complete]
  rcases e.cache.set e.time s.id g g.size with ⟨entered | u, cache⟩ <;> rfl

/-- A session that has said that the design is analyzed. -/
def begun (id : String) (l : Listener) : Session where
  id := id
  phase := .analyzing
  percent := 10
  listener := l.hear ⟨10, "Analyzing design..."⟩

theorem report_analyzing (id : String) (l : Listener) :
    Session.report { id, listener := l, phase := .analyzing } ⟨10, "Analyzing design..."⟩ =
      begun id l := by
  have rises : ¬Number.lt 10 (.real (.zero false)) = true := by decide +kernel
  rw [Session.report, if_neg rises, begun]

theorem begun_keeps (e : Generator) (id : String) (cancels : List Progress → Bool) (token : Token) :
    Keeps e id { cancels, token } (e, begun id { cancels, token }) := by
  have heeds : Session.Heeds { cancels, token }
      { id, listener := { cancels, token }, phase := .analyzing } := by
    refine ⟨rfl, fun unasked => ⟨unasked, fun h some_h suffix => ?_⟩⟩
    exact absurd (List.suffix_nil.1 suffix) some_h
  have heeds_begun := heeds.report ⟨10, "Analyzing design..."⟩
  rw [report_analyzing] at heeds_begun
  refine ⟨rfl, rfl, nofun, ?_, heeds_begun⟩
  constructor
  · rfl
  · exact .singleton _
  · intro p mem
    obtain rfl := List.mem_singleton.1 mem
    exact ⟨⟨by decide, by decide⟩, by decide⟩

/-- The first phase is entered and reported as in a session that has begun. -/
theorem exec_begun {α : Type} (rest : Run α) (e : Generator) (id : String) (l : Listener) :
    ((Generation.enter .analyzing 10 "Analyzing design...").bind fun _ => rest).exec answer
        (e, { id, listener := l }) = rest.exec answer (e, begun id l) := by
  rw [← report_analyzing]
  rfl

theorem phasesOf_begun {α : Type} (rest : Run α) (e : Generator) (id : String) (l : Listener) :
    phasesOf ((Generation.enter .analyzing 10 "Analyzing design...").bind fun _ => rest)
        (e, { id, listener := l }) =
      .analyzing :: .analyzing :: phasesOf rest (e, begun id l) := by
  have unfolded : phasesOf ((Generation.enter .analyzing 10 "Analyzing design...").bind fun _ => rest)
      (e, { id, listener := l }) =
        let first := Session.report { id, listener := l, phase := .analyzing }
          ⟨10, "Analyzing design..."⟩
        .analyzing :: first.phase :: phasesOf rest (e, first) := rfl
  rw [unfolded, report_analyzing]
  rfl

section

variable (e : Generator) (moment : Generation.Moment) (millisecond : Int) (document : Json)
  (config : Config)

/-- The run of the next generation. -/
def run : Run Generated :=
  Generation.generation e.settings (Session.idOf millisecond (e.issued + 1)) moment document config

variable (l : Listener)

/-- The phases of its session from the start until it is closed. -/
def phases : List Phase :=
  (.created :: phasesOf (e.run moment millisecond document config) (e.start millisecond l)) ++
    [(e.generate moment millisecond document config l).1.session.phase]

end

section

variable {e : Generator} {moment : Generation.Moment} {millisecond : Int} {document : Json}
  {config : Config} {cancels : List Progress → Bool} {token : Token}

theorem generate_eq {result : Except Trouble Generated} {e' : Generator} {s : Session} {l : Listener}
    (ends : (e.run moment millisecond document config).exec answer (e.start millisecond l) =
      (result, e', s)) :
    e.generate moment millisecond document config l = e'.finish s result := by
  have unfolded : e.generate moment millisecond document config l =
      let made := (e.run moment millisecond document config).exec answer (e.start millisecond l)
      made.2.1.finish made.2.2 made.1 := rfl
  rw [unfolded, ends]

/-- What a run keeps, and that its phases follow each other. -/
theorem run_keeps {result : Except Trouble Generated} {e' : Generator} {s : Session}
    (ends : (e.run moment millisecond document config).exec answer
      (e.start millisecond { cancels, token }) = (result, e', s)) :
    Keeps (e.start millisecond { cancels, token }).1 (Session.idOf millisecond (e.issued + 1))
        { cancels, token } (e', s) ∧
      (∀ g, result = .ok g → s.phase = .assembling ∧ s.listener.token.cancelled = false) ∧
      ∀ last, s.phase.Follows last →
        ((Phase.created :: phasesOf (e.run moment millisecond document config)
          (e.start millisecond { cancels, token })) ++ [last]).IsChain Phase.Follows := by
  obtain ⟨rest, whole, leads⟩ := Generation.generation_begins (fun _ => trivial)
    (Session.idOf millisecond (e.issued + 1)) moment document config
  have begins := begun_keeps (e.start millisecond { cancels, token }).1
    (Session.idOf millisecond (e.issued + 1)) cancels token
  obtain ⟨keeps, returns, chain⟩ := exec_keeps leads begins rfl
  have unasked := leaves_generation e.settings (Session.idOf millisecond (e.issued + 1)) moment
    document config (e.start millisecond { cancels, token })
  have same_end : (e.run moment millisecond document config).exec answer
      (e.start millisecond { cancels, token }) = rest.exec answer
        ((e.start millisecond { cancels, token }).1, begun (Session.idOf millisecond (e.issued + 1))
          { cancels, token }) := by
    rw [run, whole]
    exact exec_begun rest _ _ _
  have same_phases : phasesOf (e.run moment millisecond document config)
      (e.start millisecond { cancels, token }) = .analyzing :: .analyzing :: phasesOf rest
        ((e.start millisecond { cancels, token }).1, begun (Session.idOf millisecond (e.issued + 1))
          { cancels, token }) := by
    rw [run, whole]
    exact phasesOf_begun rest _ _ _
  rw [← same_end, ends] at keeps returns chain
  rw [← run, ends] at unasked
  rw [same_phases]
  refine ⟨keeps, fun g done => ⟨returns g done, (unasked g done).2⟩, fun last follows => ?_⟩
  exact .cons_cons (.inr (.inl rfl)) (.cons_cons (.inl rfl) (chain last follows))

end

/-! ### The law -/

/-- What a generation gives that returns. -/
structure Returned (l : Listener) (o : Outcome) (e' : Generator) (g : Generated) : Prop where
  phase : o.session.phase = .done
  /-- That all is done is heard at last, and of nothing heard before did anybody ask to stop. -/
  heard : ∃ earlier, o.session.listener.heard = ⟨100, "Complete!"⟩ :: earlier ∧
    (∀ p ∈ earlier, p.percent.lt 100 = true) ∧
    l.token.cancelled = false ∧ ∀ h ≠ [], h <:+ earlier → l.cancels h = false
  cached : ∃ older entry, e'.cache.entries.entries = older ++ [(o.session.id, entry)] ∧ entry.value = g

/-- What a generation leaves that fails. -/
structure Raised (e : Generator) (o : Outcome) (e' : Generator) : Prop where
  phase : o.session.phase = .failed
  heard : ∀ p ∈ o.session.listener.heard, p.percent.lt 100 = true
  cache : e'.cache = e.cache

/-- The law of a generation with the listener `l`. -/
structure Lawful (e : Generator) (l : Listener) (phases : List Phase) (o : Outcome) (e' : Generator) :
    Prop where
  rises : o.session.listener.heard.IsChain fun later earlier => earlier.percent.le later.percent = true
  within : ∀ p ∈ o.session.listener.heard, Number.le 10 p.percent = true ∧ p.percent.le 100 = true
  phases : phases.IsChain Phase.Follows
  left : o.session.id ∉ e'.active
  returned : ∀ g, o.result = .ok g → Returned l o e' g
  raised : ∀ t, o.result = .error t → Raised e o e'

theorem not_mem_leave (e : Generator) (s : Session) : s.id ∉ (e.leave s).active := by
  intro mem
  have other := (List.mem_filter.1 mem).2
  simp at other

section

variable {e e' : Generator} {id : String} {l : Listener} {s : Session}

theorem Keeps.rises (keeps : Keeps e id l (e', s)) :
    ∀ p ∈ s.listener.heard, Number.le 10 p.percent = true ∧ p.percent.le 100 = true := by
  intro p mem
  obtain ⟨fair, from_ten⟩ := keeps.climbs.within p mem
  exact ⟨from_ten, Number.le_of_lt fair.isSome (by decide) fair.below⟩

theorem Keeps.cache (keeps : Keeps e id l (e', s)) : e'.cache = e.cache := by
  have same := keeps.services
  simp only at same
  rw [same]

/-- All is done is heard wherever it is told. -/
theorem enter_done (keeps : Keeps e id l (e', s)) :
    s.enter .done ⟨100, "Complete!"⟩ = { s with
      phase := .done, percent := 100, listener := s.listener.hear ⟨100, "Complete!"⟩ } := by
  obtain ⟨latest, earlier, heard, reached⟩ := keeps.climbs.some_reached
  have mem : latest ∈ s.listener.heard := by
    rw [heard]
    exact List.mem_cons_self
  have fair := (keeps.climbs.within latest mem).1
  have rises : ¬Number.lt 100 s.percent = true := by
    rw [← reached, Number.lt_iff (by decide) fair.isSome, not_lt,
      ← Number.le_iff fair.isSome (by decide)]
    exact Number.le_of_lt fair.isSome (by decide) fair.below
  rw [Session.enter, Session.report, if_neg rises]

variable {before : Generator} {phases : List Phase}
  (chain : ∀ last, s.phase.Follows last → (phases ++ [last]).IsChain Phase.Follows)

include chain

/-- A session that fails is lawful, if the cache has been left alone. -/
theorem abort_lawful (keeps : Keeps e id l (e', s)) (cache : e'.cache = before.cache) (t : Trouble) :
    Lawful before l (phases ++ [(e'.abort s t).1.session.phase]) (e'.abort s t).1 (e'.abort s t).2 where
  rises := keeps.climbs.rises
  within := keeps.rises
  phases := chain _ (.inr (.inr ⟨rfl, keeps.undone⟩))
  left := not_mem_leave e' s
  returned _ ends := nomatch ends
  raised _ _ := ⟨rfl, fun p mem => (keeps.climbs.within p mem).1.below, cache⟩

/-- A session that returns is lawful, also if its result cannot be cached. -/
theorem complete_lawful (keeps : Keeps e id l (e', s)) (cache : e'.cache = before.cache)
    (fresh : before.cache.entries.get? id = none) (last_phase : s.phase = .assembling)
    (unasked : s.listener.token.cancelled = false) (g : Generated) :
    Lawful before l (phases ++ [(e'.complete s g).1.session.phase]) (e'.complete s g).1
      (e'.complete s g).2 := by
  rw [← cache, ← keeps.id] at fresh
  -- What cannot be cached ends the session as any other fault would.
  cases cached : e'.cache.set e'.time s.id g g.size with
  | mk entered held =>
  cases entered with
  | error f =>
    have same : held = e'.cache := by
      have kept := Store.set_error fresh (congrArg Prod.fst cached)
      rwa [cached] at kept
    have aborts : e'.complete s g = e'.abort s (.fault f) := by
      simp only [complete, cached, same]
    rw [aborts]
    exact abort_lawful chain keeps cache _
  | ok u =>
    obtain ⟨older, entries, -⟩ := Store.set_ok (congrArg Prod.fst cached)
    rw [cached] at entries
    have completes : e'.complete s g = (⟨.ok g, { s with
        phase := .done, percent := 100, listener := s.listener.hear ⟨100, "Complete!"⟩ }⟩,
        Generator.leave { e' with cache := held } s) := by
      simp only [complete, cached, enter_done keeps]
    obtain ⟨latest, earlier, heard, -⟩ := keeps.climbs.some_reached
    have rises := keeps.climbs.rises
    have below := (keeps.climbs.within latest (by rw [heard]; exact List.mem_cons_self)).1
    rw [completes]
    constructor
    · change (⟨100, "Complete!"⟩ :: s.listener.heard : List Progress).IsChain _
      rw [heard] at rises ⊢
      exact .cons_cons (Number.le_of_lt below.isSome (by decide) below.below) rises
    · intro p mem
      rcases List.mem_cons.1 mem with rfl | mem
      · exact ⟨by decide, by decide⟩
      · exact keeps.rises p mem
    · exact chain _ (.inr (.inl (by rw [last_phase]; rfl)))
    · exact not_mem_leave { e' with cache := held } s
    · intro g' returns
      cases returns
      obtain ⟨started, asked⟩ := keeps.heeds.asked unasked
      refine ⟨rfl, ⟨s.listener.heard, rfl, ?_, started, asked⟩, ⟨older, _, entries, rfl⟩⟩
      exact fun p mem => (keeps.climbs.within p mem).1.below
    · exact fun t fails => nomatch fails

end

/-- Every generation is lawful, whatever the document, the settings and the listener, in a generator
that has cached nothing under the name of the session. -/
theorem generate_lawful {e : Generator} {moment : Generation.Moment} {millisecond : Int}
    {document : Json} {config : Config} {cancels : List Progress → Bool} {token : Token}
    (fresh : e.cache.entries.get? (Session.idOf millisecond (e.issued + 1)) = none) :
    Lawful e { cancels, token } (e.phases moment millisecond document config { cancels, token })
      (e.generate moment millisecond document config { cancels, token }).1
      (e.generate moment millisecond document config { cancels, token }).2 := by
  cases ends : (e.run moment millisecond document config).exec answer
      (e.start millisecond { cancels, token }) with
  | mk result st =>
  obtain ⟨e', s⟩ := st
  obtain ⟨keeps, returns, chain⟩ := run_keeps ends
  have same_cache : e'.cache = e.cache := keeps.cache
  rw [phases, generate_eq ends]
  cases result with
  | error t => exact abort_lawful chain keeps same_cache t
  | ok g =>
    obtain ⟨last_phase, unasked⟩ := returns g rfl
    exact complete_lawful chain keeps same_cache fresh last_phase unasked g

/-- A listener that asks to stop when it hears of progress for the seventh time. -/
def impatient : Listener := { cancels := fun heard => heard.length == 7 }

theorem generate_lawful_first :
    (make {}).cache.entries.get? (Session.idOf 0 1) = none ∧
      Lawful (make {}) impatient
        ((make {}).phases ⟨0, 0, default⟩ 0 (.str "<svg><rect/></svg>") {} impatient)
        ((make {}).generate ⟨0, 0, default⟩ 0 (.str "<svg><rect/></svg>") {} impatient).1
        ((make {}).generate ⟨0, 0, default⟩ 0 (.str "<svg><rect/></svg>") {} impatient).2 :=
  ⟨rfl, generate_lawful rfl⟩

end Generator

end DesignComponents
