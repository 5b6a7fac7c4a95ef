import DesignComponents.Proofs.Generation.Turns
import DesignComponents.Proofs.Target.Transform

/-! Sessions that differ in nothing but their names, in two generators that may remember different
names and hold different results. Each turn leads them to the same. -/

set_option autoImplicit false

namespace DesignComponents

namespace Script

variable {Q : Type} {Answer : Q → Type} {ε α β γ : Type} {R : α → β → Prop}

/-- The scripts ask the same, and given the same answers they fail with the same error or end with
what is related. -/
inductive Like (R : α → β → Prop) : Script Answer ε α → Script Answer ε β → Prop where
  | done {a : α} {b : β} (related : R a b) : Like R (done a) (done b)
  | fail (e : ε) : Like R (fail e) (fail e)
  | ask (q : Q) {next : Answer q → Script Answer ε α} {next' : Answer q → Script Answer ε β}
    (further : ∀ a, Like R (next a) (next' a)) : Like R (ask q next) (ask q next')

theorem Like.bind {S : α → β → Prop} {α' β' : Type} {R : α' → β' → Prop}
    {first : Script Answer ε α} {first' : Script Answer ε β} {f : α → Script Answer ε α'}
    {f' : β → Script Answer ε β'}
    (like : Like S first first') (further : ∀ a b, S a b → Like R (f a) (f' b)) :
    Like R (first >>= f) (first' >>= f') := by
  induction like with
  | done related => exact further _ _ related
  | fail e => exact .fail e
  | ask q _ ih => exact .ask q ih

theorem like_refl (s : Script Answer ε α) : Like (fun a b => a = b) s s := by
  induction s with
  | done a => exact .done rfl
  | fail e => exact .fail e
  | ask q next ih => exact .ask q ih

/-- Scripts that begin with the same script. -/
theorem Like.after (first : Script Answer ε γ) {f : γ → Script Answer ε α}
    {f' : γ → Script Answer ε β} (further : ∀ c, Like R (f c) (f' c)) :
    Like R (first >>= f) (first >>= f') := by
  apply first.like_refl.bind
  intro c d same
  rw [← same]
  exact further c

end Script

/-! ### Generations under different names -/

/-- The results say the same of the component. They may differ in their names and times. -/
structure Generated.Same (g g' : Generated) : Prop where
  config : g.config = g'.config
  files : g.files = g'.files
  layout : g.layout = g'.layout
  quality : g.quality = g'.quality
  preview : g.preview = g'.preview
  status : g.status = g'.status
  logs : g.logs = g'.logs
  patterns : g.patterns = g'.patterns

/-- The results of two sessions. -/
structure Generated.Named (id id' : String) (g g' : Generated) : Prop where
  own : g.id = id
  other : g'.id = id'
  same : g.Same g'

namespace Generation

/-- The time that a generation takes can be told. -/
def Moment.Timed (m : Moment) : Prop := ∃ duration, Project.elapsed m.start m.finish = .ok duration

theorem timed_real (a b : Binary64) (timestamp : Timestamp) :
    Moment.Timed ⟨.real a, .real b, timestamp⟩ := ⟨_, rfl⟩

theorem measures_like {moment moment' : Moment} (timed : moment.Timed) (timed' : moment'.Timed)
    (files : List GeneratedFile) : Script.Like (fun _ _ => True)
      (Run.liftFault (Project.Measures.ofFiles files moment.start moment.finish))
      (Run.liftFault (Project.Measures.ofFiles files moment'.start moment'.finish)) := by
  obtain ⟨duration, told⟩ := timed
  obtain ⟨duration', told'⟩ := timed'
  unfold Project.Measures.ofFiles
  rw [told, told']
  exact .done trivial

/-- A generation does not depend on the name of its session, nor on the time that it takes. -/
theorem generation_like (s : Settings) (id id' : String) {moment moment' : Moment}
    (timed : moment.Timed) (timed' : moment'.Timed) (document : Json) (config : Config) :
    Script.Like (Generated.Named id id') (generation s id moment document config)
      (generation s id' moment' document config) := by
  unfold generation
  -- Up to the measures both are the same script.
  iterate 18 refine .after _ fun _ => ?_
  refine .after _ fun assembled => ?_
  refine (measures_like timed timed' assembled.files).bind fun metrics metrics' _ => ?_
  refine .after checkpoint fun _ => ?_
  exact .done ⟨rfl, rfl, ⟨rfl, rfl, rfl, rfl, rfl, rfl, rfl, rfl⟩⟩

end Generation

/-! ### Sessions under different names -/

/-- The sessions differ in nothing but their names. -/
structure Session.Alike (id id' : String) (s s' : Session) : Prop where
  own : s.id = id
  same : s' = { s with id := id' }

theorem Session.Alike.report {id id' : String} {s s' : Session} (alike : Alike id id' s s')
    (p : Progress) : Alike id id' (s.report p) (s'.report p) := by
  obtain ⟨own, rfl⟩ := alike
  unfold Session.report
  split
  · exact ⟨own, rfl⟩
  · exact ⟨own, rfl⟩

theorem Session.Alike.enter {id id' : String} {s s' : Session} (alike : Alike id id' s s')
    (phase : Phase) (p : Progress) : Alike id id' (s.enter phase p) (s'.enter phase p) := by
  obtain ⟨own, rfl⟩ := alike
  have entered : Alike id id' { s with phase } { s with phase, id := id' } := ⟨own, rfl⟩
  exact entered.report p

theorem Session.Alike.heard {id id' : String} {s s' : Session} (alike : Alike id id' s s') :
    s.listener.heard = s'.listener.heard := by
  rw [alike.same]

namespace Generator

/-- A generator made with the settings, which remembers for names what they become. -/
structure Sound (settings : Generation.Settings) (e : Generator) : Prop where
  made : e.settings = settings
  limits : e.cache.limits = settings.cache
  names : e.services.names.Valid

theorem sound_make (settings : Generation.Settings) : Sound settings (make settings) :=
  ⟨rfl, rfl, Attribute.Memory.valid_empty _⟩

variable {settings : Generation.Settings} {e e' : Generator} {s s' : Session} {id id' : String}
  {φ ψ : Phase}

theorem answer_names (q : Ask) (s : Session) (valid : e.services.names.Valid) :
    (answer q (e, s)).2.1.services.names.Valid := by
  cases q with
  | rename markup => exact (Attribute.Memory.renameMarkup_law markup e.services.names valid).2
  | transform tree => exact (Target.transform_law tree e.services.names valid).2
  | _ => exact valid

theorem answer_cache (q : Ask) (e : Generator) (s : Session) :
    (answer q (e, s)).2.1.cache = e.cache := by
  cases q <;> rfl

theorem answer_settings (q : Ask) (e : Generator) (s : Session) :
    (answer q (e, s)).2.1.settings = e.settings := by
  cases q <;> rfl

/-- Without workers no answer depends on what else the generator has done. -/
theorem answer_alike {q : Ask} (leads : q.Leads False φ ψ) (valid : e.services.names.Valid)
    (valid' : e'.services.names.Valid) (alike : Session.Alike id id' s s') :
    (answer q (e, s)).1 = (answer q (e', s')).1 ∧
      Session.Alike id id' (answer q (e, s)).2.2 (answer q (e', s')).2.2 := by
  cases leads with
  | enter next undone =>
    obtain ⟨own, rfl⟩ := alike
    exact ⟨rfl, own, rfl⟩
  | report label fair => exact ⟨rfl, alike.report _⟩
  | isCancelled =>
    obtain ⟨own, rfl⟩ := alike
    exact ⟨rfl, own, rfl⟩
  | pause => exact ⟨rfl, alike⟩
  | enterStage stage => exact ⟨rfl, alike⟩
  | takeTask workers => exact workers.elim
  | rename markup =>
    have law := Attribute.Memory.renameMarkup_law markup e.services.names valid
    have law' := Attribute.Memory.renameMarkup_law markup e'.services.names valid'
    exact ⟨law.1.trans law'.1.symm, alike⟩
  | transform tree =>
    have law := Target.transform_law tree e.services.names valid
    have law' := Target.transform_law tree e'.services.names valid'
    exact ⟨law.1.trans law'.1.symm, alike⟩

/-- The outcomes are the same for whoever called: the same error, or results that say the same, and
the same progress was heard. -/
inductive Outcome.Agrees : Outcome → Outcome → Prop where
  | returned {g g' : Generated} {s s' : Session} (same : g.Same g')
    (heard : s.listener.heard = s'.listener.heard) : Agrees ⟨.ok g, s⟩ ⟨.ok g', s'⟩
  | raised (t : Trouble) {s s' : Session} (heard : s.listener.heard = s'.listener.heard) :
    Agrees ⟨.error t, s⟩ ⟨.error t, s'⟩

end Generator

namespace CallState

/-- The calls stand at the same point for whoever called. -/
inductive Agrees : CallState → CallState → Prop where
  | waiting : Agrees .waiting .waiting
  | running {r r' : Run Generated} {s s' : Session}
    (heard : s.listener.heard = s'.listener.heard) : Agrees (.running r s) (.running r' s')
  | ended {o o' : Generator.Outcome} (agree : o.Agrees o') : Agrees (.ended o) (.ended o')

/-- The calls stand at the same point, and go on in the same way. -/
inductive Alike : CallState → CallState → Prop where
  | waiting : Alike .waiting .waiting
  | running {id id' : String} {r r' : Run Generated} {s s' : Session} {φ ψ : Phase}
    (like : Script.Like (Generated.Named id id') r r') (leads : Run.Leads False φ r ψ)
    (alike : Session.Alike id id' s s') : Alike (.running r s) (.running r' s')
  | ended {o o' : Generator.Outcome} (agree : o.Agrees o') : Alike (.ended o) (.ended o')

theorem Alike.agrees {state state' : CallState} (alike : Alike state state') : Agrees state state' := by
  cases alike with
  | waiting => exact .waiting
  | running _ _ alike =>
    obtain ⟨_, rfl⟩ := alike
    exact .running rfl
  | ended agree => exact .ended agree

/-- What a turn that leads to the state makes of a store: it keeps it, or it enters the result of the
call that it has ended under the name of the call's session. -/
inductive Caches (c : Store Generated) : CallState → Store Generated → Prop where
  | keep (state : CallState) : Caches c state c
  | enter {o : Generator.Outcome} {g : Generated} (time : Number) (returns : o.result = .ok g)
    (named : g.id = o.session.id) (entered : (c.set time g.id g g.size).1 = .ok ()) :
    Caches c (.ended o) (c.set time g.id g g.size).2

end CallState

namespace Generator

/-- A sound generator that can make room for another result. -/
structure Ready (settings : Generation.Settings) (e : Generator) : Prop extends Sound settings e where
  tells : Store.Tells settings.cache e.cache.count

theorem Ready.answered {settings : Generation.Settings} {e : Generator} (ready : Ready settings e)
    (q : Ask) (s : Session) : Ready settings (answer q (e, s)).2.1 := by
  obtain ⟨⟨made, limits, names⟩, tells⟩ := ready
  constructor
  · exact ⟨(answer_settings q e s).trans made, by rw [answer_cache, limits], answer_names q s names⟩
  · rw [answer_cache]
    exact tells

/-- What a turn leaves of a sound generator whose cache was `c`. -/
structure Turned (settings : Generation.Settings) (c : Store Generated) (p : CallState × Generator) :
    Prop where
  sound : Sound settings p.2
  caches : p.1.Caches c p.2.cache

/-- Two calls that take the same turn in generators of their own. -/
structure TurnedAlike (settings : Generation.Settings) (c c' : Store Generated)
    (p p' : CallState × Generator) : Prop where
  alike : p.1.Alike p'.1
  own : Turned settings c p
  other : Turned settings c' p'

variable {settings : Generation.Settings} {e e' : Generator} {s s' : Session} {id id' : String}
  {φ ψ : Phase}

/-- Where room can be made a result is returned. -/
theorem complete_ready (ready : Ready settings e) (s : Session) (g : Generated) :
    e.complete s g = (⟨.ok g, s.enter .done ⟨100, "Complete!"⟩⟩,
      Generator.leave { e with cache := (e.cache.set e.time s.id g g.size).2 } s) := by
  have tells : Store.Tells e.cache.limits e.cache.count := by
    rw [ready.limits]
    exact ready.tells
  have entered : (e.cache.set e.time s.id g g.size).1 = .ok () := Store.set_isOk tells
  cases cached : e.cache.set e.time s.id g g.size with
  | mk result held =>
    rw [cached] at entered
    cases entered
    simp only [complete, cached]

theorem settle_done (ready : Ready settings e) {s : Session} {g : Generated} (named : g.id = s.id) :
    Turned settings e.cache (e.settle s (.done g)) := by
  have settled : e.settle s (.done g) = (.ended (e.complete s g).1, (e.complete s g).2) := rfl
  have tells : Store.Tells e.cache.limits e.cache.count := by
    rw [ready.limits]
    exact ready.tells
  rw [settled, complete_ready ready, ← named]
  constructor
  · exact ⟨ready.made, Store.set_limits.trans ready.limits, ready.names⟩
  · apply CallState.Caches.enter e.time rfl
    · have kept : (s.enter .done ⟨100, "Complete!"⟩).id = s.id := Session.report_id _ _
      exact named.trans kept.symm
    · exact Store.set_isOk tells

theorem settle_fail (sound : Sound settings e) (s : Session) (t : Trouble) :
    Turned settings e.cache (e.settle s (.fail t)) :=
  ⟨⟨sound.made, sound.limits, sound.names⟩, .keep _⟩

section

variable (ready : Ready settings e) (ready' : Ready settings e')

include ready ready'

theorem settle_alike {r r' : Run Generated} (leads : Run.Leads False φ r ψ)
    (like : Script.Like (Generated.Named id id') r r') (alike : Session.Alike id id' s s') :
    TurnedAlike settings e.cache e'.cache (e.settle s r) (e'.settle s' r') := by
  cases like with
  | @done g g' related =>
    have named : g.id = s.id := related.own.trans alike.own.symm
    have named' : g'.id = s'.id := by
      rw [alike.same]
      exact related.other
    refine ⟨?_, settle_done ready named, settle_done ready' named'⟩
    have settled : (e.settle s (.done g)).1 = .ended (e.complete s g).1 := rfl
    have settled' : (e'.settle s' (.done g')).1 = .ended (e'.complete s' g').1 := rfl
    rw [settled, settled', complete_ready ready, complete_ready ready']
    exact .ended (.returned related.same (alike.enter _ _).heard)
  | fail t =>
    refine ⟨?_, settle_fail ready.toSound s t, settle_fail ready'.toSound s' t⟩
    exact .ended (.raised t alike.heard)
  | ask q further =>
    refine ⟨.running (.ask q further) leads alike, ⟨ready.toSound, .keep _⟩, ?_⟩
    exact ⟨ready'.toSound, .keep _⟩

end

/-- To its next pause a run goes on in the same way in any generator that is ready. -/
theorem proceed_alike {r r' : Run Generated} (ready : Ready settings e) (ready' : Ready settings e')
    (leads : Run.Leads False φ r ψ) (like : Script.Like (Generated.Named id id') r r')
    (alike : Session.Alike id id' s s') :
    TurnedAlike settings e.cache e'.cache (e.proceed s r) (e'.proceed s' r') := by
  induction like generalizing φ e e' s s' with
  | done related => exact settle_alike ready ready' leads (.done related) alike
  | fail t => exact settle_alike ready ready' leads (.fail t) alike
  | ask q further ih =>
    cases leads with
    | ask first leads_on =>
      by_cases pauses : q = .pause
      · -- The turn ends here, in the state that the rest of the run begins in.
        subst pauses
        exact settle_alike ready ready' (leads_on ()) (further ()) alike
      · obtain ⟨same, alike_after⟩ := answer_alike first ready.names ready'.names alike
        have goes_on := ih (answer q (e, s)).1 (ready.answered q s) (ready'.answered q s') (leads_on _)
          alike_after
        rw [answer_cache, answer_cache] at goes_on
        rw [proceed_ask pauses, proceed_ask pauses, ← same]
        exact goes_on

/-! ### Runs without pauses -/

/-- A run leaves a generator with other services, and its session under its name. -/
theorem exec_leaves {α : Type} (r : Run α) (e : Generator) (s : Session) : ∃ services : Services,
    (r.exec answer (e, s)).2.1 = { e with services } ∧ (r.exec answer (e, s)).2.2.id = s.id ∧
      (e.services.names.Valid → services.names.Valid) := by
  induction r generalizing e s with
  | done a => exact ⟨e.services, rfl, rfl, id⟩
  | fail t => exact ⟨e.services, rfl, rfl, id⟩
  | ask q next ih =>
    obtain ⟨services, left, name, valid⟩ := ih (answer q (e, s)).1 (answer q (e, s)).2.1
      (answer q (e, s)).2.2
    -- A question changes nothing of the generator but its services.
    have one_generator :
        ({ (answer q (e, s)).2.1 with services } : Generator) = { e with services } := by
      cases q <;> rfl
    have one_name : (answer q (e, s)).2.2.id = s.id := by
      cases q with
      | report percent label => exact Session.report_id s _
      | _ => rfl
    refine ⟨services, left.trans one_generator, name.trans one_name, fun valid_before => ?_⟩
    exact valid (answer_names q s valid_before)

/-- Whatever it generates, a generator stays sound. -/
theorem generate_sound (sound : Sound settings e) (moment : Generation.Moment) (millisecond : Int)
    (document : Json) (config : Config) (l : Listener) :
    Sound settings (e.generate moment millisecond document config l).2 := by
  obtain ⟨services, left, -, valid⟩ := exec_leaves (e.run moment millisecond document config)
    (e.start millisecond l).1 (e.start millisecond l).2
  cases ends : (e.run moment millisecond document config).exec answer (e.start millisecond l) with
  | mk result st =>
  obtain ⟨e', s⟩ := st
  have after : e' = { (e.start millisecond l).1 with services } := by
    rw [← left]
    exact (congrArg (fun p => p.2.1) ends).symm
  have sound_after : Sound settings e' := by
    rw [after]
    exact ⟨sound.made, sound.limits, valid sound.names⟩
  rw [generate_eq ends]
  cases result with
  | error t => exact ⟨sound_after.made, sound_after.limits, sound_after.names⟩
  | ok g =>
    rw [finish, complete_leaves]
    exact ⟨sound_after.made, Store.set_limits.trans sound_after.limits, sound_after.names⟩

/-- A run that returns in one generator returns in any. -/
theorem exec_alike {α β : Type} {R : α → β → Prop} {r : Run α} {r' : Run β}
    (leads : Run.Leads False φ r ψ) (like : Script.Like R r r') (valid : e.services.names.Valid)
    (valid' : e'.services.names.Valid) (alike : Session.Alike id id' s s') {a : α}
    (returns : (r.exec answer (e, s)).1 = .ok a) :
    ∃ b, (r'.exec answer (e', s')).1 = .ok b ∧ R a b := by
  induction like generalizing φ e e' s s' with
  | done related =>
    cases returns
    exact ⟨_, rfl, related⟩
  | fail t => exact nomatch returns
  | ask q further ih =>
    cases leads with
    | ask first leads_on =>
      obtain ⟨same, alike_after⟩ := answer_alike first valid valid' alike
      have goes_on := ih (answer q (e, s)).1 (leads_on _) (answer_names q s valid)
        (answer_names q s' valid') alike_after returns
      rw [same] at goes_on
      exact goes_on

end Generator

end DesignComponents
