import DesignComponents.Generation.Generate
import DesignComponents.Proofs.Intake.Ladder

/-! In which order a generation enters its phases, and which numbers it reports. This is told from
its script alone, whoever answers it: each phase is entered from the one before it, and no report
says that all is done. -/

set_option autoImplicit false

namespace DesignComponents

/-- The phase that comes next where nothing fails. -/
def Phase.next? : Phase → Option Phase
  | created => some analyzing
  | analyzing => some planning
  | planning => some generating
  | generating => some adapting
  | adapting => some assessing
  | assessing => some assembling
  | assembling => some done
  | done | failed => none

/-- What a run may report before it is done. -/
structure Number.Fair (percent : Number) : Prop where
  isSome : percent.IsSome
  below : percent.lt 100 = true

/-- What may be asked in a phase, and the phase that it leads to. Tasks are taken only where there is
a pool of workers. -/
inductive Ask.Leads (pool : Prop) : Phase → Ask → Phase → Prop where
  | enter {φ ψ : Phase} (next : φ.next? = some ψ) (undone : ψ ≠ .done) : Leads pool φ (.enterPhase ψ) ψ
  | report (φ : Phase) {percent : Number} (label : String) (fair : percent.Fair) :
    Leads pool φ (.report percent label) φ
  | isCancelled (φ : Phase) : Leads pool φ .isCancelled φ
  | pause (φ : Phase) : Leads pool φ .pause φ
  | enterStage (φ : Phase) (stage : Stage) : Leads pool φ (.enterStage stage) φ
  | takeTask (φ : Phase) (workers : pool) : Leads pool φ .takeTask φ
  | rename (φ : Phase) (markup : List Char) : Leads pool φ (.rename markup) φ
  | transform (φ : Phase) (tree : Source.Node) : Leads pool φ (.transform tree) φ

namespace Run

variable {α β : Type} {pool : Prop} {φ χ ψ : Phase}

/-- Begun in the first phase the run asks what may be asked in the phase it is in, and ends, if it
does not fail, in the second. -/
inductive Leads (pool : Prop) : Phase → Run α → Phase → Prop where
  | done (φ : Phase) (a : α) : Leads pool φ (.done a) φ
  | fail (φ ψ : Phase) (t : Trouble) : Leads pool φ (.fail t) ψ
  | ask {φ χ ψ : Phase} {q : Ask} {next : q.Answer → Run α} (first : q.Leads pool φ χ)
    (further : ∀ a, Leads pool χ (next a) ψ) : Leads pool φ (.ask q next) ψ

theorem Leads.bind {r : Run α} {f : α → Run β} (first : Leads pool φ r χ)
    (second : ∀ a, Leads pool χ (f a) ψ) : Leads pool φ (r >>= f) ψ := by
  induction first with
  | done φ a => exact second a
  | fail φ χ t => exact .fail φ ψ t
  | ask first _ ih => exact .ask first fun a => ih a second

theorem leads_pure (a : α) : Leads pool φ (pure a) φ := .done φ a

theorem leads_put {q : Ask} (may : q.Leads pool φ ψ) : Leads pool φ (put q) ψ := .ask may fun a => .done ψ a

theorem leads_lift (r : Except Trouble α) : Leads pool φ (lift r) φ := by
  cases r with
  | ok a => exact .done φ a
  | error t => exact .fail φ φ t

theorem leads_liftFault (r : Except Fault α) : Leads pool φ (liftFault r) φ := leads_lift _

theorem leads_check : Leads pool φ check φ := by
  refine .ask (.isCancelled φ) fun cancelled => ?_
  split
  · exact .fail φ φ _
  · exact .done φ ()

theorem Leads.onFail {last : Trouble → Run Unit} {r : Run α} (leads : Leads pool φ r ψ)
    (after : ∀ χ t, Leads pool χ (last t) χ) : Leads pool φ (Script.onFail last r) ψ := by
  induction leads with
  | done φ a => exact .done φ a
  | fail φ ψ t => exact (after φ t).bind fun _ => .fail φ ψ t
  | ask first _ ih => exact .ask first ih

end Run

open Run

/-! ### Reading a document -/

namespace Number

theorem nearest_ne_nan {n : Number} (some_n : n.IsSome) : n.nearest ≠ .nan := by
  cases n with
  | int n => exact Binary64.ofInt_ne_nan n
  | real x => exact some_n

end Number

namespace Generation

/-- In the band of percentages that reading takes, there is a number for each. -/
theorem fair_band {percent : Number} (some_percent : percent.IsSome) : (band percent).Fair := by
  have low : Binary64.ofInt 10 = .finite false 5629499534213120 (-49) := by decide
  have width : (Binary64.ofInt 30).sub (.ofInt 10) = .finite false 5629499534213120 (-48) := by
    decide +kernel
  have whole : Binary64.ofInt 100 = .finite false 7036874417766400 (-46) := by decide
  have placed : (Binary64.ofInt 10).add
      ((percent.nearest.mul ((Binary64.ofInt 30).sub (.ofInt 10))).div (.ofInt 100)) ≠ .nan := by
    have nearest := Number.nearest_ne_nan some_percent
    rw [low, whole, ← low, width]
    have scaled := Binary64.mul_ne_nan nearest false (by decide : 5629499534213120 ≠ 0) (-48)
    have share := Binary64.div_ne_nan scaled false (by decide : 7036874417766400 ≠ 0) (-46)
    rw [low]
    exact Binary64.add_ne_nan share _ _ _
  have most : Number.IsSome (.real ((Binary64.ofInt 30).sub (.ofDecimal false 1 (-2)))) := by
    decide +kernel
  have below : Number.lt (.real ((Binary64.ofInt 30).sub (.ofDecimal false 1 (-2)))) 100 = true := by
    decide +kernel
  have isSome : (band percent).IsSome := Number.min_isSome placed most
  exact ⟨isSome, Number.lt_of_le_of_lt isSome most (by decide) (Number.min_le placed most) below⟩

variable {pool : Prop} {φ : Phase}

theorem leads_reportBand {percent : Number} (some_percent : percent.IsSome) (label : String) :
    Leads pool φ (reportBand percent label) φ :=
  leads_put (.report φ label (fair_band some_percent))

end Generation

namespace Intake

open Generation (reportBand leads_reportBand)

variable {pool : Prop} {φ : Phase} {channel : Channel} (workers : channel ≠ .direct → pool)

theorem leads_ofFigma (s : Settings) (document : Json) :
    Leads pool φ (ofFigma s reportBand document) φ := by
  refine (leads_lift _).bind fun _ => ?_
  refine (leads_reportBand (by decide) _).bind fun _ => ?_
  refine (leads_lift _).bind fun file => ?_
  refine (leads_reportBand (by decide) _).bind fun _ => ?_
  refine leads_check.bind fun _ => ?_
  refine (leads_put (.enterStage φ _)).bind fun _ => ?_
  refine (leads_reportBand (by decide) _).bind fun _ => ?_
  refine (leads_liftFault _).bind fun tree => ?_
  refine (leads_put (.pause φ)).bind fun _ => ?_
  refine leads_check.bind fun _ => ?_
  refine (leads_reportBand (by decide) _).bind fun _ => ?_
  refine (leads_liftFault _).bind fun markup => ?_
  exact (leads_reportBand (by decide) _).bind fun _ => leads_pure _

include workers

theorem leads_processChunk (text : List Char) : Leads pool φ (processChunk channel text) φ := by
  have renames : Leads pool φ (do return Markup.optimize (← Run.rename text)) φ :=
    (leads_put (.rename φ text)).bind fun _ => leads_pure _
  cases channel with
  | direct => exact renames
  | workers timeout =>
    refine (leads_put (.takeTask φ (workers nofun))).bind fun number => ?_
    refine (leads_liftFault _).bind fun awaited => ?_
    split
    · exact Leads.bind (.fail φ φ _) fun _ => renames
    · exact renames

theorem leads_processChunks (total done : Nat) (processed chunks : List (List Char)) :
    Leads pool φ (processChunks channel reportBand total done processed chunks) φ := by
  induction chunks generalizing done processed with
  | nil => exact leads_check.bind fun _ => leads_pure _
  | cons chunk rest ih =>
    refine leads_check.bind fun _ => ?_
    refine (leads_processChunk workers chunk).bind fun out => ?_
    refine (leads_put (.pause φ)).bind fun _ => ?_
    refine (leads_reportBand (some_chunkPercent (done + 1) total) _).bind fun _ => ?_
    exact ih (done + 1) (out :: processed)

theorem leads_process (s : Settings) (c : Checked) :
    Leads pool φ (process s channel reportBand c) φ := by
  unfold process
  split
  · refine (leads_put (.enterStage φ _)).bind fun _ => ?_
    refine (leads_reportBand (by decide) _).bind fun _ => ?_
    exact (leads_processChunk workers c.cleaned).bind fun _ => leads_pure _
  · refine (leads_put (.enterStage φ _)).bind fun _ => ?_
    refine (leads_reportBand (by decide) _).bind fun _ => ?_
    refine (leads_liftFault _).bind fun chunks => ?_
    exact (leads_processChunks workers _ 0 [] chunks).bind fun _ => leads_pure _

theorem leads_ofMarkup (s : Settings) (document : Json) :
    Leads pool φ (ofMarkup s channel reportBand document) φ := by
  refine (leads_lift _).bind fun c => ?_
  refine (leads_reportBand (by decide) _).bind fun _ => ?_
  refine (leads_reportBand (by decide) _).bind fun _ => ?_
  refine leads_check.bind fun _ => ?_
  refine (leads_process workers s c).bind fun result => ?_
  refine (leads_reportBand (by decide) _).bind fun _ => ?_
  refine (leads_reportBand (by decide) _).bind fun _ => ?_
  exact (leads_liftFault _).bind fun _ => leads_pure _

theorem leads_read (s : Settings) (document : Json) :
    Leads pool φ (read s channel reportBand document) φ := by
  have guarded : ∀ {x : Run Content}, Leads pool φ x φ →
      Leads pool φ (Script.onFail (fun t => enterStage (stageAfter t)) x) φ :=
    fun leads => leads.onFail fun χ t => leads_put (.enterStage χ _)
  refine (leads_put (.enterStage φ _)).bind fun _ => ?_
  refine Leads.bind (guarded ?reads) fun content => ?_
  case reads =>
    split
    · exact leads_ofFigma s _
    · exact leads_ofMarkup workers s _
  refine (leads_put (.enterStage φ _)).bind fun _ => ?_
  exact (leads_reportBand (by decide) _).bind fun _ => leads_pure _

end Intake

/-! ### All phases -/

namespace Generation

variable {pool : Prop} {φ ψ : Phase}

theorem leads_enter (next : φ.next? = some ψ) (undone : ψ ≠ .done) {percent : Number}
    (label : String) (fair : percent.Fair) : Leads pool φ (enter ψ percent label) ψ :=
  (leads_put (.enter next undone)).bind fun _ => leads_put (.report ψ label fair)

theorem leads_checkpoint : Leads pool φ checkpoint φ := (leads_put (.pause φ)).bind fun _ => leads_check

/-- After it has said that the design is analyzed, a generation asks in each phase what may be asked
there, and does not end in an earlier phase than the last. -/
theorem generation_begins {s : Settings} (workers : s.channel ≠ .direct → pool) (id : String)
    (moment : Moment) (document : Json) (config : Config) : ∃ rest : Run Generated,
      generation s id moment document config =
          (enter .analyzing 10 "Analyzing design...").bind (fun _ => rest) ∧
        Leads pool .analyzing rest .assembling := by
  refine ⟨_, rfl, ?_⟩
  -- Step by step, each in the phase that was entered last.
  refine (Intake.leads_read workers s.intake document).bind fun content => ?_
  refine leads_checkpoint.bind fun _ => ?_
  refine (leads_enter rfl (by decide) _ ⟨by decide, by decide⟩).bind fun _ => ?_
  refine (leads_liftFault _).bind fun planned => ?_
  refine leads_checkpoint.bind fun _ => ?_
  refine (leads_enter rfl (by decide) _ ⟨by decide, by decide⟩).bind fun _ => ?_
  refine (leads_put (.transform _ _)).bind fun outcome => ?_
  refine (leads_liftFault _).bind fun transformed => ?_
  refine (leads_liftFault _).bind fun styled => ?_
  refine leads_checkpoint.bind fun _ => ?_
  refine (leads_enter rfl (by decide) _ ⟨by decide, by decide⟩).bind fun _ => ?_
  refine (leads_liftFault _).bind fun component => ?_
  refine leads_checkpoint.bind fun _ => ?_
  refine (leads_enter rfl (by decide) _ ⟨by decide, by decide⟩).bind fun _ => ?_
  refine (leads_liftFault _).bind fun quality => ?_
  refine leads_checkpoint.bind fun _ => ?_
  refine (leads_enter rfl (by decide) _ ⟨by decide, by decide⟩).bind fun _ => ?_
  refine (leads_liftFault _).bind fun assembled => ?_
  refine (leads_liftFault _).bind fun metrics => ?_
  exact leads_checkpoint.bind fun _ => leads_pure _

theorem leads_generation {s : Settings} (workers : s.channel ≠ .direct → pool) (id : String)
    (moment : Moment) (document : Json) (config : Config) :
    Leads pool .created (generation s id moment document config) .assembling := by
  obtain ⟨rest, whole, leads⟩ := generation_begins workers id moment document config
  rw [whole]
  exact (leads_enter rfl (by decide) _ ⟨by decide, by decide⟩).bind fun _ => leads

end Generation

end DesignComponents
