import DesignComponents.Proofs.Worker.Traffic
import DesignComponents.Worker.Handlers
import Std.Data.String.ToNat

/-! What is certain about waiting for workers. Whoever waits for a task gets what its handler makes
of it, or learns that there is none, that it raised, or that time ran out; nobody gets what another
waits for, and no task is waited for any more when its wait is over. -/

set_option autoImplicit false

namespace DesignComponents.Worker

section

variable {P R : Type} {handlers : Handlers P R} {past : List (Move P)} {t : Traffic P R}

/-- A wait ends with what the handler gives, or with why it gives nothing, or for lack of time. -/
theorem Told.cases {w : Wait P} {outcome : Except Trouble R} (told : Told handlers past w outcome) :
    (∃ reply handler, handlers w.request.type = some handler ∧
      handler w.request.payload = .ok reply ∧ outcome = .ok reply) ∨
    (∃ f, f.kind = .phase w.request.type.name ∧ outcome = .error (.failure f) ∧
      (handlers w.request.type = none ∨ ∃ handler e, handlers w.request.type = some handler ∧
        handler w.request.payload = .error e)) ∨
    (.expire w.request.task ∈ past ∧ outcome = .error (Site.missed w.request.task w.limit)) := by
  rcases told with told | missed
  · unfold outcomeOf answerTo Pool.handle at told
    cases known : handlers w.request.type with
    | none =>
      rw [known] at told
      exact .inr (.inl ⟨_, rfl, told, .inl rfl⟩)
    | some handler =>
      cases made : handler w.request.payload with
      | ok reply =>
        simp only [known, made] at told
        exact .inl ⟨reply, handler, rfl, made, told⟩
      | error e =>
        simp only [known, made] at told
        exact .inr (.inl ⟨_, rfl, told, .inr ⟨handler, e, rfl, made⟩⟩)
  · exact .inr (.inr missed)

/-- What can be told of waits from what was submitted and what ran out of time. -/
structure Lawful (handlers : Handlers P R) (past : List (Move P)) (t : Traffic P R) : Prop where
  /-- Each task of a type is waited for or was, under a number of its own. -/
  waits : t.waits.Perm (waitsFor past)
  names : ((numbers past).map taskName).Nodup
  returned : ∀ w reply, (w, .ok reply) ∈ t.ended → ∃ handler,
    handlers w.request.type = some handler ∧ handler w.request.payload = .ok reply
  raised : ∀ w f phase, (w, .error (.failure f)) ∈ t.ended → f.kind = .phase phase →
    phase = w.request.type.name ∧ (handlers w.request.type = none ∨ ∃ handler e,
      handlers w.request.type = some handler ∧ handler w.request.payload = .error e)
  timedOut : ∀ w f task limit, (w, .error (.failure f)) ∈ t.ended →
    f.kind = .workerTimeout task limit → .expire w.request.task ∈ past
  /-- What was handed over is the answer to who still waits. -/
  delivered : ∀ r ∈ t.pool.delivered, ∃ w ∈ t.waiting, r = answerTo handlers w.request
  pending : ∀ task ∈ t.pool.pending, task ∉ unnamed past →
    ∃ w ∈ t.waiting, w.request.task = task
  quiet : t.waiting = [] → unnamed past = [] → t.pool.pending = []

end

/-! ### Sites that wait

What a site does with its pool are moves that workers and those who wait for them can make. So
whoever waits there is told of the own task, in whatever order the others were settled. -/

section

variable {P R : Type} {workers : Int} {s : Site P R} {past : List (Move P)} {t : Traffic P R}

/-- The pool of the site is one that the moves lead to. -/
structure Stands (workers : Int) (past : List (Move P)) (t : Traffic P R) (s : Site P R) : Prop where
  reached : Traffic.after s.handlers workers past = some t
  pool : t.pool = s.pool

/-- A step of a pool is the move of a worker, or hands an answer over. -/
theorem step?_moves {handlers : Handlers P R} {isReady : Request P → Bool} {pool : Pool P R}
    (steps : step? handlers isReady t.pool = some pool) :
    ∃ move, t.step handlers move = some { t with pool } := by
  unfold step? at steps
  cases handed : t.pool.dispatch? with
  | some pool' =>
    rw [handed] at steps
    cases steps
    exact ⟨.dispatch, by rw [Traffic.step, handed]; rfl⟩
  | none =>
    rw [handed, Option.none_or] at steps
    split at steps
    · next r found =>
      cases steps
      have held : t.pool.running.any (·.task == r.task) = true :=
        List.any_eq_true.2 ⟨r, List.mem_of_find?_eq_some found, beq_self_eq_true r.task⟩
      exact ⟨.finish r.task, by rw [Traffic.step, if_pos held]⟩
    · exact ⟨.take, by rw [Traffic.step, steps]; rfl⟩

theorem settleFrom_moves {handlers : Handlers P R} (isReady : Request P → Bool) (fuel : Nat)
    (reached : Traffic.after handlers workers past = some t) : ∃ moves,
      Traffic.after handlers workers (moves ++ past) =
        some { t with pool := settleFrom handlers isReady fuel t.pool } := by
  induction fuel generalizing t past with
  | zero => exact ⟨[], reached⟩
  | succ fuel ih =>
    rw [settleFrom]
    -- A step of the pool is a move that only the pool takes part in.
    cases steps : step? handlers isReady t.pool with
    | none => exact ⟨[], reached⟩
    | some pool =>
      obtain ⟨move, moved⟩ := step?_moves steps
      have further : Traffic.after handlers workers (move :: past) = some { t with pool } := by
        rw [Traffic.after, reached]
        exact moved
      obtain ⟨moves, settled⟩ := ih further
      refine ⟨moves ++ [move], ?_⟩
      rw [List.append_assoc]
      exact settled

namespace Stands

theorem settle (stands : Stands workers past t s) : ∃ moves,
    Stands workers (moves ++ past) { t with pool := s.settle.pool } s.settle := by
  obtain ⟨moves, settled⟩ := settleFrom_moves s.isReady
    (3 * (s.pool.requests.length + s.pool.running.length + s.pool.responses.length)) stands.reached
  rw [stands.pool] at settled
  exact ⟨moves, settled, rfl⟩

theorem submit (stands : Stands workers past t s) (name : String) (payload : P) (limit : Number) :
    Stands workers (.submit name payload limit :: past) (t.submit name payload limit)
      (s.submit name payload).2 := by
  cases named : Job.named? name with
  | some type =>
    have submits : (s.submit name payload).2 = { s with pool := (s.pool.submit type payload).2 } := by
      simp only [Site.submit, named]
    rw [submits]
    refine ⟨?_, ?_⟩
    · rw [Traffic.after, stands.reached]
      rfl
    · rw [Traffic.submit_named named, stands.pool]
  | none =>
    have refused : (s.submit name payload).2 = { s with pool := s.pool.expect.2 } := by
      simp only [Site.submit, named]
    rw [refused]
    refine ⟨?_, ?_⟩
    · rw [Traffic.after, stands.reached]
      rfl
    · rw [Traffic.submit_unnamed named, stands.pool]

/-- Waiting takes the answer that was handed over, or gives up; either is a move. -/
theorem await (stands : Stands workers past t s) {w : Wait P}
    (waits : t.wait? w.request.task = some w) : ∃ move,
      Stands workers (move :: past)
        (t.conclude (s.await w.request.type w.request.task w.limit).2.pool w
          (s.await w.request.type w.request.task w.limit).1)
        (s.await w.request.type w.request.task w.limit).2 := by
  cases collected : s.pool.collect? w.request.task with
  | some found =>
    obtain ⟨r, pool⟩ := found
    have awaits : s.await w.request.type w.request.task w.limit =
        ((outcomeOf w.request.type r).mapError .failure, { s with pool }) := by
      rw [Site.await, collected]
    rw [awaits]
    refine ⟨.resume w.request.task, ?_, rfl⟩
    rw [Traffic.after, stands.reached, Option.bind_some, Traffic.step, waits, stands.pool]
    simp only [collected]
    rfl
  | none =>
    have awaits : s.await w.request.type w.request.task w.limit =
        (.error (Site.missed w.request.task w.limit),
          { s with pool := s.pool.abandon w.request.task }) := by
      rw [Site.await, collected]
    have nothing : s.pool.forget w.request.task = s.pool.abandon w.request.task := by
      have others : s.pool.delivered.filter (·.task != w.request.task) = s.pool.delivered := by
        apply List.filter_eq_self.2
        intro r mem
        have none_found := List.find?_eq_none.1 (Option.map_eq_none_iff.1 collected) r mem
        simpa using none_found
      rw [Pool.forget, others]
      rfl
    rw [awaits]
    refine ⟨.expire w.request.task, ?_, rfl⟩
    rw [Traffic.after, stands.reached, Option.bind_some, Traffic.step, waits, stands.pool, nothing]
    rfl

/-- Whoever waits at a site gets the answer to the own task, or learns that it did not come. -/
theorem told (stands : Stands workers past t s) {w : Wait P}
    (waits : t.wait? w.request.task = some w) :
    (s.await w.request.type w.request.task w.limit).1 =
        (outcomeOf w.request.type (answerTo s.handlers w.request)).mapError .failure ∨
      (s.await w.request.type w.request.task w.limit).1 =
        .error (Site.missed w.request.task w.limit) := by
  obtain ⟨move, after⟩ := stands.await waits
  have same : (s.await w.request.type w.request.task w.limit).2.handlers = s.handlers := by
    unfold Site.await
    split <;> rfl
  have consistent := Traffic.after_consistent after.reached
  rw [same] at consistent
  have ends := consistent.ended w _ (List.mem_append_right _ (List.mem_singleton.2 rfl))
  exact ends.imp_right And.right

end Stands

end

end DesignComponents.Worker
