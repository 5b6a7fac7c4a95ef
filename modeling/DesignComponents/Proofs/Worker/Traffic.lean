import DesignComponents.Worker.Settle
import Mathlib.Data.List.Nodup
import Mathlib.Data.List.Range

/-! Workers among those who wait for their answers. Tasks are submitted, taken, answered, handed over
and given up in any order that is possible; each wait still ends with the answer to its own task, or
without one. -/

set_option autoImplicit false

namespace DesignComponents.Worker

variable {P R : Type}

/-- A task, and how long its answer is waited for. -/
structure Wait (P : Type) where
  request : Request P
  limit : Number

/-- A pool, the waits for its answers, and what the waits that are over ended with. -/
structure Traffic (P R : Type) where
  pool : Pool P R
  waiting : List (Wait P) := []
  ended : List (Wait P × Except Trouble R) := []

inductive Move (P : Type) where
  /-- A task is submitted under the name of its type. -/
  | submit (name : String) (payload : P) (limit : Number)
  /-- A worker takes a task. -/
  | take
  /-- The worker that has the task answers it. -/
  | finish (task : Nat)
  /-- An answer is handed over, or found to be late. -/
  | dispatch
  /-- A wait ends with the answer that was handed over. -/
  | resume (task : Nat)
  /-- A wait ends without an answer, even if one was handed over just before. -/
  | expire (task : Nat)

/-- Nobody waits for the task, and nothing is kept for who did. -/
def Pool.forget (p : Pool P R) (task : Nat) : Pool P R :=
  { p.abandon task with delivered := p.delivered.filter (·.task != task) }

namespace Traffic

def waits (t : Traffic P R) : List (Wait P) := t.waiting ++ t.ended.map Prod.fst

def wait? (t : Traffic P R) (task : Nat) : Option (Wait P) :=
  t.waiting.find? (·.request.task == task)

/-- A task of no type takes a number, and nobody waits for it. -/
def submit (t : Traffic P R) (name : String) (payload : P) (limit : Number) : Traffic P R :=
  match Job.named? name with
  | some type =>
    let (task, pool) := t.pool.submit type payload
    { t with pool, waiting := t.waiting ++ [⟨⟨task, type, payload⟩, limit⟩] }
  | none => { t with pool := t.pool.expect.2 }

/-- A wait is over. -/
def conclude (t : Traffic P R) (pool : Pool P R) (w : Wait P) (outcome : Except Trouble R) :
    Traffic P R :=
  { t with
    pool, waiting := t.waiting.filter (·.request.task != w.request.task)
    ended := t.ended ++ [(w, outcome)] }

/-- What one move leads to, where it is possible. -/
def step (handlers : Handlers P R) (t : Traffic P R) : Move P → Option (Traffic P R)
  | .submit name payload limit => some (t.submit name payload limit)
  | .take => t.pool.take?.map fun pool => { t with pool }
  | .finish task =>
    if t.pool.running.any (·.task == task) then
      some { t with pool := t.pool.finish handlers task }
    else none
  | .dispatch => t.pool.dispatch?.map fun pool => { t with pool }
  | .resume task => do
    let w ← t.wait? task
    let (r, pool) ← t.pool.collect? task
    some (t.conclude pool w ((outcomeOf w.request.type r).mapError .failure))
  | .expire task => do
    let w ← t.wait? task
    some (t.conclude (t.pool.forget task) w (.error (Site.missed task w.limit)))

/-- What moves lead to from a new pool, the latest first. -/
def after (handlers : Handlers P R) (workers : Int) : List (Move P) → Option (Traffic P R)
  | [] => some { pool := .make workers }
  | move :: past => (after handlers workers past).bind fun t => t.step handlers move

end Traffic

/-- How many tasks were submitted. -/
def submitted : List (Move P) → Nat
  | [] => 0
  | .submit .. :: past => submitted past + 1
  | _ :: past => submitted past

/-- What is waited for once these moves are made, each task under the number of its submit. -/
def waitsFor : List (Move P) → List (Wait P)
  | [] => []
  | .submit name payload limit :: past =>
    match Job.named? name with
    | some type => ⟨⟨submitted past + 1, type, payload⟩, limit⟩ :: waitsFor past
    | none => waitsFor past
  | _ :: past => waitsFor past

/-- The numbers that went to tasks of no type. -/
def unnamed : List (Move P) → List Nat
  | [] => []
  | .submit name .. :: past =>
    match Job.named? name with
    | some _ => unnamed past
    | none => (submitted past + 1) :: unnamed past
  | _ :: past => unnamed past

/-- The answer to a task. -/
def answerTo (handlers : Handlers P R) (request : Request P) : Response R :=
  ⟨request.task, Pool.handle handlers request⟩

/-- A wait ended with the answer to its own task, or ran out of time. -/
def Told (handlers : Handlers P R) (past : List (Move P)) (w : Wait P)
    (outcome : Except Trouble R) : Prop :=
  outcome = (outcomeOf w.request.type (answerTo handlers w.request)).mapError .failure ∨
  (.expire w.request.task ∈ past ∧ outcome = .error (Site.missed w.request.task w.limit))

/-- How what is in the pool belongs to those who wait. -/
structure Consistent (handlers : Handlers P R) (past : List (Move P)) (t : Traffic P R) :
    Prop where
  staffed : 0 < t.pool.workers
  waits : t.waits.Perm (waitsFor past)
  issued : t.pool.issued = submitted past
  asked : ∀ q ∈ t.pool.requests ++ t.pool.running, ∃ w ∈ t.waits, w.request = q
  answered : ∀ r ∈ t.pool.responses, ∃ w ∈ t.waits, answerTo handlers w.request = r
  delivered : ∀ r ∈ t.pool.delivered,
    r.task ∉ t.pool.pending ∧ ∃ w ∈ t.waiting, answerTo handlers w.request = r
  pending : ∀ task ∈ t.pool.pending,
    task ∈ unnamed past ∨ ∃ w ∈ t.waiting, w.request.task = task
  ended : ∀ w outcome, (w, outcome) ∈ t.ended → Told handlers past w outcome
  expired : ∀ task, .expire task ∈ past → task ≤ t.pool.issued

variable {handlers : Handlers P R} {past : List (Move P)} {t t' : Traffic P R}

/-! ### Numbers -/

def numbers (past : List (Move P)) : List Nat :=
  (waitsFor past).map (·.request.task) ++ unnamed past

/-- Each number is taken once. -/
theorem numbers_perm (past : List (Move P)) :
    (numbers past).Perm (List.range' 1 (submitted past)) := by
  induction past with
  | nil => exact .refl _
  | cons move past ih =>
    -- Only a submission takes a number, and it takes the next, whether there is such a task or not.
    cases move with
    | submit name payload limit =>
      have more : ((submitted past + 1) :: numbers past).Perm
          (List.range' 1 (submitted past + 1)) := by
        rw [List.range'_1_concat, Nat.add_comm 1]
        exact (ih.cons _).trans (List.perm_append_singleton _ _).symm
      refine .trans ?_ more
      cases named : Job.named? name with
      | some type =>
        simp only [numbers, waitsFor, unnamed, named]
        exact .refl _
      | none =>
        simp only [numbers, waitsFor, unnamed, named]
        exact List.perm_middle
    | _ => exact ih

theorem nodup_numbers (past : List (Move P)) : (numbers past).Nodup :=
  (numbers_perm past).nodup_iff.2 List.nodup_range'

theorem le_submitted {task : Nat} (mem : task ∈ numbers past) : task ≤ submitted past := by
  have range := (numbers_perm past).mem_iff.1 mem
  rw [List.mem_range'_1] at range
  omega

namespace Consistent

theorem nodup_waits (consistent : Consistent handlers past t) :
    (t.waits.map (·.request.task)).Nodup := by
  rw [(consistent.waits.map _).nodup_iff]
  exact (List.nodup_append.1 (nodup_numbers past)).1

theorem nodup_waiting (consistent : Consistent handlers past t) :
    (t.waiting.map (·.request.task)).Nodup := by
  have all := consistent.nodup_waits
  rw [Traffic.waits, List.map_append] at all
  exact (List.nodup_append.1 all).1

theorem mem_numbers (consistent : Consistent handlers past t) {w : Wait P} (mem : w ∈ t.waits) :
    w.request.task ∈ (waitsFor past).map (·.request.task) :=
  List.mem_map_of_mem (consistent.waits.mem_iff.1 mem)

theorem wait_le (consistent : Consistent handlers past t) {w : Wait P} (mem : w ∈ t.waits) :
    w.request.task ≤ t.pool.issued := by
  rw [consistent.issued]
  exact le_submitted (List.mem_append_left _ (consistent.mem_numbers mem))

/-- There is one wait for a task. -/
theorem wait_unique (consistent : Consistent handlers past t) {w w' : Wait P} (mem : w ∈ t.waits)
    (mem' : w' ∈ t.waits) (same : w.request.task = w'.request.task) : w = w' :=
  List.inj_on_of_nodup_map consistent.nodup_waits mem mem' same

theorem not_unnamed (consistent : Consistent handlers past t) {w : Wait P} (mem : w ∈ t.waits) :
    w.request.task ∉ unnamed past := by
  intro none
  have apart := (List.nodup_append.1 (nodup_numbers past)).2.2
  exact apart _ (consistent.mem_numbers mem) _ none rfl

end Consistent

theorem mem_waits {w : Wait P} (mem : w ∈ t.waiting) : w ∈ t.waits := List.mem_append_left _ mem

/-- The one that a key is of comes before the others. -/
theorem perm_cons_filter {β : Type} {key : β → Nat} {bs : List β} (nodup : (bs.map key).Nodup)
    {b : β} (mem : b ∈ bs) : bs.Perm (b :: bs.filter (key · != key b)) := by
  induction bs with
  | nil => exact nomatch mem
  | cons first rest ih =>
    rw [List.map_cons, List.nodup_cons] at nodup
    obtain ⟨other, nodup⟩ := nodup
    rcases List.mem_cons.1 mem with rfl | mem
    · have stays : rest.filter (key · != key b) = rest := by
        apply List.filter_eq_self.2
        intro b' mem'
        apply bne_iff_ne.2
        intro same
        exact other (same ▸ List.mem_map_of_mem mem')
      rw [List.filter_cons_of_neg (by simp), stays]
    · have differs : key first ≠ key b := fun same => other (same ▸ List.mem_map_of_mem mem)
      rw [List.filter_cons_of_pos (by simpa using differs)]
      exact ((ih nodup mem).cons first).trans (.swap b first _)

theorem Traffic.waits_conclude (nodup : (t.waiting.map (·.request.task)).Nodup) {w : Wait P}
    (mem : w ∈ t.waiting) (pool : Pool P R) (outcome : Except Trouble R) :
    (t.conclude pool w outcome).waits.Perm t.waits := by
  have front : t.waiting.Perm (w :: t.waiting.filter (·.request.task != w.request.task)) :=
    perm_cons_filter nodup mem
  have back : (t.ended ++ [(w, outcome)]).map Prod.fst = t.ended.map Prod.fst ++ [w] := by simp
  rw [waits, waits, conclude, back, ← List.append_assoc]
  calc t.waiting.filter (·.request.task != w.request.task) ++ t.ended.map Prod.fst ++ [w]
      _ |>.Perm (w :: (t.waiting.filter (·.request.task != w.request.task) ++
          t.ended.map Prod.fst)) := List.perm_append_singleton w _
      _ |>.Perm (t.waiting ++ t.ended.map Prod.fst) := (front.append_right _).symm

/-! ### One move -/

theorem Traffic.submit_named {name : String} {type : Job} (named : Job.named? name = some type)
    (t : Traffic P R) (payload : P) (limit : Number) : t.submit name payload limit =
      { t with
        pool := (t.pool.submit type payload).2
        waiting := t.waiting ++ [⟨⟨t.pool.issued + 1, type, payload⟩, limit⟩] } := by
  simp only [submit, named]
  rfl

theorem Traffic.submit_unnamed {name : String} (unnamed : Job.named? name = none)
    (t : Traffic P R) (payload : P) (limit : Number) : t.submit name payload limit =
      { t with pool := t.pool.expect.2 } := by
  simp only [submit, unnamed]

/-- A move that submits nothing. -/
structure Silent (move : Move P) (past : List (Move P)) : Prop where
  waits : waitsFor (move :: past) = waitsFor past
  unnamed : unnamed (move :: past) = unnamed past
  submitted : submitted (move :: past) = submitted past

theorem Told.later {w : Wait P} {outcome : Except Trouble R} (told : Told handlers past w outcome)
    (move : Move P) : Told handlers (move :: past) w outcome :=
  told.imp_right fun ⟨expired, missed⟩ => ⟨List.mem_cons_of_mem _ expired, missed⟩

namespace Consistent

theorem start (handlers : Handlers P R) (workers : Int) :
    Consistent handlers [] { pool := .make workers } where
  staffed := by
    change 0 < (max 1 workers).toNat
    omega
  waits := .refl _
  issued := rfl
  asked _ mem := nomatch mem
  answered _ mem := nomatch mem
  delivered _ mem := nomatch mem
  pending _ mem := nomatch mem
  ended _ _ mem := nomatch mem
  expired _ mem := nomatch mem

/-- Nothing was handed over yet under the next number. -/
theorem delivered_expect (consistent : Consistent handlers past t) :
    ∀ r ∈ t.pool.delivered, r.task ∉ t.pool.pending ++ [t.pool.issued + 1] := by
  intro r mem
  obtain ⟨gone, w, waits, rfl⟩ := consistent.delivered r mem
  have old := consistent.wait_le (mem_waits waits)
  intro mem
  rcases List.mem_append.1 mem with pending | new
  · exact gone pending
  · have same : w.request.task = t.pool.issued + 1 := List.mem_singleton.1 new
    omega

theorem expired_submit (consistent : Consistent handlers past t) {name : String} {payload : P}
    {limit : Number} (task : Nat)
    (mem : .expire task ∈ (.submit name payload limit :: past : List (Move P))) :
    task ≤ t.pool.issued + 1 := by
  rcases List.mem_cons.1 mem with same | before
  · exact nomatch same
  · exact Nat.le_succ_of_le (consistent.expired task before)

/-- Whoever submits a task of a type waits for it from then on. -/
theorem submit_named (consistent : Consistent handlers past t) {name : String} {type : Job}
    (named : Job.named? name = some type) (payload : P) (limit : Number) :
    Consistent handlers (.submit name payload limit :: past) (t.submit name payload limit) := by
  rw [Traffic.submit_named named]
  let w : Wait P := ⟨⟨t.pool.issued + 1, type, payload⟩, limit⟩
  have waits : (t.waiting ++ [w] ++ t.ended.map Prod.fst).Perm (w :: t.waits) := by
    rw [List.append_assoc]
    exact List.perm_middle
  have waits_for : waitsFor (.submit name payload limit :: past) = w :: waitsFor past := by
    simp only [waitsFor, named, w, consistent.issued]
  have same_unnamed : unnamed (.submit name payload limit :: past) = unnamed past := by
    simp only [unnamed, named]
  have kept : ∀ {w'}, w' ∈ t.waits → w' ∈ t.waiting ++ [w] ++ t.ended.map Prod.fst :=
    fun mem => waits.mem_iff.2 (List.mem_cons_of_mem _ mem)
  exact {
    staffed := consistent.staffed
    waits := by
      rw [waits_for]
      exact waits.trans (consistent.waits.cons w)
    issued := congrArg (· + 1) consistent.issued
    asked := by
      intro q mem
      -- The pool keeps what it was asked before, and is asked this task too.
      have before : q ∈ t.pool.requests ++ t.pool.running ∨ q = w.request := by
        simp only [Pool.submit, Pool.expect, Pool.enqueue, List.mem_append,
          List.mem_singleton] at mem ⊢
        tauto
      rcases before with mem | rfl
      · obtain ⟨w', waits', rfl⟩ := consistent.asked q mem
        exact ⟨w', kept waits', rfl⟩
      · exact ⟨w, waits.mem_iff.2 List.mem_cons_self, rfl⟩
    answered := by
      intro r mem
      obtain ⟨w', waits', rfl⟩ := consistent.answered r mem
      exact ⟨w', kept waits', rfl⟩
    delivered := by
      intro r mem
      obtain ⟨-, w', waits', answers⟩ := consistent.delivered r mem
      exact ⟨consistent.delivered_expect r mem, w', List.mem_append_left _ waits', answers⟩
    pending := by
      intro task mem
      rw [same_unnamed]
      rcases List.mem_append.1 mem with mem | mem
      · rcases consistent.pending task mem with none | ⟨w', waits', rfl⟩
        · exact .inl none
        · exact .inr ⟨w', List.mem_append_left _ waits', rfl⟩
      · obtain rfl := List.mem_singleton.1 mem
        exact .inr ⟨w, List.mem_append_right _ (List.mem_singleton.2 rfl), rfl⟩
    ended := fun w' outcome mem => (consistent.ended w' outcome mem).later _
    expired := consistent.expired_submit }

/-- A task of no type takes a number and leaves it pending, and that is all it does. -/
theorem submit_unnamed (consistent : Consistent handlers past t) {name : String}
    (none_named : Job.named? name = none) (payload : P) (limit : Number) :
    Consistent handlers (.submit name payload limit :: past) (t.submit name payload limit) := by
  rw [Traffic.submit_unnamed none_named]
  have waits_for : waitsFor (.submit name payload limit :: past) = waitsFor past := by
    simp only [waitsFor, none_named]
  have one_more : unnamed (.submit name payload limit :: past) =
      (t.pool.issued + 1) :: unnamed past := by
    simp only [unnamed, none_named, consistent.issued]
  exact {
    staffed := consistent.staffed
    waits := by
      rw [waits_for]
      exact consistent.waits
    issued := congrArg (· + 1) consistent.issued
    asked := consistent.asked
    answered := consistent.answered
    delivered := fun r mem => ⟨consistent.delivered_expect r mem, (consistent.delivered r mem).2⟩
    pending := by
      intro task mem
      rw [one_more]
      rcases List.mem_append.1 mem with mem | mem
      · exact (consistent.pending task mem).imp_left (List.mem_cons_of_mem _)
      · exact .inl (List.mem_singleton.1 mem ▸ List.mem_cons_self)
    ended := fun w' outcome mem => (consistent.ended w' outcome mem).later _
    expired := consistent.expired_submit }

theorem submit (consistent : Consistent handlers past t) (name : String) (payload : P)
    (limit : Number) :
    Consistent handlers (.submit name payload limit :: past) (t.submit name payload limit) := by
  cases named : Job.named? name with
  | some type => exact consistent.submit_named named payload limit
  | none => exact consistent.submit_unnamed named payload limit

/-- A pool that keeps its numbers moves what it has to somewhere else. -/
theorem relay (consistent : Consistent handlers past t) {pool : Pool P R} {move : Move P}
    (silent : Silent move past)
    (alive : ∀ task, move ≠ .expire task)
    (workers : pool.workers = t.pool.workers) (issued : pool.issued = t.pool.issued)
    (asked : ∀ q ∈ pool.requests ++ pool.running, q ∈ t.pool.requests ++ t.pool.running)
    (answered : ∀ r ∈ pool.responses, r ∈ t.pool.responses ∨
      ∃ q ∈ t.pool.running, answerTo handlers q = r)
    (delivered : ∀ r ∈ pool.delivered, r.task ∉ pool.pending ∧
      (r ∈ t.pool.delivered ∨ (r ∈ t.pool.responses ∧ r.task ∈ t.pool.pending)))
    (pending : ∀ task ∈ pool.pending, task ∈ t.pool.pending) :
    Consistent handlers (move :: past) { t with pool } where
  staffed := workers.symm ▸ consistent.staffed
  waits := by
    rw [silent.waits]
    exact consistent.waits
  issued := by
    rw [silent.submitted, issued]
    exact consistent.issued
  asked q mem := consistent.asked q (asked q mem)
  answered r mem := by
    rcases answered r mem with before | ⟨q, runs, rfl⟩
    · exact consistent.answered r before
    · obtain ⟨w, waits, rfl⟩ := consistent.asked q (List.mem_append_right _ runs)
      exact ⟨w, waits, rfl⟩
  delivered r mem := by
    obtain ⟨gone, before | ⟨responded, awaited⟩⟩ := delivered r mem
    · exact ⟨gone, (consistent.delivered r before).2⟩
    · refine ⟨gone, ?_⟩
      obtain ⟨w, waits, rfl⟩ := consistent.answered r responded
      -- It is expected, but not by a refused submit, whose number nobody answers.
      rcases consistent.pending _ awaited with none | ⟨w', waiting, same⟩
      · exact absurd none (consistent.not_unnamed waits)
      · obtain rfl := consistent.wait_unique (mem_waits waiting) waits same
        exact ⟨w', waiting, rfl⟩
  pending task mem := by
    rw [silent.unnamed]
    exact consistent.pending task (pending task mem)
  ended w outcome mem := (consistent.ended w outcome mem).later move
  expired task mem := by
    rw [issued]
    rcases List.mem_cons.1 mem with same | before
    · exact absurd same.symm (alive task)
    · exact consistent.expired task before

theorem take (consistent : Consistent handlers past t) {pool : Pool P R}
    (takes : t.pool.take? = some pool) : Consistent handlers (.take :: past) { t with pool } := by
  unfold Pool.take? at takes
  split at takes
  · next q rest queue =>
    split at takes
    · cases takes
      refine consistent.relay ⟨rfl, rfl, rfl⟩ nofun rfl rfl ?_ (fun r mem => .inl mem)
        (fun r mem => ⟨(consistent.delivered r mem).1, .inl mem⟩) fun task mem => mem
      intro q' mem
      rw [queue]
      simp only [List.mem_append, List.mem_cons, List.not_mem_nil, or_false] at mem ⊢
      tauto
    · exact nomatch takes
  · exact nomatch takes

theorem finish (consistent : Consistent handlers past t) (task : Nat) :
    Consistent handlers (.finish task :: past) { t with pool := t.pool.finish handlers task } := by
  unfold Pool.finish
  split
  · next q found =>
    have named : q.task = task := by simpa using List.find?_some found
    refine consistent.relay ⟨rfl, rfl, rfl⟩ nofun rfl rfl ?_ ?_
      (fun r mem => ⟨(consistent.delivered r mem).1, .inl mem⟩) fun task mem => mem
    · intro q' mem
      rcases List.mem_append.1 mem with queued | runs
      · exact List.mem_append_left _ queued
      · exact List.mem_append_right _ (List.mem_filter.1 runs).1
    · intro r mem
      rcases List.mem_append.1 mem with before | new
      · exact .inl before
      · obtain rfl := List.mem_singleton.1 new
        refine .inr ⟨q, List.mem_of_find?_eq_some found, ?_⟩
        rw [answerTo, named]
  · exact consistent.relay ⟨rfl, rfl, rfl⟩ nofun rfl rfl (fun q mem => mem) (fun r mem => .inl mem)
      (fun r mem => ⟨(consistent.delivered r mem).1, .inl mem⟩) fun task mem => mem

theorem dispatch (consistent : Consistent handlers past t) {pool : Pool P R}
    (dispatches : t.pool.dispatch? = some pool) :
    Consistent handlers (.dispatch :: past) { t with pool } := by
  unfold Pool.dispatch? at dispatches
  split at dispatches
  · next r rest queue =>
    have first : r ∈ t.pool.responses := queue ▸ List.mem_cons_self
    have others : ∀ r' ∈ rest, r' ∈ t.pool.responses :=
      fun r' mem => queue ▸ List.mem_cons_of_mem _ mem
    split at dispatches
    · next awaited =>
      cases dispatches
      refine consistent.relay ⟨rfl, rfl, rfl⟩ nofun rfl rfl (fun q mem => mem)
        (fun r' mem => .inl (others r' mem)) ?_ fun task mem => (List.mem_filter.1 mem).1
      intro r' mem
      rcases List.mem_append.1 mem with before | new
      · refine ⟨?_, .inl before⟩
        intro stays
        exact (consistent.delivered r' before).1 (List.mem_filter.1 stays).1
      · obtain rfl := List.mem_singleton.1 new
        refine ⟨?_, .inr ⟨first, List.contains_iff_mem.1 awaited⟩⟩
        intro stays
        simpa using (List.mem_filter.1 stays).2
    · cases dispatches
      exact consistent.relay ⟨rfl, rfl, rfl⟩ nofun rfl rfl (fun q mem => mem)
        (fun r' mem => .inl (others r' mem))
        (fun r' mem => ⟨(consistent.delivered r' mem).1, .inl mem⟩) fun task mem => mem
  · exact nomatch dispatches

/-- A wait that is over leaves nothing behind under its number. -/
theorem conclude (consistent : Consistent handlers past t) {w : Wait P} (waits : w ∈ t.waiting)
    {pool : Pool P R} {outcome : Except Trouble R} {move : Move P}
    (silent : Silent move past)
    (expires : ∀ task, move = .expire task → task = w.request.task)
    (told : Told handlers (move :: past) w outcome) (workers : pool.workers = t.pool.workers)
    (issued : pool.issued = t.pool.issued)
    (asked : pool.requests ++ pool.running = t.pool.requests ++ t.pool.running)
    (answered : pool.responses = t.pool.responses)
    (delivered : ∀ r ∈ pool.delivered, r ∈ t.pool.delivered ∧ r.task ≠ w.request.task)
    (pending : ∀ task ∈ pool.pending, task ∈ t.pool.pending ∧ task ≠ w.request.task) :
    Consistent handlers (move :: past) (t.conclude pool w outcome) := by
  have same : (t.conclude pool w outcome).waits.Perm t.waits :=
    Traffic.waits_conclude consistent.nodup_waiting waits pool outcome
  -- The wait goes over to those that have ended, and the others stay.
  have stays : ∀ w' ∈ t.waiting, w'.request.task ≠ w.request.task →
      w' ∈ (t.conclude pool w outcome).waiting :=
    fun w' mem other => List.mem_filter.2 ⟨mem, bne_iff_ne.2 other⟩
  exact {
    staffed := workers.symm ▸ consistent.staffed
    waits := by
      rw [silent.waits]
      exact same.trans consistent.waits
    issued := by
      rw [silent.submitted]
      exact issued.trans consistent.issued
    asked := by
      intro q mem
      obtain ⟨w', waits', rfl⟩ := consistent.asked q (asked ▸ mem)
      exact ⟨w', same.mem_iff.2 waits', rfl⟩
    answered := by
      intro r mem
      obtain ⟨w', waits', rfl⟩ := consistent.answered r (answered ▸ mem)
      exact ⟨w', same.mem_iff.2 waits', rfl⟩
    delivered := by
      intro r mem
      obtain ⟨before, other⟩ := delivered r mem
      obtain ⟨gone, w', waits', rfl⟩ := consistent.delivered r before
      exact ⟨fun awaited => gone (pending _ awaited).1, w', stays w' waits' other, rfl⟩
    pending := by
      intro task mem
      obtain ⟨before, other⟩ := pending task mem
      rw [silent.unnamed]
      rcases consistent.pending task before with none | ⟨w', waits', rfl⟩
      · exact .inl none
      · exact .inr ⟨w', stays w' waits' other, rfl⟩
    ended := by
      intro w' outcome' mem
      rcases List.mem_append.1 mem with before | new
      · exact (consistent.ended w' outcome' before).later move
      · cases List.mem_singleton.1 new
        exact told
    expired := by
      intro task mem
      change task ≤ pool.issued
      rw [issued]
      rcases List.mem_cons.1 mem with this | before
      · rw [expires task this.symm]
        exact consistent.wait_le (mem_waits waits)
      · exact consistent.expired task before }

theorem resume (consistent : Consistent handlers past t) {task : Nat} {w : Wait P}
    (waits : t.wait? task = some w) {r : Response R} {pool : Pool P R}
    (collects : t.pool.collect? task = some (r, pool)) :
    Consistent handlers (.resume task :: past)
      (t.conclude pool w ((outcomeOf w.request.type r).mapError .failure)) := by
  have waiting : w ∈ t.waiting := List.mem_of_find?_eq_some waits
  obtain rfl : w.request.task = task := by simpa using List.find?_some waits
  obtain ⟨r', found, same⟩ := Option.map_eq_some_iff.1 collects
  cases same
  have delivered := List.mem_of_find?_eq_some found
  have named : r.task = w.request.task := by simpa using List.find?_some found
  -- What was found under the number is the answer to this wait, since no other has the number.
  obtain ⟨gone, w', waits', rfl⟩ := consistent.delivered r delivered
  obtain rfl := consistent.wait_unique (mem_waits waits') (mem_waits waiting) named
  refine consistent.conclude waiting ⟨rfl, rfl, rfl⟩ nofun (.inl rfl) rfl rfl rfl rfl ?_ ?_
  · intro r mem
    obtain ⟨before, other⟩ := List.mem_filter.1 mem
    exact ⟨before, bne_iff_ne.1 other⟩
  · intro task mem
    refine ⟨mem, ?_⟩
    rintro rfl
    exact gone mem

theorem expire (consistent : Consistent handlers past t) {task : Nat} {w : Wait P}
    (waits : t.wait? task = some w) : Consistent handlers (.expire task :: past)
      (t.conclude (t.pool.forget task) w (.error (Site.missed task w.limit))) := by
  have waiting : w ∈ t.waiting := List.mem_of_find?_eq_some waits
  obtain rfl : w.request.task = task := by simpa using List.find?_some waits
  refine consistent.conclude waiting ⟨rfl, rfl, rfl⟩ ?_ (.inr ⟨List.mem_cons_self, rfl⟩) rfl rfl rfl
    rfl ?_ ?_
  · rintro _ ⟨⟩
    rfl
  · intro r mem
    obtain ⟨before, other⟩ := List.mem_filter.1 mem
    exact ⟨before, bne_iff_ne.1 other⟩
  · intro task mem
    obtain ⟨before, other⟩ := List.mem_filter.1 mem
    exact ⟨before, bne_iff_ne.1 other⟩

/-! ### All moves -/

theorem step (consistent : Consistent handlers past t) {move : Move P}
    (moves : t.step handlers move = some t') : Consistent handlers (move :: past) t' := by
  cases move with
  | submit name payload limit =>
    cases moves
    exact consistent.submit name payload limit
  | take =>
    obtain ⟨pool, takes, rfl⟩ := Option.map_eq_some_iff.1 moves
    exact consistent.take takes
  | finish task =>
    simp only [Traffic.step] at moves
    split at moves
    · cases moves
      exact consistent.finish task
    · exact nomatch moves
  | dispatch =>
    obtain ⟨pool, dispatches, rfl⟩ := Option.map_eq_some_iff.1 moves
    exact consistent.dispatch dispatches
  | resume task =>
    obtain ⟨w, waits, rest⟩ := Option.bind_eq_some_iff.1 moves
    obtain ⟨⟨r, pool⟩, collects, same⟩ := Option.bind_eq_some_iff.1 rest
    cases same
    exact consistent.resume waits collects
  | expire task =>
    obtain ⟨w, waits, same⟩ := Option.bind_eq_some_iff.1 moves
    cases same
    exact consistent.expire waits

end Consistent

theorem Traffic.after_consistent {workers : Int} (reached : after handlers workers past = some t) :
    Consistent handlers past t := by
  induction past generalizing t with
  | nil =>
    cases reached
    exact .start handlers workers
  | cons move past ih =>
    obtain ⟨before, reached, moves⟩ := Option.bind_eq_some_iff.1 reached
    exact (ih reached).step moves

/-! ### A pool at rest -/

/-- Nobody waits, and there is nothing to do or to hand over. -/
structure Traffic.AtRest (t : Traffic P R) : Prop where
  requests : t.pool.requests = []
  running : t.pool.running = []
  responses : t.pool.responses = []
  waiting : t.waiting = []

/-- The moves by which a task that is submitted now is answered, if nothing else happens. -/
def serving (name : String) (payload : P) (limit : Number) (past : List (Move P)) : List (Move P) :=
  let task := submitted past + 1
  [.resume task, .dispatch, .finish task, .take, .submit name payload limit]

theorem Traffic.after_serving {workers : Int} (reached : after handlers workers past = some t)
    (rest : t.AtRest) {name : String} {type : Job} (named : Job.named? name = some type)
    (payload : P) (limit : Number) :
    ∃ served, after handlers workers (serving name payload limit past ++ past) = some served ∧
      served.AtRest ∧ ∃ w, w.request = ⟨submitted past + 1, type, payload⟩ ∧
        (w, (outcomeOf type (answerTo handlers w.request)).mapError .failure) ∈ served.ended := by
  have consistent := after_consistent reached
  obtain ⟨requests, running, responses, waiting⟩ := rest
  have delivered : t.pool.delivered = [] := by
    apply List.eq_nil_iff_forall_not_mem.2
    intro r mem
    obtain ⟨-, w, waits, -⟩ := consistent.delivered r mem
    exact nomatch waiting ▸ waits
  -- The states of the pool in order: the task is queued, taken, finished, handed over and collected.
  let task := submitted past + 1
  let w : Wait P := ⟨⟨task, type, payload⟩, limit⟩
  let answer := answerTo handlers w.request
  let queued : Pool P R := { t.pool with
    issued := task, pending := t.pool.pending ++ [task], requests := [w.request] }
  let taken : Pool P R := { queued with requests := [], running := [w.request] }
  let finished : Pool P R := { taken with running := [], responses := [answer] }
  let handed : Pool P R := { finished with
    responses := [], pending := queued.pending.filter (· != task), delivered := [answer] }
  let collected : Pool P R := { handed with delivered := [] }
  have submits : t.submit name payload limit = { t with pool := queued, waiting := [w] } := by
    rw [submit_named named, waiting, consistent.issued]
    simp only [Pool.submit, Pool.expect, Pool.enqueue, requests, consistent.issued,
      List.nil_append, queued, w, task]
  have takes : queued.take? = some taken := by
    simp [Pool.take?, queued, taken, running, consistent.staffed]
  have finishes : taken.finish handlers task = finished := by
    simp [Pool.finish, taken, finished, queued, responses, w, answer, answerTo]
  have dispatches : finished.dispatch? = some handed := by
    simp [Pool.dispatch?, finished, handed, taken, queued, delivered, answer, answerTo, w]
  have collects : handed.collect? task = some (answer, collected) := by
    simp [Pool.collect?, handed, collected, answer, answerTo, w]
  have waits : ({ t with pool := handed, waiting := [w] } : Traffic P R).wait? task = some w := by
    simp [wait?, w]
  refine ⟨({ t with pool := handed, waiting := [w] } : Traffic P R).conclude collected w
    ((outcomeOf type answer).mapError .failure), ?_, ?_, w, rfl, ?_⟩
  · have busy : taken.running.any (·.task == task) = true := by simp [taken, w]
    simp only [serving, List.cons_append, List.nil_append, after, reached, Option.bind_some, step,
      submits, takes, Option.map_some, busy, if_true, finishes, dispatches, waits, collects,
      Option.bind_eq_bind, task, w]
  · refine ⟨rfl, rfl, rfl, ?_⟩
    simp [conclude]
  · exact List.mem_append_right _ (List.mem_singleton.2 rfl)

end DesignComponents.Worker
