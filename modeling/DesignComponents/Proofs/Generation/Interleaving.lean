import DesignComponents.Proofs.Generation.Alike

/-! Two calls of one generator do not interfere, in whatever order they take their turns. Sessions have
names of their own: what a generator has cached is under the names of earlier sessions, and none of
those is the name of the next one. -/

set_option autoImplicit false

namespace DesignComponents

/-! ### Names of sessions -/

section

open Text

theorem Text.Quoted.hexDigit_inj : ∀ m < 16, ∀ n < 16,
    Quoted.hexDigit m = Quoted.hexDigit n → m = n := by
  decide

theorem Text.Quoted.length_hexDigits (width n : Nat) : (Quoted.hexDigits width n).length = width := by
  induction width generalizing n with
  | zero => rfl
  | succ width ih => rw [Quoted.hexDigits, List.length_append, ih, List.length_singleton]

/-- Numbers that are short enough differ in their digits. -/
theorem Text.Quoted.hexDigits_inj {width m n : Nat} (small_m : m < 16 ^ width)
    (small_n : n < 16 ^ width) (same : Quoted.hexDigits width m = Quoted.hexDigits width n) : m = n := by
  induction width generalizing m n with
  | zero => omega
  | succ width ih =>
    rw [Quoted.hexDigits, Quoted.hexDigits] at same
    obtain ⟨front, last⟩ := List.append_inj same (by rw [length_hexDigits, length_hexDigits])
    have digits := hexDigit_inj _ (Nat.mod_lt m (by decide)) _ (Nat.mod_lt n (by decide))
      (List.singleton_inj.1 last)
    rw [Nat.pow_succ] at small_m small_n
    have rest := ih (Nat.div_lt_of_lt_mul (by omega)) (Nat.div_lt_of_lt_mul (by omega)) front
    omega

/-- How many sessions have different names. -/
def Session.most : Nat := 16 ^ 9

theorem Session.idOf_inj {a b : Int} {m n : Nat} (small_m : m < most) (small_n : n < most)
    (same : idOf a m = idOf b n) : m = n := by
  have chars := congrArg String.toList same
  simp only [idOf, String.toList_append, toString, String.toList_ofList] at chars
  have digits := List.append_inj_right' chars (by
    rw [Quoted.length_hexDigits, Quoted.length_hexDigits])
  exact Quoted.hexDigits_inj small_m small_n digits

namespace Generator

/-- What is cached is cached under the names of sessions that there were. -/
def Numbered (e : Generator) : Prop :=
  ∀ key ∈ e.cache.entries.keys, ∃ millisecond number, number ≤ e.issued ∧
    key = Session.idOf millisecond number

theorem numbered_make (settings : Generation.Settings) : (make settings).Numbered := nofun

theorem generate_numbered {e : Generator} (numbered : e.Numbered) (moment : Generation.Moment)
    (millisecond : Int) (document : Json) (config : Config) (cancels : List Progress → Bool)
    (token : Token) :
    (e.generate moment millisecond document config { cancels, token }).2.Numbered := by
  cases ends : (e.run moment millisecond document config).exec answer
      (e.start millisecond { cancels, token }) with
  | mk result st =>
  obtain ⟨e', s⟩ := st
  obtain ⟨keeps, -, -⟩ := run_keeps ends
  have same := keeps.services
  have own := keeps.id
  simp only at same own
  have issued : e'.issued = e.issued + 1 := by
    rw [same]
    rfl
  have held : e'.cache = e.cache := keeps.cache
  have earlier : ∀ key ∈ e'.cache.entries.keys, ∃ millisecond number, number ≤ e'.issued ∧
      key = Session.idOf millisecond number := by
    intro key mem
    rw [held] at mem
    obtain ⟨millisecond', number, small, named⟩ := numbered key mem
    exact ⟨millisecond', number, by omega, named⟩
  -- Only a call that returns enters a key, and its number is the one just issued.
  rw [generate_eq ends]
  cases result with
  | error t => exact earlier
  | ok g =>
    intro key mem
    rw [finish, complete_leaves] at mem ⊢
    rcases Store.set_keys key mem with rfl | mem
    · exact ⟨millisecond, e.issued + 1, issued.ge, own⟩
    · exact earlier key mem

/-- The name of the next session is new, as long as there are names left. -/
theorem fresh_of_numbered {e : Generator} (numbered : e.Numbered)
    (few : e.issued + 1 < Session.most) (millisecond : Int) :
    e.cache.entries.get? (Session.idOf millisecond (e.issued + 1)) = none := by
  cases found : e.cache.entries.get? (Session.idOf millisecond (e.issued + 1)) with
  | none => rfl
  | some entry =>
    have held : Session.idOf millisecond (e.issued + 1) ∈ e.cache.entries.keys := by
      apply OrderedMap.contains_eq_true.1
      rw [OrderedMap.contains, found]
      rfl
    obtain ⟨_, number, small, same⟩ := numbered _ held
    have := Session.idOf_inj few (by omega) same
    omega

end Generator

end

/-! ### Two calls -/

/-- The calls ask for the same, each in its own time. -/
structure Call.Repeats (c c' : Call) : Prop where
  document : c.document = c'.document
  config : c.config = c'.config
  listener : c.listener = c'.listener
  timed : c.moment.Timed
  timed' : c'.moment.Timed

namespace CallState

/-- How many results a call may have given. -/
def given : CallState → Nat
  | waiting | running .. => 0
  | ended _ => 1

theorem given_le (state : CallState) : state.given ≤ 1 := by
  cases state <;> simp [given]

theorem Alike.given {state state' : CallState} (alike : Alike state state') :
    state.given = state'.given := by
  cases alike <;> rfl

/-- The call has returned the result, which bears the name of its session. -/
def Gave (state : CallState) (id : String) (g : Generated) : Prop :=
  ∃ o : Generator.Outcome, state = .ended o ∧ o.result = .ok g ∧ o.session.id = id ∧ g.id = id

theorem Gave.given {state : CallState} {id : String} {g : Generated} (gave : state.Gave id g) :
    state.given = 1 := by
  obtain ⟨o, rfl, -⟩ := gave
  rfl

section

variable {c c' : Store Generated} {state : CallState}

theorem Caches.count (caches : Caches c state c') : c'.count ≤ c.count + state.given := by
  cases caches with
  | keep state => exact Nat.le_add_right _ _
  | enter time returns named entered => exact Store.set_count entered

theorem Caches.mem (caches : Caches c state c') {entry : String × StoreEntry Generated}
    (mem : entry ∈ c'.entries.entries) :
    entry ∈ c.entries.entries ∨ state.Gave entry.1 entry.2.value := by
  cases caches with
  | keep state => exact .inl mem
  | @enter o g time returns named entered =>
    rcases Store.mem_set entered mem with rfl | old
    · exact .inr ⟨o, rfl, returns, named.symm, rfl⟩
    · exact .inl old

end

end CallState

open Generator

section

variable {settings : Generation.Settings} {e e' : Generator} {state state' : CallState}

theorem unpooled {settings : Generation.Settings} (direct : settings.useWorker = false) :
    settings.channel ≠ .direct → False := by
  intro pooled
  rw [Generation.Settings.channel, direct] at pooled
  exact pooled rfl

/-- A turn of a call that has not ended. -/
theorem Call.turn_alike {c c' : Call} (direct : settings.useWorker = false) (repeats : c.Repeats c')
    (t : Turn) (alike : state.Alike state') (undone : state.given = 0) (ready : Ready settings e)
    (ready' : Ready settings e') :
    TurnedAlike settings e.cache e'.cache (c.turn t (state, e)) (c'.turn t (state', e')) := by
  have later : ∀ {e : Generator}, Ready settings e → Ready settings { e with time := t.time } :=
    fun ready => ⟨⟨ready.made, ready.limits, ready.names⟩, ready.tells⟩
  cases alike with
  | waiting =>
    have started : ∀ {e : Generator} (millisecond : Int) (l : Listener), Ready settings e →
        Ready settings (e.start millisecond l).1 :=
      fun _ _ ready => ⟨⟨ready.made, ready.limits, ready.names⟩, ready.tells⟩
    have begins : ∀ {e : Generator} (c : Call), Ready settings e → c.turn t (.waiting, e) =
        (({ e with time := t.time } : Generator).start c.millisecond (c.listener.after t)).1.proceed
          { id := Session.idOf c.millisecond (e.issued + 1), listener := c.listener.after t }
          (Generation.generation settings (Session.idOf c.millisecond (e.issued + 1)) c.moment
            c.document c.config) := by
      intro e c ready
      rw [← ready.made]
      rfl
    rw [begins c ready, begins c' ready', ← repeats.document, ← repeats.config, ← repeats.listener]
    apply proceed_alike (started _ _ (later ready)) (started _ _ (later ready'))
    · exact Generation.leads_generation (unpooled direct) _ _ _ _
    · exact Generation.generation_like settings _ _ repeats.timed repeats.timed' _ _
    · exact ⟨rfl, rfl⟩
  | running like leads alike =>
    obtain ⟨own, rfl⟩ := alike
    exact proceed_alike (later ready) (later ready') leads like ⟨own, rfl⟩
  | ended agree => exact nomatch undone

end

namespace World

variable {settings : Generation.Settings} {e : Generator} {w : World}

/-- How many results the calls may have given. -/
def given (w : World) : Nat := (w.states true).given + (w.states false).given

theorem given_put (w : World) (side : Bool) (p : CallState × Generator) :
    (w.put side p).given + (w.states side).given = w.given + p.1.given := by
  have own := w.put_self side p
  have other := w.put_other (Bool.not_ne_self side) p
  cases side <;> simp only [given, Bool.not_true, Bool.not_false] at own other ⊢ <;>
    rw [own, other] <;> omega

theorem given_undone {side : Bool} (undone : (w.states side).given = 0) : w.given ≤ 1 := by
  have one := (w.states !side).given_le
  cases side <;> simp only [given, undone, Bool.not_true, Bool.not_false] at one ⊢ <;> omega

/-- What holds after any turns, of a generator that was `e` when it was called. -/
structure Holds (settings : Generation.Settings) (e : Generator) (w : World) : Prop where
  sound : Sound settings w.generator
  few : w.generator.cache.count ≤ e.cache.count + w.given
  cached : ∀ entry ∈ w.generator.cache.entries.entries, entry ∈ e.cache.entries.entries ∨
    ∃ side, (w.states side).Gave entry.1 entry.2.value

theorem holds_called (sound : Sound settings e) : Holds settings e (called e) :=
  ⟨sound, Nat.le_refl _, fun _ mem => .inl mem⟩

theorem Holds.ready {side : Bool} (holds : Holds settings e w)
    (tells : Store.Tells settings.cache (e.cache.count + 1)) (undone : (w.states side).given = 0) :
    Ready settings w.generator := by
  refine ⟨holds.sound, fun n small => tells n ?_⟩
  have few := holds.few
  have one := given_undone undone
  omega

/-- A turn of a call that has not ended. -/
theorem Holds.turned {side : Bool} {p : CallState × Generator} (holds : Holds settings e w)
    (undone : (w.states side).given = 0) (turned : Turned settings w.generator.cache p) :
    Holds settings e (w.put side p) := by
  refine ⟨turned.sound, ?_, fun entry mem => ?_⟩
  · have given := given_put w side p
    have few := holds.few
    have grown := turned.caches.count
    change p.2.cache.count ≤ _
    omega
  · rcases turned.caches.mem mem with old | new
    · rcases holds.cached entry old with before | ⟨side', gave⟩
      · exact .inl before
      · -- What was given before this turn was given by the other call.
        have other : side' ≠ side := by
          rintro rfl
          exact absurd (undone.symm.trans gave.given) (by decide)
        refine .inr ⟨side', ?_⟩
        rw [put_other w other]
        exact gave
    · refine .inr ⟨side, ?_⟩
      rw [put_self]
      exact new

/-- A turn of a call that has ended. -/
theorem Holds.passed (holds : Holds settings e w) (side : Bool) (time : Number) :
    Holds settings e (w.put side (w.states side, { w.generator with time })) := by
  have same : w.put side (w.states side, { w.generator with time }) =
      ⟨{ w.generator with time }, w.states⟩ := by
    rw [put, Function.update_eq_self]
  rw [same]
  obtain ⟨⟨made, limits, names⟩, few, cached⟩ := holds
  exact ⟨⟨made, limits, names⟩, few, cached⟩

end World

/-! ### All turns -/

/-- A call of a shared generator and one that is alone in its own, at the same point. -/
structure Call.Beside (settings : Generation.Settings) (state : CallState)
    (p : CallState × Generator) : Prop where
  alike : state.Alike p.1
  sound : Sound settings p.2
  few : p.2.cache.count ≤ p.1.given

section

variable {settings : Generation.Settings} {e : Generator} {calls calls' : Bool → Call} {w : World}

theorem Call.beside_waiting (settings : Generation.Settings) :
    Call.Beside settings .waiting (.waiting, .make settings) :=
  ⟨.waiting, sound_make settings, Nat.le_refl _⟩

theorem Call.Beside.ready {state : CallState} {p : CallState × Generator}
    (beside : Call.Beside settings state p) {count : Nat} (tells : Store.Tells settings.cache count)
    (undone : p.1.given = 0) : Ready settings p.2 := by
  refine ⟨beside.sound, fun n small => tells n ?_⟩
  have few := beside.few
  omega

/-- One turn of a call, in the shared generator and in its own. -/
theorem World.turn_beside {side : Bool} {t : Turn} {p : CallState × Generator}
    (direct : settings.useWorker = false) (tells : Store.Tells settings.cache (e.cache.count + 1))
    (repeats : (calls side).Repeats (calls' side)) (holds : World.Holds settings e w)
    (beside : Call.Beside settings (w.states side) p) :
    World.Holds settings e (w.turn calls (side, t)) ∧
      Call.Beside settings ((w.turn calls (side, t)).states side) ((calls' side).turn t p) := by
  obtain ⟨state', e'⟩ := p
  have alike := beside.alike
  rw [turn, put_self]
  by_cases undone : (w.states side).given = 0
  -- Only the other call may have put a result into the shared cache, and none is in the other one.
  · have undone' : state'.given = 0 := alike.given.symm.trans undone
    have turned := Call.turn_alike direct repeats t alike undone (holds.ready tells undone)
      (beside.ready tells undone')
    refine ⟨holds.turned undone turned.own, turned.alike, turned.other.sound, ?_⟩
    have grown := turned.other.caches.count
    have few := beside.few
    simp only [undone'] at few grown
    omega
  · generalize ended : w.states side = state at alike undone
    cases alike with
    | waiting => exact absurd rfl undone
    | running => exact absurd rfl undone
    | @ended o o' agree =>
      have passed := holds.passed side t.time
      rw [ended] at passed
      have sound := beside.sound
      exact ⟨passed, .ended agree, ⟨sound.made, sound.limits, sound.names⟩, beside.few⟩

/-- Any turns of both calls. -/
theorem World.play_beside {alone : Bool → CallState × Generator} (direct : settings.useWorker = false)
    (tells : Store.Tells settings.cache (e.cache.count + 1))
    (repeats : ∀ side, (calls side).Repeats (calls' side)) (turns : List (Bool × Turn))
    (holds : World.Holds settings e w)
    (beside : ∀ side, Call.Beside settings (w.states side) (alone side)) :
    World.Holds settings e (w.play calls turns) ∧ ∀ side, Call.Beside settings
      ((w.play calls turns).states side) ((calls' side).play (turnsOf side turns) (alone side)) := by
  induction turns generalizing w alone with
  | nil => exact ⟨holds, beside⟩
  | cons turn rest ih =>
    obtain ⟨side, t⟩ := turn
    obtain ⟨holds_after, beside_own⟩ :=
      World.turn_beside (t := t) direct tells (repeats side) holds (beside side)
    -- The turn moves one call, in the world and alone; the other call stands still in both.
    have beside_after : ∀ side', Call.Beside settings ((w.turn calls (side, t)).states side')
        (Function.update alone side ((calls' side).turn t (alone side)) side') := by
      intro side'
      by_cases same : side' = side
      · subst same
        rw [Function.update_self]
        exact beside_own
      · rw [turn, put_other w same, Function.update_of_ne same]
        exact beside side'
    obtain ⟨holds_all, beside_all⟩ := ih holds_after beside_after
    refine ⟨holds_all, fun side' => ?_⟩
    have last := beside_all side'
    by_cases same : side' = side
    · subst same
      rw [Function.update_self] at last
      rw [turnsOf_self]
      exact last
    · rw [Function.update_of_ne same] at last
      rw [turnsOf_other same]
      exact last

/-- Whatever turns two calls take in one generator without workers, each stands where it would stand
if it had taken its turns alone in a generator of its own: what was heard, the error, and the result
are the same. The results are cached under the names of their own sessions. This is so wherever it can
be told how many results have to go from a full cache. -/
theorem World.play_independent (direct : settings.useWorker = false) (sound : Sound settings e)
    (tells : Store.Tells settings.cache (e.cache.count + 1))
    (repeats : ∀ side, (calls side).Repeats (calls' side)) (turns : List (Bool × Turn)) :
    (∀ side, (((called e).play calls turns).states side).Agrees
        ((calls' side).alone settings (turnsOf side turns))) ∧
      ∀ entry ∈ ((called e).play calls turns).generator.cache.entries.entries,
        entry ∈ e.cache.entries.entries ∨
          ∃ side, (((called e).play calls turns).states side).Gave entry.1 entry.2.value := by
  obtain ⟨holds, beside⟩ := World.play_beside direct tells repeats turns (World.holds_called sound)
    fun _ => Call.beside_waiting settings
  exact ⟨fun side => (beside side).alike.agrees, holds.cached⟩

end

namespace Call

/-- A call for a small component. -/
def plain : Call where
  moment := ⟨.real (.zero false), .real (.zero false), default⟩
  millisecond := 0
  document := .str "<svg/>"
  config := { framework := .str "svelte", typescript := .bool false, componentName := .str "A" }

theorem plain_repeats : plain.Repeats plain :=
  ⟨rfl, rfl, rfl, Generation.timed_real _ _ _, Generation.timed_real _ _ _⟩

/-- Two calls, of which the second has an impatient listener. -/
def plainAndHasty : Bool → Call
  | true => plain
  | false => { plain with document := .str "<svg><g><rect/></g></svg>", listener := impatient }

theorem plainAndHasty_repeats (side : Bool) : (plainAndHasty side).Repeats (plainAndHasty side) := by
  cases side
  · exact ⟨rfl, rfl, rfl, Generation.timed_real _ _ _, Generation.timed_real _ _ _⟩
  · exact plain_repeats

end Call

theorem tells_default : Store.Tells {} 1 := by
  intro n small
  obtain rfl | rfl : n = 0 ∨ n = 1 := by omega
  · exact ⟨0, by decide +kernel⟩
  · exact ⟨1, by decide +kernel⟩

namespace World

/-- Turns of both calls by turns. -/
def alternating : List (Bool × Turn) := (List.replicate 9 [(true, {}), (false, {})]).flatten

theorem play_independent_default :
    Generation.Settings.useWorker {} = false ∧ Sound {} (make {}) ∧
      Store.Tells {} ((make {}).cache.count + 1) ∧
      (∀ side, (Call.plainAndHasty side).Repeats (Call.plainAndHasty side)) ∧
      (∀ side, (((called (make {})).play Call.plainAndHasty alternating).states side).Agrees
        ((Call.plainAndHasty side).alone {} (turnsOf side alternating))) ∧
      ∀ entry ∈
          ((called (make {})).play Call.plainAndHasty alternating).generator.cache.entries.entries,
        entry ∈ (make {}).cache.entries.entries ∨
          ∃ side, (((called (make {})).play Call.plainAndHasty alternating).states side).Gave
            entry.1 entry.2.value := by
  refine ⟨rfl, sound_make {}, tells_default, Call.plainAndHasty_repeats, ?_⟩
  exact play_independent rfl (sound_make {}) tells_default Call.plainAndHasty_repeats alternating

end World

/-! ### Where it cannot be told how many results have to go -/

/-- A cache of a size that has to lose more than all of its results when it is full. -/
def crowded (size : Nat) : Generation.Settings :=
  { cache := { maxSize := .int size, evictFraction := .real (.infinite false) } }

theorem evicted_crowded (size : Nat) :
    Store.evicted (crowded size).cache 1 = .error (.noWholePart "infinity") := rfl

theorem Generated.size_pos (g : Generated) : 0 < g.size := by
  apply Nat.pos_of_ne_zero
  intro none
  have empty := congrArg String.toList (String.utf8ByteSize_eq_zero_iff.1 none)
  rw [Json.print, String.toList_ofList] at empty
  exact nomatch empty

namespace Call

variable {c : Call} {e e' : Generator} {g : Generated}

/-- The run of the call ends with the result in the generator, which may be unable to cache it. -/
def Returns (c : Call) (e : Generator) (g : Generated) : Prop :=
  ((c.run e).exec answer (e.start c.millisecond c.listener)).1 = .ok g

/-- Where a run ends with a result, its session is still to be closed. -/
theorem atOnce_returns (returns : c.Returns e g) :
    ∃ (e' : Generator) (s : Session), c.atOnce e = e'.settle s (.done g) ∧
      s.id = Session.idOf c.millisecond (e.issued + 1) ∧ e'.issued = e.issued + 1 ∧
      e'.cache = e.cache ∧ e'.still = e.still ∧
      ∀ settings, Sound settings e → Sound settings e' := by
  obtain ⟨services, left, name, valid⟩ := exec_leaves (c.run e)
    (e.start c.millisecond c.listener).1 (e.start c.millisecond c.listener).2
  refine ⟨{ (e.start c.millisecond c.listener).1 with services }, _, ?_, name, rfl, rfl, rfl,
    fun settings sound => ⟨sound.made, sound.limits, valid sound.names⟩⟩
  have ended : (c.run e).exec answer (e.start c.millisecond c.listener) = (.ok g, _, _) :=
    Prod.ext returns rfl
  rw [← left, atOnce, generate_eq ended]
  rfl

theorem atOnce_numbered (unheard : c.listener.heard = []) (numbered : e.Numbered) :
    (c.atOnce e).2.Numbered := by
  have listener : c.listener = { cancels := c.listener.cancels, token := c.listener.token } := by
    rw [← unheard]
  have unfolded : (c.atOnce e).2 =
      (e.generate c.moment c.millisecond c.document c.config c.listener).2 := rfl
  rw [unfolded, listener]
  exact generate_numbered numbered _ _ _ _ _ _

/-- A call returns in one generator what a like run returns in another. -/
theorem Returns.alike {R : Generated → Generated → Prop} (returns : c.Returns e g)
    (direct : e.settings.useWorker = false) (like : Script.Like R (c.run e) (c.run e'))
    (valid : e.services.names.Valid) (valid' : e'.services.names.Valid) :
    ∃ g', c.Returns e' g' ∧ R g g' := by
  have leads : Run.Leads False .created (c.run e) .assembling :=
    Generation.leads_generation (unpooled direct) _ _ _ _
  have alike : Session.Alike (Session.idOf c.millisecond (e.issued + 1))
      (Session.idOf c.millisecond (e'.issued + 1)) (e.start c.millisecond c.listener).2
      (e'.start c.millisecond c.listener).2 := ⟨rfl, rfl⟩
  have valid_start : (e.start c.millisecond c.listener).1.services.names.Valid := valid
  have valid_start' : (e'.start c.millisecond c.listener).1.services.names.Valid := valid'
  exact exec_alike leads like valid_start valid_start' alike returns

set_option maxRecDepth 100000 in
theorem plain_isOk : ((plain.run (make {})).exec answer
    ((make {}).start plain.millisecond plain.listener)).1.isOk = true := by
  decide +kernel

/-- The call returns in a generator that has done nothing before. -/
theorem plain_returns : ∃ g, plain.Returns (make {}) g := by
  have isOk := plain_isOk
  cases result : ((plain.run (make {})).exec answer
      ((make {}).start plain.millisecond plain.listener)).1 with
  | error t =>
    rw [result] at isOk
    exact nomatch isOk
  | ok g => exact ⟨g, result⟩

/-- What the call gives there it gives whatever the size of the cache. -/
theorem plain_crowded (returns : plain.Returns (make {}) g) (size : Nat) :
    plain.Returns (make (crowded size)) g := by
  have same_run : plain.run (make (crowded size)) = plain.run (make {}) := rfl
  have returned : ∃ g', plain.Returns (make (crowded size)) g' ∧ g = g' :=
    returns.alike rfl (same_run ▸ (plain.run (make {})).like_refl) (sound_make {}).names
      (sound_make (crowded size)).names
  obtain ⟨g', returns', rfl⟩ := returned
  exact returns'

/-- Called again, it returns again. -/
theorem plain_again (returns : plain.Returns (make {}) g) {size : Nat}
    (sound : Sound (crowded size) e) : ∃ g', plain.Returns e g' := by
  have same_run : plain.run e = Generation.generation {}
      (Session.idOf plain.millisecond (e.issued + 1)) plain.moment plain.document plain.config := by
    rw [run, Generator.run, sound.made]
    rfl
  have like := Generation.generation_like {} (Session.idOf plain.millisecond 1)
    (Session.idOf plain.millisecond (e.issued + 1)) plain_repeats.timed plain_repeats.timed
    plain.document plain.config
  rw [← same_run] at like
  obtain ⟨g', returns', -⟩ := returns.alike rfl like (sound_make {}).names sound.names
  exact ⟨g', returns'⟩

/-- The first call fills the cache with its result. -/
theorem plain_first (returns : plain.Returns (make (crowded g.size)) g) :
    ∃ s e, plain.atOnce (make (crowded g.size)) = (.ended ⟨.ok g, s⟩, e) ∧
      Sound (crowded g.size) e ∧ e.Numbered ∧ e.issued = 1 ∧ e.still = {} ∧ e.cache.count = 1 ∧
      e.cache.size = g.size := by
  have numbered := atOnce_numbered (c := plain) rfl (numbered_make (crowded g.size))
  obtain ⟨e, s, ends, -, issued, cache, still, sound⟩ := atOnce_returns returns
  have empty : e.cache = { limits := (crowded g.size).cache } := cache
  have absent : e.cache.entries.get? s.id = none := by
    rw [empty]
    rfl
  have fits : e.cache.limits.maxSize.lt (.int (e.cache.size + g.size)) = false := by
    rw [empty]
    apply Bool.eq_false_iff.2
    intro less
    have above := (Number.lt_int (g.size : Int) ((0 : Int) + g.size)).1 less
    omega
  have settled : e.settle s (.done g) = (.ended ⟨.ok g, s.enter .done ⟨100, "Complete!"⟩⟩,
      Generator.leave { e with cache := e.cache.enter e.time s.id g g.size } s) := by
    simp only [settle, complete, Store.set_fits absent fits]
  rw [settled] at ends
  rw [ends] at numbered
  obtain ⟨made, limits, names⟩ := sound _ (sound_make (crowded g.size))
  refine ⟨_, _, ends, ⟨made, limits, names⟩, numbered, issued, still, ?_, ?_⟩
  · simp only [leave, empty]
    rfl
  · simp only [leave, empty]
    exact Int.zero_add _

/-- The second call finds no room for its result. -/
theorem plain_second {size : Nat} (sound : Sound (crowded size) e) (numbered : e.Numbered)
    (issued : e.issued = 1) (count : e.cache.count = 1) (full : e.cache.size = size)
    (returns : plain.Returns e g) : ∃ t s, (plain.atOnce e).1 = .ended ⟨.error t, s⟩ := by
  have fresh := fresh_of_numbered numbered (by rw [issued]; decide) plain.millisecond
  obtain ⟨e', s, ends, name, -, cache, -⟩ := atOnce_returns returns
  rw [← name, ← cache] at fresh
  rw [← cache] at count full
  have limits : e'.cache.limits = (crowded size).cache := by rw [cache, sound.limits]
  have overfull : e'.cache.limits.maxSize.lt (.int (e'.cache.size + g.size)) = true := by
    rw [limits, full]
    apply (Number.lt_int _ _).2
    have := g.size_pos
    omega
  have untold : Store.evicted e'.cache.limits e'.cache.count = .error (.noWholePart "infinity") := by
    rw [limits, count]
    exact evicted_crowded size
  refine ⟨.fault (.noWholePart "infinity"), { s with phase := .failed }, ?_⟩
  rw [ends]
  simp only [settle, complete, Store.set_full fresh overfull untold]
  rfl

end Call

/-- Without that condition a call may fail that alone would return: another call has filled the
cache, and it cannot be told how many results have to go for one more. -/
theorem World.not_every_pair_independent :
    ¬ ∀ (settings : Generation.Settings) (calls : Bool → Call) (turns : List (Bool × Turn))
        (side : Bool),
      settings.useWorker = false → (∀ side, (calls side).Repeats (calls side)) →
        (((World.called (make settings)).play calls turns).states side).Agrees
          ((calls side).alone settings (turnsOf side turns)) := by
  intro claimed
  obtain ⟨g, returns⟩ := Call.plain_returns
  obtain ⟨s, e, ends, sound, numbered, issued, still, count, full⟩ :=
    Call.plain_first (Call.plain_crowded returns g.size)
  obtain ⟨g', returns'⟩ := Call.plain_again returns sound
  obtain ⟨t, s', ends'⟩ := Call.plain_second sound numbered issued count full returns'
  -- Each call takes turns enough, the second when the first has ended.
  obtain ⟨m, enough⟩ := Call.plain.play_still (make (crowded g.size))
  obtain ⟨n, enough'⟩ := Call.plain.play_still e
  let some_turns : List Turn := List.replicate (max m n) {}
  have first : Call.plain.play some_turns (.waiting, make (crowded g.size)) =
      (.ended ⟨.ok g, s⟩, e) := (enough (max m n) (by omega)).trans ends
  have second : (Call.plain.play some_turns (.waiting, e)).1 = .ended ⟨.error t, s'⟩ := by
    have turns := enough' (max m n) (by omega)
    rw [still] at turns
    rw [← ends']
    exact congrArg Prod.fst turns
  have claim := claimed (crowded g.size) (fun _ => Call.plain)
    (some_turns.map (fun t => (true, t)) ++ some_turns.map fun t => (false, t)) false rfl
    fun _ => Call.plain_repeats
  rw [turnsOf_second (by decide), Call.alone, first, play_append, play_side, play_side, put_self,
    put_other _ (by decide)] at claim
  change CallState.Agrees (Call.plain.play some_turns
    (.waiting, (Call.plain.play some_turns (.waiting, make (crowded g.size))).2)).1 _ at claim
  rw [first, second] at claim
  cases claim with
  | ended agree => exact nomatch agree

end DesignComponents
