/-! Programs that do the same in two monads. A relation between what is done in the one and in the
other that doing nothing and doing one thing after another keep is kept by lists of steps as well,
and by steps that may fail. -/

set_option autoImplicit false

namespace DesignComponents

/-- A relation between the programs of two monads that is kept when they are put together. -/
structure Simulation (m n : Type → Type) [Monad m] [Monad n] where
  Rel : {α : Type} → m α → n α → Prop
  pure : ∀ {α : Type} (a : α), Rel (Pure.pure a) (Pure.pure a)
  map : ∀ {α β : Type} {x : m α} {y : n α} (f : α → β), Rel x y → Rel (f <$> x) (f <$> y)
  bind : ∀ {α β : Type} {x : m α} {y : n α} {f : α → m β} {g : α → n β}, Rel x y →
    (∀ a, Rel (f a) (g a)) → Rel (x >>= f) (y >>= g)

namespace Simulation

variable {m n : Type → Type} [Monad m] [Monad n] (S : Simulation m n) {α β ε : Type}

theorem mapM {f : α → m β} {g : α → n β} (each : ∀ a, S.Rel (f a) (g a)) (as : List α) :
    S.Rel (as.mapM f) (as.mapM g) := by
  -- The results so far are held in reverse.
  have further : ∀ bs : List β, S.Rel (List.mapM.loop f as bs) (List.mapM.loop g as bs) := by
    induction as with
    | nil => exact fun bs => S.pure bs.reverse
    | cons a rest ih => exact fun bs => S.bind (each a) fun b => ih (b :: bs)
  exact further []

theorem foldlM {f : β → α → m β} {g : β → α → n β} (each : ∀ b a, S.Rel (f b a) (g b a))
    (as : List α) (b : β) : S.Rel (as.foldlM f b) (as.foldlM g b) := by
  induction as generalizing b with
  | nil => exact S.pure b
  | cons a rest ih => exact S.bind (each b a) fun b' => ih b'

/-- The relation between steps that may fail: what they give, failures included, is related. -/
def failing (ε : Type) : Simulation (ExceptT ε m) (ExceptT ε n) where
  Rel x y := S.Rel x.run y.run
  pure a := S.pure (Except.ok a)
  map f related := S.bind related fun result => by
    cases result with
    | ok a => exact S.pure (Except.ok (f a))
    | error e => exact S.pure (Except.error e)
  bind first second := S.bind first fun result => by
    cases result with
    | ok a => exact second a
    | error e => exact S.pure (Except.error e)

theorem failing_throw (e : ε) :
    (S.failing ε).Rel (throw e : ExceptT ε m α) (throw e : ExceptT ε n α) :=
  S.pure (Except.error e)

theorem failing_ofExcept (r : Except ε α) :
    (S.failing ε).Rel (MonadExcept.ofExcept r : ExceptT ε m α) (MonadExcept.ofExcept r) := by
  cases r with
  | ok a => exact (S.failing ε).pure a
  | error e => exact S.failing_throw e

theorem failing_lift {x : m α} {y : n α} (related : S.Rel x y) :
    (S.failing ε).Rel (liftM x : ExceptT ε m α) (liftM y : ExceptT ε n α) :=
  S.map Except.ok related

end Simulation

end DesignComponents
