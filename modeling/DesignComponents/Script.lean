/-! Scripts: trees of questions. A script ends, or fails, or asks a question and goes on as the
answer tells it; what answers it decides what it does. -/

set_option autoImplicit false

namespace DesignComponents

inductive Script {Q : Type} (Answer : Q → Type) (ε α : Type) where
  | done (a : α)
  | fail (e : ε)
  | ask (q : Q) (next : Answer q → Script Answer ε α)

namespace Script

variable {Q : Type} {Answer : Q → Type} {ε α β σ : Type}

def bind (s : Script Answer ε α) (f : α → Script Answer ε β) : Script Answer ε β :=
  match s with
  | done a => f a
  | fail e => fail e
  | ask q next => ask q fun a => (next a).bind f

instance : Monad (Script Answer ε) where
  pure := done
  bind := bind

theorem bind_assoc {γ : Type} (s : Script Answer ε α) (f : α → Script Answer ε β)
    (g : β → Script Answer ε γ) : (s.bind f).bind g = s.bind fun a => (f a).bind g := by
  induction s with
  | done a => rfl
  | fail e => rfl
  | ask q next ih => simp only [bind]; congr 1; funext a; exact ih a

/-- Asks one question and ends with its answer. -/
def put (q : Q) : Script Answer ε (Answer q) := ask q done

def lift : Except ε α → Script Answer ε α
  | .ok a => done a
  | .error e => fail e

/-- Does one thing more before the script fails. -/
def onFail (last : ε → Script Answer ε Unit) : Script Answer ε α → Script Answer ε α
  | done a => done a
  | fail e => (last e).bind fun _ => fail e
  | ask q next => ask q fun a => onFail last (next a)

/-- The script with its failure as a value. -/
def attempt : Script Answer ε α → Script Answer ε (Except ε α)
  | done a => done (.ok a)
  | fail e => done (.error e)
  | ask q next => ask q fun a => (next a).attempt

/-- What answers a script's questions, and may change at each. -/
abbrev Answerer (Answer : Q → Type) (σ : Type) := (q : Q) → σ → Answer q × σ

/-- Runs to the end. -/
def exec (answer : Answerer Answer σ) : Script Answer ε α → σ → Except ε α × σ
  | done a, s => (.ok a, s)
  | fail e, s => (.error e, s)
  | ask q next, s =>
    let (a, s) := answer q s
    exec answer (next a) s

/-- Runs to the end where the questions are answered by doing something. -/
def perform {m : Type → Type} [Monad m] (answer : (q : Q) → m (Answer q)) :
    Script Answer ε α → m (Except ε α)
  | done a => pure (.ok a)
  | fail e => pure (.error e)
  | ask q next => do
    let a ← answer q
    perform answer (next a)

end Script

end DesignComponents
