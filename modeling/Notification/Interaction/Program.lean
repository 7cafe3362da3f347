import Mathlib.Tactic.Common

/-!
# Programs that act only through external calls

A `Program` is either finished, with a value or a thrown error, or about to make
one external call, with a continuation for every possible answer. It says
nothing about who answers: the same program is run sequentially against a
handler, interleaved with other programs by a pool, or quantified over all
answers by a weakest precondition.

An answer is an `Except`: calls may throw, and `try`/`catch` and `finally` are
ordinary program combinators, so the place where an error is swallowed is part
of the program and not of its environment.
-/

namespace Interaction

variable {Call : Type} {Reply : Call → Type} {ε α β γ : Type}

/-- One external call together with the answer it got. -/
structure Event {Call : Type} (Reply : Call → Type) (ε : Type) where
  call : Call
  answer : Except ε (Reply call)

/-- A computation whose only effects are external calls. -/
inductive Program {Call : Type} (Reply : Call → Type) (ε α : Type) : Type where
  | done (outcome : Except ε α)
  | step (call : Call) (next : Except ε (Reply call) → Program Reply ε α)

namespace Program

/-- Sequential composition: a thrown error skips the continuation. -/
protected def bind : Program Reply ε α → (α → Program Reply ε β) → Program Reply ε β
  | done (.ok a), f => f a
  | done (.error e), _ => done (.error e)
  | step c next, f => step c fun r => (next r).bind f

/-- `try p catch e => handler e`: the handler's own errors are not caught. -/
protected def tryCatch : Program Reply ε α → (ε → Program Reply ε α) → Program Reply ε α
  | done (.ok a), _ => done (.ok a)
  | done (.error e), handler => handler e
  | step c next, handler => step c fun r => (next r).tryCatch handler

/-- `try p finally cleanup`: an error of the cleanup replaces the outcome. -/
def andFinally : Program Reply ε α → Program Reply ε Unit → Program Reply ε α
  | done outcome, cleanup => cleanup.bind fun _ => done outcome
  | step c next, cleanup => step c fun r => (next r).andFinally cleanup

/-- Make one call and hand back its answer. -/
def perform (c : Call) : Program Reply ε (Reply c) := step c done

instance : Monad (Program Reply ε) where
  pure a := done (.ok a)
  bind := Program.bind

instance : MonadExceptOf ε (Program Reply ε) where
  throw e := done (.error e)
  tryCatch := Program.tryCatch

/-- Run the body on every element in order and collect the results. -/
def forEach : List β → (β → Program Reply ε α) → Program Reply ε (List α)
  | [], _ => pure []
  | b :: rest, body => do
      let a ← body b
      let others ← forEach rest body
      return a :: others

/-! ## Equations -/

theorem bind_eq (p : Program Reply ε α) (f : α → Program Reply ε β) :
    p >>= f = p.bind f := rfl

theorem tryCatch_eq (p : Program Reply ε α) (handler : ε → Program Reply ε α) :
    tryCatch p handler = p.tryCatch handler := rfl

@[simp] theorem step_bind (c : Call) (next : Except ε (Reply c) → Program Reply ε α)
    (f : α → Program Reply ε β) : step c next >>= f = step c fun r => next r >>= f := rfl

@[simp] theorem done_error_bind (e : ε) (f : α → Program Reply ε β) :
    (done (.error e) : Program Reply ε α) >>= f = done (.error e) := rfl

theorem bind_done_ok (p : Program Reply ε α) : (p.bind fun a => done (.ok a)) = p := by
  induction p with
  | done outcome => cases outcome <;> rfl
  | step c next ih => simp only [Program.bind, ih]

theorem bind_bind (p : Program Reply ε α) (f : α → Program Reply ε β)
    (g : β → Program Reply ε γ) : (p.bind f).bind g = p.bind fun a => (f a).bind g := by
  induction p with
  | done outcome => cases outcome <;> rfl
  | step c next ih => simp only [Program.bind, ih]

instance : LawfulMonad (Program Reply ε) :=
  LawfulMonad.mk' _ (fun p => bind_done_ok p) (fun _ _ => rfl) fun p f g => bind_bind p f g

/-- A loop whose body makes no call. -/
theorem forEach_of_pure {body : β → Program Reply ε α} {f : β → α} {bs : List β}
    (h : ∀ b ∈ bs, body b = pure (f b)) : forEach bs body = pure (bs.map f) := by
  induction bs with
  | nil => rfl
  | cons b rest ih =>
      rw [forEach, h b List.mem_cons_self, pure_bind,
        ih fun b' member => h b' (List.mem_cons_of_mem _ member), pure_bind]
      rfl

/-! ## Sequential execution -/

variable {σ : Type}

/-- Run a program against a handler that answers every call from a state. The
recursion is on the program, so every program terminates under every handler. -/
def run (handler : (c : Call) → σ → Except ε (Reply c) × σ) :
    Program Reply ε α → σ → Except ε α × σ
  | done outcome, s => (outcome, s)
  | step c next, s => (next (handler c s).1).run handler (handler c s).2

variable (handler : (c : Call) → σ → Except ε (Reply c) × σ)

@[simp] theorem run_pure (a : α) (s : σ) :
    (pure a : Program Reply ε α).run handler s = (.ok a, s) := rfl

@[simp] theorem run_throw (e : ε) (s : σ) :
    (throw e : Program Reply ε α).run handler s = (.error e, s) := rfl

@[simp] theorem run_done (outcome : Except ε α) (s : σ) :
    (done outcome : Program Reply ε α).run handler s = (outcome, s) := rfl

@[simp] theorem run_perform (c : Call) (s : σ) :
    (perform c : Program Reply ε _).run handler s = handler c s := rfl

/-- What a continuation does with the outcome of the first half of a program. -/
def andThen (k : α → σ → Except ε β × σ) : Except ε α × σ → Except ε β × σ
  | (.ok a, s) => k a s
  | (.error e, s) => (.error e, s)

@[simp] theorem andThen_ok (k : α → σ → Except ε β × σ) (a : α) (s : σ) :
    andThen k (.ok a, s) = k a s := rfl

@[simp] theorem andThen_error (k : α → σ → Except ε β × σ) (e : ε) (s : σ) :
    andThen k (.error e, s) = (.error e, s) := rfl

/-- What a `catch` block does with the outcome of the guarded program. -/
def orElse (k : ε → σ → Except ε α × σ) : Except ε α × σ → Except ε α × σ
  | (.ok a, s) => (.ok a, s)
  | (.error e, s) => k e s

@[simp] theorem orElse_ok (k : ε → σ → Except ε α × σ) (a : α) (s : σ) :
    orElse k (.ok a, s) = (.ok a, s) := rfl

@[simp] theorem orElse_error (k : ε → σ → Except ε α × σ) (e : ε) (s : σ) :
    orElse k (.error e, s) = k e s := rfl

@[simp] theorem run_bind (p : Program Reply ε α) (f : α → Program Reply ε β) (s : σ) :
    (p >>= f).run handler s = andThen (fun a => (f a).run handler) (p.run handler s) := by
  rw [bind_eq]
  induction p generalizing s with
  | done outcome => cases outcome <;> rfl
  | step c next ih => exact ih _ _

@[simp] theorem run_map (p : Program Reply ε α) (f : α → β) (s : σ) :
    (f <$> p).run handler s = andThen (fun a s' => (.ok (f a), s')) (p.run handler s) := by
  rw [← bind_pure_comp, run_bind]
  rfl

@[simp] theorem run_tryCatch (p : Program Reply ε α) (h : ε → Program Reply ε α) (s : σ) :
    (tryCatch p h).run handler s = orElse (fun e => (h e).run handler) (p.run handler s) := by
  rw [tryCatch_eq]
  induction p generalizing s with
  | done outcome => cases outcome <;> rfl
  | step c next ih => exact ih _ _

@[simp] theorem run_andFinally (p : Program Reply ε α) (cleanup : Program Reply ε Unit) (s : σ) :
    (p.andFinally cleanup).run handler s =
      andThen (fun _ s' => ((p.run handler s).1, s'))
        (cleanup.run handler (p.run handler s).2) := by
  induction p generalizing s with
  | done outcome =>
      change (cleanup >>= fun _ => done outcome).run handler s = _
      rw [run_bind]
      rfl
  | step c next ih => exact ih _ _

@[simp] theorem run_ite (b : Prop) [Decidable b] (p q : Program Reply ε α) (s : σ) :
    (if b then p else q).run handler s = if b then p.run handler s else q.run handler s := by
  split <;> rfl

end Program

end Interaction
