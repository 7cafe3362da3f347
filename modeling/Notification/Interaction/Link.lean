import Notification.Interaction.Rules

/-!
# Programs linked with implementations of their calls

`p.link impl` runs the program `impl c` in place of each call `c` of `p`, and goes on with what
it has returned or thrown. If the implementations simulate an environment, then whatever holds
of `p` in that environment holds of the linked program.
-/

namespace Interaction

namespace Program

variable {Call Call' : Type} {Reply : Call → Type} {Reply' : Call' → Type} {ε α β σ τ : Type}

/-- Go on with the outcome of a program, a thrown error included. -/
def resume : Program Reply' ε β → (Except ε β → Program Reply' ε α) → Program Reply' ε α
  | done outcome, k => k outcome
  | step c next, k => step c fun r => (next r).resume k

/-- The program with its calls implemented. -/
def link (impl : (c : Call) → Program Reply' ε (Reply c)) :
    Program Reply ε α → Program Reply' ε α
  | done outcome => done outcome
  | step c next => (impl c).resume fun r => (next r).link impl

variable {env : Env Reply ε τ} {env' : Env Reply' ε σ} {I : τ → Prop} {J : σ → Prop}
  {Q : Except ε α → τ → Prop} {t : τ} {s : σ}

@[simp] theorem wp_resume {p : Program Reply' ε β} {k : Except ε β → Program Reply' ε α}
    {Q : Except ε α → σ → Prop} :
    (p.resume k).wp env' J Q s ↔ p.wp env' J (fun o => (k o).wp env' J Q) s := by
  induction p generalizing s with
  | done outcome => exact Iff.rfl
  | step c next ih =>
      exact forall_congr' fun r => forall_congr' fun s' => imp_congr_right fun _ =>
        and_congr_right fun _ => ih r

/-- The implementations answer as the environment may, in related states. A call that would
break the invariant of the program is not made and need not be implemented. -/
def Implements (impl : (c : Call) → Program Reply' ε (Reply c)) (env : Env Reply ε τ)
    (env' : Env Reply' ε σ) (I : τ → Prop) (J : σ → Prop) (related : τ → σ → Prop) : Prop :=
  ∀ c t s, related t s → (∀ r t', env t ⟨c, r⟩ t' → I t') →
    (impl c).wp env' J (fun r s' => ∃ t', env t ⟨c, r⟩ t' ∧ related t' s') s

/-- What holds of a program holds of the linked one. -/
theorem wp.link {impl : (c : Call) → Program Reply' ε (Reply c)} {related : τ → σ → Prop}
    {p : Program Reply ε α} (h : p.wp env I Q t) (sim : Implements impl env env' I J related)
    (start : related t s) :
    (p.link impl).wp env' J (fun o s' => ∃ t', Q o t' ∧ related t' s') s := by
  induction p generalizing t s with
  | done outcome => exact ⟨t, h, start⟩
  | step c next ih =>
      rw [Program.link, wp_resume]
      apply mono_post (sim c t s start fun r t' answer => (h r t' answer).1)
      rintro r s' ⟨t', answer, related'⟩
      exact ih r (h r t' answer).2 related'

end Program

end Interaction
