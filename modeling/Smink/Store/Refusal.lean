import Smink.Store.Prog

/-!
# Refusals

A program ends early in two ways: it refuses its input, or something throws. `refusal` says which exceptions are
refusals. A program is committed when none of its own is (`Committed`); it refuses cleanly when a run that ends in one
leaves the store as it was, up to the changes `Leaves` allows (`CleanRefusal`). Checks may come first
(`cleanRefusal_read`), and what follows a change has to be committed (`cleanRefusal_of_committed`).
-/

namespace Smink.Store

variable {S : Type} {R : S → Type} {ε α β σ : Type} {refusal : ε → Prop}

/-- No exception of the program is a refusal. -/
def Committed (refusal : ε → Prop) : Prog R ε α → Prop
  | .ret _ => True
  | .throw e => ¬ refusal e
  | .stmt _ k => ∀ r, Committed refusal (k r)

theorem committed_bind {p : Prog R ε α} {f : α → Prog R ε β} (hp : Committed refusal p)
    (hf : ∀ a, Committed refusal (f a)) : Committed refusal (p >>= f) := by
  induction p with
  | ret a => exact hf a
  | throw e => exact hp
  | stmt q k ih => exact fun r => ih r (hp r)

variable {exec : (q : S) → σ → Except ε (R q × σ)} {Leaves : σ → σ → Prop}

/-- A run that is refused leaves the store as it was. -/
def CleanRefusal (refusal : ε → Prop) (Leaves : σ → σ → Prop) (exec : (q : S) → σ → Except ε (R q × σ))
    (p : Prog R ε α) (s : σ) : Prop :=
  Prog.Ends exec p s fun a t => ∀ e, a = .error e → refusal e → Leaves s t

/-- No statement refuses. -/
def StatementsCommitted (refusal : ε → Prop) (exec : (q : S) → σ → Except ε (R q × σ)) : Prop :=
  ∀ q s e, exec q s = .error e → ¬ refusal e

/-- A committed program is never refused. -/
theorem Committed.ends (hexec : StatementsCommitted refusal exec) {p : Prog R ε α} (hp : Committed refusal p) (s : σ) :
    Prog.Ends exec p s fun a _ => ∀ e, a = .error e → ¬ refusal e := by
  induction p generalizing s with
  | ret a =>
    intro e he
    cases he
  | throw e =>
    intro e' he
    cases he
    exact hp
  | stmt q k ih =>
    refine Prog.ends_stmt (fun r s' _ => ih r (hp r) s') fun e he e' he' => ?_
    cases he'
    exact hexec q s e he

theorem cleanRefusal_of_committed (hexec : StatementsCommitted refusal exec) {p : Prog R ε α}
    (hp : Committed refusal p) (s : σ) : CleanRefusal refusal Leaves exec p s :=
  (hp.ends hexec s).mono fun _ _ h e he hr => absurd hr (h e he)

/-- Checks come first. -/
theorem cleanRefusal_read {P : S → Bool} (he : ReadOnly P exec) (hrefl : ∀ s, Leaves s s) {p : Prog R ε α}
    {f : α → Prog R ε β} {s : σ} (hp : Reads P p)
    (hf : ∀ a, p.run exec s = (.ok a, s) → CleanRefusal refusal Leaves exec (f a) s) :
    CleanRefusal refusal Leaves exec (p >>= f) s :=
  hp.ends_bind he hf fun _ _ _ _ _ => hrefl s

/-- The first part changes the store in a way that is allowed, and the second refuses cleanly after it. -/
theorem cleanRefusal_bind {p : Prog R ε α} {f : α → Prog R ε β} {s : σ}
    (hp : Prog.Ends exec p s fun _ t => Leaves s t)
    (hf : ∀ a t, Leaves s t →
      Prog.Ends exec (f a) t fun b u => ∀ e, b = .error e → refusal e → Leaves s u) :
    CleanRefusal refusal Leaves exec (p >>= f) s := by
  refine Prog.ends_bind (hp.mono fun a t ht => ?_)
  cases a with
  | ok a => exact hf a t ht
  | error e => exact fun _ _ _ => ht

end Smink.Store
