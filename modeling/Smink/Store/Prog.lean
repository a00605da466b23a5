import Mathlib.Data.List.Basic
import Mathlib.Tactic.Common

/-!
# Programs of atomic statements

A program is a tree of statements: it returns, throws, or runs one statement and goes on with its answer. A statement
is atomic; what it does to the store is given once, by a partial function `exec` that throws where the statement itself
does (a violated constraint).

* `run` executes a program alone; a throw keeps what the statements before it did.
* `path` lists the stores a run's statements find, so the store after `n` statements is the one a failure of the next
  statement leaves behind (`crash`).
* `Post` is the weakest precondition of the runs in which no statement throws (`Completes`), with one rule for each way
  to build a program; `Ends` that of all runs.
-/

namespace Smink.Store

variable {S : Type} {R : S → Type} {ε α β γ : Type}

/-- A program over the statements `S`, where statement `q` answers with an `R q`. -/
inductive Prog (R : S → Type) (ε α : Type) : Type
  | ret (a : α)
  | throw (e : ε)
  | stmt (q : S) (k : R q → Prog R ε α)

namespace Prog

protected def bind : Prog R ε α → (α → Prog R ε β) → Prog R ε β
  | ret a, f => f a
  | throw e, _ => throw e
  | stmt q k, f => stmt q fun r => (k r).bind f

instance : Monad (Prog R ε) where
  pure := ret
  bind := Prog.bind

/-- The program that runs one statement and returns its answer. -/
def query (q : S) : Prog R ε (R q) := stmt q ret

@[simp] theorem pure_eq (a : α) : (pure a : Prog R ε α) = ret a := rfl

@[simp] theorem ret_bind (a : α) (f : α → Prog R ε β) : ret a >>= f = f a := rfl

@[simp] theorem stmt_bind (q : S) (k : R q → Prog R ε α) (f : α → Prog R ε β) :
    stmt q k >>= f = stmt q fun r => k r >>= f := rfl

@[simp] theorem bind_assoc (p : Prog R ε α) (f : α → Prog R ε β) (g : β → Prog R ε γ) :
    p >>= f >>= g = p >>= fun a => f a >>= g := by
  induction p with
  | ret a => rfl
  | throw e => rfl
  | stmt q k ih => simp only [stmt_bind]; exact congrArg (stmt q) (funext ih)

/-- A program that runs no further statement. -/
def done : Prog R ε α → Bool
  | ret _ => true
  | throw _ => true
  | stmt _ _ => false

theorem done_cases {p : Prog R ε α} (h : p.done = true) : (∃ a, p = ret a) ∨ ∃ e, p = throw e := by
  cases p with
  | ret a => exact .inl ⟨a, rfl⟩
  | throw e => exact .inr ⟨e, rfl⟩
  | stmt q k => cases h

/-- Every result that the program can return satisfies `Q`, whatever its statements answer. -/
def Returns (Q : α → Prop) : Prog R ε α → Prop
  | ret a => Q a
  | throw _ => True
  | stmt _ k => ∀ r, Returns Q (k r)

theorem returns_bind {Q : β → Prop} {p : Prog R ε α} {f : α → Prog R ε β} (hf : ∀ a, Returns Q (f a)) :
    Returns Q (p >>= f) := by
  induction p with
  | ret a => exact hf a
  | throw e => trivial
  | stmt q k ih => exact ih

/-! ## Running a program alone -/

section Run

variable {σ : Type} (exec : (q : S) → σ → Except ε (R q × σ))

/-- The result of a run and the store it leaves. -/
def run : Prog R ε α → σ → Except ε α × σ
  | ret a, s => (.ok a, s)
  | throw e, s => (.error e, s)
  | stmt q k, s =>
    match exec q s with
    | .ok (r, s') => run (k r) s'
    | .error e => (.error e, s)

/-- The stores that the statements of a run find, in order. -/
def path : Prog R ε α → σ → List σ
  | ret _, _ => []
  | throw _, _ => []
  | stmt q k, s =>
    s :: match exec q s with
      | .ok (r, s') => path (k r) s'
      | .error _ => []

/-- The store left behind when statement number `n` of the run throws without taking effect. -/
def crash (p : Prog R ε α) (s : σ) (n : Nat) : Option σ := (p.path exec s)[n]?

/-- No statement of the run throws. -/
def Completes : Prog R ε α → σ → Prop
  | ret _, _ => True
  | throw _, _ => True
  | stmt q k, s => ∃ r s', exec q s = .ok (r, s') ∧ Completes (k r) s'

@[simp] theorem run_ret (a : α) (s : σ) : run exec (ret a : Prog R ε α) s = (.ok a, s) := rfl

@[simp] theorem run_throw (e : ε) (s : σ) : run exec (throw e : Prog R ε α) s = (.error e, s) := rfl

variable {exec}

theorem run_stmt {q : S} {k : R q → Prog R ε α} {s s' : σ} {r : R q} (h : exec q s = .ok (r, s')) :
    run exec (stmt q k) s = run exec (k r) s' := by
  simp only [run, h]

theorem run_stmt_error {q : S} {k : R q → Prog R ε α} {s : σ} {e : ε} (h : exec q s = .error e) :
    run exec (stmt q k) s = (.error e, s) := by
  simp only [run, h]

/-- The run of a sequence whose first part returns. -/
theorem run_bind_ok {p : Prog R ε α} {f : α → Prog R ε β} {s u : σ} {a : α} (h : run exec p s = (.ok a, u)) :
    run exec (p >>= f) s = run exec (f a) u := by
  induction p generalizing s with
  | ret b => cases h; rfl
  | throw e => cases h
  | stmt q k ih =>
    rw [stmt_bind]
    cases hq : exec q s with
    | error e => rw [run_stmt_error hq] at h; cases h
    | ok rs =>
      obtain ⟨r, s'⟩ := rs
      rw [run_stmt hq] at h ⊢
      exact ih r h

/-- A throw in the first part ends a sequence. -/
theorem run_bind_error {p : Prog R ε α} {f : α → Prog R ε β} {s u : σ} {e : ε} (h : run exec p s = (.error e, u)) :
    run exec (p >>= f) s = (.error e, u) := by
  induction p generalizing s with
  | ret b => cases h
  | throw e' => cases h; rfl
  | stmt q k ih =>
    rw [stmt_bind]
    cases hq : exec q s with
    | error e' => rw [run_stmt_error hq] at h ⊢; cases h; rfl
    | ok rs =>
      obtain ⟨r, s'⟩ := rs
      rw [run_stmt hq] at h ⊢
      exact ih r h

/-- A sequence that returns has run its first part to a result. -/
theorem run_bind_inv {p : Prog R ε α} {f : α → Prog R ε β} {s t : σ} {b : β}
    (h : run exec (p >>= f) s = (.ok b, t)) : ∃ a u, run exec p s = (.ok a, u) ∧ run exec (f a) u = (.ok b, t) := by
  cases hp : run exec p s with
  | mk r u =>
    cases r with
    | ok a => exact ⟨a, u, rfl, by rw [← run_bind_ok hp]; exact h⟩
    | error e =>
      rw [run_bind_error hp] at h
      cases h

/-- What every statement keeps, every run keeps. -/
theorem run_keeps {J : σ → Prop} {p : Prog R ε α} {s t : σ} {a : Except ε α} (h : run exec p s = (a, t))
    (hJ : ∀ q s r s', J s → exec q s = .ok (r, s') → J s') (hs : J s) : J t := by
  induction p generalizing s with
  | ret b => cases h; exact hs
  | throw e => cases h; exact hs
  | stmt q k ih =>
    cases hq : exec q s with
    | error e => rw [run_stmt_error hq] at h; cases h; exact hs
    | ok rs =>
      obtain ⟨r, s'⟩ := rs
      rw [run_stmt hq] at h
      exact ih r h (hJ q s r s' hs hq)

/-- A program whose result is put into another form. -/
theorem run_map (f : α → β) (p : Prog R ε α) (s : σ) :
    run exec (p >>= fun a => ret (f a)) s = ((run exec p s).1.map f, (run exec p s).2) := by
  cases h : run exec p s with
  | mk r t =>
    cases r with
    | ok a => rw [run_bind_ok h]; rfl
    | error e => rw [run_bind_error h]; rfl

theorem Returns.run {Q : α → Prop} {p : Prog R ε α} {s : σ} {a : α} (hp : Returns Q p)
    (h : (p.run exec s).1 = .ok a) : Q a := by
  induction p generalizing s with
  | ret b => cases h; exact hp
  | throw e => cases h
  | stmt q k ih =>
    cases hq : exec q s with
    | error e => rw [run_stmt_error hq] at h; cases h
    | ok rs =>
      obtain ⟨r, s'⟩ := rs
      rw [run_stmt hq] at h
      exact ih r (hp r) h

/-! ## The weakest precondition of a run -/

/-- `Q` holds of the result and the last store of the run, unless a statement of it throws. -/
def Post (exec : (q : S) → σ → Except ε (R q × σ)) : Prog R ε α → σ → (Except ε α → σ → Prop) → Prop
  | ret a, s, Q => Q (.ok a) s
  | throw e, s, Q => Q (.error e) s
  | stmt q k, s, Q => ∀ r s', exec q s = .ok (r, s') → Post exec (k r) s' Q

theorem Post.run {p : Prog R ε α} {s : σ} {Q : Except ε α → σ → Prop} (h : Post exec p s Q)
    (hc : Completes exec p s) : Q (p.run exec s).1 (p.run exec s).2 := by
  induction p generalizing s with
  | ret a => exact h
  | throw e => exact h
  | stmt q k ih =>
    obtain ⟨r, s', hq, hk⟩ := hc
    rw [run_stmt hq]
    exact ih r (h r s' hq) hk

theorem Post.mono {p : Prog R ε α} {s : σ} {Q Q' : Except ε α → σ → Prop} (h : Post exec p s Q)
    (hQ : ∀ a t, Q a t → Q' a t) : Post exec p s Q' := by
  induction p generalizing s with
  | ret a => exact hQ _ _ h
  | throw e => exact hQ _ _ h
  | stmt q k ih => exact fun r s' hq => ih r (h r s' hq)

instance decidableCompletes : ∀ (p : Prog R ε α) (s : σ), Decidable (Completes exec p s)
  | ret _, _ => .isTrue trivial
  | throw _, _ => .isTrue trivial
  | stmt q k, s =>
    match h : exec q s with
    | .ok (r, s') =>
      @decidable_of_iff _ _ ⟨fun hc => ⟨r, s', h, hc⟩, fun ⟨_, _, hq, hc⟩ => by rw [h] at hq; cases hq; exact hc⟩
        (decidableCompletes (k r) s')
    | .error _ => .isFalse fun ⟨_, _, hq, _⟩ => by rw [h] at hq; cases hq

theorem post_of_done {p : Prog R ε α} {s : σ} {Q : Except ε α → σ → Prop} (h : p.done = true) (hQ : ∀ a, Q a s) :
    Post exec p s Q := by
  obtain ⟨a, rfl⟩ | ⟨e, rfl⟩ := done_cases h
  · exact hQ _
  · exact hQ _

/-- A sequence meets `Q` when its second part does after each result of the first, and its exceptions do. -/
theorem post_bind {p : Prog R ε α} {f : α → Prog R ε β} {s : σ} {Q : Except ε β → σ → Prop}
    (h : Post exec p s fun r t => match r with
      | .ok a => Post exec (f a) t Q
      | .error e => Q (.error e) t) : Post exec (p >>= f) s Q := by
  induction p generalizing s with
  | ret a => exact h
  | throw e => exact h
  | stmt q k ih => exact fun r s' hq => ih r (h r s' hq)

/-- One statement, with its answer. -/
theorem post_stmt {q : S} {k : R q → Prog R ε α} {s s' : σ} {r : R q} {Q : Except ε α → σ → Prop}
    (hq : exec q s = .ok (r, s')) (h : Post exec (k r) s' Q) : Post exec (stmt q k) s Q := by
  intro r₁ s₁ h₁
  rw [hq] at h₁
  cases h₁
  exact h

/-- A sequence whose parts keep an invariant keeps it, however it ends. -/
theorem post_bind_inv {J : σ → Prop} {p : Prog R ε α} {f : α → Prog R ε β} {s : σ}
    (hp : Post exec p s fun _ t => J t) (hf : ∀ a t, J t → Post exec (f a) t fun _ t => J t) :
    Post exec (p >>= f) s fun _ t => J t := by
  refine post_bind (hp.mono fun r t ht => ?_)
  cases r with
  | ok a => exact hf a t ht
  | error e => exact ht

/-! ## Runs with a throw -/

/-- `Q` holds of the result and the last store of the run, also where a statement throws. -/
def Ends (exec : (q : S) → σ → Except ε (R q × σ)) (p : Prog R ε α) (s : σ) (Q : Except ε α → σ → Prop) : Prop :=
  Q (p.run exec s).1 (p.run exec s).2

theorem ends_stmt {q : S} {k : R q → Prog R ε α} {s : σ} {Q : Except ε α → σ → Prop}
    (hok : ∀ r s', exec q s = .ok (r, s') → Ends exec (k r) s' Q) (herr : ∀ e, exec q s = .error e → Q (.error e) s) :
    Ends exec (stmt q k) s Q := by
  unfold Ends
  cases hq : exec q s with
  | ok rs =>
    obtain ⟨r, s'⟩ := rs
    rw [run_stmt hq]
    exact hok r s' hq
  | error e =>
    rw [run_stmt_error hq]
    exact herr e hq

theorem ends_of_done {p : Prog R ε α} {s : σ} {Q : Except ε α → σ → Prop} (h : p.done = true) (hQ : ∀ a, Q a s) :
    Ends exec p s Q := by
  obtain ⟨a, rfl⟩ | ⟨e, rfl⟩ := done_cases h
  · exact hQ _
  · exact hQ _

theorem ends_bind {p : Prog R ε α} {f : α → Prog R ε β} {s : σ} {Q : Except ε β → σ → Prop}
    (h : Ends exec p s fun r t => match r with
      | .ok a => Ends exec (f a) t Q
      | .error e => Q (.error e) t) : Ends exec (p >>= f) s Q := by
  unfold Ends at h ⊢
  cases hp : p.run exec s with
  | mk r t =>
    rw [hp] at h
    cases r with
    | ok a =>
      rw [run_bind_ok hp]
      exact h
    | error e =>
      rw [run_bind_error hp]
      exact h

/-- The rest of a sequence whose first part is known to return. -/
theorem ends_bind_ok {p : Prog R ε α} {f : α → Prog R ε β} {s u : σ} {a : α} {Q : Except ε β → σ → Prop}
    (h : p.run exec s = (.ok a, u)) (hf : Ends exec (f a) u Q) : Ends exec (p >>= f) s Q := by
  unfold Ends at hf ⊢
  rw [run_bind_ok h]
  exact hf

/-- What holds of every run holds of the runs without a throw. -/
theorem post_of_ends {p : Prog R ε α} {s : σ} {Q : Except ε α → σ → Prop} (h : Ends exec p s Q) : Post exec p s Q := by
  induction p generalizing s with
  | ret a => exact h
  | throw e => exact h
  | stmt q k ih =>
    intro r s' hq
    refine ih r ?_
    unfold Ends at h ⊢
    rwa [run_stmt hq] at h

theorem Ends.mono {p : Prog R ε α} {s : σ} {Q Q' : Except ε α → σ → Prop} (h : Ends exec p s Q)
    (hQ : ∀ a t, Q a t → Q' a t) : Ends exec p s Q' :=
  hQ _ _ h

end Run

end Prog

/-! ## Programs that only read -/

section Reads

/-- Every statement of the program is one of `P`. -/
def Reads (P : S → Bool) : Prog R ε α → Prop
  | .ret _ => True
  | .throw _ => True
  | .stmt q k => P q = true ∧ ∀ r, Reads P (k r)

/-- A program of one statement, which is one of `P`. -/
def OneRead (P : S → Bool) (p : Prog R ε α) : Prop :=
  ∃ q, ∃ k : R q → Prog R ε α, p = .stmt q k ∧ P q = true ∧ ∀ r, (k r).done = true

variable {P : S → Bool}

theorem reads_of_done {p : Prog R ε α} (h : p.done = true) : Reads P p := by
  cases p with
  | ret a => trivial
  | throw e => trivial
  | stmt q k => cases h

theorem OneRead.reads {p : Prog R ε α} (h : OneRead P p) : Reads P p := by
  obtain ⟨q, k, rfl, hq, hk⟩ := h
  exact ⟨hq, fun r => reads_of_done (hk r)⟩

theorem Reads.mono {P' : S → Bool} (hP : ∀ q, P q = true → P' q = true) {p : Prog R ε α} (h : Reads P p) :
    Reads P' p := by
  induction p with
  | ret a => trivial
  | throw e => trivial
  | stmt q k ih => exact ⟨hP q h.1, fun r => ih r (h.2 r)⟩

theorem reads_bind {p : Prog R ε α} {f : α → Prog R ε β} (hp : Reads P p) (hf : ∀ a, Reads P (f a)) :
    Reads P (p >>= f) := by
  induction p with
  | ret a => exact hf a
  | throw e => trivial
  | stmt q k ih => exact ⟨hp.1, fun r => ih r (hp.2 r)⟩

variable {σ : Type} {exec : (q : S) → σ → Except ε (R q × σ)}

/-- The statements `P` answer and leave every store as it is. -/
def ReadOnly (P : S → Bool) (exec : (q : S) → σ → Except ε (R q × σ)) : Prop :=
  ∀ q, P q = true → ∀ s, ∃ r, exec q s = .ok (r, s)

/-- A statement that only reads has left the store as it found it. -/
theorem ReadOnly.store_eq (he : ReadOnly P exec) {q : S} (hq : P q = true) {s s' : σ} {r : R q}
    (h : exec q s = .ok (r, s')) : s' = s := by
  obtain ⟨r', hr'⟩ := he q hq s
  rw [h] at hr'
  cases hr'
  rfl

/-- A program that only reads ends in the store it began with. -/
theorem Reads.run_store (he : ReadOnly P exec) {p : Prog R ε α} {s t : σ} {a : Except ε α} (h : Reads P p)
    (hr : p.run exec s = (a, t)) : t = s := by
  induction p with
  | ret b => cases hr; rfl
  | throw e => cases hr; rfl
  | stmt q k ih =>
    obtain ⟨r, hq⟩ := he q h.1 s
    rw [Prog.run_stmt hq] at hr
    exact ih r (h.2 r) hr

theorem Reads.post (he : ReadOnly P exec) {p : Prog R ε α} {s : σ} {Q : Except ε α → σ → Prop}
    (h : Reads P p) (hQ : ∀ a, Q a s) : Prog.Post exec p s Q := by
  induction p with
  | ret a => exact hQ _
  | throw e => exact hQ _
  | stmt q k ih =>
    intro r s' hr
    obtain rfl := he.store_eq h.1 hr
    exact ih r (h.2 r)

/-- The rule for a check before the rest of a program. -/
theorem Reads.post_bind (he : ReadOnly P exec) {p : Prog R ε α} {f : α → Prog R ε β} {s : σ}
    {Q : Except ε β → σ → Prop} (h : Reads P p)
    (hok : ∀ a, p.run exec s = (.ok a, s) → Prog.Post exec (f a) s Q)
    (herr : ∀ e, p.run exec s = (.error e, s) → Q (.error e) s) : Prog.Post exec (p >>= f) s Q := by
  induction p with
  | ret a => exact hok a rfl
  | throw e => exact herr e rfl
  | stmt q k ih =>
    intro r s' hr
    obtain rfl := he.store_eq h.1 hr
    exact ih r (h.2 r) (fun a ha => hok a (by rw [Prog.run_stmt hr]; exact ha))
      fun e he => herr e (by rw [Prog.run_stmt hr]; exact he)

/-- A check before the rest of a program, also where a statement throws. -/
theorem Reads.ends_bind (he : ReadOnly P exec) {p : Prog R ε α} {f : α → Prog R ε β} {s : σ}
    {Q : Except ε β → σ → Prop} (h : Reads P p)
    (hok : ∀ a, p.run exec s = (.ok a, s) → Prog.Ends exec (f a) s Q)
    (herr : ∀ e, p.run exec s = (.error e, s) → Q (.error e) s) : Prog.Ends exec (p >>= f) s Q := by
  refine Prog.ends_bind ?_
  unfold Prog.Ends
  cases hp : p.run exec s with
  | mk r t =>
    obtain rfl := h.run_store he hp
    cases r with
    | ok a => exact hok a hp
    | error e => exact herr e hp

/-- What the statements `P` keep, a program of such statements keeps. -/
theorem Reads.ends_keeps {J : σ → Prop} (hJ : ∀ q, P q = true → ∀ s r s', J s → exec q s = .ok (r, s') → J s')
    {p : Prog R ε α} {s : σ} (h : Reads P p) (hs : J s) : Prog.Ends exec p s fun _ t => J t := by
  induction p generalizing s with
  | ret a => exact hs
  | throw e => exact hs
  | stmt q k ih =>
    exact Prog.ends_stmt (fun r s' hq => ih r (h.2 r) (hJ q h.1 s r s' hs hq)) fun _ _ => hs

end Reads

end Smink.Store
