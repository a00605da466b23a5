import Smink.Store.Prog

/-!
# Two runs of a program

Whether what a caller is told depends on some part of the store is a question about two runs: one from a store `s`, one
from its image `f s`, in which that part has another value. `Mirror f exec p p' s Q` says that the stores the two runs
leave are a store and its image again, and that `Q` holds of the two results and the first run's last store.

A program is `Blind` when both runs answer alike from every store that keeps the invariant `J`, and keep `J`. The rules
follow the structure of programs; a program that is not blind still begins with checks that are (`Blind.mirror_bind`).
-/

namespace Smink.Store

variable {S : Type} {R : S → Type} {ε α β σ : Type}

section Mirror

variable (f : σ → σ) (exec : (q : S) → σ → Except ε (R q × σ))

def Mirror (p p' : Prog R ε α) (s : σ) (Q : Except ε α → Except ε α → σ → Prop) : Prop :=
  (p'.run exec (f s)).2 = f (p.run exec s).2 ∧ Q (p.run exec s).1 (p'.run exec (f s)).1 (p.run exec s).2

/-- The two runs answer alike. -/
def Blind (J : σ → Prop) (p : Prog R ε α) : Prop :=
  ∀ s, J s → Mirror f exec p p s fun r r' t => r' = r ∧ J t

end Mirror

section Rules

variable {f : σ → σ} {exec : (q : S) → σ → Except ε (R q × σ)} {J : σ → Prop}
  {Q Q' : Except ε α → Except ε α → σ → Prop}

theorem Mirror.mono {p p' : Prog R ε α} {s : σ} (h : Mirror f exec p p' s Q) (hQ : ∀ r r' t, Q r r' t → Q' r r' t) :
    Mirror f exec p p' s Q' :=
  ⟨h.1, hQ _ _ _ h.2⟩

theorem mirror_ret {a a' : α} {s : σ} (h : Q (.ok a) (.ok a') s) :
    Mirror f exec (.ret a : Prog R ε α) (.ret a') s Q :=
  ⟨rfl, h⟩

theorem mirror_throw {e : ε} {s : σ} (h : Q (.error e) (.error e) s) :
    Mirror f exec (.throw e : Prog R ε α) (.throw e) s Q :=
  ⟨rfl, h⟩

/-- One statement on each side, each with its answer. -/
theorem mirror_stmt {q q' : S} {k : R q → Prog R ε α} {k' : R q' → Prog R ε α} {s t : σ} {r : R q} {r' : R q'}
    (hq : exec q s = .ok (r, t)) (hq' : exec q' (f s) = .ok (r', f t)) (hk : Mirror f exec (k r) (k' r') t Q) :
    Mirror f exec (.stmt q k) (.stmt q' k') s Q := by
  unfold Mirror
  rw [Prog.run_stmt hq, Prog.run_stmt hq']
  exact hk

/-- The rule for a check in front of two programs. -/
theorem Blind.mirror_bind {p : Prog R ε β} {k k' : β → Prog R ε α} {s : σ} (hp : Blind f exec J p) (hs : J s)
    (hok : ∀ b t, p.run exec s = (.ok b, t) → J t → Mirror f exec (k b) (k' b) t Q)
    (herr : ∀ e t, J t → Q (.error e) (.error e) t) : Mirror f exec (p >>= k) (p >>= k') s Q := by
  obtain ⟨hstore, hres, hJ⟩ := hp s hs
  cases hrun : p.run exec s with
  | mk r t =>
    have hrun' : p.run exec (f s) = (r, f t) := by
      rw [hrun] at hstore hres
      exact Prod.ext hres hstore
    rw [hrun] at hJ
    unfold Mirror
    cases r with
    | ok b =>
      rw [Prog.run_bind_ok hrun, Prog.run_bind_ok hrun']
      exact hok b t hrun hJ
    | error e =>
      rw [Prog.run_bind_error hrun, Prog.run_bind_error hrun']
      exact ⟨rfl, herr e t hJ⟩

/-- The answer of a mirrored program, put into another form. -/
theorem Mirror.map {p p' : Prog R ε β} {s : σ} {P : Except ε β → Except ε β → σ → Prop} (g : β → α)
    (h : Mirror f exec p p' s P) (hQ : ∀ r r' t, P r r' t → Q (r.map g) (r'.map g) t) :
    Mirror f exec (p >>= fun b => .ret (g b)) (p' >>= fun b => .ret (g b)) s Q := by
  unfold Mirror
  rw [Prog.run_map, Prog.run_map]
  exact ⟨h.1, hQ _ _ _ h.2⟩

theorem blind_of_done {p : Prog R ε α} (h : p.done = true) : Blind f exec J p := by
  obtain ⟨a, rfl⟩ | ⟨e, rfl⟩ := Prog.done_cases h
  · exact fun s hs => mirror_ret ⟨rfl, hs⟩
  · exact fun s hs => mirror_throw ⟨rfl, hs⟩

theorem blind_bind {p : Prog R ε β} {k : β → Prog R ε α} (hp : Blind f exec J p) (hk : ∀ b, Blind f exec J (k b)) :
    Blind f exec J (p >>= k) :=
  fun _ hs => hp.mirror_bind hs (fun b t _ ht => hk b t ht) fun _ _ ht => ⟨rfl, ht⟩

/-- A statement that answers alike on a store and its image. -/
theorem blind_query {q : S} (himage : ∀ s, J s → exec q (f s) = (exec q s).map fun x => (x.1, f x.2))
    (hkeep : ∀ s r t, J s → exec q s = .ok (r, t) → J t) : Blind f exec J (Prog.query q : Prog R ε (R q)) := by
  intro s hs
  have h := himage s hs
  unfold Prog.query
  cases hq : exec q s with
  | error e =>
    rw [hq] at h
    unfold Mirror
    rw [Prog.run_stmt_error hq, Prog.run_stmt_error h]
    exact ⟨rfl, rfl, hs⟩
  | ok x =>
    obtain ⟨r, t⟩ := x
    rw [hq] at h
    exact mirror_stmt hq h (mirror_ret ⟨rfl, hkeep s r t hs hq⟩)

end Rules

end Smink.Store
