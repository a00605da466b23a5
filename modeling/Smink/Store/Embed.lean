import Smink.Store.Pool

/-!
# Programs within a larger system

The statements of a program may be some of those of a larger system, whose store has the program's own as a part.
`Prog.embed` is the program there. It runs as it did (`run_embed`), and what it is safe for it is safe for there, as
long as the larger system keeps to the discipline on its part (`safe_embed`). Two disciplines in which nothing is held
are kept together when each of them is (`Safe.inf`), and what a program can return is known where it returns
(`Safe.returns`).
-/

namespace Smink.Store

variable {ι κ S T σ τ G : Type} {R : S → Type} {R' : T → Type} {ε α β : Type}

/-- The program, with each statement put as one of the larger system. -/
def Prog.embed (f : S → T) (back : (q : S) → R' (f q) → R q) : Prog R ε α → Prog R' ε α
  | .ret a => .ret a
  | .throw e => .throw e
  | .stmt q k => .stmt (f q) fun r => (k (back q r)).embed f back

/-- The program, with how it ends as its result. -/
def Prog.attempt : Prog R ε α → Prog R ε (Except ε α)
  | .ret a => .ret (.ok a)
  | .throw e => .ret (.error e)
  | .stmt q k => .stmt q fun r => (k r).attempt

section Run

variable {exec : (q : S) → σ → Except ε (R q × σ)} {exec' : (q : T) → τ → Except ε (R' q × τ)} {f : S → T}
  {back : (q : S) → R' (f q) → R q}

/-- The statements do to their part what they did to the whole, and nothing else. -/
structure Embeds (exec : (q : S) → σ → Except ε (R q × σ)) (exec' : (q : T) → τ → Except ε (R' q × τ)) (f : S → T)
    (back : (q : S) → R' (f q) → R q) (part : τ → σ) (put : τ → σ → τ) : Prop where
  part_put : ∀ t s, part (put t s) = s
  put_part : ∀ t, put t (part t) = t
  put_put : ∀ t s s', put (put t s) s' = put t s'
  error : ∀ q t e, exec q (part t) = .error e → exec' (f q) t = .error e
  ok : ∀ q t r s, exec q (part t) = .ok (r, s) → ∃ r', exec' (f q) t = .ok (r', put t s) ∧ back q r' = r

variable {part : τ → σ} {put : τ → σ → τ}

/-- A statement that has gone through in the larger system has gone through on its part. -/
theorem Embeds.inv (h : Embeds exec exec' f back part put) {q : S} {t t' : τ} {r : R' (f q)}
    (hq : exec' (f q) t = .ok (r, t')) : exec q (part t) = .ok (back q r, part t') ∧ t' = put t (part t') := by
  cases he : exec q (part t) with
  | error e =>
    rw [h.error q t e he] at hq
    cases hq
  | ok rs =>
    obtain ⟨r₁, s⟩ := rs
    obtain ⟨r', hr', hback⟩ := h.ok q t r₁ s he
    rw [hq] at hr'
    cases hr'
    rw [h.part_put, hback]
    exact ⟨rfl, rfl⟩

theorem run_embed (h : Embeds exec exec' f back part put) (p : Prog R ε α) (t : τ) :
    (p.embed f back).run exec' t = ((p.run exec (part t)).1, put t (p.run exec (part t)).2) := by
  induction p generalizing t with
  | ret a => simp [Prog.embed, h.put_part]
  | throw e => simp [Prog.embed, h.put_part]
  | stmt q k ih =>
    cases he : exec q (part t) with
    | error e =>
      rw [Prog.run_stmt_error he, Prog.embed, Prog.run_stmt_error (h.error q t e he), h.put_part]
    | ok rs =>
      obtain ⟨r, s⟩ := rs
      obtain ⟨r', hr', hback⟩ := h.ok q t r s he
      rw [Prog.run_stmt he, Prog.embed, Prog.run_stmt hr', hback, ih, h.part_put, h.put_put]

end Run

/-! ## What a program can execute -/

/-- Every statement that the program can execute is one of `P`. -/
def Prog.Only (P : S → Prop) : Prog R ε α → Prop
  | .ret _ => True
  | .throw _ => True
  | .stmt q k => P q ∧ ∀ r, Prog.Only P (k r)

theorem Prog.only_bind {P : S → Prop} {p : Prog R ε α} {f : α → Prog R ε β} (hp : p.Only P) (hf : ∀ a, (f a).Only P) :
    Prog.Only P (p >>= f) := by
  induction p with
  | ret a => exact hf a
  | throw e => trivial
  | stmt q k ih => exact ⟨hp.1, fun r => ih r (hp.2 r)⟩

theorem Prog.only_all {P : S → Prop} (h : ∀ q, P q) (p : Prog R ε α) : p.Only P := by
  induction p with
  | ret a => trivial
  | throw e => trivial
  | stmt q k ih => exact ⟨h q, ih⟩

theorem Prog.only_embed {f : S → T} {back : (q : S) → R' (f q) → R q} {P : T → Prop} (h : ∀ q, P (f q))
    (p : Prog R ε α) : (p.embed f back).Only P := by
  induction p with
  | ret a => trivial
  | throw e => trivial
  | stmt q k ih => exact ⟨h q, fun r => ih (back q r)⟩

theorem Prog.only_attempt {P : S → Prop} {p : Prog R ε α} (hp : p.Only P) : p.attempt.Only P := by
  induction p with
  | ret a => trivial
  | throw e => trivial
  | stmt q k ih => exact ⟨hp.1, fun r => ih r (hp.2 r)⟩

/-! ## Disciplines -/

section Disciplines

variable [AddCommMonoid G] {D E : Discipline ι S σ G} {exec : (q : S) → σ → Except ε (R q × σ)} {i : ι}

/-- What a program can return, where it returns. -/
theorem Safe.returns {p : Prog R ε α} {w : World ι S σ} {g : G} {Q : α → World ι S σ → G → Prop} {P : α → Prop}
    (h : Safe D exec i p w g Q) (hp : p.Returns P) : Safe D exec i p w g fun a v g' => P a ∧ Q a v g' := by
  induction p generalizing w g with
  | ret a => exact ⟨hp, h⟩
  | throw e => exact h
  | stmt q k ih =>
    intro v hv frame hi hok r s hr
    obtain ⟨hrely, g', hi', hk⟩ := h v hv frame hi hok r s hr
    exact ⟨hrely, g', hi', ih r hk (hp r)⟩

/-- A program may take for granted what its steps are allowed to. -/
theorem safe_assume {P : Prop} (hok : ∀ v q, D.ok v i q → P) {p : Prog R ε α} {w : World ι S σ}
    (h : P → Safe D exec i p w 0 Released) : Safe D exec i p w 0 Released := by
  cases p with
  | ret a => exact rfl
  | throw e => exact rfl
  | stmt q k => exact fun v hv frame hi ho => h (hok v q ho) v hv frame hi ho

/-- An attempt holds nothing where the program would have thrown. -/
theorem safe_attempt {p : Prog R ε α} {w : World ι S σ} {g : G} {Q : α → World ι S σ → G → Prop}
    (h : Safe D exec i p w g Q) : Safe D exec i p.attempt w g fun a v g' => match a with
      | .ok a => Q a v g'
      | .error _ => g' = 0 := by
  induction p generalizing w g with
  | ret a => exact h
  | throw e => exact h
  | stmt q k ih =>
    intro v hv frame hi hok r s hr
    obtain ⟨hrely, g', hi', hk⟩ := h v hv frame hi hok r s hr
    exact ⟨hrely, g', hi', ih r hk⟩

/-- A program of statements that are allowed from some world on. -/
theorem safe_only {P : S → Prop} {u : World ι S σ}
    (hP : ∀ v q g r s, P q → D.rely u v → D.inv v g → exec q v.store = .ok (r, s) →
      D.rely v (v.after i q s) ∧ D.inv (v.after i q s) g) {p : Prog R ε α} (hp : p.Only P) {w : World ι S σ}
    (hw : D.rely u w) : Safe D exec i p w 0 fun _ v g => D.rely u v ∧ g = 0 := by
  induction p generalizing w with
  | ret a => exact ⟨hw, rfl⟩
  | throw e => exact rfl
  | stmt q k ih =>
    intro v hv frame hi _ r s hr
    have hv := D.rely_trans hw hv
    obtain ⟨hrely, hinv⟩ := hP v q _ r s hp.1 hv hi hr
    exact ⟨hrely, 0, hinv, ih r (hp.2 r) (D.rely_trans hv hrely)⟩

/-- The discipline, with nothing asked of a step. -/
def Discipline.unconditional (D : Discipline ι S σ G) : Discipline ι S σ G := { D with ok := fun _ _ _ => True }

/-- A program whose statements are allowed anywhere is safe with nothing asked of them. -/
theorem Safe.unconditional {P : S → Bool} (hP : ∀ v q, P q = true → D.ok v i q) {p : Prog R ε α} {w : World ι S σ}
    {g : G} {Q : α → World ι S σ → G → Prop} (h : Safe D exec i p w g Q) (hp : Reads P p) :
    Safe D.unconditional exec i p w g Q := by
  induction p generalizing w g with
  | ret a => exact h
  | throw e => exact h
  | stmt q k ih =>
    intro v hv frame hi _ r s hr
    obtain ⟨hrely, g', hi', hk⟩ := h v hv frame hi (hP v q hp.1) r s hr
    exact ⟨hrely, g', hi', ih r hk (hp.2 r)⟩

/-- Both disciplines. -/
def Discipline.inf (D E : Discipline ι S σ G) : Discipline ι S σ G where
  inv w g := D.inv w g ∧ E.inv w g
  rely w v := D.rely w v ∧ E.rely w v
  rely_refl w := ⟨D.rely_refl w, E.rely_refl w⟩
  rely_trans h h' := ⟨D.rely_trans h.1 h'.1, E.rely_trans h.2 h'.2⟩
  ok w i q := D.ok w i q ∧ E.ok w i q

theorem Safe.inf [Subsingleton G] {p : Prog R ε α} {w : World ι S σ} {g : G} {Q Q' : α → World ι S σ → G → Prop}
    (h : Safe D exec i p w g Q) (h' : Safe E exec i p w g Q') :
    Safe (D.inf E) exec i p w g fun a v g' => Q a v g' ∧ Q' a v g' := by
  induction p generalizing w g with
  | ret a => exact ⟨h, h'⟩
  | throw e => exact h
  | stmt q k ih =>
    intro v hv frame hi hok r s hr
    obtain ⟨hrely, g₁, hi₁, hk₁⟩ := h v hv.1 frame hi.1 hok.1 r s hr
    obtain ⟨hrely', g₂, hi₂, hk₂⟩ := h' v hv.2 frame hi.2 hok.2 r s hr
    obtain rfl : g₁ = g₂ := Subsingleton.elim ..
    exact ⟨⟨hrely, hrely'⟩, g₁, ⟨hi₁, hi₂⟩, ih r hk₁ hk₂⟩

/-- The discipline is about the store, and asks nothing of a step. -/
structure LogFree (D : Discipline ι S σ G) : Prop where
  inv : ∀ s l l' g, D.inv ⟨s, l⟩ g → D.inv ⟨s, l'⟩ g
  rely : ∀ s t l l' m m', D.rely ⟨s, l⟩ ⟨t, m⟩ → D.rely ⟨s, l'⟩ ⟨t, m'⟩
  ok : ∀ w i q, D.ok w i q

omit [AddCommMonoid G] in
theorem LogFree.inf (h : LogFree D) (h' : LogFree E) : LogFree (D.inf E) where
  inv s l l' g hi := ⟨h.inv s l l' g hi.1, h'.inv s l l' g hi.2⟩
  rely s t l l' m m' hr := ⟨h.rely s t l l' m m' hr.1, h'.rely s t l l' m m' hr.2⟩
  ok w i q := ⟨h.ok w i q, h'.ok w i q⟩

/-- The larger system keeps to the discipline on its part, and its own discipline allows what the part's does. -/
structure Hosts (D : Discipline ι S σ G) (D' : Discipline κ T τ G) (part : τ → σ) (put : τ → σ → τ) : Prop where
  inv : ∀ w g, D'.inv w g → D.inv ⟨part w.store, []⟩ g
  rely : ∀ w v, D'.rely w v → D.rely ⟨part w.store, []⟩ ⟨part v.store, []⟩
  step : ∀ w i q t frame g g', D'.inv w (g + frame) → D.rely ⟨part w.store, []⟩ ⟨part t, []⟩ →
    D.inv ⟨part t, []⟩ (g' + frame) → t = put w.store (part t) →
      D'.rely w (w.after i q t) ∧ D'.inv (w.after i q t) (g' + frame)

/-- The discipline of a part, asked of the larger system. -/
def Discipline.on {κ T τ : Type} (D : Discipline ι S σ G) (part : τ → σ) : Discipline κ T τ G where
  inv w g := D.inv ⟨part w.store, []⟩ g
  rely w v := D.rely ⟨part w.store, []⟩ ⟨part v.store, []⟩
  rely_refl _ := D.rely_refl _
  rely_trans := D.rely_trans
  ok _ _ _ := True

theorem hosts_on (part : τ → σ) (put : τ → σ → τ) : Hosts (κ := κ) (T := T) D (D.on part) part put where
  inv _ _ h := h
  rely _ _ h := h
  step _ _ _ _ _ _ _ _ hrely hinv _ := ⟨hrely, hinv⟩

/-- **A program that is safe for its part is safe in the larger system.** -/
theorem safe_embed {D' : Discipline κ T τ G} {exec' : (q : T) → τ → Except ε (R' q × τ)} {f : S → T}
    {back : (q : S) → R' (f q) → R q} {part : τ → σ} {put : τ → σ → τ} (hD : LogFree D)
    (he : Embeds exec exec' f back part put) (hosts : Hosts D D' part put) {j : κ} {Q : α → σ → G → Prop}
    {p : Prog R ε α} {w : World κ T τ} {l : List (ι × S)} {g : G}
    (h : Safe D exec i p ⟨part w.store, l⟩ g fun a v g' => Q a v.store g') :
    Safe D' exec' j (p.embed f back) w g fun a v g' => Q a (part v.store) g' := by
  induction p generalizing w l g with
  | ret a => exact h
  | throw e => exact h
  | stmt q k ih =>
    intro v hv frame hi _ r t hr
    obtain ⟨hq, ht⟩ := he.inv hr
    obtain ⟨hrely, g', hi', hk⟩ := h ⟨part v.store, []⟩ (hD.rely _ _ [] l [] [] (hosts.rely w v hv)) frame
      (hosts.inv v _ hi) (hD.ok _ _ _) _ _ hq
    obtain ⟨hrely', hinv'⟩ := hosts.step v j (f q) t frame g g' hi (hD.rely _ _ _ [] _ [] hrely)
      (hD.inv _ _ [] _ hi') ht
    exact ⟨hrely', g', hinv', ih _ hk⟩

end Disciplines

end Smink.Store
