import Smink.Store.Serial

/-!
# What a call that runs alone keeps

`Alone J p s Q`: whatever part of `p` is executed from `s`, with nothing in between, `J` holds after each statement, and
`Q` of a result. Its rules follow the program, and a part of a call keeps `J` (`Alone.upTo`). So an invariant that every
call keeps alone holds in every state that parties come to whose calls take turns (`alone_keeps`): a call that is cut
short by a failure, or that is still in flight, is a part of one.
-/

namespace Smink.Store

variable {ι S : Type} {R : S → Type} {ε α β σ : Type}

/-- `J` holds after every statement that the program executes alone, and `Q` of its result. -/
def Alone (exec : (q : S) → σ → Except ε (R q × σ)) (J : σ → Prop) : Prog R ε α → σ → (α → σ → Prop) → Prop
  | .ret a, s, Q => Q a s
  | .throw _, _, _ => True
  | .stmt q k, s, Q => ∀ r t, exec q s = .ok (r, t) → J t ∧ Alone exec J (k r) t Q

section Rules

variable {exec : (q : S) → σ → Except ε (R q × σ)} {J : σ → Prop} {P : S → Bool} {s : σ}

theorem Alone.mono {p : Prog R ε α} {Q Q' : α → σ → Prop} (h : Alone exec J p s Q) (hQ : ∀ a t, Q a t → Q' a t) :
    Alone exec J p s Q' := by
  induction p generalizing s with
  | ret a => exact hQ a s h
  | throw e => trivial
  | stmt q k ih =>
    intro r t hq
    obtain ⟨hJ, hk⟩ := h r t hq
    exact ⟨hJ, ih r hk⟩

theorem alone_bind {p : Prog R ε α} {f : α → Prog R ε β} {Q : β → σ → Prop}
    (h : Alone exec J p s fun a t => Alone exec J (f a) t Q) : Alone exec J (p >>= f) s Q := by
  induction p generalizing s with
  | ret a => exact h
  | throw e => trivial
  | stmt q k ih =>
    intro r t hq
    obtain ⟨hJ, hk⟩ := h r t hq
    exact ⟨hJ, ih r hk⟩

/-- Statements that keep `I`, which implies `J`, each. -/
theorem alone_keeping {I : σ → Prop} (hIJ : ∀ s, I s → J s)
    (hI : ∀ q, P q = true → ∀ s r t, I s → exec q s = .ok (r, t) → I t) {p : Prog R ε α} (hp : Reads P p) (hs : I s) :
    Alone exec J p s fun _ t => I t := by
  induction p generalizing s with
  | ret a => exact hs
  | throw e => trivial
  | stmt q k ih =>
    intro r t hq
    have ht : I t := hI q hp.1 s r t hs hq
    exact ⟨hIJ t ht, ih r (hp.2 r) ht⟩

/-- A check, which changes nothing: its result is that of its run. -/
theorem alone_check (he : ReadOnly P exec) {p : Prog R ε α} (hp : Reads P p) (hs : J s) :
    Alone exec J p s fun a t => t = s ∧ p.run exec s = (.ok a, s) := by
  induction p with
  | ret a => exact ⟨rfl, rfl⟩
  | throw e => trivial
  | stmt q k ih =>
    intro r t hq
    obtain rfl := he.store_eq hp.1 hq
    refine ⟨hs, (ih r (hp.2 r)).mono fun a u h => ⟨h.1, ?_⟩⟩
    rw [Prog.run_stmt hq]
    exact h.2

/-- A part of the program, executed alone. -/
theorem Alone.upTo {p : Prog R ε α} {Q : α → σ → Prop} (h : Alone exec J p s Q) (hs : J s) (fault : Option ε) (n : ℕ) :
    J ((p.upTo fault n).run exec s).2 := by
  induction n generalizing p s with
  | zero => exact hs
  | succ n ih =>
    cases p with
    | ret a => exact hs
    | throw e => exact hs
    | stmt q k =>
      cases hq : exec q s with
      | error e =>
        show J (Prog.run exec (.stmt q fun r => (k r).upTo fault n) s).2
        rw [Prog.run_stmt_error hq]
        exact hs
      | ok a =>
        obtain ⟨r, t⟩ := a
        obtain ⟨hJ, hk⟩ := h r t hq
        show J (Prog.run exec (.stmt q fun r => (k r).upTo fault n) s).2
        rw [Prog.run_stmt hq]
        exact ih hk hJ

end Rules

section Parties

variable {exec : (q : S) → σ → Except ε (R q × σ)} {prog : ι → Prog R ε α} {J : σ → Prop}

/-- What every part keeps, a serial run of parts keeps. -/
theorem Serial.keeps_parts {ps : List (Part ι ε)} {s t : σ} {rests : List (ι × Prog R ε α)}
    (h : Serial exec prog ps s rests t) (hJ : ∀ i s, J s → Alone exec J (prog i) s fun _ _ => True) (hs : J s) :
    J t := by
  induction h with
  | nil s => exact hs
  | @cons p ps s t u rest rests head tail ih =>
    refine ih ?_
    have hpart := (hJ p.call s hs).upTo hs p.fault p.steps
    have hrun := head.run
    unfold Part.body at hrun
    rw [hrun] at hpart
    exact hpart

/-- **What every call keeps alone holds in every state that parties come to**, if same stores share it. -/
theorem alone_keeps {P : Parties exec prog} (hsame : ∀ s t, P.same s t → J t → J s)
    (hJ : ∀ i s, J s → Alone exec J (prog i) s fun _ _ => True) {s : σ} (hs : P.inv s) (hinit : J s)
    {ms : List (Move ι ε)} {c : Pool ι R ε α σ} (hc : (Pool.init s).replay exec prog ms = some c)
    (hms : AllStartApart P.lawful P.apart exec prog (Pool.init s) ms) : J c.store := by
  obtain ⟨t, hd⟩ := serial_of_replay hs hc hms
  exact hsame _ _ hd.same (hd.serial.keeps_parts hJ hinit)

end Parties

end Smink.Store
