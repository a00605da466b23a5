import Smink.Store.Prog
import Mathlib.Algebra.BigOperators.Group.List.Basic

/-!
# Interleaved programs

A pool holds a store, the calls started so far with what is left of their programs, and the log of the statements
executed, each with the call it belongs to. A `Move` starts a call, executes the next statement of one of them, or lets
that statement fail; `replay` follows a list of moves, so quantifying over lists of moves is quantifying over all
interleavings at the level of single statements.

The proof rule is rely-guarantee with ghost resources. A `Discipline` fixes a global invariant `inv`, over the store,
the log and the sum of what the calls hold, and a preorder `rely` that bounds what all calls together do. A program is
`Safe` with resource `g` when every statement it can execute keeps `inv` (against any resource held by the others) and
stays in `rely`. `replay_safe` then gives the invariant in every state of every interleaving,
and `idle_inv` the invariant with nothing held once no call is in flight.
-/

namespace Smink.Store

variable {ι S : Type} {R : S → Type} {ε α β σ : Type}

/-- The store and the log of executed statements. -/
structure World (ι S σ : Type) where
  store : σ
  log : List (ι × S)

/-- The world after a call has executed a statement. -/
def World.after (w : World ι S σ) (i : ι) (q : S) (s : σ) : World ι S σ := ⟨s, w.log ++ [(i, q)]⟩

structure Pool (ι : Type) (R : S → Type) (ε α σ : Type) extends World ι S σ where
  threads : List (ι × Prog R ε α)

inductive Move (ι ε : Type)
  | start (i : ι)
  | stmt (n : Nat)
  | fail (n : Nat) (e : ε)

/-- The moves in which no statement fails. -/
def Move.ok : Move ι ε → Bool
  | .start _ => true
  | .stmt _ => true
  | .fail _ _ => false

namespace Pool

variable (exec : (q : S) → σ → Except ε (R q × σ)) (prog : ι → Prog R ε α)

/-- One move of the pool; `none` when the move is not possible. -/
def move (c : Pool ι R ε α σ) : Move ι ε → Option (Pool ι R ε α σ)
  | .start i => some { c with threads := c.threads ++ [(i, prog i)] }
  | .stmt n =>
    match c.threads[n]? with
    | some (i, .stmt q k) =>
      match exec q c.store with
      | .ok (r, s) => some { c.toWorld.after i q s with threads := c.threads.set n (i, k r) }
      | .error _ => none
    | _ => none
  | .fail n e =>
    match c.threads[n]? with
    | some (i, .stmt _ _) => some { c with threads := c.threads.set n (i, .throw e) }
    | _ => none

def replay (c : Pool ι R ε α σ) (moves : List (Move ι ε)) : Option (Pool ι R ε α σ) := moves.foldlM (move exec prog) c

/-- The pool before any call. -/
def init (s : σ) : Pool ι R ε α σ := { store := s, log := [], threads := [] }

/-- No call is in flight. -/
def Idle (c : Pool ι R ε α σ) : Prop := ∀ t ∈ c.threads, t.2.done = true

instance (c : Pool ι R ε α σ) : Decidable c.Idle := inferInstanceAs (Decidable (∀ t ∈ c.threads, t.2.done = true))

variable {exec prog}

/-- What the three moves do. -/
theorem move_cases {c d : Pool ι R ε α σ} {m : Move ι ε} (h : move exec prog c m = some d) :
    (∃ i, m = .start i ∧ d = { c with threads := c.threads ++ [(i, prog i)] }) ∨
    (∃ n i q k r s, m = .stmt n ∧ c.threads[n]? = some (i, .stmt q k) ∧ exec q c.store = .ok (r, s) ∧
      d = { c.toWorld.after i q s with threads := c.threads.set n (i, k r) }) ∨
    (∃ n i q k e, m = .fail n e ∧ c.threads[n]? = some (i, .stmt q k) ∧
      d = { c with threads := c.threads.set n (i, .throw e) }) := by
  cases m with
  | start i => simp only [move, Option.some.injEq] at h; exact .inl ⟨i, rfl, h.symm⟩
  | stmt n =>
    simp only [move] at h
    split at h
    · rename_i i q k hn
      cases hq : exec q c.store with
      | error e => rw [hq] at h; cases h
      | ok rs =>
        obtain ⟨r, s⟩ := rs
        rw [hq] at h
        cases h
        exact .inr (.inl ⟨n, i, q, k, r, s, rfl, hn, hq, rfl⟩)
    · cases h
  | fail n e =>
    simp only [move] at h
    split at h
    · rename_i i q k hn
      cases h
      exact .inr (.inr ⟨n, i, q, k, e, rfl, hn, rfl⟩)
    · cases h

theorem replay_cons {c d : Pool ι R ε α σ} {m : Move ι ε} {ms : List (Move ι ε)} :
    replay exec prog c (m :: ms) = some d ↔ ∃ e, move exec prog c m = some e ∧ replay exec prog e ms = some d := by
  rw [replay, List.foldlM_cons]
  exact Option.bind_eq_some_iff

end Pool

/-! ## The proof rule -/

/-- The invariant and the rely of a family of calls; `ok` is what a run assumes of its steps. -/
structure Discipline (ι S σ G : Type) where
  inv : World ι S σ → G → Prop
  rely : World ι S σ → World ι S σ → Prop
  rely_refl : ∀ w, rely w w
  rely_trans : ∀ {u v w}, rely u v → rely v w → rely u w
  ok : World ι S σ → ι → S → Prop

variable {G : Type} [AddCommMonoid G]

/-- Every statement the program can execute, whatever the others do in between, keeps the discipline. -/
def Safe (D : Discipline ι S σ G) (exec : (q : S) → σ → Except ε (R q × σ)) (i : ι) :
    Prog R ε α → World ι S σ → G → (α → World ι S σ → G → Prop) → Prop
  | .ret a, w, g, Q => Q a w g
  | .throw _, _, g, _ => g = 0
  | .stmt q k, w, g, Q => ∀ v, D.rely w v → ∀ frame, D.inv v (g + frame) → D.ok v i q →
      ∀ r s, exec q v.store = .ok (r, s) →
        D.rely v (v.after i q s) ∧
          ∃ g', D.inv (v.after i q s) (g' + frame) ∧ Safe D exec i (k r) (v.after i q s) g' Q

section Safe

variable {D : Discipline ι S σ G} {exec : (q : S) → σ → Except ε (R q × σ)} {i : ι}

theorem Safe.mono {p : Prog R ε α} {w : World ι S σ} {g : G} {Q Q' : α → World ι S σ → G → Prop}
    (h : Safe D exec i p w g Q) (hQ : ∀ a v g', Q a v g' → Q' a v g') : Safe D exec i p w g Q' := by
  induction p generalizing w g with
  | ret a => exact hQ a w g h
  | throw e => exact h
  | stmt q k ih =>
    intro v hv frame hi hok r s hr
    obtain ⟨hrely, g', hi', hk⟩ := h v hv frame hi hok r s hr
    exact ⟨hrely, g', hi', ih r hk⟩

theorem safe_bind {p : Prog R ε α} {f : α → Prog R ε β} {w : World ι S σ} {g : G} {Q : β → World ι S σ → G → Prop}
    (h : Safe D exec i p w g fun a v g' => Safe D exec i (f a) v g' Q) : Safe D exec i (p >>= f) w g Q := by
  induction p generalizing w g with
  | ret a => exact h
  | throw e => exact h
  | stmt q k ih =>
    intro v hv frame hi hok r s hr
    obtain ⟨hrely, g', hi', hk⟩ := h v hv frame hi hok r s hr
    exact ⟨hrely, g', hi', ih r hk⟩

/-- A safe program stays safe while the others move. -/
theorem Safe.of_rely {p : Prog R ε α} {w v : World ι S σ} {g : G} {Q : α → World ι S σ → G → Prop}
    (hQ : ∀ a w v g, D.rely w v → Q a w g → Q a v g) (h : Safe D exec i p w g Q) (hv : D.rely w v) :
    Safe D exec i p v g Q := by
  cases p with
  | ret a => exact hQ a w v g hv h
  | throw e => exact h
  | stmt q k => exact fun u hu => h u (D.rely_trans hv hu)

/-- A call that nothing comes between. -/
theorem Safe.run (hok : ∀ w i q, D.ok w i q) {p : Prog R ε α} {w : World ι S σ} {g : G}
    {Q : α → World ι S σ → G → Prop} (h : Safe D exec i p w g Q) (hi : D.inv w g) :
    ∃ v g', v.store = (p.run exec w.store).2 ∧ D.inv v g' := by
  induction p generalizing w g with
  | ret a => exact ⟨w, g, rfl, hi⟩
  | throw e => exact ⟨w, g, rfl, hi⟩
  | stmt q k ih =>
    cases hq : exec q w.store with
    | error e =>
      rw [Prog.run_stmt_error hq]
      exact ⟨w, g, rfl, hi⟩
    | ok rs =>
      obtain ⟨r, s⟩ := rs
      rw [← add_zero g] at hi
      obtain ⟨-, g', hi', hk⟩ := h w (D.rely_refl w) 0 hi (hok w i q) r s hq
      rw [add_zero] at hi'
      rw [Prog.run_stmt hq]
      exact ih r hk hi'

end Safe

/-! ## Programs that only read -/

/-- The statements `P` are free in `D`. -/
def ReadFree (D : Discipline ι S σ G) (P : S → Bool) : Prop :=
  ∀ v i q g, P q = true → D.inv v g → D.rely v (v.after i q v.store) ∧ D.inv (v.after i q v.store) g

/-- The statements `P` keep to the discipline wherever they are executed, whatever is held. -/
def Respects (D : Discipline ι S σ G) (exec : (q : S) → σ → Except ε (R q × σ)) (P : S → Bool) : Prop :=
  ∀ v i q g r s, P q = true → D.inv v g → D.ok v i q → exec q v.store = .ok (r, s) →
    D.rely v (v.after i q s) ∧ D.inv (v.after i q s) g

section Reads

variable {D : Discipline ι S σ G} {exec : (q : S) → σ → Except ε (R q × σ)} {i : ι} {P : S → Bool}

/-- A check of one statement, by a call that holds `g`: what it returns, it returns of the store it read, and where the
invariant allows it what is held changes there. -/
theorem safe_check (he : ReadOnly P exec) (hD : ReadFree D P) {p : Prog R ε α} {w : World ι S σ} {g : G}
    {Q : α → World ι S σ → G → Prop} (hp : OneRead P p)
    (hQ : ∀ v f r, D.rely w v → D.inv v (g + f) → p.run exec v.store = (r, v.store) → ∃ g', D.inv v (g' + f) ∧
      match r with
      | .ok a => Q a v g'
      | .error _ => g' = 0) :
    Safe D exec i p w g Q := by
  obtain ⟨q, k, rfl, hq, hk⟩ := hp
  intro v hv frame hi _ r s hr
  obtain ⟨hrely, hinv⟩ := hD v i q _ hq hi
  obtain rfl := he.store_eq hq hr
  have hrun := Prog.run_stmt (k := k) hr
  obtain ⟨a, ha⟩ | ⟨e, he⟩ := Prog.done_cases (hk r)
  · rw [ha] at hrun ⊢
    obtain ⟨g', hg', hpost⟩ := hQ _ frame _ (D.rely_trans hv hrely) hinv hrun
    exact ⟨hrely, g', hg', hpost⟩
  · rw [he] at hrun ⊢
    obtain ⟨g', hg', hpost⟩ := hQ _ frame _ (D.rely_trans hv hrely) hinv hrun
    exact ⟨hrely, g', hg', hpost⟩

/-- A check by a call that holds nothing. -/
theorem safe_oneRead (he : ReadOnly P exec) (hD : ReadFree D P) {p : Prog R ε α} {w : World ι S σ}
    {Q : α → World ι S σ → G → Prop} (hp : OneRead P p)
    (hQ : ∀ v a f, D.rely w v → D.inv v f → p.run exec v.store = (.ok a, v.store) → Q a v 0) :
    Safe D exec i p w 0 Q := by
  refine safe_check he hD hp fun v f r hv hi hrun => ⟨0, hi, ?_⟩
  cases r with
  | ok a => exact hQ v a _ hv hi hrun
  | error e => exact rfl

/-- A program of such statements holds nothing. -/
theorem safe_of_respects (hD : Respects D exec P) {p : Prog R ε α} :
    ∀ {w : World ι S σ}, Reads P p → Safe D exec i p w 0 fun _ v g => D.rely w v ∧ g = 0 := by
  induction p with
  | ret a => exact fun _ => ⟨D.rely_refl _, rfl⟩
  | throw e => exact fun _ => rfl
  | stmt q k ih =>
    intro w hp v hv frame hi hok r s hr
    obtain ⟨hrely, hinv⟩ := hD v i q _ r s hp.1 hi hok hr
    exact ⟨hrely, 0, hinv, (ih r (hp.2 r)).mono fun _ u g' h => ⟨D.rely_trans hv (D.rely_trans hrely h.1), h.2⟩⟩

/-- A program that only reads holds nothing. -/
theorem safe_reads (he : ReadOnly P exec) (hD : ReadFree D P) {p : Prog R ε α} {w : World ι S σ} (hp : Reads P p) :
    Safe D exec i p w 0 fun _ v g => D.rely w v ∧ g = 0 := by
  refine safe_of_respects (fun v i q g r s hq hi _ hr => ?_) hp
  obtain rfl := he.store_eq hq hr
  exact hD v i q g hq hi

end Reads

/-- The postcondition of a whole call: nothing is held any more. -/
def Released (_ : α) (_ : World ι S σ) (g : G) : Prop := g = 0

/-- A sequence of parts that hold nothing at their ends. -/
theorem safe_bind_released {D : Discipline ι S σ G} {exec : (q : S) → σ → Except ε (R q × σ)} {i : ι}
    {p : Prog R ε α} {f : α → Prog R ε β} {w : World ι S σ} {g : G} (hp : Safe D exec i p w g Released)
    (hf : ∀ a v, Safe D exec i (f a) v 0 Released) : Safe D exec i (p >>= f) w g Released :=
  safe_bind (hp.mono fun a v g' hg => by cases hg; exact hf a v)

section Pool

variable {D : Discipline ι S σ G} {exec : (q : S) → σ → Except ε (R q × σ)} {prog : ι → Prog R ε α}

/-- The invariant of a pool: what the calls hold makes the global invariant true, and each is safe with its share until
it returns, where `Q` says what it still holds. -/
def PoolSafe (D : Discipline ι S σ G) (exec : (q : S) → σ → Except ε (R q × σ)) (Q : ι → α → World ι S σ → G → Prop)
    (c : Pool ι R ε α σ) : Prop :=
  ∃ gs : List G, List.Forall₂ (fun t g => Safe D exec t.1 t.2 c.toWorld g (Q t.1)) c.threads gs ∧
    D.inv c.toWorld gs.sum

/-- The invariant of a pool whose calls hold nothing when they return. -/
def PoolInv (D : Discipline ι S σ G) (exec : (q : S) → σ → Except ε (R q × σ)) (c : Pool ι R ε α σ) : Prop :=
  ∃ gs : List G, List.Forall₂ (fun t g => Safe D exec t.1 t.2 c.toWorld g Released) c.threads gs ∧
    D.inv c.toWorld gs.sum

/-- The move executes a statement that meets the step condition, or starts a call. -/
def OkMove (D : Discipline ι S σ G) (c : Pool ι R ε α σ) : Move ι ε → Prop
  | .start _ => True
  | .stmt n =>
    match c.threads[n]? with
    | some (i, .stmt q _) => D.ok c.toWorld i q
    | _ => True
  | .fail _ _ => False

theorem forall₂_split {δ ε : Type} {P : δ → ε → Prop} : ∀ {l : List δ} {m : List ε} {n : Nat} {a : δ},
    List.Forall₂ P l m → l[n]? = some a →
      ∃ l₁ l₂ m₁ b m₂, l = l₁ ++ a :: l₂ ∧ m = m₁ ++ b :: m₂ ∧ l₁.length = n ∧ List.Forall₂ P l₁ m₁ ∧ P a b ∧
        List.Forall₂ P l₂ m₂
  | _, _, _, _, .nil, h => by simp at h
  | _, _, 0, _, @List.Forall₂.cons _ _ _ a b l m hab hlm, h => by
    cases h
    exact ⟨[], l, [], b, m, rfl, rfl, rfl, .nil, hab, hlm⟩
  | _, _, n + 1, _, @List.Forall₂.cons _ _ _ a b _ _ hab hlm, h => by
    obtain ⟨l₁, l₂, m₁, b', m₂, rfl, rfl, hlen, h₁, h, h₂⟩ := forall₂_split hlm (by simpa using h)
    exact ⟨a :: l₁, l₂, b :: m₁, b', m₂, rfl, rfl, by simp [hlen], .cons hab h₁, h, h₂⟩

theorem released_of_rely (a : α) (w v : World ι S σ) (g : G) (_ : D.rely w v) (h : Released a w g) :
    Released a v g := h

/-- One move keeps the invariant of the pool, and stays in the rely. -/
theorem move_poolSafe {Q : ι → α → World ι S σ → G → Prop} (hprog : ∀ i w, Safe D exec i (prog i) w 0 (Q i))
    (hQ : ∀ i a w v g, D.rely w v → Q i a w g → Q i a v g) {c d : Pool ι R ε α σ} {m : Move ι ε}
    (h : c.move exec prog m = some d) (hm : OkMove D c m) (hc : PoolSafe D exec Q c) :
    D.rely c.toWorld d.toWorld ∧ PoolSafe D exec Q d := by
  obtain ⟨gs, hgs, hinv⟩ := hc
  obtain ⟨i, rfl, rfl⟩ | ⟨n, i, q, k, r, s, rfl, hn, hq, rfl⟩ | ⟨n, i, q, k, e, rfl, -, -⟩ := Pool.move_cases h
  · refine ⟨D.rely_refl _, ⟨gs ++ [0], ?_, by simpa using hinv⟩⟩
    have hnew : List.Forall₂ (fun t g => Safe D exec t.1 t.2 c.toWorld g (Q t.1)) [(i, prog i)] [0] :=
      .cons (hprog i c.toWorld) .nil
    exact List.rel_append hgs hnew
  · obtain ⟨l₁, l₂, g₁, g, g₂, hl, rfl, hlen, h₁, hsafe, h₂⟩ := forall₂_split hgs hn
    -- the others hold `g₁.sum + g₂.sum`
    have hsum : (g₁ ++ g :: g₂).sum = g + (g₁.sum + g₂.sum) := by
      rw [List.sum_append, List.sum_cons, ← add_assoc, ← add_assoc, add_comm g₁.sum]
    rw [hsum] at hinv
    have hok : D.ok c.toWorld i q := by simpa only [OkMove, hn] using hm
    obtain ⟨hrely, g', hinv', hk⟩ := hsafe c.toWorld (D.rely_refl _) _ hinv hok r s hq
    have hset : c.threads.set n (i, k r) = l₁ ++ (i, k r) :: l₂ := by
      rw [hl, ← hlen, List.set_append_right _ _ (Nat.le_refl _)]
      simp
    have keep : ∀ {l : List (ι × Prog R ε α)} {gs : List G},
        List.Forall₂ (fun t g => Safe D exec t.1 t.2 c.toWorld g (Q t.1)) l gs →
        List.Forall₂ (fun t g => Safe D exec t.1 t.2 (c.toWorld.after i q s) g (Q t.1)) l gs :=
      fun hl => hl.imp fun t _ ht => ht.of_rely (hQ t.1) hrely
    refine ⟨hrely, ⟨g₁ ++ g' :: g₂, ?_, ?_⟩⟩
    · rw [hset]
      have hrest : List.Forall₂ (fun t g => Safe D exec t.1 t.2 (c.toWorld.after i q s) g (Q t.1)) ((i, k r) :: l₂)
          (g' :: g₂) := .cons hk (keep h₂)
      exact List.rel_append (keep h₁) hrest
    · have hsum' : (g₁ ++ g' :: g₂).sum = g' + (g₁.sum + g₂.sum) := by
        rw [List.sum_append, List.sum_cons, ← add_assoc, ← add_assoc, add_comm g₁.sum]
      rw [hsum']
      exact hinv'
  · exact hm.elim

theorem move_safe (hprog : ∀ i w, Safe D exec i (prog i) w 0 Released) {c d : Pool ι R ε α σ} {m : Move ι ε}
    (h : c.move exec prog m = some d) (hm : OkMove D c m) (hc : PoolInv D exec c) :
    D.rely c.toWorld d.toWorld ∧ PoolInv D exec d :=
  move_poolSafe (Q := fun _ => Released) hprog (fun _ => released_of_rely) h hm hc

/-- Every move of a replay satisfies the step condition of `D`. -/
def OkMoves (D : Discipline ι S σ G) (exec : (q : S) → σ → Except ε (R q × σ)) (prog : ι → Prog R ε α) :
    Pool ι R ε α σ → List (Move ι ε) → Prop
  | _, [] => True
  | c, m :: ms => OkMove D c m ∧ ∀ d, c.move exec prog m = some d → OkMoves D exec prog d ms

section OkMoves

omit [AddCommMonoid G]

theorem okMoves_append : ∀ {ms ns : List (Move ι ε)} {c d : Pool ι R ε α σ},
    OkMoves D exec prog c (ms ++ ns) → c.replay exec prog ms = some d →
      OkMoves D exec prog c ms ∧ OkMoves D exec prog d ns
  | [], _, _, _, h, hd => by cases hd; exact ⟨trivial, h⟩
  | m :: ms, ns, c, d, h, hd => by
    obtain ⟨e, h₁, h₂⟩ := Pool.replay_cons.1 hd
    refine ⟨⟨h.1, fun e' he' => ?_⟩, (okMoves_append (h.2 e h₁) h₂).2⟩
    rw [h₁] at he'
    cases he'
    exact (okMoves_append (h.2 e h₁) h₂).1

instance decidableOkMove [∀ w i q, Decidable (D.ok w i q)] (c : Pool ι R ε α σ) :
    ∀ m : Move ι ε, Decidable (OkMove D c m)
  | .start _ => .isTrue trivial
  | .stmt n =>
    match h : c.threads[n]? with
    | some (i, .stmt q k) => decidable_of_iff (D.ok c.toWorld i q) (by simp only [OkMove, h])
    | some (i, .ret a) => .isTrue (by simp only [OkMove, h])
    | some (i, .throw e) => .isTrue (by simp only [OkMove, h])
    | none => .isTrue (by simp only [OkMove, h])
  | .fail _ _ => .isFalse id

instance decidableOkMoves [∀ w i q, Decidable (D.ok w i q)] : ∀ (ms : List (Move ι ε)) (c : Pool ι R ε α σ),
    Decidable (OkMoves D exec prog c ms)
  | [], _ => .isTrue trivial
  | m :: ms, c =>
    match h : c.move exec prog m with
    | some d =>
      @decidable_of_iff _ (OkMove D c m ∧ OkMoves D exec prog d ms)
        ⟨fun ho => ⟨ho.1, fun e he => by cases h.symm.trans he; exact ho.2⟩, fun ho => ⟨ho.1, ho.2 d h⟩⟩
        (@instDecidableAnd _ _ _ (decidableOkMoves ms d))
    | none =>
      decidable_of_iff (OkMove D c m) ⟨fun ho => ⟨ho, fun e he => by cases h.symm.trans he⟩, fun ho => ho.1⟩

theorem okMove_of_ok (hD : ∀ w i q, D.ok w i q) {c : Pool ι R ε α σ} {m : Move ι ε} (hm : m.ok = true) :
    OkMove D c m := by
  cases m with
  | start i => trivial
  | stmt n =>
    simp only [OkMove]
    split
    · exact hD _ _ _
    · trivial
  | fail n e => cases hm

/-- A discipline without a step condition asks only that no statement fails. -/
theorem okMoves_of_ok (hD : ∀ w i q, D.ok w i q) : ∀ {ms : List (Move ι ε)} {c : Pool ι R ε α σ},
    (∀ m ∈ ms, m.ok = true) → OkMoves D exec prog c ms
  | [], _, _ => trivial
  | m :: _, _, h => ⟨okMove_of_ok hD (h m (by simp)), fun _ _ => okMoves_of_ok hD fun m hm => h m (by simp [hm])⟩

end OkMoves

/-- **Every interleaving keeps the invariant, and the rely from its start to its end.** -/
theorem replay_poolSafe {Q : ι → α → World ι S σ → G → Prop} (hprog : ∀ i w, Safe D exec i (prog i) w 0 (Q i))
    (hQ : ∀ i a w v g, D.rely w v → Q i a w g → Q i a v g) : ∀ {ms : List (Move ι ε)} {c d : Pool ι R ε α σ},
    c.replay exec prog ms = some d → OkMoves D exec prog c ms → PoolSafe D exec Q c →
      D.rely c.toWorld d.toWorld ∧ PoolSafe D exec Q d
  | [], c, d, h, _, hc => by cases h; exact ⟨D.rely_refl _, hc⟩
  | m :: ms, c, d, h, hm, hc => by
    obtain ⟨e, h₁, h₂⟩ := Pool.replay_cons.1 h
    obtain ⟨hr₁, he⟩ := move_poolSafe hprog hQ h₁ hm.1 hc
    obtain ⟨hr₂, hd⟩ := replay_poolSafe hprog hQ h₂ (hm.2 e h₁) he
    exact ⟨D.rely_trans hr₁ hr₂, hd⟩

theorem replay_safe (hprog : ∀ i w, Safe D exec i (prog i) w 0 Released) {ms : List (Move ι ε)}
    {c d : Pool ι R ε α σ} (h : c.replay exec prog ms = some d) (hm : OkMoves D exec prog c ms)
    (hc : PoolInv D exec c) : D.rely c.toWorld d.toWorld ∧ PoolInv D exec d :=
  replay_poolSafe (Q := fun _ => Released) hprog (fun _ => released_of_rely) h hm hc

theorem poolInv_init {s : σ} (h : D.inv ⟨s, []⟩ 0) : PoolInv D exec (Pool.init s : Pool ι R ε α σ) :=
  ⟨[], .nil, h⟩

/-- A call that has returned or thrown holds nothing. -/
theorem released_of_done {w : World ι S σ} : ∀ {ts : List (ι × Prog R ε α)} {gs : List G},
    List.Forall₂ (fun t g => Safe D exec t.1 t.2 w g Released) ts gs → (∀ t ∈ ts, t.2.done = true) → ∀ g ∈ gs, g = 0
  | _, _, .nil, _, _, hg => by cases hg
  | (i, p) :: _, _, .cons ht hts, hd, g, hg => by
    rcases List.mem_cons.1 hg with rfl | hg
    · have hp : p.done = true := hd (i, p) (by simp)
      cases p with
      | ret a => exact ht
      | throw e => exact ht
      | stmt q k => cases hp
    · exact released_of_done hts (fun t ht => hd t (by simp [ht])) g hg

/-- With no call in flight nothing is held. -/
theorem idle_inv {c : Pool ι R ε α σ} (hc : PoolInv D exec c) (hi : c.Idle) : D.inv c.toWorld 0 := by
  obtain ⟨gs, hgs, hinv⟩ := hc
  rwa [List.sum_eq_zero (released_of_done hgs hi)] at hinv

/-! ## Runs in which statements fail -/

/-- Every move of a replay satisfies the step condition of `D`, or lets a statement fail. -/
def MayMoves (D : Discipline ι S σ G) (exec : (q : S) → σ → Except ε (R q × σ)) (prog : ι → Prog R ε α) :
    Pool ι R ε α σ → List (Move ι ε) → Prop
  | _, [] => True
  | c, m :: ms => (m.ok = true → OkMove D c m) ∧ ∀ d, c.move exec prog m = some d → MayMoves D exec prog d ms

section MayMoves

omit [AddCommMonoid G]

/-- A discipline without a step condition asks nothing. -/
theorem mayMoves_of_ok (hD : ∀ w i q, D.ok w i q) : ∀ (ms : List (Move ι ε)) (c : Pool ι R ε α σ),
    MayMoves D exec prog c ms
  | [], _ => trivial
  | _ :: ms, _ => ⟨okMove_of_ok hD, fun d _ => mayMoves_of_ok hD ms d⟩

theorem mayMoves_of_append : ∀ {ms ns : List (Move ι ε)} {c : Pool ι R ε α σ},
    MayMoves D exec prog c (ms ++ ns) → MayMoves D exec prog c ms
  | [], _, _, _ => trivial
  | _ :: _, _, _, h => ⟨h.1, fun d hd => mayMoves_of_append (h.2 d hd)⟩

/-- The rest of a run that meets the step condition meets it. -/
theorem mayMoves_append : ∀ {ms ns : List (Move ι ε)} {c d : Pool ι R ε α σ},
    MayMoves D exec prog c (ms ++ ns) → c.replay exec prog ms = some d → MayMoves D exec prog d ns
  | [], _, _, _, h, hd => by cases hd; exact h
  | _ :: _, _, _, _, h, hd => by
    obtain ⟨e, h₁, h₂⟩ := Pool.replay_cons.1 hd
    exact mayMoves_append (h.2 e h₁) h₂

/-- A run meets the step condition when what holds after each of its moves entails it. -/
theorem mayMoves_of_reached {J : Pool ι R ε α σ → Prop}
    (hJ : ∀ c m d, c.move exec prog m = some d → J d → m.ok = true → OkMove D c m) :
    ∀ {ms : List (Move ι ε)} {c d : Pool ι R ε α σ}, c.replay exec prog ms = some d →
      (∀ ns e, ns <+: ms → c.replay exec prog ns = some e → J e) → MayMoves D exec prog c ms
  | [], _, _, _, _ => trivial
  | m :: ms, c, d, h, hreach => by
    obtain ⟨e, h₁, h₂⟩ := Pool.replay_cons.1 h
    refine ⟨hJ c m e h₁ (hreach [m] e (by simp) (Pool.replay_cons.2 ⟨e, h₁, rfl⟩)), fun e' he' => ?_⟩
    rw [h₁] at he'
    cases he'
    refine mayMoves_of_reached hJ h₂ fun ns f hns hf => ?_
    exact hreach (m :: ns) f (List.cons_prefix_cons.2 ⟨rfl, hns⟩) (Pool.replay_cons.2 ⟨e, h₁, hf⟩)

/-- What a run assumes of a step by whose call it is, a run of such calls meets. -/
theorem mayMoves_of_started {P : ι → Prop} (hD : ∀ w i q, P i → D.ok w i q) :
    ∀ {ms : List (Move ι ε)} {c : Pool ι R ε α σ}, (∀ i, Move.start i ∈ ms → P i) → (∀ t ∈ c.threads, P t.1) →
      MayMoves D exec prog c ms
  | [], _, _, _ => trivial
  | m :: ms, c, hms, hc => by
    refine ⟨fun hm => ?_, fun d hd => mayMoves_of_started hD (fun i hi => hms i (List.mem_cons_of_mem _ hi)) ?_⟩
    · cases m with
      | start i => trivial
      | stmt n =>
        simp only [OkMove]
        split
        · rename_i hn
          exact hD _ _ _ (hc _ (List.mem_of_getElem? hn))
        · trivial
      | fail n e => cases hm
    · obtain ⟨i, rfl, rfl⟩ | ⟨n, i, q, k, r, s, -, hn, -, rfl⟩ | ⟨n, i, q, k, e, -, hn, rfl⟩ := Pool.move_cases hd
      · intro t ht
        rcases List.mem_append.1 ht with ht | ht
        · exact hc t ht
        · rw [List.mem_singleton.1 ht]
          exact hms i List.mem_cons_self
      · intro t ht
        rcases List.mem_or_eq_of_mem_set ht with ht | rfl
        · exact hc t ht
        · exact hc (i, .stmt q k) (List.mem_of_getElem? hn)
      · intro t ht
        rcases List.mem_or_eq_of_mem_set ht with ht | rfl
        · exact hc t ht
        · exact hc (i, .stmt q k) (List.mem_of_getElem? hn)

instance decidableMayMoves [∀ w i q, Decidable (D.ok w i q)] : ∀ (ms : List (Move ι ε)) (c : Pool ι R ε α σ),
    Decidable (MayMoves D exec prog c ms)
  | [], _ => .isTrue trivial
  | m :: ms, c =>
    match h : c.move exec prog m with
    | some d =>
      @decidable_of_iff _ ((m.ok = true → OkMove D c m) ∧ MayMoves D exec prog d ms)
        ⟨fun ho => ⟨ho.1, fun e he => by cases h.symm.trans he; exact ho.2⟩, fun ho => ⟨ho.1, ho.2 d h⟩⟩
        (@instDecidableAnd _ _ _ (decidableMayMoves ms d))
    | none =>
      decidable_of_iff (m.ok = true → OkMove D c m) ⟨fun ho => ⟨ho, fun e he => by cases h.symm.trans he⟩,
        fun ho => ho.1⟩

end MayMoves

section Fail

variable [Subsingleton G]

/-- Where there is nothing to hold, a statement may fail. -/
theorem move_safe_fail (hprog : ∀ i w, Safe D exec i (prog i) w 0 Released) {c d : Pool ι R ε α σ} {m : Move ι ε}
    (h : c.move exec prog m = some d) (hm : m.ok = true → OkMove D c m) (hc : PoolInv D exec c) :
    D.rely c.toWorld d.toWorld ∧ PoolInv D exec d := by
  cases m with
  | start i => exact move_safe hprog h (hm rfl) hc
  | stmt n => exact move_safe hprog h (hm rfl) hc
  | fail n e =>
    obtain ⟨_, hm, -⟩ | ⟨_, _, _, _, _, _, hm, -⟩ | ⟨n, i, q, k, e, -, hn, rfl⟩ := Pool.move_cases h
    · cases hm
    · cases hm
    obtain ⟨gs, hgs, hinv⟩ := hc
    obtain ⟨l₁, l₂, g₁, g, g₂, hl, rfl, hlen, h₁, -, h₂⟩ := forall₂_split hgs hn
    refine ⟨D.rely_refl _, g₁ ++ g :: g₂, ?_, hinv⟩
    have hset : c.threads.set n (i, .throw e) = l₁ ++ (i, .throw e) :: l₂ := by
      rw [hl, ← hlen, List.set_append_right _ _ (Nat.le_refl _)]
      simp
    rw [hset]
    have hrest : List.Forall₂ (fun t g => Safe D exec t.1 t.2 c.toWorld g Released) ((i, .throw e) :: l₂) (g :: g₂) :=
      .cons (Subsingleton.elim g 0) h₂
    exact List.rel_append h₁ hrest

theorem replay_safe_fail (hprog : ∀ i w, Safe D exec i (prog i) w 0 Released) : ∀ {ms : List (Move ι ε)}
    {c d : Pool ι R ε α σ}, c.replay exec prog ms = some d → MayMoves D exec prog c ms → PoolInv D exec c →
      D.rely c.toWorld d.toWorld ∧ PoolInv D exec d
  | [], c, d, h, _, hc => by cases h; exact ⟨D.rely_refl _, hc⟩
  | m :: ms, c, d, h, hm, hc => by
    obtain ⟨e, h₁, h₂⟩ := Pool.replay_cons.1 h
    obtain ⟨hr₁, he⟩ := move_safe_fail hprog h₁ hm.1 hc
    obtain ⟨hr₂, hd⟩ := replay_safe_fail hprog h₂ (hm.2 e h₁) he
    exact ⟨D.rely_trans hr₁ hr₂, hd⟩

/-- The invariant of a pool in which nothing is held. -/
theorem PoolInv.inv {c : Pool ι R ε α σ} (hc : PoolInv D exec c) : D.inv c.toWorld 0 := by
  obtain ⟨gs, -, hinv⟩ := hc
  rwa [Subsingleton.elim gs.sum 0] at hinv

end Fail

end Pool

end Smink.Store
