import Smink.Store.Owned
import Smink.Store.Pool

/-!
# Interleavings that are serial in effect

Calls that overlap only when they keep to regions apart from each other (`Parties`) might as well have run one after
another, in the order in which they started.

* `Prog.upTo` is the part of a call that has been executed: some statements, and the failure that stopped it. The moves
  of a pool say which part that is (`partsOf`).
* `Serial` runs the parts of several calls one after another. A part moves past parts apart from it (`serial_last`,
  `serial_first`), so the next statement of any call finds what it would find at the end (`move_serial`).
* `replay_serial`: in every state of every interleaving the calls have answered as the serial run of their parts.
* `turns_of_idle`: with no call in flight the parts are whole calls, or calls with a failure (`Turn`), and each fails
  where it has failed in the interleaving (`turnsOf`).
-/

namespace Smink.Store

variable {ι S : Type} {R : S → Type} {ε α σ : Type}

namespace Prog

/-! ## The executed part of a program -/

/-- What is left of a program whose next statement fails, if there is a failure. -/
def halt : Option ε → Prog R ε α → Prog R ε α
  | some e, .stmt _ _ => .throw e
  | _, p => p

/-- The first `n` statements of a program; it returns what is left. -/
def upTo (fault : Option ε) : ℕ → Prog R ε α → Prog R ε (Prog R ε α)
  | 0, p => .ret (p.halt fault)
  | n + 1, .stmt q k => .stmt q fun r => upTo fault n (k r)
  | _ + 1, .ret a => .ret (.ret a)
  | _ + 1, .throw e => .ret (.throw e)

/-- What a program answers that runs no further statement. -/
def result : Prog R ε α → Option (Except ε α)
  | .ret a => some (.ok a)
  | .throw e => some (.error e)
  | .stmt _ _ => none

variable {exec : (q : S) → σ → Except ε (R q × σ)} {p rest : Prog R ε α} {s t u : σ} {n : ℕ} {fault : Option ε}

/-- A part with a failure has no next statement. -/
theorem fault_of_stmt {q : S} {k : R q → Prog R ε α} (h : (p.upTo fault n).run exec s = (.ok (.stmt q k), t)) :
    fault = none := by
  induction n generalizing p s with
  | zero =>
    cases fault with
    | none => rfl
    | some e => cases p <;> cases h
  | succ n ih =>
    cases p with
    | ret a => cases h
    | throw e => cases h
    | stmt q' k' =>
      rw [upTo] at h
      cases hq : exec q' s with
      | error e => rw [run_stmt_error hq] at h; cases h
      | ok rs =>
        obtain ⟨r, v⟩ := rs
        rw [run_stmt hq] at h
        exact ih h

/-- One more statement. -/
theorem upTo_succ {q : S} {k : R q → Prog R ε α} {r : R q}
    (h : (p.upTo (none : Option ε) n).run exec s = (.ok (.stmt q k), t)) (hq : exec q t = .ok (r, u)) :
    (p.upTo (none : Option ε) (n + 1)).run exec s = (.ok (k r), u) := by
  induction n generalizing p s with
  | zero =>
    cases p with
    | ret a => cases h
    | throw e => cases h
    | stmt q' k' =>
      cases h
      rw [upTo, run_stmt hq]
      rfl
  | succ n ih =>
    cases p with
    | ret a => cases h
    | throw e => cases h
    | stmt q' k' =>
      rw [upTo] at h ⊢
      cases hq' : exec q' s with
      | error e => rw [run_stmt_error hq'] at h; cases h
      | ok rs =>
        obtain ⟨r, v⟩ := rs
        rw [run_stmt hq'] at h ⊢
        exact ih h

/-- The next statement fails. -/
theorem upTo_fail {q : S} {k : R q → Prog R ε α} (e : ε)
    (h : (p.upTo (none : Option ε) n).run exec s = (.ok (.stmt q k), t)) :
    (p.upTo (some e) n).run exec s = (.ok (.throw e), t) := by
  induction n generalizing p s with
  | zero =>
    cases p with
    | ret a => cases h
    | throw e => cases h
    | stmt q' k' => cases h; rfl
  | succ n ih =>
    cases p with
    | ret a => cases h
    | throw e => cases h
    | stmt q' k' =>
      rw [upTo] at h ⊢
      cases hq' : exec q' s with
      | error e => rw [run_stmt_error hq'] at h; cases h
      | ok rs =>
        obtain ⟨r, v⟩ := rs
        rw [run_stmt hq'] at h ⊢
        exact ih h

/-- A part without a failure that leaves nothing to do is a run in which no statement throws. -/
theorem completes_of_upTo (h : (p.upTo (none : Option ε) n).run exec s = (.ok rest, t)) (hdone : rest.done = true) :
    p.Completes exec s ∧ (p.run exec s).2 = t := by
  induction n generalizing p s with
  | zero =>
    cases p with
    | ret a => cases h; exact ⟨trivial, rfl⟩
    | throw e => cases h; exact ⟨trivial, rfl⟩
    | stmt q k => cases h; cases hdone
  | succ n ih =>
    cases p with
    | ret a => cases h; exact ⟨trivial, rfl⟩
    | throw e => cases h; exact ⟨trivial, rfl⟩
    | stmt q k =>
      rw [upTo] at h
      cases hq : exec q s with
      | error e => rw [run_stmt_error hq] at h; cases h
      | ok rs =>
        obtain ⟨r, v⟩ := rs
        rw [run_stmt hq] at h ⊢
        obtain ⟨hcomplete, hstore⟩ := ih h
        exact ⟨⟨r, v, hq, hcomplete⟩, hstore⟩

/-- A call that has a next statement is at the statement that `crash` lets fail. -/
theorem crash_of_upTo {q : S} {k : R q → Prog R ε α}
    (h : (p.upTo (none : Option ε) n).run exec s = (.ok (.stmt q k), t)) : p.crash exec s n = some t := by
  induction n generalizing p s with
  | zero =>
    cases p with
    | ret a => cases h
    | throw e => cases h
    | stmt q' k' => cases h; simp [crash, path]
  | succ n ih =>
    cases p with
    | ret a => cases h
    | throw e => cases h
    | stmt q' k' =>
      rw [upTo] at h
      cases hq : exec q' s with
      | error e => rw [run_stmt_error hq] at h; cases h
      | ok rs =>
        obtain ⟨r, v⟩ := rs
        rw [run_stmt hq] at h
        have hcrash := ih h
        unfold crash at hcrash ⊢
        rw [path, hq]
        exact hcrash

/-- A part without a failure that leaves nothing to do answers as the whole run. -/
theorem result_of_upTo (h : (p.upTo (none : Option ε) n).run exec s = (.ok rest, t)) (hdone : rest.done = true) :
    some (p.run exec s).1 = rest.result := by
  induction n generalizing p s with
  | zero =>
    cases p with
    | ret a => cases h; rfl
    | throw e => cases h; rfl
    | stmt q k => cases h; cases hdone
  | succ n ih =>
    cases p with
    | ret a => cases h; rfl
    | throw e => cases h; rfl
    | stmt q k =>
      rw [upTo] at h
      cases hq : exec q s with
      | error e => rw [run_stmt_error hq] at h; cases h
      | ok rs =>
        obtain ⟨r, v⟩ := rs
        rw [run_stmt hq] at h ⊢
        exact ih h

end Prog

namespace Region

variable {exec : (q : S) → σ → Except ε (R q × σ)} {F : Region exec} {p : Prog R ε α} {s t : σ} {n : ℕ}

/-- A part of a program stays inside, where the whole does. -/
theorem Within.upTo (h : F.Within p s) (fault : Option ε) (n : ℕ) : F.Within (p.upTo fault n) s := by
  induction n generalizing p s with
  | zero => trivial
  | succ n ih =>
    cases p with
    | ret a => trivial
    | throw e => trivial
    | stmt q k => exact ⟨h.1, fun r t hr => ih (h.2 r t hr)⟩

/-- The statement that comes next is inside. -/
theorem Within.next {q : S} {k : R q → Prog R ε α} (h : F.Within p s)
    (hrun : (p.upTo (none : Option ε) n).run exec s = (.ok (.stmt q k), t)) : F.inside q t := by
  induction n generalizing p s with
  | zero =>
    cases p with
    | ret a => cases hrun
    | throw e => cases hrun
    | stmt q' k' => cases hrun; exact h.1
  | succ n ih =>
    cases p with
    | ret a => cases hrun
    | throw e => cases hrun
    | stmt q' k' =>
      rw [Prog.upTo] at hrun
      cases hq : exec q' s with
      | error e => rw [Prog.run_stmt_error hq] at hrun; cases hrun
      | ok rs =>
        obtain ⟨r, v⟩ := rs
        rw [Prog.run_stmt hq] at hrun
        exact ih (h.2 r v hq) hrun

end Region

/-- A part of a safe call is safe. -/
theorem Safe.upTo {G : Type} [AddCommMonoid G] {D : Discipline ι S σ G} {exec : (q : S) → σ → Except ε (R q × σ)}
    {i : ι} {p : Prog R ε α} {w : World ι S σ} {g : G} {Q : α → World ι S σ → G → Prop} (h : Safe D exec i p w g Q)
    (fault : Option ε) (n : ℕ) : Safe D exec i (p.upTo fault n) w g fun _ _ _ => True := by
  induction n generalizing p w g with
  | zero => trivial
  | succ n ih =>
    cases p with
    | ret a => trivial
    | throw e => trivial
    | stmt q k =>
      intro v hv frame hi hok r s hr
      obtain ⟨hrely, g', hi', hk⟩ := h v hv frame hi hok r s hr
      exact ⟨hrely, g', hi', ih hk⟩

/-! ## Parties -/

/-- Calls with a region each. `same` stores look alike from every side; `apart` calls may overlap. -/
structure Parties (exec : (q : S) → σ → Except ε (R q × σ)) (prog : ι → Prog R ε α) where
  region : ι → Region exec
  same : σ → σ → Prop
  inv : σ → Prop
  lawful : ι → Prop
  apart : ι → ι → Prop
  same_refl : ∀ s, same s s
  same_symm : ∀ {s t}, same s t → same t s
  same_trans : ∀ {s t u}, same s t → same t u → same s u
  alike : ∀ {i s t}, same s t → (region i).alike s t
  inside : ∀ {i q s t}, same s t → (region i).inside q s → (region i).inside q t
  /-- From same stores a call leaves same stores, if they look alike from its side. -/
  same_after : ∀ {i s s' t t'}, same s s' → (region i).touches s t → (region i).touches s' t' →
    (region i).alike t t' → same t t'
  apart_symm : ∀ {i j}, apart i j → apart j i
  out_of_sight : ∀ {i j s t}, apart i j → (region i).touches s t → (region j).alike s t
  /-- Two calls in turn, in either order. -/
  same_of_turns : ∀ {i j s a b ab ba}, apart i j → (region i).touches s a → (region j).touches a ab →
    (region j).touches s b → (region i).touches b ba → (region i).alike a ba → (region j).alike b ab → same ab ba
  within : ∀ {i s}, lawful i → inv s → (region i).Within (prog i) s
  inv_upTo : ∀ {i s}, lawful i → inv s → ∀ fault n, inv (((prog i).upTo fault n).run exec s).2

/-- The executed part of a call. -/
structure Part (ι ε : Type) where
  call : ι
  steps : ℕ
  fault : Option ε

/-- What a move adds to the parts: a call that has executed nothing, one more statement, or a failure. -/
def partsAfter (ps : List (Part ι ε)) : Move ι ε → List (Part ι ε)
  | .start i => ps ++ [⟨i, 0, none⟩]
  | .stmt n => ps.modify n fun p => { p with steps := p.steps + 1 }
  | .fail n e => ps.modify n fun p => { p with fault := some e }

/-- The executed part of each call, by the moves of a pool. -/
def partsOf (ms : List (Move ι ε)) : List (Part ι ε) := ms.foldl partsAfter []

theorem modify_middle {β : Type} (f : β → β) {pre : List β} {a : β} {post : List β} {n : ℕ} (hn : pre.length = n) :
    (pre ++ a :: post).modify n f = pre ++ f a :: post := by
  induction pre generalizing n with
  | nil =>
    cases hn
    rfl
  | cons b pre ih =>
    cases hn
    rw [List.cons_append, List.length_cons, List.modify_succ_cons, ih rfl]
    rfl

section Serial

variable (exec : (q : S) → σ → Except ε (R q × σ)) (prog : ι → Prog R ε α)

/-- The program of a part. -/
def Part.body (p : Part ι ε) : Prog R ε (Prog R ε α) := (prog p.call).upTo p.fault p.steps

/-- The part runs from one store to another and leaves `rest` to do. One that fails comes to the statement that does. -/
structure Part.Runs (p : Part ι ε) (s : σ) (rest : Prog R ε α) (t : σ) : Prop where
  run : (p.body prog).run exec s = (.ok rest, t)
  comes : p.fault.isSome = true →
    ∃ q k u, ((prog p.call).upTo (none : Option ε) p.steps).run exec s = (.ok (.stmt q k), u)

/-- The parts of calls, executed one after another: what they leave to do, and the last store. -/
inductive Serial : List (Part ι ε) → σ → List (ι × Prog R ε α) → σ → Prop
  | nil (s : σ) : Serial [] s [] s
  | cons {p : Part ι ε} {ps : List (Part ι ε)} {s t u : σ} {rest : Prog R ε α} {rests : List (ι × Prog R ε α)}
      (head : p.Runs exec prog s rest t) (tail : Serial ps t rests u) :
      Serial (p :: ps) s ((p.call, rest) :: rests) u

variable {exec prog} {P : Parties exec prog} {p p' : Part ι ε} {ps : List (Part ι ε)} {s s' t u : σ}
  {rest : Prog R ε α} {rests l₁ l₂ : List (ι × Prog R ε α)}

theorem Serial.append {qs : List (Part ι ε)} (h : Serial exec prog ps s l₁ t) (h' : Serial exec prog qs t l₂ u) :
    Serial exec prog (ps ++ qs) s (l₁ ++ l₂) u := by
  induction h with
  | nil s => exact h'
  | cons head _ ih => exact .cons head (ih h')

/-- A serial run around one of its calls. -/
theorem Serial.split {n : ℕ} {i : ι} (h : Serial exec prog ps s rests u) (hn : rests[n]? = some (i, rest)) :
    ∃ pre p post l₁ l₂ s₁ x, ps = pre ++ p :: post ∧ rests = l₁ ++ (i, rest) :: l₂ ∧ l₁.length = n ∧ p.call = i ∧
      Serial exec prog pre s l₁ s₁ ∧ p.Runs exec prog s₁ rest x ∧ Serial exec prog post x l₂ u := by
  induction h generalizing n with
  | nil s => simp at hn
  | @cons p ps s t u rest' rests head tail ih =>
    cases n with
    | zero =>
      cases hn
      exact ⟨[], p, ps, [], rests, s, t, rfl, rfl, rfl, rfl, .nil s, head, tail⟩
    | succ n =>
      obtain ⟨pre, p', post, l₁, l₂, s₁, x, rfl, rfl, rfl, rfl, hpre, hp, hpost⟩ := ih (by simpa using hn)
      exact ⟨p :: pre, p', post, (p.call, rest') :: l₁, l₂, s₁, x, rfl, rfl, rfl, rfl, .cons head hpre, hp, hpost⟩

theorem Serial.call_mem {a : Part ι ε} (h : Serial exec prog ps s rests t) (ha : a ∈ ps) :
    ∃ b ∈ rests, b.1 = a.call := by
  induction h with
  | nil s => cases ha
  | cons head _ ih =>
    rcases List.mem_cons.1 ha with rfl | ha
    · exact ⟨_, List.mem_cons_self, rfl⟩
    · obtain ⟨b, hb, hcall⟩ := ih ha
      exact ⟨b, List.mem_cons_of_mem _ hb, hcall⟩

theorem Serial.length_eq (h : Serial exec prog ps s rests t) : rests.length = ps.length := by
  induction h with
  | nil s => rfl
  | cons _ _ ih => rw [List.length_cons, List.length_cons, ih]

theorem inv_part (hl : P.lawful p.call) (hs : P.inv s) (h : p.Runs exec prog s rest t) : P.inv t := by
  have hinv := P.inv_upTo hl hs p.fault p.steps
  rw [show ((prog p.call).upTo p.fault p.steps).run exec s = (.ok rest, t) from h.run] at hinv
  exact hinv

theorem Serial.inv (h : Serial exec prog ps s rests t) (hl : ∀ p ∈ ps, P.lawful p.call) (hs : P.inv s) :
    P.inv t := by
  induction h with
  | nil s => exact hs
  | cons head _ ih => exact ih (fun p hp => hl p (by simp [hp])) (inv_part (hl _ (by simp)) hs head)

theorem within_part (hl : P.lawful p.call) (hs : P.inv s) : (P.region p.call).Within (p.body prog) s :=
  (P.within hl hs).upTo p.fault p.steps

/-- A part does the same from same stores. -/
theorem body_same (hl : P.lawful p.call) (hs : P.inv s) (hs' : P.inv s') (hsame : P.same s s')
    (h : (p.body prog).run exec s = (.ok rest, t)) :
    ∃ t', (p.body prog).run exec s' = (.ok rest, t') ∧ P.same t t' := by
  have hin := within_part hl hs
  have hin' := within_part hl hs'
  obtain ⟨hres, hlike, htouch⟩ := hin.run hin' (P.alike hsame)
  have htouch' := (hin'.run hin' (P.alike (P.same_refl s'))).2.2
  rw [h] at hres hlike htouch
  refine ⟨((p.body prog).run exec s').2, Prod.ext hres.symm rfl, ?_⟩
  exact P.same_after hsame htouch htouch' hlike

theorem part_same (hl : P.lawful p.call) (hs : P.inv s) (hs' : P.inv s') (hsame : P.same s s')
    (h : p.Runs exec prog s rest t) : ∃ t', p.Runs exec prog s' rest t' ∧ P.same t t' := by
  obtain ⟨t', ht', hsame'⟩ := body_same hl hs hs' hsame h.run
  refine ⟨t', ⟨ht', fun hf => ?_⟩, hsame'⟩
  obtain ⟨q, k, u, hu⟩ := h.comes hf
  obtain ⟨u', hu', -⟩ := body_same (p := ⟨p.call, p.steps, none⟩) hl hs hs' hsame hu
  exact ⟨q, k, u', hu'⟩

theorem Serial.same (h : Serial exec prog ps s rests t) (hl : ∀ p ∈ ps, P.lawful p.call) (hs : P.inv s)
    (hs' : P.inv s') (hsame : P.same s s') : ∃ t', Serial exec prog ps s' rests t' ∧ P.same t t' := by
  induction h generalizing s' with
  | nil s => exact ⟨s', .nil s', hsame⟩
  | cons head _ ih =>
    obtain ⟨u, hu, hsame⟩ := part_same (hl _ (by simp)) hs hs' hsame head
    obtain ⟨t', ht', hsame'⟩ := ih (fun p hp => hl p (by simp [hp])) (inv_part (hl _ (by simp)) hs head)
      (inv_part (hl _ (by simp)) hs' hu) hsame
    exact ⟨t', .cons hu ht', hsame'⟩

/-- Parts apart from each other commute. -/
theorem body_commute (p p' : Part ι ε) (hap : P.apart p.call p'.call) (hl : P.lawful p.call)
    (hl' : P.lawful p'.call) (hs : P.inv s) :
    ((p.body prog).run exec s).1 = ((p.body prog).run exec ((p'.body prog).run exec s).2).1 ∧
      ((p'.body prog).run exec ((p.body prog).run exec s).2).1 = ((p'.body prog).run exec s).1 ∧
        P.same ((p'.body prog).run exec ((p.body prog).run exec s).2).2
          ((p.body prog).run exec ((p'.body prog).run exec s).2).2 := by
  have hinv : P.inv ((p.body prog).run exec s).2 := P.inv_upTo hl hs p.fault p.steps
  have hinv' : P.inv ((p'.body prog).run exec s).2 := P.inv_upTo hl' hs p'.fault p'.steps
  have hp := within_part hl hs
  have hp' := within_part hl hinv'
  have hq := within_part hl' hs
  have hq' := within_part hl' hinv
  have hrefl : ∀ (i : ι) (v : σ), (P.region i).alike v v := fun i v => P.alike (P.same_refl v)
  obtain ⟨hres, hres', hlike, hlike'⟩ := Region.commute (hrefl p.call) (P.out_of_sight hap) (hrefl p'.call)
    (P.out_of_sight (P.apart_symm hap)) hp hp' hq hq'
  have hturn := (hp.run hp (hrefl _ _)).2.2
  have hturn' := (hq'.run hq' (hrefl _ _)).2.2
  have hother := (hq.run hq (hrefl _ _)).2.2
  have hother' := (hp'.run hp' (hrefl _ _)).2.2
  exact ⟨hres, hres', P.same_of_turns hap hturn hturn' hother hother' hlike hlike'⟩

/-- Of two parts apart from each other the second can come first. -/
theorem part_swap (hap : P.apart p.call p'.call) (hl : P.lawful p.call) (hl' : P.lawful p'.call) (hs : P.inv s)
    {rest' : Prog R ε α} (h : p.Runs exec prog s rest t) (h' : p'.Runs exec prog t rest' u) :
    ∃ a b, p'.Runs exec prog s rest' a ∧ p.Runs exec prog a rest b ∧ P.same u b := by
  have hrun : ((p.body prog).run exec s).2 = t := by rw [h.run]
  have hcommute := body_commute p p' hap hl hl' hs
  rw [hrun, h'.run, h.run] at hcommute
  obtain ⟨hres, hres', hsame⟩ := hcommute
  refine ⟨((p'.body prog).run exec s).2, ((p.body prog).run exec ((p'.body prog).run exec s).2).2,
    ⟨Prod.ext hres'.symm rfl, fun hf => ?_⟩, ⟨Prod.ext hres.symm rfl, fun hf => ?_⟩, hsame⟩
  · -- the part that comes first now finds its statement too
    obtain ⟨q, k, v, hv⟩ := h'.comes hf
    have hprobe := (body_commute p ⟨p'.call, p'.steps, none⟩ hap hl hl' hs).2.1
    rw [hrun, show (Part.body prog ⟨p'.call, p'.steps, none⟩).run exec t = (.ok (.stmt q k), v) from hv] at hprobe
    exact ⟨q, k, ((Part.body prog ⟨p'.call, p'.steps, none⟩).run exec s).2, Prod.ext hprobe.symm rfl⟩
  · obtain ⟨q, k, v, hv⟩ := h.comes hf
    have hprobe := (body_commute ⟨p.call, p.steps, none⟩ p' hap hl hl' hs).1
    rw [show (Part.body prog ⟨p.call, p.steps, none⟩).run exec s = (.ok (.stmt q k), v) from hv] at hprobe
    exact ⟨q, k, ((Part.body prog ⟨p.call, p.steps, none⟩).run exec ((p'.body prog).run exec s).2).2,
      Prod.ext hprobe.symm rfl⟩

/-- A part can move behind parts apart from it. -/
theorem serial_last (hl : P.lawful p.call) (hls : ∀ a ∈ ps, P.lawful a.call) (hap : ∀ a ∈ ps, P.apart p.call a.call)
    (hs : P.inv s) (h : p.Runs exec prog s rest t) (hps : Serial exec prog ps t rests u) :
    ∃ b z, Serial exec prog ps s rests b ∧ p.Runs exec prog b rest z ∧ P.same u z ∧ P.inv b := by
  induction ps generalizing s t rests u with
  | nil =>
    cases hps
    exact ⟨s, t, .nil s, h, P.same_refl t, hs⟩
  | cons p' ps ih =>
    cases hps with
    | @cons _ _ _ t₁ _ rest' rests' head tail =>
      have hl' := hls p' (by simp)
      have hls' : ∀ a ∈ ps, P.lawful a.call := fun a ha => hls a (by simp [ha])
      -- first `p'`, then `p`
      obtain ⟨a, a', hfirst, hthen, hsame⟩ := part_swap (hap p' (by simp)) hl hl' hs h head
      have hinv : P.inv a := inv_part hl' hs hfirst
      obtain ⟨u', htail', hsame'⟩ := tail.same hls' (inv_part hl' (inv_part hl hs h) head)
        (inv_part hl hinv hthen) hsame
      obtain ⟨b, z, hb, hz, hsame'', hgood⟩ := ih hls' (fun a ha => hap a (by simp [ha])) hinv hthen htail'
      exact ⟨b, z, .cons hfirst hb, hz, P.same_trans hsame' hsame'', hgood⟩

/-- A part can move before parts apart from it. -/
theorem serial_first (hl : P.lawful p.call) (hls : ∀ a ∈ ps, P.lawful a.call) (hap : ∀ a ∈ ps, P.apart p.call a.call)
    (hs : P.inv s) (hps : Serial exec prog ps s rests t) (h : p.Runs exec prog t rest u) :
    ∃ x y, p.Runs exec prog s rest x ∧ Serial exec prog ps x rests y ∧ P.same y u := by
  induction ps generalizing s rests with
  | nil =>
    cases hps
    exact ⟨u, u, h, .nil u, P.same_refl u⟩
  | cons p' ps ih =>
    cases hps with
    | @cons _ _ _ s₁ _ rest' rests' head tail =>
      have hl' := hls p' (by simp)
      have hls' : ∀ a ∈ ps, P.lawful a.call := fun a ha => hls a (by simp [ha])
      obtain ⟨z, y, hz, hy, hsame⟩ := ih hls' (fun a ha => hap a (by simp [ha])) (inv_part hl' hs head) tail
      obtain ⟨a, a', hfirst, hthen, hsame'⟩ := part_swap (P.apart_symm (hap p' (by simp))) hl' hl hs head hz
      have hinv' := inv_part hl' (inv_part hl hs hfirst) hthen
      obtain ⟨y', hy', hsame''⟩ := hy.same hls' (inv_part hl (inv_part hl' hs head) hz) hinv' hsame'
      exact ⟨a, y', hfirst, .cons hthen hy', P.same_trans (P.same_symm hsame'') hsame⟩

end Serial

/-! ## Pools -/

section Pools

variable {exec : (q : S) → σ → Except ε (R q × σ)} {prog : ι → Prog R ε α}

/-- A call starts when the calls in flight are apart from it. -/
def StartsApart (lawful : ι → Prop) (apart : ι → ι → Prop) (c : Pool ι R ε α σ) : Move ι ε → Prop
  | .start i => lawful i ∧ ∀ t ∈ c.threads, t.2.done = true ∨ apart t.1 i
  | _ => True

/-- Every call of the replay does. -/
def AllStartApart (lawful : ι → Prop) (apart : ι → ι → Prop) (exec : (q : S) → σ → Except ε (R q × σ))
    (prog : ι → Prog R ε α) : Pool ι R ε α σ → List (Move ι ε) → Prop
  | _, [] => True
  | c, m :: ms =>
    StartsApart lawful apart c m ∧ ∀ d, c.move exec prog m = some d → AllStartApart lawful apart exec prog d ms

instance decidableStartsApart {lawful : ι → Prop} {apart : ι → ι → Prop} [DecidablePred lawful] [DecidableRel apart]
    (c : Pool ι R ε α σ) : ∀ m : Move ι ε, Decidable (StartsApart lawful apart c m)
  | .start i => inferInstanceAs (Decidable (lawful i ∧ ∀ t ∈ c.threads, t.2.done = true ∨ apart t.1 i))
  | .stmt _ => .isTrue trivial
  | .fail _ _ => .isTrue trivial

instance decidableAllStartApart {lawful : ι → Prop} {apart : ι → ι → Prop} [DecidablePred lawful]
    [DecidableRel apart] : ∀ (ms : List (Move ι ε)) (c : Pool ι R ε α σ),
      Decidable (AllStartApart lawful apart exec prog c ms)
  | [], _ => .isTrue trivial
  | m :: ms, c =>
    match h : c.move exec prog m with
    | some d =>
      @decidable_of_iff _ (StartsApart lawful apart c m ∧ AllStartApart lawful apart exec prog d ms)
        ⟨fun ho => ⟨ho.1, fun e he => by cases h.symm.trans he; exact ho.2⟩, fun ho => ⟨ho.1, ho.2 d h⟩⟩
        (@instDecidableAnd _ _ _ (decidableAllStartApart ms d))
    | none =>
      decidable_of_iff (StartsApart lawful apart c m) ⟨fun ho => ⟨ho, fun e he => by cases h.symm.trans he⟩,
        fun ho => ho.1⟩

/-- The calls have done what the serial run of their parts does, and those in flight are apart from all later ones. -/
structure SerialInv (P : Parties exec prog) (s : σ) (c : Pool ι R ε α σ) (ps : List (Part ι ε)) (t : σ) : Prop where
  serial : Serial exec prog ps s c.threads t
  same : P.same c.store t
  lawful : ∀ p ∈ ps, P.lawful p.call
  flight : c.threads.Pairwise fun a b => a.2.done = true ∨ P.apart a.1 b.1

variable {P : Parties exec prog} {s t : σ} {c d : Pool ι R ε α σ} {ps : List (Part ι ε)} {m : Move ι ε}

/-- Replacing a thread keeps what holds of all pairs, if it does for the new one. -/
theorem pairwise_set {l₁ l₂ : List (ι × Prog R ε α)} {i : ι} {p p' : Prog R ε α} {apart : ι → ι → Prop}
    (h : (l₁ ++ (i, p) :: l₂).Pairwise fun a b => a.2.done = true ∨ apart a.1 b.1) (hp : p.done = false) :
    (l₁ ++ (i, p') :: l₂).Pairwise fun a b => a.2.done = true ∨ apart a.1 b.1 := by
  rw [List.pairwise_append, List.pairwise_cons] at h ⊢
  obtain ⟨h₁, ⟨hi, h₂⟩, hcross⟩ := h
  refine ⟨h₁, ⟨fun a ha => .inr ((hi a ha).resolve_left (by simp [hp])), h₂⟩, fun a ha b hb => ?_⟩
  rcases List.mem_cons.1 hb with rfl | hb
  · exact hcross a ha (i, p) (by simp)
  · exact hcross a ha b (by simp [hb])

/-- The part of a thread that has a next statement. -/
theorem SerialInv.thread (h : SerialInv P s c ps t) (hs : P.inv s) {n : ℕ} {i : ι} {q : S} {k : R q → Prog R ε α}
    (hn : c.threads[n]? = some (i, .stmt q k)) :
    ∃ pre steps post l₁ l₂ s₁ x, ps = pre ++ ⟨i, steps, none⟩ :: post ∧ c.threads = l₁ ++ (i, .stmt q k) :: l₂ ∧
      l₁.length = n ∧ pre.length = n ∧ Serial exec prog pre s l₁ s₁ ∧ P.inv s₁ ∧
        ((prog i).upTo (none : Option ε) steps).run exec s₁ = (.ok (.stmt q k), x) ∧ Serial exec prog post x l₂ t ∧
          (∀ a ∈ post, P.apart i a.call) := by
  obtain ⟨pre, ⟨call, steps, fault⟩, post, l₁, l₂, s₁, x, rfl, hl, hlen, hcall, hpre, hp, hpost⟩ := h.serial.split hn
  cases hcall
  obtain rfl : fault = none := Prog.fault_of_stmt hp.run
  have hinv := hpre.inv (fun p hp => h.lawful p (by simp [hp])) hs
  refine ⟨pre, steps, post, l₁, l₂, s₁, x, rfl, hl, hlen, hpre.length_eq.symm.trans hlen, hpre, hinv, hp.run, hpost,
    fun a ha => ?_⟩
  have hflight := h.flight
  rw [hl, List.pairwise_append, List.pairwise_cons] at hflight
  obtain ⟨b, hb, hab⟩ : ∃ b ∈ l₂, b.1 = a.call := hpost.call_mem ha
  rw [← hab]
  exact (hflight.2.1.1 b hb).resolve_left (by simp [Prog.done])

/-- **One move keeps the interleaving serial in effect.** -/
theorem move_serial (hs : P.inv s) (h : c.move exec prog m = some d) (hm : StartsApart P.lawful P.apart c m)
    (hc : SerialInv P s c ps t) : ∃ t', SerialInv P s d (partsAfter ps m) t' := by
  obtain ⟨i, rfl, rfl⟩ | ⟨n, i, q, k, r, u, rfl, hn, hq, rfl⟩ | ⟨n, i, q, k, e, rfl, hn, rfl⟩ := Pool.move_cases h
  · -- the new call has executed nothing
    refine ⟨t, ⟨?_, hc.same, ?_, ?_⟩⟩
    · exact hc.serial.append (.cons ⟨by simp [Part.body, Prog.upTo, Prog.halt], fun hf => (by cases hf)⟩ (.nil t))
    · intro p hp
      rcases List.mem_append.1 hp with hp | hp
      · exact hc.lawful p hp
      · rw [List.mem_singleton.1 hp]
        exact hm.1
    · refine List.pairwise_append.2 ⟨hc.flight, List.pairwise_singleton _ _, fun a ha b hb => ?_⟩
      rw [List.mem_singleton.1 hb]
      exact hm.2 a ha
  · obtain ⟨pre, steps, post, l₁, l₂, s₁, x, rfl, hl, hlen, hprelen, hpre, hinv, hp, hpost, hap⟩ := hc.thread hs hn
    have hli : P.lawful i := hc.lawful ⟨i, steps, none⟩ (by simp)
    have hlpost : ∀ a ∈ post, P.lawful a.call := fun a ha => hc.lawful a (by simp [ha])
    -- at the end of the serial run the call finds what it finds in the pool
    have hruns : Part.Runs exec prog ⟨i, steps, none⟩ s₁ (.stmt q k) x := ⟨hp, fun hf => (by cases hf)⟩
    obtain ⟨b, z, hb, ⟨hz, -⟩, hsame, hgood⟩ := serial_last hli hlpost hap hinv hruns hpost
    have hcz := P.same_trans hc.same hsame
    have hin : (P.region i).inside q z := (P.within hli hgood).next hz
    have hin' : (P.region i).inside q c.store := P.inside (P.same_symm hcz) hin
    obtain ⟨e, hq', -⟩ | ⟨r', u', v, hq', hv, hlike, htouch⟩ := (P.region i).step hin' hin (P.alike hcz)
    · rw [hq] at hq'
      cases hq'
    rw [hq] at hq'
    cases hq'
    obtain ⟨e, hz', -⟩ | ⟨_, _, _, hz', -, -, htouch'⟩ := (P.region i).step hin hin (P.alike (P.same_refl z))
    · rw [hv] at hz'
      cases hz'
    rw [hv] at hz'
    cases hz'
    have hsame' : P.same u v := P.same_after hcz htouch htouch' hlike
    have hnext : Part.Runs exec prog ⟨i, steps + 1, none⟩ b (k r) v := ⟨Prog.upTo_succ hz hv, fun hf => (by cases hf)⟩
    obtain ⟨x', y', hx', hy', hsame''⟩ := serial_first hli hlpost hap hinv hb hnext
    have hset : c.threads.set n (i, k r) = l₁ ++ (i, k r) :: l₂ := by
      rw [hl, ← hlen, List.set_append_right _ _ (Nat.le_refl _)]
      simp
    rw [partsAfter, modify_middle _ hprelen]
    refine ⟨y', ⟨?_, P.same_trans hsame' (P.same_symm hsame''), ?_, ?_⟩⟩
    · show Serial exec prog _ s (c.threads.set n (i, k r)) y'
      rw [hset]
      exact hpre.append (.cons hx' hy')
    · intro p hp
      rcases List.mem_append.1 hp with hp | hp
      · exact hc.lawful p (by simp [hp])
      · rcases List.mem_cons.1 hp with rfl | hp
        · exact hli
        · exact hlpost p hp
    · show (c.threads.set n (i, k r)).Pairwise _
      rw [hset]
      exact pairwise_set (hl ▸ hc.flight) rfl
  · obtain ⟨pre, steps, post, l₁, l₂, s₁, x, rfl, hl, hlen, hprelen, hpre, hinv, hp, hpost, hap⟩ := hc.thread hs hn
    have hset : c.threads.set n (i, .throw e) = l₁ ++ (i, .throw e) :: l₂ := by
      rw [hl, ← hlen, List.set_append_right _ _ (Nat.le_refl _)]
      simp
    rw [partsAfter, modify_middle _ hprelen]
    refine ⟨t, ⟨?_, hc.same, ?_, ?_⟩⟩
    · show Serial exec prog _ s (c.threads.set n (i, .throw e)) t
      rw [hset]
      exact hpre.append (.cons (p := ⟨i, steps, some e⟩) ⟨Prog.upTo_fail e hp, fun _ => ⟨q, k, x, hp⟩⟩ hpost)
    · intro p hp
      rcases List.mem_append.1 hp with hp | hp
      · exact hc.lawful p (by simp [hp])
      · rcases List.mem_cons.1 hp with rfl | hp
        · exact hc.lawful ⟨i, steps, none⟩ (by simp)
        · exact hc.lawful p (by simp [hp])
    · show (c.threads.set n (i, .throw e)).Pairwise _
      rw [hset]
      exact pairwise_set (hl ▸ hc.flight) rfl

/-- **Every interleaving of parties is serial in effect.** -/
theorem replay_serial (hs : P.inv s) {ms : List (Move ι ε)} (h : c.replay exec prog ms = some d)
    (hm : AllStartApart P.lawful P.apart exec prog c ms) (hc : SerialInv P s c ps t) :
    ∃ t', SerialInv P s d (ms.foldl partsAfter ps) t' := by
  induction ms generalizing c ps t with
  | nil =>
    cases h
    exact ⟨t, hc⟩
  | cons m ms ih =>
    obtain ⟨e, h₁, h₂⟩ := Pool.replay_cons.1 h
    obtain ⟨t₁, he⟩ := move_serial hs h₁ hm.1 hc
    exact ih h₂ (hm.2 e h₁) he

/-- The calls of a pool have done what the serial run of their parts does. -/
theorem serial_of_replay (hs : P.inv s) {ms : List (Move ι ε)} {c : Pool ι R ε α σ}
    (hc : (Pool.init s).replay exec prog ms = some c)
    (hms : AllStartApart P.lawful P.apart exec prog (Pool.init s) ms) : ∃ t, SerialInv P s c (partsOf ms) t := by
  have hinit : SerialInv P s (Pool.init s : Pool ι R ε α σ) [] s :=
    ⟨.nil s, P.same_refl s, fun _ hp => (by cases hp), .nil⟩
  exact replay_serial hs hc hms hinit

end Pools

/-! ## Calls in turn -/

/-- A call that runs alone, to its end or until one of its statements fails. -/
structure Turn (ι ε : Type) where
  call : ι
  failure : Option (ℕ × ε)

def Part.turn (p : Part ι ε) : Turn ι ε := ⟨p.call, p.fault.map fun e => (p.steps, e)⟩

/-- The calls of a run in the order in which they started, each failing where a move let it fail: after as many
statements as it had executed by then. -/
def turnsOf (ms : List (Move ι ε)) : List (Turn ι ε) := (partsOf ms).map Part.turn

/-- The move executes a statement of the `k`-th call. -/
def Move.isStmt (k : ℕ) : Move ι ε → Bool
  | .stmt n => n == k
  | _ => false

/-- The parts say which moves there have been, and a call that has failed is over. -/
structure Told (past : List (Move ι ε)) (threads : List (ι × Prog R ε α)) (ps : List (Part ι ε)) : Prop where
  length : threads.length = ps.length
  later : ∀ k, ps.length ≤ k → past.countP (Move.isStmt k) = 0 ∧ ∀ e, Move.fail k e ∉ past
  parts : ∀ k p, ps[k]? = some p →
    past.countP (Move.isStmt k) = p.steps ∧ ∀ e, p.fault = some e ↔ Move.fail k e ∈ past
  halted : ∀ k a e, threads[k]? = some a → Move.fail k e ∈ past → a.2.done = true

section Told

variable {exec : (q : S) → σ → Except ε (R q × σ)} {prog : ι → Prog R ε α} {c d : Pool ι R ε α σ} {m : Move ι ε}
  {past ms : List (Move ι ε)} {ps : List (Part ι ε)} {s : σ}

/-- A call that has a next statement has not failed. -/
theorem Told.not_failed (hc : Told past c.threads ps) {n : ℕ} {i : ι} {q : S} {k : R q → Prog R ε α}
    (hn : c.threads[n]? = some (i, .stmt q k)) (e : ε) : Move.fail n e ∉ past := by
  intro he
  have hdone := hc.halted n _ e hn he
  simp [Prog.done] at hdone

theorem told_move (h : c.move exec prog m = some d) (hc : Told past c.threads ps) :
    Told (past ++ [m]) d.threads (partsAfter ps m) := by
  have hlength := hc.length
  obtain ⟨i, rfl, rfl⟩ | ⟨n, i, q, k, r, u, rfl, hn, -, rfl⟩ | ⟨n, i, q, k, e, rfl, hn, rfl⟩ := Pool.move_cases h
  · -- no move has named the new call
    constructor
    · simp [partsAfter, hlength]
    · intro j hj
      have hlater := hc.later j (by simp [partsAfter] at hj; omega)
      simp [hlater, Move.isStmt]
    · intro j p hp
      have hparts := hc.parts j p
      have hlater := hc.later j
      simp [Move.isStmt]
      grind [partsAfter]
    · intro j a e ha he
      have hhalted := hc.halted j a e
      have hlater := hc.later j
      simp at he
      grind
  · have hn' : n < c.threads.length := (List.getElem?_eq_some_iff.1 hn).1
    have hnever := hc.not_failed hn
    constructor
    · simp [partsAfter, hlength]
    · intro j hj
      simp [partsAfter] at hj
      have hlater := hc.later j hj
      simp [hlater, Move.isStmt]
      omega
    · intro j p hp
      have hparts := hc.parts j
      simp [Move.isStmt]
      grind [partsAfter]
    · intro j a e ha he
      have hhalted := hc.halted j a e
      simp at he
      grind
  · have hn' : n < c.threads.length := (List.getElem?_eq_some_iff.1 hn).1
    have hnever := hc.not_failed hn
    constructor
    · simp [partsAfter, hlength]
    · intro j hj
      simp [partsAfter] at hj
      have hlater := hc.later j hj
      simp [hlater, Move.isStmt]
      omega
    · intro j p hp
      have hparts := hc.parts j
      simp [Move.isStmt]
      grind [partsAfter]
    · intro j a e' ha he
      have hhalted := hc.halted j a e'
      simp at he
      grind [Prog.done]

theorem told_replay (h : c.replay exec prog ms = some d) (hc : Told past c.threads ps) :
    Told (past ++ ms) d.threads (ms.foldl partsAfter ps) := by
  induction ms generalizing past c ps with
  | nil =>
    cases h
    simpa using hc
  | cons m ms ih =>
    obtain ⟨e, h₁, h₂⟩ := Pool.replay_cons.1 h
    have htold := ih h₂ (told_move h₁ hc)
    simpa using htold

theorem told_of_replay (h : (Pool.init s : Pool ι R ε α σ).replay exec prog ms = some c) :
    Told ms c.threads (partsOf ms) := by
  have hinit : Told [] (Pool.init s : Pool ι R ε α σ).threads ([] : List (Part ι ε)) := by
    constructor <;> simp [Pool.init]
  exact told_replay h hinit

/-- Moves in which no statement fails leave parts without failures. -/
theorem faultless_of_replay (h : (Pool.init s : Pool ι R ε α σ).replay exec prog ms = some c)
    (hok : ∀ m ∈ ms, m.ok = true) : ∀ p ∈ partsOf ms, p.fault = none := by
  intro p hp
  obtain ⟨k, hk⟩ := List.mem_iff_getElem?.1 hp
  refine Option.eq_none_iff_forall_ne_some.2 fun e he => ?_
  have hfail := hok _ (((told_of_replay h).parts k p hk).2 e |>.1 he)
  cases hfail

/-- **A turn fails if and only if a move let its call fail**, after as many statements as the call had executed. -/
theorem turnsOf_failure {turn : Turn ι ε} {k n : ℕ} {e : ε}
    (h : (Pool.init s : Pool ι R ε α σ).replay exec prog ms = some c) (hk : (turnsOf ms)[k]? = some turn) :
    turn.failure = some (n, e) ↔ Move.fail k e ∈ ms ∧ ms.countP (Move.isStmt k) = n := by
  rw [turnsOf, List.getElem?_map] at hk
  obtain ⟨p, hp, rfl⟩ := Option.map_eq_some_iff.1 hk
  obtain ⟨hsteps, hfault⟩ := (told_of_replay h).parts k p hp
  rw [hsteps, ← hfault, Part.turn]
  simp [and_comm]

end Told

section Turns

variable (exec : (q : S) → σ → Except ε (R q × σ)) (prog : ι → Prog R ε α)

/-- What the call answers, and the store it leaves; `none` when it does not come to the statement that fails. -/
def Turn.run (turn : Turn ι ε) (s : σ) : Option (Except ε α × σ) :=
  match turn.failure with
  | none => some ((prog turn.call).run exec s)
  | some (n, e) => ((prog turn.call).crash exec s n).map fun t => (.error e, t)

/-- The calls one after another. -/
def runTurns : List (Turn ι ε) → σ → Option (List (Except ε α) × σ)
  | [], s => some ([], s)
  | turn :: turns, s => do
    let (answer, t) ← turn.run exec prog s
    let (answers, u) ← runTurns turns t
    return (answer :: answers, u)

variable {exec prog} {ps : List (Part ι ε)} {s t : σ} {rests : List (ι × Prog R ε α)}

/-- The parts of calls that are done are turns. -/
theorem Serial.turns (h : Serial exec prog ps s rests t) (hdone : ∀ a ∈ rests, a.2.done = true) :
    ∃ answers, runTurns exec prog (ps.map Part.turn) s = some (answers, t) ∧
      answers.map some = rests.map fun a => a.2.result := by
  induction h with
  | nil s => exact ⟨[], rfl, rfl⟩
  | @cons p ps s t u rest rests head tail ih =>
    obtain ⟨answers, hrun, hanswers⟩ := ih fun a ha => hdone a (by simp [ha])
    obtain ⟨call, steps, fault⟩ := p
    cases fault with
    | none =>
      have hresult := Prog.result_of_upTo head.run (hdone (call, rest) (by simp))
      have hstore := (Prog.completes_of_upTo head.run (hdone (call, rest) (by simp))).2
      refine ⟨((prog call).run exec s).1 :: answers, ?_, ?_⟩
      · simp [runTurns, Turn.run, Part.turn, hstore, hrun]
      · simp [hanswers, hresult]
    | some e =>
      obtain ⟨q, k, v, hv⟩ := head.comes rfl
      have hfail : (Except.ok rest, t) = (.ok (.throw e), v) := head.run.symm.trans (Prog.upTo_fail e hv)
      cases hfail
      refine ⟨.error e :: answers, ?_, ?_⟩
      · simp [runTurns, Turn.run, Part.turn, Prog.crash_of_upTo hv, hrun]
      · simp [hanswers, Prog.result]

theorem Serial.calls (h : Serial exec prog ps s rests t) :
    (ps.map Part.turn).map Turn.call = rests.map Prod.fst := by
  induction h with
  | nil s => rfl
  | cons _ _ ih => simp [Part.turn, ih]

/-- **With no call in flight, the calls have answered as in the order in which they started**, each failing where it has
failed. -/
theorem turns_of_idle {P : Parties exec prog} (hs : P.inv s) {ms : List (Move ι ε)} {c : Pool ι R ε α σ}
    (hc : (Pool.init s).replay exec prog ms = some c)
    (hms : AllStartApart P.lawful P.apart exec prog (Pool.init s) ms) (hidle : c.Idle) :
    (turnsOf ms).map Turn.call = c.threads.map Prod.fst ∧
      ∃ answers t, runTurns exec prog (turnsOf ms) s = some (answers, t) ∧
        answers.map some = c.threads.map (fun a => a.2.result) ∧ P.same c.store t := by
  obtain ⟨t, hserial⟩ := serial_of_replay hs hc hms
  obtain ⟨answers, hrun, hanswers⟩ := hserial.serial.turns hidle
  exact ⟨hserial.serial.calls, answers, t, hrun, hanswers, hserial.same⟩

/-- What every call keeps that runs alone to its end, the parts of such calls keep. -/
theorem Serial.keeps {J : σ → Prop} (h : Serial exec prog ps s rests t)
    (hJ : ∀ i s, J s → (prog i).Completes exec s → J ((prog i).run exec s).2)
    (hdone : ∀ a ∈ rests, a.2.done = true) (hfault : ∀ p ∈ ps, p.fault = none) (hs : J s) : J t := by
  induction h with
  | nil s => exact hs
  | @cons p ps s t u rest rests head tail ih =>
    have hrun := head.run
    unfold Part.body at hrun
    rw [hfault p (by simp)] at hrun
    obtain ⟨hcomplete, rfl⟩ := Prog.completes_of_upTo hrun (hdone (p.call, rest) (by simp))
    exact ih (fun a ha => hdone a (by simp [ha])) (fun p hp => hfault p (by simp [hp])) (hJ p.call s hs hcomplete)

/-- **An invariant of calls that run alone holds of parties whenever no call is in flight**, if same stores share it. -/
theorem idle_keeps {P : Parties exec prog} {J : σ → Prop} (hsame : ∀ s t, P.same s t → J t → J s)
    (hJ : ∀ i s, J s → (prog i).Completes exec s → J ((prog i).run exec s).2) (hs : P.inv s) (hinit : J s)
    {ms : List (Move ι ε)} {c : Pool ι R ε α σ} (hc : (Pool.init s).replay exec prog ms = some c)
    (hms : AllStartApart P.lawful P.apart exec prog (Pool.init s) ms) (hok : ∀ m ∈ ms, m.ok = true)
    (hidle : c.Idle) : J c.store := by
  obtain ⟨t, hd⟩ := serial_of_replay hs hc hms
  exact hsame _ _ hd.same (hd.serial.keeps hJ hidle (faultless_of_replay hc hok) hinit)

end Turns

end Smink.Store
