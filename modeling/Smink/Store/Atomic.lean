import Smink.Store.Prog

/-!
# All or nothing

A program is all-or-nothing from a store when a throw of any of its statements leaves a store that is the same as the
first one, or the same as the one it would have ended with. Which differences count is a parameter, the equivalence
`Same`.

A check in front of the rest of a program makes no difference (`allOrNothing_read`), nor does a write that changes
nothing (`allOrNothing_same`); a change that is not the last one breaks the property (`not_allOrNothing`).
-/

namespace Smink.Store

variable {S : Type} {R : S → Type} {ε α β σ : Type} {exec : (q : S) → σ → Except ε (R q × σ)} {Same : σ → σ → Prop}

/-- Whichever statement throws, the store is left the same as at the start, or the same as after a run in which no
statement throws. -/
def AllOrNothing (Same : σ → σ → Prop) (exec : (q : S) → σ → Except ε (R q × σ)) (p : Prog R ε α) (s : σ) : Prop :=
  ∀ n t, p.crash exec s n = some t → Same s t ∨ (p.Completes exec s ∧ Same t (p.run exec s).2)

theorem allOrNothing_iff {p : Prog R ε α} {s : σ} : AllOrNothing Same exec p s ↔
    ∀ t ∈ p.path exec s, Same s t ∨ (p.Completes exec s ∧ Same t (p.run exec s).2) := by
  constructor
  · intro h t ht
    obtain ⟨n, hn⟩ := List.mem_iff_getElem?.1 ht
    exact h n t hn
  · intro h n t hn
    exact h t (List.mem_of_getElem? hn)

theorem allOrNothing_of_done {p : Prog R ε α} {s : σ} (h : p.done = true) : AllOrNothing Same exec p s := by
  obtain ⟨a, rfl⟩ | ⟨e, rfl⟩ := Prog.done_cases h
  · intro n t hn
    cases hn
  · intro n t hn
    cases hn

section Stmt

variable {q : S} {k : R q → Prog R ε α} {s s' : σ} {r : R q}

theorem path_stmt (h : exec q s = .ok (r, s')) :
    (Prog.stmt q k).path exec s = s :: (k r).path exec s' := by
  simp only [Prog.path, h]

theorem completes_stmt (h : exec q s = .ok (r, s')) :
    (Prog.stmt q k).Completes exec s ↔ (k r).Completes exec s' := by
  constructor
  · rintro ⟨r₁, s₁, h₁, hk⟩
    rw [h] at h₁
    cases h₁
    exact hk
  · exact fun hk => ⟨r, s', h, hk⟩

variable (hs : Equivalence Same)
include hs

/-- A statement that changes nothing makes no difference. -/
theorem allOrNothing_same (h : exec q s = .ok (r, s')) (heq : Same s s') :
    AllOrNothing Same exec (.stmt q k) s ↔ AllOrNothing Same exec (k r) s' := by
  rw [allOrNothing_iff, allOrNothing_iff, path_stmt h, completes_stmt h, Prog.run_stmt h]
  constructor
  · intro ha t ht
    rcases ha t (List.mem_cons_of_mem _ ht) with hst | hst
    · exact .inl (hs.trans (hs.symm heq) hst)
    · exact .inr hst
  · intro ha t ht
    rcases List.mem_cons.1 ht with rfl | ht
    · exact .inl (hs.refl _)
    · rcases ha t ht with hst | hst
      · exact .inl (hs.trans heq hst)
      · exact .inr hst

/-- The last statement may change what it likes. -/
theorem allOrNothing_last (hk : ∀ r, (k r).done = true) : AllOrNothing Same exec (.stmt q k) s := by
  rw [allOrNothing_iff]
  intro t ht
  cases hq : exec q s with
  | error e =>
    simp only [Prog.path, hq, List.mem_singleton] at ht
    rw [ht]
    exact .inl (hs.refl _)
  | ok rs =>
    obtain ⟨r, s'⟩ := rs
    rw [path_stmt hq] at ht
    rcases List.mem_cons.1 ht with rfl | ht
    · exact .inl (hs.refl _)
    · obtain ⟨a, ha⟩ | ⟨e, he⟩ := Prog.done_cases (hk r)
      · rw [ha] at ht
        cases ht
      · rw [he] at ht
        cases ht

omit hs in
/-- A change that another change follows is a state of its own. -/
theorem not_allOrNothing (h : exec q s = .ok (r, s')) (hne : ¬ Same s s') (hk : (k r).done = false)
    (hpost : Prog.Post exec (k r) s' fun _ t => ¬ Same s' t) : ¬ AllOrNothing Same exec (.stmt q k) s := by
  rw [allOrNothing_iff, path_stmt h, completes_stmt h, Prog.run_stmt h]
  intro ha
  have hmem : s' ∈ (k r).path exec s' := by
    cases hp : k r with
    | ret a => rw [hp] at hk; cases hk
    | throw e => rw [hp] at hk; cases hk
    | stmt q' k' =>
      unfold Prog.path
      exact List.mem_cons_self
  rcases ha s' (List.mem_cons_of_mem _ hmem) with hst | ⟨hc, hst⟩
  · exact hne hst
  · exact hpost.run hc hst

/-- Every statement of the run answers, and none of them changes anything. -/
def Keeps (Same : σ → σ → Prop) (exec : (q : S) → σ → Except ε (R q × σ)) : Prog R ε α → σ → Prop
  | .ret _, _ => True
  | .throw _, _ => True
  | .stmt q k, s => ∃ r s', exec q s = .ok (r, s') ∧ Same s s' ∧ Keeps Same exec (k r) s'

/-- A run that changes nothing goes through, and passes through the same store only. -/
theorem Keeps.run {p : Prog R ε α} {s : σ} (hp : Keeps Same exec p s) :
    p.Completes exec s ∧ Same s (p.run exec s).2 ∧ ∀ t ∈ p.path exec s, Same s t := by
  induction p generalizing s with
  | ret a => exact ⟨trivial, hs.refl s, fun t ht => by cases ht⟩
  | throw e => exact ⟨trivial, hs.refl s, fun t ht => by cases ht⟩
  | stmt q k ih =>
    obtain ⟨r, s', hr, heq, hk⟩ := hp
    obtain ⟨hc, hrun, hpath⟩ := ih r hk
    refine ⟨⟨r, s', hr, hc⟩, ?_, fun t ht => ?_⟩
    · rw [Prog.run_stmt hr]
      exact hs.trans heq hrun
    · rw [path_stmt hr] at ht
      rcases List.mem_cons.1 ht with rfl | ht
      · exact hs.refl _
      · exact hs.trans heq (hpath t ht)

/-- The first statement may change what it likes, if nothing changes after it. -/
theorem allOrNothing_first (h : exec q s = .ok (r, s')) (hk : Keeps Same exec (k r) s') :
    AllOrNothing Same exec (.stmt q k) s := by
  rw [allOrNothing_iff, path_stmt h, completes_stmt h, Prog.run_stmt h]
  obtain ⟨hc, hrun, hpath⟩ := hk.run hs
  intro t ht
  rcases List.mem_cons.1 ht with rfl | ht
  · exact .inl (hs.refl _)
  · exact .inr ⟨hc, hs.trans (hs.symm (hpath t ht)) hrun⟩

omit hs in
theorem keeps_bind {p : Prog R ε α} {f : α → Prog R ε β} {s : σ} (hp : Keeps Same exec p s)
    (hf : ∀ a t, Keeps Same exec (f a) t) : Keeps Same exec (p >>= f) s := by
  induction p generalizing s with
  | ret a => exact hf a s
  | throw e => trivial
  | stmt q k ih =>
    obtain ⟨r, s', hr, heq, hk⟩ := hp
    exact ⟨r, s', hr, heq, ih r hk⟩

/-- A part that changes nothing makes no difference to the rest of a program. -/
theorem allOrNothing_bind {p : Prog R ε α} {f : α → Prog R ε β} {s : σ} (hp : Keeps Same exec p s) :
    AllOrNothing Same exec (p >>= f) s ↔
      ∀ a t, p.run exec s = (.ok a, t) → AllOrNothing Same exec (f a) t := by
  induction p generalizing s with
  | ret a =>
    constructor
    · intro h b t hb
      cases hb
      exact h
    · exact fun h => h a s rfl
  | throw e =>
    constructor
    · intro _ b t hb
      cases hb
    · exact fun _ => allOrNothing_of_done rfl
  | stmt q k ih =>
    obtain ⟨r, s', hr, heq, hk⟩ := hp
    rw [Prog.stmt_bind, allOrNothing_same hs hr heq, ih r hk, Prog.run_stmt hr]

theorem Reads.keeps {P : S → Bool} (he : ReadOnly P exec) {p : Prog R ε α} {s : σ} (hp : Reads P p) :
    Keeps Same exec p s := by
  induction p with
  | ret a => trivial
  | throw e => trivial
  | stmt q k ih =>
    obtain ⟨r, hr⟩ := he q hp.1 s
    exact ⟨r, s, hr, hs.refl s, ih r (hp.2 r)⟩

/-- A check in front of a program makes no difference. -/
theorem allOrNothing_read {P : S → Bool} (he : ReadOnly P exec) {p : Prog R ε α} {f : α → Prog R ε β}
    (hp : Reads P p) : AllOrNothing Same exec (p >>= f) s ↔
      ∀ a, p.run exec s = (.ok a, s) → AllOrNothing Same exec (f a) s := by
  rw [allOrNothing_bind hs (hp.keeps hs he)]
  constructor
  · exact fun h a ha => h a s ha
  · intro h a t ha
    obtain rfl := hp.run_store he ha
    exact h a ha

end Stmt

/-! ## What a program makes of its result -/

section Map

variable {f : α → β} {s : σ}

theorem path_map (p : Prog R ε α) : (p >>= fun a => Prog.ret (f a)).path exec s = p.path exec s := by
  induction p generalizing s with
  | ret a => rfl
  | throw e => rfl
  | stmt q k ih =>
    rw [Prog.stmt_bind]
    cases hq : exec q s with
    | error e => simp only [Prog.path, hq]
    | ok rs =>
      obtain ⟨r, s'⟩ := rs
      rw [path_stmt hq, path_stmt hq, ih r]

theorem completes_map (p : Prog R ε α) :
    (p >>= fun a => Prog.ret (f a)).Completes exec s ↔ p.Completes exec s := by
  induction p generalizing s with
  | ret a => exact Iff.rfl
  | throw e => exact Iff.rfl
  | stmt q k ih => exact exists_congr fun r => exists_congr fun s' => and_congr_right fun _ => ih r

theorem allOrNothing_map (p : Prog R ε α) :
    AllOrNothing Same exec (p >>= fun a => Prog.ret (f a)) s ↔ AllOrNothing Same exec p s := by
  rw [allOrNothing_iff, allOrNothing_iff, path_map, completes_map, Prog.run_map]

end Map

end Smink.Store
