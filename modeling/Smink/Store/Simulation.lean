import Smink.Store.Serial
import Mathlib.Algebra.BigOperators.Group.List.Basic

/-!
# Calls as acts of a machine

A machine has states and acts, and `step` says which act leads from which state to which. What one act adds to a number
of the state, the acts of a trace add up to (`Trace.sum_eq`).

`idle_simulated`: when each call that runs alone is one act of the machine, in terms of the state that is read off the
store, then parties whose calls have all ended have done the acts of a trace, one each, in the order in which they
started.
-/

namespace Smink.Store

/-! ## Traces -/

section Trace

variable {τ A M : Type} {step : τ → A → τ → Prop} {s t : τ} {acts : List A}

/-- The acts lead from one state to another. -/
inductive Trace (step : τ → A → τ → Prop) : τ → List A → τ → Prop
  | nil (s : τ) : Trace step s [] s
  | cons {s t u : τ} {a : A} {acts : List A} (head : step s a t) (tail : Trace step t acts u) :
      Trace step s (a :: acts) u

theorem Trace.append {u : τ} {more : List A} (h : Trace step s acts t) (h' : Trace step t more u) :
    Trace step s (acts ++ more) u := by
  induction h with
  | nil s => exact h'
  | cons head _ ih => exact .cons head (ih h')

theorem Trace.split {more : List A} (h : Trace step s (acts ++ more) t) :
    ∃ u, Trace step s acts u ∧ Trace step u more t := by
  induction acts generalizing s with
  | nil => exact ⟨s, .nil s, h⟩
  | cons a acts ih =>
    obtain _ | ⟨head, tail⟩ := h
    obtain ⟨u, hu, hmore⟩ := ih tail
    exact ⟨u, .cons head hu, hmore⟩

/-- What is kept of a state and the acts that led to it. -/
theorem Trace.keeps {J : List A → τ → Prop} (past : List A) (h : Trace step s acts t)
    (hstep : ∀ past, ∀ a ∈ acts, ∀ s t, step s a t → J past s → J (past ++ [a]) t) (hJ : J past s) :
    J (past ++ acts) t := by
  induction h generalizing past with
  | nil s => rwa [List.append_nil]
  | @cons s t u a acts head _ ih =>
    have hrest := ih (past ++ [a]) (fun past b hb => hstep past b (List.mem_cons_of_mem _ hb))
      (hstep past a List.mem_cons_self s t head hJ)
    rwa [List.append_assoc, List.singleton_append] at hrest

/-- What each act adds to a number, the acts of a trace add up to. -/
theorem Trace.sum_eq [AddCommMonoid M] {f : τ → M} {g : A → M} (h : Trace step s acts t)
    (hg : ∀ s a t, step s a t → f t = f s + g a) : f t = f s + (acts.map g).sum := by
  induction h with
  | nil s => simp
  | cons head _ ih => rw [ih, hg _ _ _ head, List.map_cons, List.sum_cons, add_assoc]

end Trace

/-! ## Parties that simulate a machine -/

section Simulation

variable {ι S : Type} {R : S → Type} {ε α σ τ A : Type} {exec : (q : S) → σ → Except ε (R q × σ)}
  {prog : ι → Prog R ε α} {P : Parties exec prog} {J : σ → Prop} {view : σ → τ} {does : ι → A → Prop}
  {step : τ → A → τ → Prop} {s t : σ}

/-- The calls that ran one after another to their ends have done an act each. -/
theorem Serial.simulated {ps : List (Part ι ε)} {rests : List (ι × Prog R ε α)}
    (h : Serial exec prog ps s rests t)
    (hstep : ∀ i s, P.lawful i → P.inv s → J s → (prog i).Completes exec s →
      J ((prog i).run exec s).2 ∧ ∃ a, does i a ∧ step (view s) a (view ((prog i).run exec s).2))
    (hlawful : ∀ p ∈ ps, P.lawful p.call) (hdone : ∀ a ∈ rests, a.2.done = true) (hfault : ∀ p ∈ ps, p.fault = none)
    (hinv : P.inv s) (hs : J s) :
    J t ∧ ∃ acts, List.Forall₂ does (rests.map Prod.fst) acts ∧ Trace step (view s) acts (view t) := by
  induction h with
  | nil s => exact ⟨hs, [], .nil, .nil _⟩
  | @cons p ps s t u rest rests head tail ih =>
    have hl := hlawful p (by simp)
    have hinv' := inv_part hl hinv head
    have hrun := head.run
    unfold Part.body at hrun
    rw [hfault p (by simp)] at hrun
    obtain ⟨hcomplete, rfl⟩ := Prog.completes_of_upTo hrun (hdone (p.call, rest) (by simp))
    obtain ⟨ht, a, hdoes, hact⟩ := hstep p.call s hl hinv hs hcomplete
    obtain ⟨hu, acts, hacts, htrace⟩ := ih (fun p hp => hlawful p (by simp [hp])) (fun a ha => hdone a (by simp [ha]))
      (fun p hp => hfault p (by simp [hp])) hinv' ht
    exact ⟨hu, a :: acts, .cons hdoes hacts, .cons hact htrace⟩

/-- **Parties simulate what each of their calls simulates alone**, once no call is in flight. -/
theorem idle_simulated (hsame : ∀ s t, P.same s t → view s = view t)
    (hstep : ∀ i s, P.lawful i → P.inv s → J s → (prog i).Completes exec s →
      J ((prog i).run exec s).2 ∧ ∃ a, does i a ∧ step (view s) a (view ((prog i).run exec s).2))
    (hs : P.inv s) (hinit : J s) {ms : List (Move ι ε)} {c : Pool ι R ε α σ}
    (hc : (Pool.init s).replay exec prog ms = some c)
    (hms : AllStartApart P.lawful P.apart exec prog (Pool.init s) ms) (hok : ∀ m ∈ ms, m.ok = true)
    (hidle : c.Idle) :
    ∃ acts, List.Forall₂ does (c.threads.map Prod.fst) acts ∧ Trace step (view s) acts (view c.store) := by
  obtain ⟨t, hd⟩ := serial_of_replay hs hc hms
  obtain ⟨-, acts, hacts, htrace⟩ := hd.serial.simulated hstep hd.lawful hidle (faultless_of_replay hc hok) hs hinit
  rw [hsame _ _ hd.same]
  exact ⟨acts, hacts, htrace⟩

end Simulation

end Smink.Store
