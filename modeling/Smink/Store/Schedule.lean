import Smink.Store.Pool

/-!
# What a call has executed since

A condition on a schedule is a condition on the order of the statements in a log. `sinceFirst first log` is the log from
its first entry of a kind on, `beforeFirst first log` the rest. Once there is such an entry the log only grows at its
end, so what comes before stays as it is. `safe_read` is the rule for a check that leaves its entry in the log.
-/

namespace Smink.Store

variable {ι S : Type} {R : S → Type} {ε α σ G : Type}

/-- The log up to its first entry of the kind. -/
def beforeFirst (first : ι × S → Bool) (log : List (ι × S)) : List (ι × S) := log.takeWhile fun e => !first e

/-- The log from its first entry of the kind on. -/
def sinceFirst (first : ι × S → Bool) (log : List (ι × S)) : List (ι × S) := log.dropWhile fun e => !first e

section Lists

variable {first : ι × S → Bool} {log : List (ι × S)}

theorem beforeFirst_append_sinceFirst (first : ι × S → Bool) (log : List (ι × S)) :
    beforeFirst first log ++ sinceFirst first log = log := List.takeWhile_append_dropWhile

/-- What comes before the first entry stays as it is. -/
theorem beforeFirst_append (h : ∃ e ∈ log, first e = true) (post : List (ι × S)) :
    beforeFirst first (log ++ post) = beforeFirst first log := by
  obtain ⟨e, he, hf⟩ := h
  unfold beforeFirst
  induction log with
  | nil => cases he
  | cons a log ih =>
    rw [List.cons_append, List.takeWhile_cons, List.takeWhile_cons]
    split
    · rename_i ha
      rcases List.mem_cons.1 he with rfl | he
      · simp [hf] at ha
      · rw [ih he]
    · rfl

theorem sinceFirst_append (h : ∃ e ∈ log, first e = true) (post : List (ι × S)) :
    sinceFirst first (log ++ post) = sinceFirst first log ++ post := by
  have hboth := beforeFirst_append_sinceFirst first (log ++ post)
  rw [beforeFirst_append h] at hboth
  have hlog := beforeFirst_append_sinceFirst first log
  have hsplit : beforeFirst first log ++ (sinceFirst first log ++ post) = log ++ post := by
    rw [← List.append_assoc, hlog]
  exact List.append_cancel_left (hboth.trans hsplit.symm)

theorem countP_after (f : ι × S → Bool) (v : World ι S σ) (i : ι) (q : S) (s : σ) :
    (v.after i q s).log.countP f = v.log.countP f + if f (i, q) then 1 else 0 := by
  simp [World.after]

end Lists

section Reads

variable [AddCommMonoid G] {D : Discipline ι S σ G} {exec : (q : S) → σ → Except ε (R q × σ)} {i : ι} {P : S → Bool}

/-- A check of one statement of the kind `P`: what it returns, it returns of the store it read, and its statement is the
last one of the log. -/
theorem safe_read (he : ReadOnly P exec) (hD : ReadFree D P) {p : Prog R ε α} {w : World ι S σ}
    {Q : α → World ι S σ → G → Prop} (hp : OneRead P p)
    (hQ : ∀ (v : World ι S σ) q a f, P q = true → D.rely w (v.after i q v.store) → D.inv (v.after i q v.store) f →
      p.run exec v.store = (.ok a, v.store) → Q a (v.after i q v.store) 0) :
    Safe D exec i p w 0 Q := by
  obtain ⟨q, k, rfl, hq, hk⟩ := hp
  intro v hv frame hi _ r s hr
  obtain ⟨hrely, hinv⟩ := hD v i q _ hq hi
  obtain rfl := he.store_eq hq hr
  have hrun := Prog.run_stmt (k := k) hr
  refine ⟨hrely, 0, hinv, ?_⟩
  obtain ⟨a, ha⟩ | ⟨e, he⟩ := Prog.done_cases (hk r)
  · rw [ha] at hrun ⊢
    exact hQ v q a _ hq (D.rely_trans hv hrely) hinv hrun
  · rw [he]
    exact rfl

end Reads

end Smink.Store
