import Smink.Chance.Counts
import Smink.Engine.Expected
import Smink.Engine.Shuffle
import Mathlib.Tactic.IntervalCases

/-!
# The expected multiplier of Plinko and Keno

The two instant games that read many cursors. A Plinko drop reads one cursor a row, so its bucket counts fair coins
(`expected_bucket`). A Keno draw is the front of a shuffle: the shuffle's first forty steps each move one of the numbers
in front out of it, so the hits are counted by drawing without replacement (`expected_hits`). A step picks its index
with equal odds only up to the resolution of a float, and the bound pays for that with a factor at each step.
-/

namespace Smink

open scoped BigOperators

/-! ## Plinko -/

section Plinko

variable {n : ℕ}

/-- A fair coin. -/
theorem expect_coin (a b : ℚ) : 𝔼 k : Draw, (if k.toRat < 1 / 2 then a else b) = (a + b) / 2 := by
  have hhalf : 𝔼 k : Draw, (if k.toRat < 1 / 2 then (1 : ℚ) else 0) = 1 / 2 := by
    refine (Chance.expect_lt (N := FLOAT_COUNT) (y := 1 / 2) (by norm_num)).trans ?_
    have hceil : (1 / 2 : ℚ) * FLOAT_COUNT = ((2 ^ 51 : ℕ) : ℚ) := by norm_num [FLOAT_COUNT]
    rw [hceil, Nat.ceil_natCast]
    norm_num [FLOAT_COUNT]
  have hsplit : ∀ k : Draw, (if k.toRat < 1 / 2 then a else b) = b + (a - b) * if k.toRat < 1 / 2 then 1 else 0 := by
    intro k
    split_ifs <;> ring
  simp only [hsplit]
  rw [Finset.expect_add_distrib, Fintype.expect_const, ← Finset.mul_expect, hhalf]
  ring

theorem sum_plinkoPath_succ (r : ℕ) (u : Stream) :
    (plinkoPath (r + 1) u).sum = (plinkoPath r u).sum + if u r < 1 / 2 then 0 else 1 := by
  simp [plinkoPath, List.range_succ]

theorem plinkoPath_congr {r : ℕ} {u v : Stream} (h : ∀ c < r, u c = v c) : plinkoPath r u = plinkoPath r v :=
  List.map_congr_left fun c hc => by rw [h c (List.mem_range.1 hc)]

/-- The bucket counts one coin a row. -/
theorem expected_bucket {r : ℕ} (hr : r ≤ n) (g : ℕ → ℚ) :
    𝔼 w : Fin n → Draw, g (plinkoPath r (drawStream w)).sum = Chance.binomial r g := by
  induction r generalizing g with
  | zero => simp [plinkoPath, Chance.binomial_zero]
  | succ r ih =>
    have hfirst := expect_cursor_first (show r < n from hr)
      (fun x u => g ((plinkoPath r u).sum + if x < 1 / 2 then 0 else 1))
      fun x u v h => by rw [plinkoPath_congr fun c hc => h c hc.ne]
    have hcoin : ∀ k : Draw,
        𝔼 w : Fin n → Draw, g ((plinkoPath r (drawStream w)).sum + if k.toRat < 1 / 2 then 0 else 1) =
        if k.toRat < 1 / 2 then Chance.binomial r g else Chance.binomial r fun j => g (j + 1) := by
      intro k
      split_ifs
      · exact ih (by omega) g
      · exact ih (by omega) fun j => g (j + 1)
    simp only [sum_plinkoPath_succ]
    rw [hfirst, Chance.binomial_succ, ← expect_coin]
    exact Finset.expect_congr rfl fun k _ => hcoin k

theorem binomial_buckets_le (risk : Risk) {rows : ℕ} (h : rows = 8 ∨ rows = 12 ∨ rows = 16) :
    Chance.binomial rows (fun b => (PLINKO_BUCKETS risk rows).getD b 0) ≤ 1 := by
  rcases h with rfl | rfl | rfl <;> cases risk <;> decide +kernel

theorem plinko_le_one {s : PlinkoSelection} (h : s.rows = 8 ∨ s.rows = 12 ∨ s.rows = 16) (hn : 16 ≤ n)
    (config : RoundConfig) : expectedMultiplier n .plinko (.plinko s) config ≤ 1 := by
  calc expectedMultiplier n .plinko (.plinko s) config
      ≤ 𝔼 w : Fin n → Draw, (PLINKO_BUCKETS s.risk s.rows).getD (plinkoPath s.rows (drawStream w)).sum 0 :=
        Finset.expect_le_expect fun w _ => min_le_left _ _
    _ = Chance.binomial s.rows fun b => (PLINKO_BUCKETS s.risk s.rows).getD b 0 :=
        expected_bucket (by omega) fun b => (PLINKO_BUCKETS s.risk s.rows).getD b 0
    _ ≤ 1 := binomial_buckets_le s.risk h

end Plinko

/-! ## Keno -/

section Keno

variable {n i : ℕ} {p : ℕ → Bool} {g : ℕ → ℚ}

theorem drawStream_unit (w : Fin n → Draw) : (drawStream w).Unit := by
  intro cursor
  unfold drawStream
  split
  · refine ⟨Draw.toRat_nonneg _, ?_⟩
    have hF : (0 : ℚ) < FLOAT_COUNT := by exact_mod_cast NeZero.pos FLOAT_COUNT
    rw [Draw.toRat, div_lt_one hF]
    exact_mod_cast (w ⟨cursor, _⟩).2
  · norm_num

theorem shuffleIndex_eq (u : Stream) (i : ℕ) : shuffleIndex u 0 i = Chance.index (i + 1) (u i) := by
  simp only [shuffleIndex, Chance.index, Nat.zero_add, Int.floor_toNat]
  push_cast
  rfl

/-- What ten numbers drawn from the first `m` are worth, if `h` of the `m` are picked. -/
def dealValue (g : ℕ → ℚ) (m h : ℕ) : ℚ := Chance.hypergeometric KENO_DRAW_COUNT h (m - h) g

/-- The next step moves each of the numbers in front out of it, on average without a change of value. -/
theorem sum_dealValue {xs : List ℕ} (hi : KENO_DRAW_COUNT ≤ i) (hlen : i < xs.length) :
    ∑ j ∈ Finset.range (i + 1), dealValue g i (marked p i (swap xs i j)) =
      ((i + 1 : ℕ) : ℚ) * dealValue g (i + 1) (marked p (i + 1) xs) :=
  sum_hypergeometric_swap hi hlen g

/-- The factor by which the floats' resolution can raise the value of a step. -/
def stepFactor : ℚ := 1 + 50 / FLOAT_COUNT

theorem mul_index_odds_le {m : ℕ} (hm : 0 < m) (h₅₀ : m ≤ 50) :
    (1 / (m : ℚ) + 1 / FLOAT_COUNT) * m ≤ stepFactor := by
  have hm' : (0 : ℚ) < m := by exact_mod_cast hm
  have hle : (m : ℚ) ≤ 50 := by exact_mod_cast h₅₀
  have hcancel : 1 / (m : ℚ) * m = 1 := one_div_mul_cancel hm'.ne'
  have hmono : 1 / (FLOAT_COUNT : ℚ) * m ≤ 1 / FLOAT_COUNT * 50 := by gcongr
  rw [add_mul, hcancel, stepFactor]
  linarith [one_div_mul_eq_div (FLOAT_COUNT : ℚ) 50]

theorem dealValue_nonneg (hg : ∀ x, 0 ≤ g x) (m h : ℕ) : 0 ≤ dealValue g m h := Chance.hypergeometric_nonneg hg _ _ _

/-- A step that picks with a uniform draw raises the value by one factor at most. -/
theorem expect_dealValue_le (hg : ∀ x, 0 ≤ g x) (hi : KENO_DRAW_COUNT ≤ i) (h₅₀ : i + 1 ≤ 50) {xs : List ℕ}
    (hlen : i < xs.length) :
    𝔼 d : Draw, dealValue g i (marked p i (swap xs i (Chance.index (i + 1) d.toRat))) ≤
      stepFactor * dealValue g (i + 1) (marked p (i + 1) xs) := by
  calc 𝔼 d : Draw, dealValue g i (marked p i (swap xs i (Chance.index (i + 1) d.toRat)))
      ≤ (1 / ((i + 1 : ℕ) : ℚ) + 1 / FLOAT_COUNT) *
          ∑ j ∈ Finset.range (i + 1), dealValue g i (marked p i (swap xs i j)) :=
        Chance.expect_index_le (N := FLOAT_COUNT) (m := i + 1) (by omega)
          (g := fun j => dealValue g i (marked p i (swap xs i j))) fun j _ => dealValue_nonneg hg _ _
    _ = (1 / ((i + 1 : ℕ) : ℚ) + 1 / FLOAT_COUNT) * (i + 1 : ℕ) * dealValue g (i + 1) (marked p (i + 1) xs) := by
        rw [sum_dealValue hi hlen, mul_assoc]
    _ ≤ stepFactor * dealValue g (i + 1) (marked p (i + 1) xs) :=
        mul_le_mul_of_nonneg_right (mul_index_odds_le (by omega) h₅₀) (dealValue_nonneg hg _ _)

/-- From step `k + 9` on, the hits are worth what a deal without replacement is worth, up to the factors of the
steps that still change the front. -/
theorem expected_hits (hg : ∀ x, 0 ≤ g x) {k : ℕ} (hk : k ≤ 40) {xs : List ℕ} (hlen : k + 9 < xs.length)
    (hn : k + 9 < n) :
    𝔼 w : Fin n → Draw, g (marked p KENO_DRAW_COUNT (shuffleLoop (drawStream w) 0 (k + 9) xs)) ≤
      stepFactor ^ k * dealValue g (k + 10) (marked p (k + 10) xs) := by
  induction k generalizing xs with
  | zero =>
    have hlast : ∀ w : Fin n → Draw, g (marked p KENO_DRAW_COUNT (shuffleLoop (drawStream w) 0 9 xs)) =
        dealValue g 10 (marked p 10 xs) := by
      intro w
      have hall := Chance.hypergeometric_all (marked p 10 xs) (10 - marked p 10 xs) g
      rw [Nat.add_sub_cancel' (marked_le p 10 xs)] at hall
      rw [marked_shuffleLoop (drawStream_unit w) hlen (by norm_num [KENO_DRAW_COUNT])]
      exact hall.symm
    have : Nonempty (Fin n → Draw) := ⟨fun _ => 0⟩
    simp only [Nat.zero_add, hlast, Fintype.expect_const, pow_zero, one_mul, le_refl]
  | succ k ih =>
    rw [show k + 1 + 9 = k + 10 by omega, show k + 1 + 10 = k + 11 by omega] at *
    have hfactor : 0 ≤ stepFactor ^ k := pow_nonneg (by unfold stepFactor; positivity) k
    -- what is dealt when step `k + 10` picks with the draw `x`
    let dealt (x : ℚ) (u : Stream) : ℚ :=
      g (marked p KENO_DRAW_COUNT (shuffleLoop u 0 (k + 9) (swap xs (k + 10) (Chance.index (k + 11) x))))
    have hread : ∀ w : Fin n → Draw, g (marked p KENO_DRAW_COUNT (shuffleLoop (drawStream w) 0 (k + 10) xs)) =
        dealt (drawStream w (k + 10)) (drawStream w) := by
      intro w
      rw [shuffleLoop, shuffleIndex_eq]
    have hother : ∀ x u v, (∀ c, c ≠ k + 10 → u c = v c) → dealt x u = dealt x v := by
      intro x u v h
      have hloop : shuffleLoop u 0 (k + 9) (swap xs (k + 10) (Chance.index (k + 11) x)) =
          shuffleLoop v 0 (k + 9) (swap xs (k + 10) (Chance.index (k + 11) x)) :=
        shuffleLoop_congr _ fun c _ hc => h (0 + c) (by omega)
      simp only [dealt, hloop]
    calc 𝔼 w : Fin n → Draw, g (marked p KENO_DRAW_COUNT (shuffleLoop (drawStream w) 0 (k + 10) xs))
        = 𝔼 w : Fin n → Draw, dealt (drawStream w (k + 10)) (drawStream w) := by simp only [hread]
      _ = 𝔼 d : Draw, 𝔼 w : Fin n → Draw, dealt d.toRat (drawStream w) := expect_cursor_first hn dealt hother
      _ ≤ 𝔼 d : Draw, stepFactor ^ k *
            dealValue g (k + 10) (marked p (k + 10) (swap xs (k + 10) (Chance.index (k + 11) d.toRat))) :=
          Finset.expect_le_expect fun d _ => ih (by omega) (by rw [length_swap]; omega) (by omega)
      _ = stepFactor ^ k * 𝔼 d : Draw,
            dealValue g (k + 10) (marked p (k + 10) (swap xs (k + 10) (Chance.index (k + 11) d.toRat))) :=
          (Finset.mul_expect _ _ _).symm
      _ ≤ stepFactor ^ k * (stepFactor * dealValue g (k + 11) (marked p (k + 11) xs)) :=
          mul_le_mul_of_nonneg_left
            (expect_dealValue_le hg (by unfold KENO_DRAW_COUNT; omega) (by omega) hlen) hfactor
      _ = stepFactor ^ (k + 1) * dealValue g (k + 11) (marked p (k + 11) xs) := by rw [pow_succ, mul_assoc]

/-- The hits of a draw are the picked numbers in front of the shuffle. -/
theorem length_hits {picks drawn : List ℕ} (hp : picks.Nodup) (hd : drawn.Nodup) :
    (picks.filter fun a => drawn.contains a).length = drawn.countP fun a => picks.contains a := by
  rw [List.countP_eq_length_filter]
  refine List.Perm.length_eq ((List.perm_ext_iff_of_nodup (hp.filter _) (hd.filter _)).2 fun a => ?_)
  simp only [List.mem_filter, List.contains_iff_mem]
  exact and_comm

theorem kenoPool_nodup : kenoPool.Nodup := by decide

theorem dealValue_le (pickCount : ℕ) (h : pickCount ≤ 10) : dealValue (kenoPayout pickCount) 50 pickCount ≤ 4 / 5 := by
  unfold dealValue Chance.hypergeometric
  simp only [Nat.choose_eq_descFactorial_div_factorial]
  interval_cases pickCount <;> decide +kernel

theorem marked_kenoPool {picks : List ℕ} (hnodup : picks.Nodup) (hpool : ∀ a ∈ picks, a ∈ kenoPool) :
    marked (fun a => picks.contains a) 50 kenoPool = picks.length := by
  have hall : kenoPool.take 50 = kenoPool := List.take_of_length_le (by decide)
  have hkeep : (picks.filter fun a => kenoPool.contains a) = picks :=
    List.filter_eq_self.2 fun a ha => List.contains_iff_mem.2 (hpool a ha)
  rw [marked, hall, ← length_hits hnodup kenoPool_nodup, hkeep]

/-- An honest round pays for the picked numbers in front of the shuffle. -/
theorem paid_keno_le {s : KenoSelection} (hnodup : (kenoPicks s).Nodup) (w : Fin n → Draw) (config : RoundConfig) :
    paid (resolveRound .keno (.keno s) (drawStream w) config none) ≤ kenoPayout (kenoPicks s).length
      (marked (fun a => (kenoPicks s).contains a) KENO_DRAW_COUNT (shuffleLoop (drawStream w) 0 49 kenoPool)) := by
  have hperm : (sortAsc (kenoDraw (kenoPicks s) (drawStream w) none)).Perm
      ((shuffleLoop (drawStream w) 0 49 kenoPool).take KENO_DRAW_COUNT) := List.perm_insertionSort _ _
  have hdrawn : ((shuffleLoop (drawStream w) 0 49 kenoPool).take KENO_DRAW_COUNT).Nodup :=
    ((shuffleLoop_perm (drawStream_unit w) (by decide)).nodup_iff.2 kenoPool_nodup).sublist (List.take_sublist _ _)
  refine (min_le_left _ _).trans (le_of_eq ?_)
  rw [length_hits hnodup (hperm.nodup_iff.2 hdrawn), hperm.countP_eq]
  rfl

theorem keno_le_one {s : KenoSelection} (hn : 50 ≤ n) (hnodup : (kenoPicks s).Nodup) (hlen : (kenoPicks s).length ≤ 10)
    (hpool : ∀ a ∈ kenoPicks s, a ∈ kenoPool) (config : RoundConfig) :
    expectedMultiplier n .keno (.keno s) config ≤ 1 := by
  have hsteps : 40 + 9 < kenoPool.length := by decide
  have hdeal := expected_hits (n := n) (p := fun a => (kenoPicks s).contains a)
    (g := kenoPayout (kenoPicks s).length) (k := 40) (fun _ => kenoPayout_nonneg _ _) le_rfl hsteps (by omega)
  simp only [Nat.reduceAdd] at hdeal
  calc expectedMultiplier n .keno (.keno s) config
      ≤ 𝔼 w : Fin n → Draw, kenoPayout (kenoPicks s).length
          (marked (fun a => (kenoPicks s).contains a) KENO_DRAW_COUNT (shuffleLoop (drawStream w) 0 49 kenoPool)) :=
        Finset.expect_le_expect fun w _ => paid_keno_le hnodup w config
    _ ≤ stepFactor ^ 40 * dealValue (kenoPayout (kenoPicks s).length) 50
          (marked (fun a => (kenoPicks s).contains a) 50 kenoPool) :=
        hdeal
    _ = stepFactor ^ 40 * dealValue (kenoPayout (kenoPicks s).length) 50 (kenoPicks s).length := by
        rw [marked_kenoPool hnodup hpool]
    _ ≤ stepFactor ^ 40 * (4 / 5) :=
        mul_le_mul_of_nonneg_left (dealValue_le _ hlen) (pow_nonneg (by unfold stepFactor; positivity) 40)
    _ ≤ 1 := by norm_num [stepFactor, FLOAT_COUNT]

end Keno

end Smink
