import Smink.Deposits.Collision
import Mathlib.Order.CompletePartialOrder

/-!
# Quotes that are open together

`quoteCryptoAmount` of `deposits/prices.ts` with the allocator of `deposits/coins.ts`. The allocator starts at the
requested amount and climbs one step at a time until it finds an amount that is not used; it compares amounts, not
windows, and windows grow with the amounts while the step stays the same. `quotes_apart` says when this is enough: with
`n` open quotes on the ladder of an order, its windows do not meet `n` steps up, and the other open quotes are away from
its first `n` rungs. At a tolerance of 15% they meet one step up already (`no_room_twice`).
-/

namespace Smink

def roundCrypto (value : ℚ) (decimals : Nat) : ℚ := (mathRound (value * 10 ^ decimals) : ℚ) / 10 ^ decimals

def uniquenessStepFor (coin : QuoteCoin) (expected : ℚ) : ℚ :=
  roundCrypto (matchWindowFor coin expected * (22 / 10)) (COIN_QUOTE coin).decimals

/-- The `while` loop of `allocateUniqueAmount`, for a number of rounds. -/
def allocateLoop (taken : List ℚ) (step : ℚ) (decimals : Nat) : Nat → ℚ → Option ℚ
  | 0, _ => none
  | rounds + 1, amount =>
    if amount ∈ taken then allocateLoop taken step decimals rounds (roundCrypto (amount + step) decimals)
    else some amount

/-- `none` when the loop does not end. No amount comes up twice in a loop that ends, so it ends within one round more
than there are taken amounts. -/
def allocateUniqueAmount (base : ℚ) (used : List ℚ) (step : ℚ) (decimals : Nat) : Option ℚ :=
  let amount := roundCrypto (max step base) decimals
  let taken := used.map fun value => roundCrypto value decimals
  allocateLoop taken step decimals (taken.length + 1) amount

/-- What the price service answers: nothing, or the `usd` field for the coin. -/
def usdPrice (coin : QuoteCoin) (response : Option Num) : Except String ℚ :=
  match response with
  | none => .error "Could not fetch a live price"
  | some none => .error ("No USD price for " ++ coin.text)
  | some (some price) => if price ≤ 0 then .error ("No USD price for " ++ coin.text) else .ok price

structure CryptoQuote where
  amountCrypto : ℚ
  exchangeRate : ℚ
  confirmations : ℚ
  decimals : Nat
  step : ℚ
  matchWindow : ℚ
  deriving DecidableEq

def cryptoQuote (coin : QuoteCoin) (rate amountCrypto : ℚ) : CryptoQuote :=
  let quoted := roundCrypto amountCrypto (COIN_QUOTE coin).decimals
  { amountCrypto := quoted
    exchangeRate := roundCrypto rate 8
    confirmations := (COIN_QUOTE coin).confirmations
    decimals := (COIN_QUOTE coin).decimals
    step := uniquenessStepFor coin quoted
    matchWindow := matchWindowFor coin quoted }

/-- `none` inside when the allocation does not end. -/
def quoteCryptoAmount (coin : QuoteCoin) (amountUsd : ℚ) (usedAmounts : List ℚ) (response : Option Num) :
    Except String (Option CryptoQuote) := do
  let rate ← usdPrice coin response
  let base := amountUsd / rate
  let amountCrypto := allocateUniqueAmount base usedAmounts (uniquenessStepFor coin base) (COIN_QUOTE coin).decimals
  return amountCrypto.map (cryptoQuote coin rate)

/-! ## The grid of a coin -/

/-- The amount has no more than `decimals` decimals. -/
def OnGrid (decimals : Nat) (amount : ℚ) : Prop := ∃ n : ℤ, amount = n / 10 ^ decimals

section Grid

variable {decimals : Nat} {a b : ℚ}

theorem onGrid_roundCrypto (value : ℚ) (decimals : Nat) : OnGrid decimals (roundCrypto value decimals) := ⟨_, rfl⟩

/-- Rounding moves an amount by half a unit of the grid at most. -/
theorem roundCrypto_near (value : ℚ) (decimals : Nat) :
    value - 1 / 2 / 10 ^ decimals ≤ roundCrypto value decimals ∧
      roundCrypto value decimals ≤ value + 1 / 2 / 10 ^ decimals := by
  have hpow : (0 : ℚ) < 10 ^ decimals := by positivity
  have hlow := lt_mathRound (value * 10 ^ decimals)
  have hhigh := mathRound_le (value * 10 ^ decimals)
  unfold roundCrypto
  rw [le_div_iff₀ hpow, div_le_iff₀ hpow, sub_mul, add_mul, div_mul_cancel₀ _ hpow.ne']
  exact ⟨hlow.le, hhigh⟩

theorem OnGrid.add (ha : OnGrid decimals a) (hb : OnGrid decimals b) : OnGrid decimals (a + b) := by
  obtain ⟨m, rfl⟩ := ha
  obtain ⟨n, rfl⟩ := hb
  exact ⟨m + n, by push_cast; ring⟩

/-- Rounding leaves the amounts of the grid alone. -/
theorem OnGrid.roundCrypto_eq (h : OnGrid decimals a) : roundCrypto a decimals = a := by
  obtain ⟨n, rfl⟩ := h
  have hpow : (10 : ℚ) ^ decimals ≠ 0 := by positivity
  rw [roundCrypto, div_mul_cancel₀ _ hpow, mathRound_intCast]

end Grid

/-- The step of a coin is positive. -/
theorem uniquenessStepFor_pos (coin : QuoteCoin) (expected : ℚ) : 0 < uniquenessStepFor coin expected := by
  have hfloor := floor_le_matchWindowFor coin expected
  -- even the floor is more than half a unit of the grid
  have hunit : (1 : ℚ) ≤ (COIN_QUOTE coin).floor * (22 / 10) * 10 ^ (COIN_QUOTE coin).decimals := by
    cases coin <;> norm_num [COIN_QUOTE]
  have hpow : (0 : ℚ) < 10 ^ (COIN_QUOTE coin).decimals := by positivity
  have hle : (1 : ℚ) ≤ matchWindowFor coin expected * (22 / 10) * 10 ^ (COIN_QUOTE coin).decimals :=
    hunit.trans (by gcongr)
  have hround : 0 < mathRound (matchWindowFor coin expected * (22 / 10) * 10 ^ (COIN_QUOTE coin).decimals) := by
    have hlt := lt_mathRound (matchWindowFor coin expected * (22 / 10) * 10 ^ (COIN_QUOTE coin).decimals)
    have hpos : (0 : ℚ) < mathRound (matchWindowFor coin expected * (22 / 10) * 10 ^ (COIN_QUOTE coin).decimals) := by
      linarith
    exact_mod_cast hpos
  unfold uniquenessStepFor roundCrypto
  positivity

/-! ## The allocator -/

section Allocator

variable {taken : List ℚ} {step amount : ℚ} {decimals : Nat}

/-- Rungs are different amounts, so there is a free one within one more than there are taken amounts. -/
theorem exists_free_rung (hpos : 0 < step) (taken : List ℚ) (amount : ℚ) :
    ∃ k ≤ taken.length, amount + (k : ℚ) * step ∉ taken ∧ ∀ j < k, amount + (j : ℚ) * step ∈ taken := by
  have hinj : Function.Injective fun j : Nat => amount + (j : ℚ) * step := by
    intro i j hij
    have hmul : (i : ℚ) * step = j * step := add_left_cancel hij
    exact_mod_cast mul_right_cancel₀ hpos.ne' hmul
  have hfree : ∃ k, k ≤ taken.length ∧ amount + (k : ℚ) * step ∉ taken := by
    by_contra hall
    push Not at hall
    have hnodup : ((List.range (taken.length + 1)).map fun j : Nat => amount + (j : ℚ) * step).Nodup :=
      List.nodup_range.map hinj
    have hsub : (List.range (taken.length + 1)).map (fun j : Nat => amount + (j : ℚ) * step) ⊆ taken := by
      intro x hx
      obtain ⟨j, hj, rfl⟩ := List.mem_map.1 hx
      exact hall j (Nat.lt_succ_iff.1 (List.mem_range.1 hj))
    have hlen := (hnodup.subperm hsub).length_le
    rw [List.length_map, List.length_range] at hlen
    omega
  obtain ⟨hle, hnot⟩ := Nat.find_spec hfree
  refine ⟨Nat.find hfree, hle, hnot, fun j hj => ?_⟩
  by_contra hj'
  exact Nat.find_min hfree hj ⟨by omega, hj'⟩

/-- The loop stops at the first rung that is not taken, after one increment for each rung below it. -/
theorem allocateLoop_eq (ha : OnGrid decimals amount) (hs : OnGrid decimals step) {k : Nat}
    (hnot : amount + (k : ℚ) * step ∉ taken) (hk : ∀ j < k, amount + (j : ℚ) * step ∈ taken) (rounds : Nat) :
    allocateLoop taken step decimals rounds amount = if k < rounds then some (amount + k * step) else none := by
  induction rounds generalizing amount k with
  | zero => rfl
  | succ rounds ih =>
    rw [allocateLoop]
    cases k with
    | zero =>
      have hfirst : amount ∉ taken := by simpa using hnot
      rw [if_neg hfirst, if_pos (Nat.succ_pos rounds)]
      simp
    | succ k =>
      have hfirst : amount ∈ taken := by simpa using hk 0 (Nat.succ_pos k)
      have hshift : ∀ j : Nat, amount + ((j + 1 : Nat) : ℚ) * step = amount + step + j * step := by
        intro j
        push_cast
        ring
      rw [hshift] at hnot
      rw [if_pos hfirst, (ha.add hs).roundCrypto_eq,
        ih (ha.add hs) hnot fun j hj => hshift j ▸ hk (j + 1) (Nat.succ_lt_succ hj), hshift]
      simp only [Nat.succ_lt_succ_iff]

end Allocator

/-! ## Orders -/

/-- The amount the allocator starts at. -/
def requested (coin : QuoteCoin) (base : ℚ) : ℚ :=
  roundCrypto (max (uniquenessStepFor coin base) base) (COIN_QUOTE coin).decimals

/-- The amounts the allocator tries in turn. -/
def rung (coin : QuoteCoin) (base : ℚ) (k : Nat) : ℚ := requested coin base + k * uniquenessStepFor coin base

/-- The received amounts that match a quote of `a`. -/
def windowOf (coin : QuoteCoin) (a : ℚ) : Set ℚ := Set.Icc (a - matchWindowFor coin a) (a + matchWindowFor coin a)

/-- The amount is a whole number of steps above the requested one. -/
def onLadder (coin : QuoteCoin) (base a : ℚ) : Bool :=
  let steps := (a - requested coin base) / uniquenessStepFor coin base
  decide (steps.den = 1 ∧ 0 ≤ steps.num)

/-- The number of open amounts on the ladder of an order. -/
def openRungs (coin : QuoteCoin) (base : ℚ) (openAmounts : List ℚ) : Nat := openAmounts.countP (onLadder coin base)

/-- An order for `base` finds room among the open amounts: as many steps up as there are open amounts on its ladder the
windows of neighbouring rungs do not meet, and no other open quote is within the two windows of a rung up to there. -/
structure RoomFor (coin : QuoteCoin) (base : ℚ) (openAmounts : List ℚ) : Prop where
  ladder : openRungs coin base openAmounts ≠ 0 →
    matchWindowFor coin (rung coin base (openRungs coin base openAmounts - 1)) +
      matchWindowFor coin (rung coin base (openRungs coin base openAmounts)) < uniquenessStepFor coin base
  others : ∀ a ∈ openAmounts, onLadder coin base a = false → ∀ k ≤ openRungs coin base openAmounts,
    matchWindowFor coin (rung coin base k) + matchWindowFor coin a < |rung coin base k - a|

instance (coin : QuoteCoin) (base : ℚ) (openAmounts : List ℚ) : Decidable (RoomFor coin base openAmounts) :=
  decidable_of_iff ((openRungs coin base openAmounts ≠ 0 → _) ∧ ∀ a ∈ openAmounts, onLadder coin base a = false →
      ∀ k ≤ openRungs coin base openAmounts, _)
    ⟨fun h => ⟨h.1, h.2⟩, fun h => ⟨h.ladder, h.others⟩⟩

/-- An open amount on the ladder of an order has all lower rungs open too. -/
def NoGap (coin : QuoteCoin) (base : ℚ) (openAmounts : List ℚ) : Prop :=
  ∀ j, rung coin base j ∈ openAmounts → ∀ i < j, rung coin base i ∈ openAmounts

section Orders

variable {coin : QuoteCoin} {a b base : ℚ} {used : List ℚ}

/-- Windows are disjoint when the amounts are further apart than the two together. -/
theorem disjoint_windowOf_iff :
    Disjoint (windowOf coin a) (windowOf coin b) ↔ matchWindowFor coin a + matchWindowFor coin b < |a - b| := by
  have hwa := matchWindowFor_nonneg coin a
  have hwb := matchWindowFor_nonneg coin b
  unfold windowOf
  rw [Set.disjoint_iff_inter_eq_empty, Set.Icc_inter_Icc, Set.Icc_eq_empty_iff, not_le, lt_abs, inf_lt_iff, lt_sup_iff,
    lt_sup_iff]
  constructor
  · rintro ((h | h) | (h | h))
    · linarith
    · right
      linarith
    · left
      linarith
    · linarith
  · rintro (h | h)
    · right
      left
      linarith
    · left
      right
      linarith

/-! ### Windows along a ladder -/

theorem tolerance_le_one (coin : QuoteCoin) : (COIN_QUOTE coin).tolerance ≤ 1 := by
  cases coin <;> norm_num [COIN_QUOTE]

/-- Windows do not grow faster than the amounts. -/
theorem matchWindowFor_le_add (h : a ≤ b) : matchWindowFor coin b ≤ matchWindowFor coin a + (b - a) := by
  have hfloor := floor_le_matchWindowFor coin a
  by_cases hb : b ≤ 0
  · have hwb : matchWindowFor coin b = (COIN_QUOTE coin).floor := if_pos hb
    rw [hwb]
    linarith
  · have hwb : matchWindowFor coin b = max (COIN_QUOTE coin).floor (b * (COIN_QUOTE coin).tolerance) := if_neg hb
    have hgrow : (b - a) * (COIN_QUOTE coin).tolerance ≤ b - a :=
      mul_le_of_le_one_right (by linarith) (tolerance_le_one coin)
    have hwa := mul_tolerance_le coin a
    rw [hwb]
    refine max_le (by linarith) ?_
    linarith

theorem rung_sub (coin : QuoteCoin) (base : ℚ) (i j : Nat) :
    rung coin base j - rung coin base i = ((j : ℚ) - i) * uniquenessStepFor coin base := by
  unfold rung
  ring

theorem rung_mono {i j : Nat} (h : i ≤ j) : rung coin base i ≤ rung coin base j := by
  have hcast : (i : ℚ) ≤ j := by exact_mod_cast h
  have hpos := uniquenessStepFor_pos coin base
  have hsub := rung_sub coin base i j
  nlinarith

theorem rung_injective (coin : QuoteCoin) (base : ℚ) : Function.Injective (rung coin base) := by
  intro i j hij
  have hpos := uniquenessStepFor_pos coin base
  have hsub := rung_sub coin base i j
  rw [hij, sub_self] at hsub
  have hzero : (j : ℚ) - i = 0 := (mul_eq_zero.1 hsub.symm).resolve_right hpos.ne'
  have heq : (i : ℚ) = j := by linarith
  exact_mod_cast heq

theorem onLadder_iff : onLadder coin base a = true ↔ ∃ k, a = rung coin base k := by
  have hpos := uniquenessStepFor_pos coin base
  unfold onLadder
  dsimp only
  rw [decide_eq_true_eq]
  constructor
  · rintro ⟨hden, hnum⟩
    refine ⟨((a - requested coin base) / uniquenessStepFor coin base).num.toNat, ?_⟩
    have hcast : ((((a - requested coin base) / uniquenessStepFor coin base).num.toNat : ℕ) : ℚ) =
        (a - requested coin base) / uniquenessStepFor coin base := by
      rw [← Int.cast_natCast, Int.toNat_of_nonneg hnum]
      exact Rat.coe_int_num_of_den_eq_one hden
    unfold rung
    rw [hcast, div_mul_cancel₀ _ hpos.ne']
    ring
  · rintro ⟨k, rfl⟩
    have hsteps : (rung coin base k - requested coin base) / uniquenessStepFor coin base = k := by
      unfold rung
      rw [add_sub_cancel_left, mul_div_cancel_right₀ _ hpos.ne']
    rw [hsteps]
    simp

/-- Where windows do not meet `n` steps up, those of lower rungs meet no others. -/
theorem rungs_apart {n i j : Nat} (hn : matchWindowFor coin (rung coin base (n - 1)) +
      matchWindowFor coin (rung coin base n) < uniquenessStepFor coin base) (hi : i < n) (hij : i < j) :
    matchWindowFor coin (rung coin base i) + matchWindowFor coin (rung coin base j) <
      rung coin base j - rung coin base i := by
  have hpos := uniquenessStepFor_pos coin base
  have hlow : matchWindowFor coin (rung coin base i) ≤ matchWindowFor coin (rung coin base (n - 1)) :=
    matchWindowFor_mono (rung_mono (by omega))
  have hnext : matchWindowFor coin (rung coin base (i + 1)) ≤ matchWindowFor coin (rung coin base n) :=
    matchWindowFor_mono (rung_mono (by omega))
  have hhigh : matchWindowFor coin (rung coin base j) ≤ matchWindowFor coin (rung coin base (i + 1)) +
      (rung coin base j - rung coin base (i + 1)) := matchWindowFor_le_add (rung_mono (by omega))
  have hstep : rung coin base (i + 1) - rung coin base i = uniquenessStepFor coin base := by
    rw [rung_sub]
    push_cast
    ring
  linarith

/-- Open rungs are counted. -/
theorem length_le_openRungs (js : List Nat) (hnodup : js.Nodup) (hmem : ∀ j ∈ js, rung coin base j ∈ used) :
    js.length ≤ openRungs coin base used := by
  have hsub : js.map (rung coin base) ⊆ used.filter (onLadder coin base) := by
    intro x hx
    obtain ⟨j, hj, rfl⟩ := List.mem_map.1 hx
    exact List.mem_filter.2 ⟨hmem j hj, onLadder_iff.2 ⟨j, rfl⟩⟩
  have hlen := ((hnodup.map (rung_injective coin base)).subperm hsub).length_le
  rwa [List.length_map, ← List.countP_eq_length_filter] at hlen

/-- **An order that finds room gets a quote away from all open ones.** -/
theorem RoomFor.apart {k : Nat} (h : RoomFor coin base used) (hnot : rung coin base k ∉ used)
    (hk : ∀ j < k, rung coin base j ∈ used) :
    ∀ a ∈ used, matchWindowFor coin (rung coin base k) + matchWindowFor coin a < |rung coin base k - a| := by
  have hcount : k ≤ openRungs coin base used := by
    have hlen := length_le_openRungs (List.range k) List.nodup_range fun j hj => hk j (List.mem_range.1 hj)
    rwa [List.length_range] at hlen
  intro a ha
  cases hon : onLadder coin base a with
  | false => exact h.others a ha hon k hcount
  | true =>
    obtain ⟨j, rfl⟩ := onLadder_iff.1 hon
    rcases lt_trichotomy j k with hlt | rfl | hgt
    · -- a rung below the new one
      have hap := rungs_apart (h.ladder (by omega)) (by omega : j < openRungs coin base used) hlt
      have habs := le_abs_self (rung coin base k - rung coin base j)
      linarith
    · exact absurd ha hnot
    · -- a rung above it is one more that is open
      have hmore : k + 1 ≤ openRungs coin base used := by
        have hnodup : (j :: List.range k).Nodup := List.nodup_cons.2 ⟨by simp [hgt.le], List.nodup_range⟩
        have hlen := length_le_openRungs (j :: List.range k) hnodup fun i hi => by
          rcases List.mem_cons.1 hi with rfl | hi
          · exact ha
          · exact hk i (List.mem_range.1 hi)
        rwa [List.length_cons, List.length_range] at hlen
      have hap := rungs_apart (h.ladder (by omega)) (by omega : k < openRungs coin base used) hgt
      have habs := neg_abs_le (rung coin base k - rung coin base j)
      linarith

/-- **At a tolerance of 15% no order finds room whose requested amount is open**, if its window is above the floor. -/
theorem no_room_twice (htol : (COIN_QUOTE coin).tolerance = 15 / 100)
    (hbase : (COIN_QUOTE coin).floor ≤ base * (COIN_QUOTE coin).tolerance) (hopen : requested coin base ∈ used) :
    ¬ RoomFor coin base used := by
  intro h
  have hzero : rung coin base 0 = requested coin base := by simp [rung]
  have hcount : 0 < openRungs coin base used :=
    List.countP_pos_iff.2 ⟨_, hopen, onLadder_iff.2 ⟨0, hzero.symm⟩⟩
  have hap := rungs_apart (h.ladder (by omega)) hcount Nat.one_pos
  have hone : rung coin base 1 - rung coin base 0 = uniquenessStepFor coin base := by
    rw [rung_sub]
    norm_num
  rw [hone] at hap
  have hdecimals : (COIN_QUOTE coin).decimals = 8 ∧ 1 / 1000000 ≤ (COIN_QUOTE coin).floor := by
    cases coin with
    | BTC | ETH | LTC => norm_num [COIN_QUOTE]
    | USDT | USDC | SOL => norm_num [COIN_QUOTE] at htol
  -- the step is 33% of the base, and the two windows are 30% and more
  have hwindow : matchWindowFor coin base = base * (15 / 100) := by
    have hpos : ¬ base ≤ 0 := by
      rw [htol] at hbase
      linarith
    unfold matchWindowFor
    dsimp only
    rw [if_neg hpos, max_eq_right hbase, htol]
  have hstep := (roundCrypto_near (matchWindowFor coin base * (22 / 10)) (COIN_QUOTE coin).decimals).2
  have hbelow := (roundCrypto_near (max (uniquenessStepFor coin base) base) (COIN_QUOTE coin).decimals).1
  have hmax := le_max_right (uniquenessStepFor coin base) base
  have hw₀ := mul_tolerance_le coin (rung coin base 0)
  have hw₁ := mul_tolerance_le coin (rung coin base 1)
  have hstep' : uniquenessStepFor coin base ≤ base * (15 / 100) * (22 / 10) + 1 / 2 / 10 ^ 8 := by
    rw [← hwindow, ← hdecimals.1]
    exact hstep
  have hfirst : base - 1 / 2 / 10 ^ 8 ≤ rung coin base 0 := by
    rw [hzero, ← hdecimals.1]
    exact (sub_le_sub_right hmax _).trans hbelow
  rw [htol] at hw₀ hw₁ hbase
  linarith [hdecimals.2]

theorem onGrid_rung (coin : QuoteCoin) (base : ℚ) (k : Nat) : OnGrid (COIN_QUOTE coin).decimals (rung coin base k) := by
  induction k with
  | zero =>
    have hzero : rung coin base 0 = requested coin base := by simp [rung]
    rw [hzero]
    exact onGrid_roundCrypto _ _
  | succ k ih =>
    have hsucc : rung coin base (k + 1) = rung coin base k + uniquenessStepFor coin base := by
      unfold rung
      push_cast
      ring
    rw [hsucc]
    exact ih.add (onGrid_roundCrypto _ _)

theorem uniquenessStepFor_onGrid (coin : QuoteCoin) (base : ℚ) :
    OnGrid (COIN_QUOTE coin).decimals (uniquenessStepFor coin base) := onGrid_roundCrypto _ _

/-- The quote of an order is its first unused rung. -/
theorem allocate_spec (hused : ∀ a ∈ used, OnGrid (COIN_QUOTE coin).decimals a) :
    ∃ k, allocateUniqueAmount base used (uniquenessStepFor coin base) (COIN_QUOTE coin).decimals =
      some (rung coin base k) ∧ rung coin base k ∉ used ∧ ∀ j < k, rung coin base j ∈ used := by
  have htaken : used.map (fun value => roundCrypto value (COIN_QUOTE coin).decimals) = used :=
    (List.map_congr_left fun a ha => (hused a ha).roundCrypto_eq).trans (List.map_id _)
  obtain ⟨k, hle, hnot, hk⟩ := exists_free_rung (uniquenessStepFor_pos coin base) used (requested coin base)
  refine ⟨k, ?_, hnot, hk⟩
  unfold allocateUniqueAmount
  dsimp only
  rw [htaken, allocateLoop_eq (onGrid_roundCrypto _ _) (uniquenessStepFor_onGrid coin base) hnot hk,
    if_pos (Nat.lt_succ_of_le hle)]
  rfl

/-- **Quote allocation ends with a free amount**, for every coin, base and list of used amounts: the loop makes some
number `k` of increments, one at most for each used amount, and returns the least rung that is not among the rounded
used amounts. -/
theorem allocation_ends (coin : QuoteCoin) (base : ℚ) (used : List ℚ) :
    ∃ k ≤ used.length,
      (∀ rounds, allocateLoop (used.map fun value => roundCrypto value (COIN_QUOTE coin).decimals)
          (uniquenessStepFor coin base) (COIN_QUOTE coin).decimals rounds
          (roundCrypto (max (uniquenessStepFor coin base) base) (COIN_QUOTE coin).decimals) =
        if k < rounds then some (rung coin base k) else none) ∧
      allocateUniqueAmount base used (uniquenessStepFor coin base) (COIN_QUOTE coin).decimals =
        some (rung coin base k) ∧
      (∀ value ∈ used, rung coin base k ≠ roundCrypto value (COIN_QUOTE coin).decimals) ∧
      ∀ n, (∀ value ∈ used, rung coin base n ≠ roundCrypto value (COIN_QUOTE coin).decimals) →
        rung coin base k ≤ rung coin base n := by
  have hpos := uniquenessStepFor_pos coin base
  obtain ⟨k, hle, hnot, hk⟩ := exists_free_rung hpos
    (used.map fun value => roundCrypto value (COIN_QUOTE coin).decimals) (requested coin base)
  have hloop := allocateLoop_eq (onGrid_roundCrypto _ _) (uniquenessStepFor_onGrid coin base) hnot hk
  rw [List.length_map] at hle
  refine ⟨k, hle, hloop, ?_, fun value hv heq => ?_, fun n hn => ?_⟩
  · unfold allocateUniqueAmount
    dsimp only
    rw [List.length_map]
    exact (hloop _).trans (if_pos (Nat.lt_succ_of_le hle))
  · exact hnot (List.mem_map.2 ⟨value, hv, heq.symm⟩)
  · -- the rungs below `k` are taken
    have hkn : k ≤ n := by
      by_contra hlt
      obtain ⟨value, hv, heq⟩ := List.mem_map.1 (hk n (not_le.1 hlt))
      exact hn value hv heq.symm
    have hcast : (k : ℚ) ≤ n := by exact_mod_cast hkn
    have hmul := mul_le_mul_of_nonneg_right hcast hpos.le
    unfold rung
    linarith

end Orders

/-! ## Runs -/

/-- A player orders a quote, or a quote stops being open. -/
inductive QuoteEvent
  | order (amountUsd : ℚ) (response : Option Num)
  | close (amount : ℚ)
  deriving DecidableEq

/-- The open amounts after an event. An order is given all the open amounts. -/
def quoteStep (coin : QuoteCoin) (openAmounts : List ℚ) : QuoteEvent → List ℚ
  | .order amountUsd response =>
    match quoteCryptoAmount coin amountUsd openAmounts response with
    | .ok (some quote) => quote.amountCrypto :: openAmounts
    | _ => openAmounts
  | .close amount => openAmounts.erase amount

/-- The open amounts at every moment of a run. -/
def quoteRun (coin : QuoteCoin) : List QuoteEvent → List ℚ → List (List ℚ)
  | [], openAmounts => [openAmounts]
  | event :: rest, openAmounts => openAmounts :: quoteRun coin rest (quoteStep coin openAmounts event)

/-- Every order of the run, at the price it gets, finds room. -/
def RoomThroughout (coin : QuoteCoin) : List QuoteEvent → List ℚ → Prop
  | [], _ => True
  | .order amountUsd response :: rest, openAmounts =>
    (∀ rate ∈ (usdPrice coin response).toOption, RoomFor coin (amountUsd / rate) openAmounts) ∧
      RoomThroughout coin rest (quoteStep coin openAmounts (.order amountUsd response))
  | .close amount :: rest, openAmounts => RoomThroughout coin rest (quoteStep coin openAmounts (.close amount))

instance decidableRoomThroughout (coin : QuoteCoin) : ∀ (events : List QuoteEvent) (openAmounts : List ℚ),
    Decidable (RoomThroughout coin events openAmounts)
  | [], _ => .isTrue trivial
  | .order amountUsd response :: rest, openAmounts =>
    @instDecidableAnd (∀ rate ∈ (usdPrice coin response).toOption, RoomFor coin (amountUsd / rate) openAmounts) _ _
      (decidableRoomThroughout coin rest (quoteStep coin openAmounts (.order amountUsd response)))
  | .close amount :: rest, openAmounts => decidableRoomThroughout coin rest (quoteStep coin openAmounts (.close amount))

/-- The windows of the open quotes are disjoint in pairs. -/
def WindowsApart (coin : QuoteCoin) (openAmounts : List ℚ) : Prop :=
  openAmounts.Pairwise fun a b => Disjoint (windowOf coin a) (windowOf coin b)

section Runs

variable {coin : QuoteCoin} {openAmounts : List ℚ} {a b : ℚ}

/-- What an order does: without a price nothing, and with one it opens the first unused rung. -/
theorem quoteStep_order (amountUsd : ℚ) (response : Option Num)
    (hgrid : ∀ a ∈ openAmounts, OnGrid (COIN_QUOTE coin).decimals a) :
    ((∀ rate, usdPrice coin response ≠ .ok rate) ∧
      quoteStep coin openAmounts (.order amountUsd response) = openAmounts) ∨
    ∃ rate k, usdPrice coin response = .ok rate ∧
      quoteStep coin openAmounts (.order amountUsd response) = rung coin (amountUsd / rate) k :: openAmounts ∧
      rung coin (amountUsd / rate) k ∉ openAmounts ∧ ∀ j < k, rung coin (amountUsd / rate) j ∈ openAmounts := by
  cases hprice : usdPrice coin response with
  | error e =>
    refine .inl ⟨(fun rate h => nomatch h), ?_⟩
    simp only [quoteStep, quoteCryptoAmount, hprice]
    rfl
  | ok rate =>
    obtain ⟨k, halloc, hnot, hk⟩ := @allocate_spec coin (amountUsd / rate) openAmounts hgrid
    refine .inr ⟨rate, k, rfl, ?_, hnot, hk⟩
    have hquote : quoteCryptoAmount coin amountUsd openAmounts response =
        .ok (some (cryptoQuote coin rate (rung coin (amountUsd / rate) k))) := by
      unfold quoteCryptoAmount
      rw [hprice]
      dsimp only [bind, Except.bind]
      rw [halloc]
      rfl
    have hamount : (cryptoQuote coin rate (rung coin (amountUsd / rate) k)).amountCrypto =
        rung coin (amountUsd / rate) k := (onGrid_rung coin _ k).roundCrypto_eq
    simp only [quoteStep, hquote, hamount]

/-- After an order the quotes are apart exactly when the new one is away from all open ones. -/
theorem windowsApart_cons_iff (hap : WindowsApart coin openAmounts) :
    WindowsApart coin (a :: openAmounts) ↔
      ∀ b ∈ openAmounts, matchWindowFor coin a + matchWindowFor coin b < |a - b| := by
  unfold WindowsApart at *
  rw [List.pairwise_cons, and_iff_left hap]
  simp only [disjoint_windowOf_iff]

/-- Two open quotes are apart. -/
theorem WindowsApart.apart (h : WindowsApart coin openAmounts) (ha : a ∈ openAmounts) (hb : b ∈ openAmounts)
    (hne : a ≠ b) : matchWindowFor coin a + matchWindowFor coin b < |a - b| := by
  have hsymm : Std.Symm fun a b => Disjoint (windowOf coin a) (windowOf coin b) := ⟨fun _ _ hab => hab.symm⟩
  exact disjoint_windowOf_iff.1 (List.Pairwise.forall h ha hb hne)

theorem WindowsApart.nodup (h : WindowsApart coin openAmounts) : openAmounts.Nodup := by
  refine h.imp fun {a b} hab heq => ?_
  have hapart := disjoint_windowOf_iff.1 hab
  have hwa := matchWindowFor_nonneg coin a
  have hwb := matchWindowFor_nonneg coin b
  rw [heq, sub_self, abs_zero] at hapart
  rw [heq] at hwa
  linarith

/-- Without a gap in its ladder, an order that is quoted away from all open quotes has found room. -/
theorem roomFor_of_apart {base : ℚ} {k : Nat} (hap : WindowsApart coin openAmounts)
    (hgap : NoGap coin base openAmounts) (hnot : rung coin base k ∉ openAmounts)
    (hk : ∀ j < k, rung coin base j ∈ openAmounts)
    (hnew : ∀ a ∈ openAmounts, matchWindowFor coin (rung coin base k) + matchWindowFor coin a <
      |rung coin base k - a|) : RoomFor coin base openAmounts := by
  -- the open rungs are the first `k`
  have hcount : openRungs coin base openAmounts = k := by
    refine le_antisymm ?_ ?_
    · have hsub : openAmounts.filter (onLadder coin base) ⊆ (List.range k).map (rung coin base) := by
        intro a ha
        obtain ⟨hmem, hon⟩ := List.mem_filter.1 ha
        obtain ⟨j, rfl⟩ := onLadder_iff.1 hon
        refine List.mem_map.2 ⟨j, List.mem_range.2 ?_, rfl⟩
        by_contra hjk
        rcases Nat.lt_or_eq_of_le (not_lt.1 hjk) with hlt | rfl
        · exact hnot (hgap j hmem k hlt)
        · exact hnot hmem
      have hlen := ((hap.nodup.filter _).subperm hsub).length_le
      rwa [List.length_map, List.length_range, ← List.countP_eq_length_filter] at hlen
    · have hlen := length_le_openRungs (List.range k) List.nodup_range fun j hj => hk j (List.mem_range.1 hj)
      rwa [List.length_range] at hlen
  constructor
  · rw [hcount]
    intro hpos
    have hlast := hnew _ (hk (k - 1) (by omega))
    have hsub : rung coin base k - rung coin base (k - 1) = uniquenessStepFor coin base := by
      rw [rung_sub, Nat.cast_sub (by omega)]
      push_cast
      ring
    rw [hsub, abs_of_pos (uniquenessStepFor_pos coin base)] at hlast
    linarith
  · rw [hcount]
    intro a ha hon j hj
    rcases Nat.lt_or_eq_of_le hj with hlt | rfl
    · refine hap.apart (hk j hlt) ha fun he => ?_
      have hladder : onLadder coin base a = true := onLadder_iff.2 ⟨j, he.symm⟩
      rw [hon] at hladder
      cases hladder
    · exact hnew a ha

end Runs

/-- The open quotes are apart throughout a run whose orders all find room. -/
theorem apart_throughout (coin : QuoteCoin) (events : List QuoteEvent) : ∀ openAmounts,
    (∀ a ∈ openAmounts, OnGrid (COIN_QUOTE coin).decimals a) → WindowsApart coin openAmounts →
      RoomThroughout coin events openAmounts → ∀ later ∈ quoteRun coin events openAmounts, WindowsApart coin later := by
  induction events with
  | nil =>
    intro openAmounts _ hap _ later hlater
    rwa [List.mem_singleton.1 hlater]
  | cons event rest ih =>
    intro openAmounts hgrid hap hroom later hlater
    rcases List.mem_cons.1 hlater with rfl | hlater
    · exact hap
    cases event with
    | order amountUsd response =>
      obtain ⟨hfor, hrest⟩ := hroom
      obtain ⟨-, hstep⟩ | ⟨rate, k, hrate, hstep, hnot, hk⟩ := quoteStep_order amountUsd response hgrid
      · rw [hstep] at hrest hlater
        exact ih openAmounts hgrid hap hrest later hlater
      · rw [hstep] at hrest hlater
        refine ih _ (fun a ha => ?_) ?_ hrest later hlater
        · rcases List.mem_cons.1 ha with rfl | ha
          · exact onGrid_rung coin _ k
          · exact hgrid a ha
        · have hfound : RoomFor coin (amountUsd / rate) openAmounts := hfor rate (by rw [hrate]; rfl)
          exact (windowsApart_cons_iff hap).2 (hfound.apart hnot hk)
    | close amount =>
      have hsub : List.Sublist (openAmounts.erase amount) openAmounts := List.erase_sublist
      exact ih _ (fun a ha => hgrid a (hsub.subset ha)) (hap.sublist hsub) hroom later hlater

/-- **The windows of the open quotes are disjoint throughout a run in which every order finds room.** And an order that
finds none, with no gap in its ladder, gets a quote whose window meets an open one. -/
theorem quotes_apart (coin : QuoteCoin) :
    (∀ events, RoomThroughout coin events [] → ∀ openAmounts ∈ quoteRun coin events [],
      WindowsApart coin openAmounts) ∧
    ∀ openAmounts amountUsd response rate, (∀ a ∈ openAmounts, OnGrid (COIN_QUOTE coin).decimals a) →
      usdPrice coin response = .ok rate → NoGap coin (amountUsd / rate) openAmounts →
      WindowsApart coin openAmounts →
        (WindowsApart coin (quoteStep coin openAmounts (.order amountUsd response)) ↔
          RoomFor coin (amountUsd / rate) openAmounts) := by
  refine ⟨fun events => apart_throughout coin events [] (fun a ha => nomatch ha) .nil, ?_⟩
  intro openAmounts amountUsd response rate hgrid hrate hgap hap
  obtain ⟨hnone, -⟩ | ⟨rate', k, hrate', hstep, hnot, hk⟩ := quoteStep_order amountUsd response hgrid
  · exact absurd hrate (hnone rate)
  obtain rfl : rate' = rate := Except.ok.inj (hrate'.symm.trans hrate)
  rw [hstep, windowsApart_cons_iff hap]
  exact ⟨roomFor_of_apart hap hgap hnot hk, fun hroom => hroom.apart hnot hk⟩

/-- Three orders of 100 and one of 300 tethers at $1 are quoted 100, 103.3, 106.6 and 300. -/
theorem quotes_apart_fourOrders :
    let orders : List QuoteEvent := [100, 100, 100, 300].map fun usd => .order usd (some (some 1))
    (∀ openAmounts ∈ quoteRun .USDT orders [], WindowsApart .USDT openAmounts) ∧
      [300, 1066 / 10, 1033 / 10, 100] ∈ quoteRun .USDT orders [] ∧ RoomFor .USDT (300 / 1) [] := by
  intro orders
  refine ⟨(quotes_apart .USDT).1 orders (by decide +kernel), by decide +kernel, ?_⟩
  exact ((quotes_apart .USDT).2 [] 300 (some (some 1)) 1 (fun a ha => nomatch ha) (by decide +kernel)
    (fun j hj => nomatch hj) .nil).1 (List.pairwise_singleton _ _)

/-- No received amount matches two quotes whose windows are disjoint. -/
theorem WindowsApart.not_ambiguous {coin : QuoteCoin} {openAmounts : List ℚ} (h : WindowsApart coin openAmounts) :
    openAmounts.Pairwise fun a b => ∀ received, ¬ Ambiguous coin a b received := by
  refine h.imp fun hdis received ⟨ha, hb⟩ => ?_
  obtain ⟨-, ha⟩ := classifyReceived_matched.1 ha
  obtain ⟨-, hb⟩ := classifyReceived_matched.1 hb
  have hmem : ∀ {c : ℚ}, |c - received| ≤ matchWindowFor coin c → received ∈ windowOf coin c := by
    intro c hc
    obtain ⟨hlo, hhi⟩ := abs_le.1 hc
    exact ⟨by linarith, by linarith⟩
  exact Set.disjoint_left.1 hdis (hmem ha) (hmem hb)

/-- Two orders of the same amount of bitcoins get quotes of 1 and 1.33, and a payment of 1.14 matches both. -/
theorem quotes_overlap :
    [133 / 100, 1] ∈ quoteRun .BTC [.order 100 (some (some 100)), .order 100 (some (some 100))] [] ∧
      ¬ WindowsApart .BTC [133 / 100, 1] ∧ Ambiguous .BTC (133 / 100) 1 (114 / 100) := by
  refine ⟨by decide +kernel, ?_, by decide +kernel⟩
  intro h
  have hap := (List.pairwise_cons.1 h).1 1 (by simp)
  rw [disjoint_windowOf_iff] at hap
  norm_num [matchWindowFor, COIN_QUOTE, abs_lt] at hap

end Smink
