import Smink.Engine.Layouts
import Smink.Engine.Resolver

/-!
# What a validated selection is

One lemma for each game whose selection carries data the rounds rely on: the range of a target, the rows of a Plinko
board, the picks of a Keno ticket. A validated ticket is sorted and has no repeats, so `resolveKeno` plays the picks as
they are (`kenoPicks_of_sorted`).
-/

namespace Smink

theorem validateCoinFlip_side {value : RawSelection} {selection : GameSelection}
    (h : validateCoinFlip value = .ok selection) : ∃ s, selection = .coinFlip s := by
  unfold validateCoinFlip at h
  split at h <;> cases h <;> exact ⟨_, rfl⟩

theorem validateLimbo_target {value : RawSelection} {selection : GameSelection}
    (h : validateLimbo value = .ok selection) : ∃ s : LimboSelection, selection = .limbo s ∧ 101 / 100 ≤ s.target := by
  unfold validateLimbo at h
  split at h
  · cases h
  · split_ifs at h with ht
    cases h
    exact ⟨_, rfl, not_lt.1 ht⟩

theorem validateWheel_risk {value : RawSelection} {selection : GameSelection}
    (h : validateWheel value = .ok selection) : ∃ s, selection = .wheel s := by
  unfold validateWheel at h
  split at h <;> cases h
  exact ⟨_, rfl⟩

theorem validatePlinko_rows {value : RawSelection} {selection : GameSelection}
    (h : validatePlinko value = .ok selection) :
    ∃ s : PlinkoSelection, selection = .plinko s ∧ (s.rows = 8 ∨ s.rows = 12 ∨ s.rows = 16) := by
  unfold validatePlinko at h
  split at h
  · cases h
  · split_ifs at h <;> cases h <;> exact ⟨_, rfl, by simp⟩

/-! ## Keno -/

/-- A list whose items all parse, by a parser that `g` undoes, with what every parsed item satisfies. -/
theorem mapM_some {α β : Type} {f : α → Option β} {g : β → α} {P : β → Prop}
    (hf : ∀ a b, f a = some b → a = g b ∧ P b) :
    ∀ {as : List α} {bs : List β}, as.mapM f = some bs → as = bs.map g ∧ ∀ b ∈ bs, P b
  | [], bs, h => by
    cases h
    simp
  | a :: as, bs, h => by
    rw [List.mapM_cons] at h
    obtain ⟨b, hb, h⟩ := Option.bind_eq_some_iff.1 h
    obtain ⟨bs', hbs, h⟩ := Option.bind_eq_some_iff.1 h
    cases h
    obtain ⟨has, hall⟩ := mapM_some hf hbs
    obtain ⟨hab, hP⟩ := hf a b hb
    exact ⟨by rw [List.map_cons, ← hab, ← has], by simpa using ⟨hP, hall⟩⟩

theorem natBetween_eq {lo hi k : Nat} {value : Num} (h : natBetween lo hi value = some k) :
    value = some (k : ℚ) ∧ lo ≤ k ∧ k ≤ hi := by
  refine ⟨?_, natBetween_mem h⟩
  unfold natBetween at h
  split at h
  · cases h
  · rename_i q
    split_ifs at h with hq
    cases h
    have hnum : ((q.num.toNat : ℤ) : ℚ) = q := by
      rw [Int.toNat_of_nonneg (by omega)]
      exact Rat.coe_int_num_of_den_eq_one hq.1
    rw [← hnum]
    rfl

theorem pairwise_sortAsc (numbers : List Nat) : (sortAsc numbers).Pairwise (· ≤ ·) := List.pairwise_insertionSort _ _

/-- Distinct numbers come out strictly increasing. -/
theorem pairwise_lt_sortAsc {numbers : List Nat} (h : numbers.Nodup) : (sortAsc numbers).Pairwise (· < ·) := by
  have hnodup : (sortAsc numbers).Nodup := (sortAsc_perm numbers).nodup_iff.2 h
  exact ((pairwise_sortAsc numbers).sortedLE.sortedLT_of_nodup hnodup).pairwise

theorem eraseDups_of_nodup {numbers : List Nat} (h : numbers.Nodup) : numbers.eraseDups = numbers := by
  induction numbers with
  | nil => rfl
  | cons a numbers ih =>
    obtain ⟨ha, hnodup⟩ := List.nodup_cons.1 h
    have hkeep : (numbers.filter fun b => !b == a) = numbers :=
      List.filter_eq_self.2 fun b hb => by
        have hne : b ≠ a := fun hba => ha (hba ▸ hb)
        simpa using hne
    rw [List.eraseDups_cons, hkeep, ih hnodup]

theorem kenoPicks_of_sorted {s : KenoSelection} (h : s.picks.Pairwise (· < ·)) : kenoPicks s = s.picks := by
  rw [kenoPicks, eraseDups_of_nodup (h.imp Nat.ne_of_lt)]
  exact (h.imp Nat.le_of_lt).insertionSort_eq

theorem mem_kenoPool {a : Nat} : a ∈ kenoPool ↔ 1 ≤ a ∧ a ≤ 50 := by
  unfold kenoPool KENO_SPOT_COUNT
  rw [List.mem_map]
  constructor
  · rintro ⟨i, hi, rfl⟩
    have := List.mem_range.1 hi
    omega
  · intro h
    exact ⟨a - 1, List.mem_range.2 (by omega), by omega⟩

/-- A ticket: between one and ten different numbers of the board, in increasing order. -/
structure Ticket (picks : List Nat) : Prop where
  increasing : picks.Pairwise (· < ·)
  pos : 1 ≤ picks.length
  le_ten : picks.length ≤ 10
  mem_pool : ∀ a ∈ picks, a ∈ kenoPool

theorem Ticket.nodup {picks : List Nat} (h : Ticket picks) : picks.Nodup := h.increasing.imp Nat.ne_of_lt

theorem validateKeno_ticket {value : RawSelection} {selection : GameSelection}
    (h : validateKeno value = .ok selection) : ∃ s, selection = .keno s ∧ Ticket s.picks := by
  simp only [validateKeno] at h
  split_ifs at h with hlen hnodup
  split at h
  · cases h
  · rename_i picks hpicks
    cases h
    obtain ⟨hraw, hrange⟩ := mapM_some (fun _ _ => natBetween_eq) hpicks
    rw [hraw] at hlen hnodup
    rw [List.length_map] at hlen
    refine ⟨_, rfl, ?_, ?_, ?_, fun a ha => ?_⟩
    · exact pairwise_lt_sortAsc (List.Nodup.of_map _ hnodup)
    · rw [(sortAsc_perm picks).length_eq]
      omega
    · rw [(sortAsc_perm picks).length_eq]
      omega
    · exact mem_kenoPool.2 (hrange a ((sortAsc_perm picks).mem_iff.1 ha))

/-- What a Keno round reads of the picks. -/
theorem validateKeno_picks {value : RawSelection} {selection : GameSelection}
    (h : validateKeno value = .ok selection) : ∃ s, selection = .keno s ∧ Ticket (kenoPicks s) := by
  obtain ⟨s, rfl, ht⟩ := validateKeno_ticket h
  exact ⟨s, rfl, by rwa [kenoPicks_of_sorted ht.increasing]⟩

end Smink
