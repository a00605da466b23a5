import Mathlib.Logic.Function.Basic
import Mathlib.Tactic.Common

/-!
# A store whose entries expire

Keys with values, each kept for good or until a point in time, and a clock. An entry that is over is never answered
(`get`), whether it has been removed yet or not. A reader of the store can tell four things apart: what is put is there
(`get_put_self`), what is removed is not (`get_remove_self`), other keys are left alone (`get_put_of_ne`,
`get_remove_of_ne`), and time takes entries away and never changes one (`get_wait`).
-/

namespace Smink.Store

/-- A value, and the time after which it is over. -/
structure Entry (ν : Type) where
  value : ν
  expires : Option ℕ
  deriving DecidableEq

/-- The entry is answered at this time. It still is at the very time at which it expires. -/
def Entry.live {ν : Type} (now : ℕ) (e : Entry ν) : Bool := e.expires.all fun time => decide (now ≤ time)

structure Expiring (κ ν : Type) where
  now : ℕ
  entries : κ → Option (Entry ν)

namespace Expiring

variable {κ ν : Type}

/-- No entries. -/
def empty (now : ℕ) : Expiring κ ν := ⟨now, fun _ => none⟩

/-- The entry under the key, unless it is over. -/
def entry (s : Expiring κ ν) (k : κ) : Option (Entry ν) := (s.entries k).filter (Entry.live s.now)

def get (s : Expiring κ ν) (k : κ) : Option ν := (s.entry k).map Entry.value

def wait (s : Expiring κ ν) (n : ℕ) : Expiring κ ν := { s with now := s.now + n }

section Keys

variable [DecidableEq κ]

/-- The value replaces what is there, its time included. -/
def put (s : Expiring κ ν) (k : κ) (v : ν) (ttl : Option ℕ) : Expiring κ ν :=
  { s with entries := Function.update s.entries k (some ⟨v, ttl.map (s.now + ·)⟩) }

def remove (s : Expiring κ ν) (k : κ) : Expiring κ ν := { s with entries := Function.update s.entries k none }

end Keys

variable {s : Expiring κ ν} {k l : κ} {v : ν} {e : Entry ν} {ttl : Option ℕ} {n : ℕ}

theorem entry_eq_some : s.entry k = some e ↔ s.entries k = some e ∧ e.live s.now = true := by
  unfold entry
  rw [Option.filter_eq_some_iff]

theorem get_eq_some : s.get k = some v ↔ ∃ e, s.entry k = some e ∧ e.value = v := by
  unfold get
  rw [Option.map_eq_some_iff]

theorem get_eq_none : s.get k = none ↔ s.entry k = none := by
  unfold get
  rw [Option.map_eq_none_iff]

/-- What is over stays over. -/
theorem live_of_le {now : ℕ} (h : e.live (now + n) = true) : e.live now = true := by
  unfold Entry.live at h ⊢
  cases he : e.expires with
  | none => rfl
  | some time =>
    rw [he] at h
    simp only [Option.all_some, decide_eq_true_eq] at h ⊢
    omega

/-- Time takes entries away, and changes none. -/
theorem entry_wait : (s.wait n).entry k = (s.entry k).filter (Entry.live (s.now + n)) := by
  unfold entry wait
  dsimp only
  cases he : s.entries k with
  | none => rfl
  | some e =>
    by_cases hl : e.live (s.now + n) = true
    · simp [Option.filter, hl, live_of_le hl]
    · by_cases hnow : e.live s.now = true <;> simp [Option.filter, hl, hnow]

theorem get_wait (h : (s.wait n).get k = some v) : s.get k = some v := by
  obtain ⟨e, he, hv⟩ := get_eq_some.1 h
  rw [entry_wait, Option.filter_eq_some_iff] at he
  exact get_eq_some.2 ⟨e, he.1, hv⟩

theorem wait_wait (m n : ℕ) : (s.wait m).wait n = s.wait (n + m) := by
  unfold wait
  rw [Nat.add_comm n m, ← Nat.add_assoc]

@[simp] theorem entry_empty (now : ℕ) : (empty now : Expiring κ ν).entry k = none := rfl

section Keys

variable [DecidableEq κ]

@[simp] theorem entry_put_self : (s.put k v ttl).entry k = some ⟨v, ttl.map (s.now + ·)⟩ := by
  rw [entry_eq_some]
  unfold put Entry.live
  cases ttl <;> simp

theorem get_put_self : (s.put k v ttl).get k = some v := get_eq_some.2 ⟨_, entry_put_self, rfl⟩

@[simp] theorem entry_put_of_ne (h : l ≠ k) : (s.put k v ttl).entry l = s.entry l := by
  unfold entry put
  simp [Function.update_of_ne h]

/-- A value is there until its time is over. -/
theorem get_put_wait {time : ℕ} (h : n ≤ time) : ((s.put k v (some time)).wait n).get k = some v := by
  have hself : (s.put k v (some time)).entry k = some ⟨v, some (s.now + time)⟩ := entry_put_self
  have hlive : Entry.live (s.now + n) ⟨v, some (s.now + time)⟩ = true := by
    simp [Entry.live, h]
  refine get_eq_some.2 ⟨⟨v, some (s.now + time)⟩, ?_, rfl⟩
  rw [entry_wait, hself]
  exact Option.filter_some_pos hlive

theorem get_put_of_ne (h : l ≠ k) : (s.put k v ttl).get l = s.get l := by
  unfold get
  rw [entry_put_of_ne h]

@[simp] theorem entry_remove_self : (s.remove k).entry k = none := by
  unfold entry remove
  simp

theorem get_remove_self : (s.remove k).get k = none := get_eq_none.2 entry_remove_self

@[simp] theorem entry_remove_of_ne (h : l ≠ k) : (s.remove k).entry l = s.entry l := by
  unfold entry remove
  simp [Function.update_of_ne h]

theorem get_remove_of_ne (h : l ≠ k) : (s.remove k).get l = s.get l := by
  unfold get
  rw [entry_remove_of_ne h]

end Keys

end Expiring

end Smink.Store
