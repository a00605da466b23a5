import Smink.Engine.Games

/-!
# The seeded draws

`seededFloat` reads the first 52 bits of an HMAC, so a seed triple is a stream of rationals in `[0, 1)`, one for each
cursor. The digest itself is a parameter (`Digest`); everything below `seededFloat` is written over a `Stream`, the
values it returns for one triple.
-/

namespace Smink

/-- The digests of `node:crypto`: SHA-256 in hex, and the number in the first 13 hex digits of an HMAC-SHA256. -/
structure Digest where
  sha256 : String → String
  hmac : (key message : String) → Nat
  hmac_lt : ∀ key message, hmac key message < 2 ^ 52

/-- A digest whose draws are all zero. -/
def zeroDigest : Digest where
  sha256 _ := ""
  hmac _ _ := 0
  hmac_lt _ _ := by norm_num

/-- The floats of one round, by cursor. -/
abbrev Stream := Nat → ℚ

def hashSeed (D : Digest) (seed : String) : String := D.sha256 seed

/-- Deterministic float in `[0, 1)` derived from the seed triple. -/
def seededFloat (D : Digest) (seeds : SeedContext) : Stream := fun cursor =>
  (D.hmac seeds.serverSeed s!"{seeds.clientSeed}:{seeds.nonce}:{cursor}" : ℚ) / 2 ^ 52

/-- Every value of the stream is in `[0, 1)`. -/
def Stream.Unit (u : Stream) : Prop := ∀ cursor, 0 ≤ u cursor ∧ u cursor < 1

theorem seededFloat_unit (D : Digest) (seeds : SeedContext) : (seededFloat D seeds).Unit := by
  intro cursor
  have h : ((D.hmac seeds.serverSeed s!"{seeds.clientSeed}:{seeds.nonce}:{cursor}" : ℕ) : ℚ) < 2 ^ 52 := by
    exact_mod_cast D.hmac_lt _ _
  unfold seededFloat
  constructor
  · positivity
  · rw [div_lt_one (by positivity)]
    exact h

/-- Integer in `[lo, hi]`. -/
def seededInt (u : Stream) (lo hi : ℤ) (cursor : Nat := 0) : ℤ :=
  lo + ⌊u cursor * (hi - lo + 1)⌋

theorem seededInt_mem {u : Stream} (hu : u.Unit) (lo hi : ℤ) (h : lo ≤ hi) (cursor : Nat) :
    lo ≤ seededInt u lo hi cursor ∧ seededInt u lo hi cursor ≤ hi := by
  obtain ⟨h₀, h₁⟩ := hu cursor
  have hwidth : (0 : ℚ) < hi - lo + 1 := by
    have : (lo : ℚ) ≤ hi := by exact_mod_cast h
    linarith
  have hlo : 0 ≤ ⌊u cursor * (hi - lo + 1)⌋ := Int.floor_nonneg.2 (mul_nonneg h₀ hwidth.le)
  have hhi : ⌊u cursor * ((hi : ℚ) - lo + 1)⌋ < hi - lo + 1 := by
    rw [Int.floor_lt]
    push_cast
    nlinarith
  unfold seededInt
  omega

/-! ## The shuffle -/

section Shuffle

variable {α : Type}

/-- `[xs[i], xs[j]] = [xs[j], xs[i]]`, for indices in range. -/
def swap (xs : List α) (i j : Nat) : List α :=
  match xs[i]?, xs[j]? with
  | some a, some b => (xs.set i b).set j a
  | _, _ => xs

/-- The index `j` that step `i` of the shuffle swaps with. -/
def shuffleIndex (u : Stream) (cursorOffset i : Nat) : Nat := ⌊u (cursorOffset + i) * ((i : ℚ) + 1)⌋.toNat

/-- The loop of the shuffle, from `i` down to `1`. -/
def shuffleLoop (u : Stream) (cursorOffset : Nat) : Nat → List α → List α
  | 0, xs => xs
  | i + 1, xs => shuffleLoop u cursorOffset i (swap xs (i + 1) (shuffleIndex u cursorOffset (i + 1)))

/-- Fisher-Yates over a seeded stream. -/
def seededShuffle (items : List α) (u : Stream) (cursorOffset : Nat := 0) : List α :=
  shuffleLoop u cursorOffset (items.length - 1) items

theorem length_swap (xs : List α) (i j : Nat) : (swap xs i j).length = xs.length := by
  unfold swap
  split <;> simp

theorem shuffleIndex_le {u : Stream} (hu : u.Unit) (cursorOffset i : Nat) : shuffleIndex u cursorOffset i ≤ i := by
  have h := hu (cursorOffset + i)
  have hlt : u (cursorOffset + i) * ((i : ℚ) + 1) < (i : ℚ) + 1 := by
    have : (0 : ℚ) < (i : ℚ) + 1 := by positivity
    nlinarith
  have : ⌊u (cursorOffset + i) * ((i : ℚ) + 1)⌋ < (i : ℤ) + 1 := by
    rw [Int.floor_lt]
    exact_mod_cast hlt
  unfold shuffleIndex
  omega

end Shuffle

end Smink
