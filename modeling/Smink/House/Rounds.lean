import Smink.Store.Simulation
import Mathlib.Algebra.Group.Pi.Basic
import Mathlib.Algebra.Order.Group.Defs

/-!
# A house and its rounds

A house holds a balance for each player and keeps a record of the rounds played: who plays which game for what stake,
and what has been paid out once the round is over. An `Act` places a bet that is settled at once, starts a round,
finishes one, or brings money in; `House.Allows` is what the house asks of it.

The record and the balances follow from the acts. A balance is the first one plus what the acts were worth to the player
(`balance_trace`), each round on record has been begun by one act (`begun_once`), and paid out by one, if at all
(`paid_once`).
-/

namespace Smink

open Store

structure House.Round (P G M : Type) where
  player : P
  game : G
  stake : M
  /-- `none` while the round is open. -/
  payout : Option M
  deriving DecidableEq

structure House (P G R M : Type) where
  balance : P → M
  rounds : R → Option (House.Round P G M)

namespace House

inductive Act (P G R M : Type)
  | pass
  | deposit (player : P) (amount : M)
  | play (round : R) (player : P) (game : G) (stake payout : M)
  | start (round : R) (player : P) (game : G) (stake : M)
  | finish (round : R) (player : P) (payout : M)
  deriving DecidableEq

section Acts

variable {P G R M : Type} [DecidableEq P] [DecidableEq R] [AddCommGroup M] [LinearOrder M]

/-- What the act adds to the balances. -/
def Act.worth : Act P G R M → P → M
  | .pass => 0
  | .deposit player amount => Pi.single player amount
  | .play _ player _ stake payout => Pi.single player (payout - stake)
  | .start _ player _ stake => Pi.single player (-stake)
  | .finish _ player payout => Pi.single player payout

/-- The record after the act. -/
def Act.record : Act P G R M → (R → Option (Round P G M)) → R → Option (Round P G M)
  | .pass, rounds | .deposit _ _, rounds => rounds
  | .play round player game stake payout, rounds =>
    Function.update rounds round (some ⟨player, game, stake, some payout⟩)
  | .start round player game stake, rounds => Function.update rounds round (some ⟨player, game, stake, none⟩)
  | .finish round _ payout, rounds =>
    Function.update rounds round ((rounds round).map fun x => { x with payout := some payout })

def after (h : House P G R M) (a : Act P G R M) : House P G R M :=
  { balance := h.balance + a.worth, rounds := a.record h.rounds }

/-- The player can cover the stake, and the round is a new one. -/
def Covers (h : House P G R M) (round : R) (player : P) (stake : M) : Prop :=
  h.rounds round = none ∧ 0 < stake ∧ stake ≤ h.balance player

/-- A player has one open round of a game at a time, and no round pays a negative amount. -/
def Allows (h : House P G R M) : Act P G R M → Prop
  | .pass => True
  | .deposit _ amount => 0 ≤ amount
  | .play round player _ stake payout => h.Covers round player stake ∧ 0 ≤ payout
  | .start round player game stake =>
    h.Covers round player stake ∧
      ∀ other x, h.rounds other = some x → x.player = player → x.game = game → x.payout ≠ none
  | .finish round player payout => (∃ x, h.rounds round = some x ∧ x.player = player ∧ x.payout = none) ∧ 0 ≤ payout

/-- One act of a house. -/
def Step (h : House P G R M) (a : Act P G R M) (h' : House P G R M) : Prop := h.Allows a ∧ h' = h.after a

/-- The act begins the round. -/
def Act.begins (round : R) : Act P G R M → Bool
  | .play r _ _ _ _ | .start r _ _ _ => r == round
  | _ => false

/-- The act pays the round out. -/
def Act.pays (round : R) : Act P G R M → Bool
  | .play r _ _ _ _ | .finish r _ _ => r == round
  | _ => false

def Begun (h : House P G R M) (round : R) : Bool := (h.rounds round).isSome

def Over (h : House P G R M) (round : R) : Bool := (h.rounds round).any fun x => x.payout.isSome

variable {h h' : House P G R M} {a : Act P G R M} {acts : List (Act P G R M)}

/-! ## One act -/

section Marks

variable {V : Type} {rounds : R → Option V} {f : Option V → Bool} {r round : R} {v : Option V}

/-- A round that gets its mark. -/
theorem mark_update (hold : f (rounds r) = false) (hnew : f v = true) :
    (f (Function.update rounds r v round)).toNat = (f (rounds round)).toNat + (r == round).toNat := by
  by_cases hr : r = round
  · subst hr
    simp [hold, hnew]
  · simp [Function.update_of_ne (Ne.symm hr), hr]

theorem mark_update_same (h : f v = f (rounds r)) : f (Function.update rounds r v round) = f (rounds round) := by
  by_cases hr : r = round
  · subst hr
    simp [h]
  · simp [Function.update_of_ne (Ne.symm hr)]

end Marks

theorem begun_step (round : R) (hs : Step h a h') :
    (h'.Begun round).toNat = (h.Begun round).toNat + (a.begins round).toNat := by
  obtain ⟨hallows, rfl⟩ := hs
  cases a with
  | pass => rfl
  | deposit player amount => rfl
  | play r player game stake payout =>
    obtain ⟨⟨hnew, -⟩, -⟩ := hallows
    exact mark_update (f := Option.isSome) (by simp [hnew]) rfl
  | start r player game stake =>
    obtain ⟨⟨hnew, -⟩, -⟩ := hallows
    exact mark_update (f := Option.isSome) (by simp [hnew]) rfl
  | finish r player payout =>
    exact congrArg Bool.toNat (mark_update_same (f := Option.isSome) (by simp))

theorem over_step (round : R) (hs : Step h a h') :
    (h'.Over round).toNat = (h.Over round).toNat + (a.pays round).toNat := by
  obtain ⟨hallows, rfl⟩ := hs
  let paid : Option (Round P G M) → Bool := fun x => x.any fun x => x.payout.isSome
  cases a with
  | pass => rfl
  | deposit player amount => rfl
  | play r player game stake payout =>
    obtain ⟨⟨hnew, -⟩, -⟩ := hallows
    exact mark_update (f := paid) (by simp [paid, hnew]) rfl
  | start r player game stake =>
    obtain ⟨⟨hnew, -⟩, -⟩ := hallows
    exact congrArg Bool.toNat (mark_update_same (f := paid) (by simp [paid, hnew]))
  | finish r player payout =>
    obtain ⟨⟨x, hx, -, hopen⟩, -⟩ := hallows
    exact mark_update (f := paid) (by simp [paid, hx, hopen]) (by simp [paid, hx])

/-! ## Traces -/

theorem sum_toNat_eq_countP {A : Type} (p : A → Bool) (l : List A) : (l.map fun a => (p a).toNat).sum = l.countP p := by
  induction l with
  | nil => rfl
  | cons a l ih =>
    rw [List.map_cons, List.sum_cons, ih, List.countP_cons]
    cases p a <;> simp [add_comm]

/-- **A balance is the first one plus what the acts were worth.** -/
theorem balance_trace (ht : Trace Step h acts h') : h'.balance = h.balance + (acts.map Act.worth).sum :=
  ht.sum_eq fun _ _ _ hs => by rw [hs.2]; rfl

/-- **A round is begun once**, unless it had been before. -/
theorem begun_once (ht : Trace Step h acts h') (round : R) :
    (h'.Begun round).toNat = (h.Begun round).toNat + acts.countP (Act.begins round) := by
  rw [← sum_toNat_eq_countP]
  exact ht.sum_eq fun _ _ _ hs => begun_step round hs

/-- **A round is paid out once**, and over from then on. -/
theorem paid_once (ht : Trace Step h acts h') (round : R) :
    (h'.Over round).toNat = (h.Over round).toNat + acts.countP (Act.pays round) := by
  rw [← sum_toNat_eq_countP]
  exact ht.sum_eq fun _ _ _ hs => over_step round hs

end Acts

end House

end Smink
