import Smink.Db.Seed
import Smink.Play.Effects

/-!
# Uncontrolled bets

A bet that no control decided is recorded with `wasControlled = false`, and its seeds give the round away: anyone can
roll it again. The cap of the control row is applied to every win, though, also to one that no rule has forced.
`uncontrolled_verifiable_iff` says when the record is that of the honest round all the same.
-/

namespace Smink

open Store

variable {db t : Db} {D : Digest} {fresh : Fresh} {userId sessionId : Id}

/-- The record is that of the round rolled from the bet's own seeds. -/
def Verifiable (D : Digest) (slug : GameSlug) (game : Game) (b : Bet) : Prop :=
  ∃ selection honest, b.selection = some selection ∧
    resolveRound slug selection (b.draws D) game.config none = some honest ∧
    b.multiplier = toFixed 4 honest.multiplier ∧ b.outcome = some honest.outcome ∧
    b.status = (if honest.won then .won else .lost) ∧ b.payout = betPayout honest b.stake

/-- Where the honest round wins, a cap in the control row of the player lies above its multiplier, or both come to the
same once rounded. -/
def CapIdle (D : Digest) (db : Db) (slug : GameSlug) (game : Game) (b : Bet) : Prop :=
  ∀ selection ∈ b.selection, ∀ honest ∈ resolveRound slug selection (b.draws D) game.config none, honest.won = true →
    ∀ cap ∈ (db.controlRule b.userId game.id).bind ControlRule.maxWinMultiplier, cap ≠ 0 →
      honest.multiplier ≤ cap ∨
      (toFixed 4 cap = toFixed 4 honest.multiplier ∧
        roundMoney (b.stake.toRat * cap) = roundMoney (b.stake.toRat * honest.multiplier))

instance (D : Digest) (db : Db) (slug : GameSlug) (game : Game) (b : Bet) : Decidable (CapIdle D db slug game b) :=
  inferInstanceAs (Decidable (∀ selection ∈ b.selection,
    ∀ honest ∈ resolveRound slug selection (b.draws D) game.config none, honest.won = true →
      ∀ cap ∈ (db.controlRule b.userId game.id).bind ControlRule.maxWinMultiplier, cap ≠ 0 →
        honest.multiplier ≤ cap ∨
        (toFixed 4 cap = toFixed 4 honest.multiplier ∧
          roundMoney (b.stake.toRat * cap) = roundMoney (b.stake.toRat * honest.multiplier))))

/-- A cap leaves the result alone, or lowers the multiplier of a win. -/
theorem applyWinCap_cases (result : RoundResult) (rule : Option ControlRule) :
    applyWinCap result rule = result ∧
      (∀ cap, rule.bind ControlRule.maxWinMultiplier = some cap → result.won = true → cap ≠ 0 →
        result.multiplier ≤ cap) ∨
    ∃ cap, rule.bind ControlRule.maxWinMultiplier = some cap ∧ result.won = true ∧ cap ≠ 0 ∧
      ¬ result.multiplier ≤ cap ∧ applyWinCap result rule = { result with multiplier := cap } := by
  unfold applyWinCap
  cases hcap : rule.bind ControlRule.maxWinMultiplier with
  | none => exact .inl ⟨rfl, fun cap h => nomatch h⟩
  | some cap =>
    dsimp only
    split_ifs with hidle hle
    · refine .inl ⟨rfl, fun cap' h hwon hne => ?_⟩
      obtain rfl := Option.some.inj h
      simp [hwon, hne] at hidle
    · refine .inl ⟨rfl, fun cap' h _ _ => ?_⟩
      obtain rfl := Option.some.inj h
      exact hle
    · simp only [Bool.or_eq_true, Bool.not_eq_true', decide_eq_true_eq, not_or, Bool.not_eq_false] at hidle
      exact .inr ⟨cap, rfl, hidle.1, hidle.2, hle, rfl⟩

/-- The bet that a run of `placeBet` has inserted. -/
theorem placed_of_new {slug : GameSlug} {b : Bet} (h : BetPlaced D db t userId slug) (hb : b ∈ t.bets.rows)
    (hnew : b ∉ db.bets.rows) : ∃ game forced selection raw, Placed D db userId slug game forced selection raw b := by
  obtain ⟨game, forced, selection, raw, b', hplaced, hins⟩ := h
  rw [Table.rows_insert hins, List.mem_append, List.mem_singleton] at hb
  obtain hb | rfl := hb
  · exact absurd hb hnew
  · exact ⟨game, forced, selection, raw, hplaced⟩

/-- **A bet recorded as uncontrolled is that of the honest round exactly when the cap is idle.** Both sides round in
exact arithmetic; doubles may round an exact half the other way, on both sides alike. -/
theorem uncontrolled_verifiable_iff {slug : GameSlug} {stakeInput : Num} {selectionInput : RawSelection}
    {a : Except Fault SettledBet} {b : Bet}
    (hrun : (placeBet D fresh userId sessionId slug stakeInput selectionInput).run exec db = (a, t))
    (hb : b ∈ t.bets.rows) (hnew : b ∉ db.bets.rows) (hfree : b.wasControlled = false) :
    ∃ game ∈ db.games.rows, game.id = b.gameId ∧ (Verifiable D slug game b ↔ CapIdle D db slug game b) := by
  have hends : Prog.Ends exec (placeBet D fresh userId sessionId slug stakeInput selectionInput) db fun _ t =>
      t.bets = db.bets ∨ BetPlaced D db t userId slug := ends_placeBet slug stakeInput selectionInput
  unfold Prog.Ends at hends
  rw [hrun] at hends
  obtain hsame | hplaced := hends
  · rw [hsame] at hb
    exact absurd hb hnew
  obtain ⟨game, forced, selection, raw, h⟩ := placed_of_new hplaced hb hnew
  obtain ⟨_, _, hseat, _⟩ := h.seat
  obtain rfl : forced = none := by
    have hforced := h.controlled_eq
    rw [hfree] at hforced
    simpa using hforced.symm
  refine ⟨game, hseat.game_mem, h.gameId_eq.symm, ?_⟩
  have hmult := h.multiplier_eq
  have hpay := h.payout_eq
  have hstatus := h.status_eq
  have hout := h.outcome_eq
  obtain ⟨hsame, hle⟩ | ⟨cap, hcap, hwon, hne, hlt, hcapped⟩ := applyWinCap_cases raw (db.controlRule userId game.id)
  · -- the cap has not touched the round
    rw [hsame] at hmult hpay hstatus hout
    refine iff_of_true ⟨selection, raw, h.selection_eq, h.raw_eq, hmult, hout, hstatus, hpay⟩ ?_
    intro selection' hsel honest hraw hwon cap hcap hne
    obtain rfl := Option.some.inj (h.selection_eq.symm.trans hsel)
    obtain rfl := Option.some.inj (h.raw_eq.symm.trans hraw)
    rw [h.userId_eq] at hcap
    exact .inl (hle cap hcap hwon hne)
  · rw [hcapped] at hmult hpay hstatus hout
    rw [betPayout, if_pos hwon] at hpay
    constructor
    · rintro ⟨selection', honest, hsel, hraw, hm, -, -, hp⟩ selection₂ hsel₂ honest₂ hraw₂ hwon₂ cap₂ hcap₂ -
      obtain rfl := Option.some.inj (h.selection_eq.symm.trans hsel)
      obtain rfl := Option.some.inj (h.raw_eq.symm.trans hraw)
      obtain rfl := Option.some.inj (h.selection_eq.symm.trans hsel₂)
      obtain rfl := Option.some.inj (h.raw_eq.symm.trans hraw₂)
      rw [h.userId_eq] at hcap₂
      obtain rfl := Option.some.inj (hcap.symm.trans hcap₂)
      rw [betPayout, if_pos hwon] at hp
      exact .inr ⟨hmult.symm.trans hm, hpay.symm.trans hp⟩
    · intro hidle
      have hcap' : (db.controlRule b.userId game.id).bind ControlRule.maxWinMultiplier = some cap := by
        rw [h.userId_eq]
        exact hcap
      obtain hle | ⟨hm, hp⟩ := hidle selection h.selection_eq raw h.raw_eq hwon cap hcap' hne
      · exact absurd hle hlt
      · refine ⟨selection, raw, h.selection_eq, h.raw_eq, hmult.trans hm, hout, hstatus, ?_⟩
        rw [betPayout, if_pos hwon]
        exact hpay.trans hp

/-- A coin-flip table at which a control row is switched off but still has a cap. -/
def cappedDb (cap : ℚ) : Db :=
  { tableDb .coinFlip with
    userGameControl := ⟨[{
      id := "c1"
      userId := "u1"
      gameId := none
      mode := .off
      winRate := none
      forceRounds := 0
      maxWinMultiplier := some cap }], List.pairwise_singleton _ _⟩ }

/-- The player bets $5 on heads, and heads comes up. -/
def headsBet (cap : ℚ) : Except Fault SettledBet × Db :=
  (placeBet zeroDigest (freshAt 1) "u1" "s1" .coinFlip (some 5) { side := "heads" }).run exec (cappedDb cap)

/-- The honest round pays 1.96; the record says 1.5 and that no control was used. -/
theorem uncontrolled_capped : ∃ b ∈ (headsBet (15 / 10)).2.bets.rows, b.wasControlled = false ∧
    b.multiplier = 15 / 10 ∧ ∃ selection ∈ b.selection, ∃ honest ∈ resolveRound .coinFlip selection (b.draws zeroDigest)
      { houseEdge := 2 / 100, maxMultiplier := 196 / 100 } none, honest.multiplier = 196 / 100 := by
  decide +kernel

/-- A cap of 2 is idle. -/
theorem uncontrolled_verifiable_iff_heads : ∃ b ∈ (headsBet 2).2.bets.rows, b.wasControlled = false ∧
    ∃ game ∈ (cappedDb 2).games.rows, Verifiable zeroDigest .coinFlip game b := by
  obtain ⟨b, hb, hfree, hidle⟩ : ∃ b ∈ (headsBet 2).2.bets.rows, b.wasControlled = false ∧
      ∀ game ∈ (cappedDb 2).games.rows, CapIdle zeroDigest (cappedDb 2) .coinFlip game b := by
    decide +kernel
  have hnew : b ∉ (cappedDb 2).bets.rows := by intro h; cases h
  obtain ⟨game, hgame, -, h⟩ := uncontrolled_verifiable_iff (a := (headsBet 2).1) rfl hb hnew hfree
  exact ⟨b, hb, hfree, game, hgame, h.2 (hidle game hgame)⟩

end Smink
