import Smink.Play.Caps

/-!
# A settled bet audits itself

A bet that is settled has paid its stake times the multiplier of its row, and a lost one has neither. The multiplier of
a round has two decimals in every game (`resolveRound_cent`), so the column that stores it with four reads back what
the payout was computed from. The two games that take the minimum of a table and the cap of their game count a round
as lost when that is not positive, and record it as it is: a cap below zero is the exception (`audited_run`,
`lost_below_zero`).
-/

namespace Smink

open Store

/-! ## Two decimals -/

section Cents

variable {x y : ℚ}

theorem CentCap.toFixed (h : CentCap x) : toFixed 4 x = x := by
  obtain ⟨n, rfl⟩ := h
  exact toFixed_of_cents n

theorem centCap_zero : CentCap 0 := ⟨0, by norm_num⟩

theorem centCap_round2 (x : ℚ) : CentCap (round2 x) := ⟨mathRound (x * 100), rfl⟩

theorem CentCap.min (hx : CentCap x) (hy : CentCap y) : CentCap (min x y) := by
  rcases min_choice x y with h | h
  · rwa [h]
  · rwa [h]

theorem CentCap.ifWon (h : CentCap x) (won : Bool) : CentCap (if won then x else 0) := by
  cases won
  · exact centCap_zero
  · exact h

/-- An entry of a table, tested. -/
theorem centCap_of_den (h : (x * 100).den = 1) : CentCap x := by
  refine ⟨(x * 100).num, ?_⟩
  rw [Rat.coe_int_num_of_den_eq_one h]
  ring

theorem centCap_fairMultiplier (winChance houseEdge : ℚ) : CentCap (fairMultiplier winChance houseEdge) := by
  unfold fairMultiplier
  split
  · exact centCap_zero
  · exact centCap_round2 _

theorem wheelSegments_cent (risk : Risk) : ∀ m ∈ WHEEL_SEGMENTS risk, CentCap m := by
  have hden : ∀ m ∈ WHEEL_SEGMENTS risk, (m * 100).den = 1 := by
    cases risk <;> decide +kernel
  exact fun m hm => centCap_of_den (hden m hm)

theorem plinkoBuckets_cent (risk : Risk) (rows : Nat) : ∀ m ∈ PLINKO_BUCKETS risk rows, CentCap m := by
  have hden : ∀ m ∈ PLINKO_BUCKETS risk rows, (m * 100).den = 1 := by
    fun_cases PLINKO_BUCKETS risk rows
    case case10 => simp
    all_goals decide +kernel
  exact fun m hm => centCap_of_den (hden m hm)

theorem kenoPayout_cent (pickCount hitCount : Nat) : CentCap (kenoPayout pickCount hitCount) := by
  have hden : ∀ p ∈ KENO_PAYTABLE pickCount, (p.2 * 100).den = 1 := by
    fun_cases KENO_PAYTABLE pickCount
    case case11 => simp
    all_goals decide +kernel
  exact lookup_of centCap_zero (fun p hp => centCap_of_den (hden p hp)) hitCount

end Cents

section Rounds

variable {slug : GameSlug} {selection : GameSelection} {u : Stream} {config : RoundConfig} {forced : ForcedResult}
  {result : RoundResult} {rule : Option ControlRule}

/-- The multiplier of a round has two decimals, in every game that settles at once. -/
theorem resolveRound_cent (hmax : CentCap config.maxMultiplier)
    (h : resolveRound slug selection u config forced = some result) : CentCap result.multiplier := by
  unfold resolveRound at h
  split at h <;> cases h
  · exact (centCap_fairMultiplier _ _).ifWon _
  · exact (centCap_fairMultiplier _ _).ifWon _
  · exact (centCap_round2 _).ifWon _
  · exact getD_of centCap_zero (wheelSegments_cent _) _
  · exact (getD_of centCap_zero (plinkoBuckets_cent _ _) _).min hmax
  · exact (kenoPayout_cent _ _).min hmax

/-- A lost round has multiplier zero, unless the cap of its game is below it. -/
theorem resolveRound_lost_eq (hmax : slug = .plinko ∨ slug = .keno → 0 ≤ config.maxMultiplier)
    (h : resolveRound slug selection u config forced = some result) (hlost : result.won = false) :
    result.multiplier = 0 := by
  refine le_antisymm (resolveRound_lost h hlost) ?_
  unfold resolveRound at h
  split at h <;> cases h
  · exact (if_neg (ne_true_of_eq_false hlost)).ge
  · exact (if_neg (ne_true_of_eq_false hlost)).ge
  · exact (if_neg (ne_true_of_eq_false hlost)).ge
  · exact resolveWheel_nonneg _ _ _
  · exact resolvePlinko_nonneg (hmax (.inl rfl)) _ _ _
  · exact resolveKeno_nonneg (hmax (.inr rfl)) _ _ _

theorem applyWinCap_won (result : RoundResult) (rule : Option ControlRule) :
    (applyWinCap result rule).won = result.won := by
  unfold applyWinCap
  split
  · rfl
  · split_ifs <;> rfl

theorem applyWinCap_lost (h : result.won = false) : applyWinCap result rule = result := by
  unfold applyWinCap
  split
  · rfl
  · rw [if_pos (by simp [h])]

theorem applyWinCap_cent (h : CentCap result.multiplier)
    (hcap : ∀ cap, rule.bind ControlRule.maxWinMultiplier = some cap → CentCap cap) :
    CentCap (applyWinCap result rule).multiplier := by
  unfold applyWinCap
  split
  · exact h
  · rename_i cap hrule
    split_ifs
    · exact h
    · exact h
    · exact hcap cap hrule

end Rounds

/-! ## The books of one bet -/

/-- The multiplier is stored as it was computed, a settled bet has paid its stake times the multiplier, and a lost one
has neither. -/
structure Audited (b : Bet) : Prop where
  cent : CentCap b.multiplier
  payout_eq : b.status ≠ .open → b.payout = roundMoney (b.stake.toRat * b.multiplier)
  lost : b.status = .lost → b.multiplier = 0 ∧ b.payout = 0

/-- The caps of the games have two decimals, and those of Plinko and Keno are not below zero. -/
structure SoundCaps (db : Db) : Prop where
  cents : ∀ game ∈ db.games.rows, CentCap game.maxMultiplier
  nonneg : ∀ game ∈ db.games.rows, game.slug = .plinko ∨ game.slug = .keno → 0 ≤ game.maxMultiplier

variable {D : Digest} {db t : Db} {userId : Id} {b bet bet' : Bet}

theorem roundMoney_zero : roundMoney 0 = 0 := by
  unfold roundMoney
  rw [zero_mul]
  exact_mod_cast mathRound_intCast 0

theorem audited_of_zero (hm : b.multiplier = 0) (hp : b.payout = 0) : Audited b := by
  constructor
  · rw [hm]
    exact centCap_zero
  · intro _
    rw [hm, hp, mul_zero, roundMoney_zero]
  · exact fun _ => ⟨hm, hp⟩

/-- A round that is capped by the rule that applies to it still has two decimals. -/
theorem cent_capped (hc : CentCaps db) {gameId : Id} {raw : RoundResult} (h : CentCap raw.multiplier) :
    CentCap (applyWinCap raw (db.controlRule userId gameId)).multiplier := by
  refine applyWinCap_cent h fun cap hcap => ?_
  obtain ⟨rule, hrule, hcap⟩ := Option.bind_eq_some_iff.1 hcap
  obtain ⟨row, hrow, rfl⟩ := Option.map_eq_some_iff.1 hrule
  exact hc row (mem_of_controlRow hrow) cap hcap

theorem Placed.cent {slug : GameSlug} {game : Game} {forced : ForcedResult} {selection : GameSelection}
    {raw : RoundResult} (hmax : CentCap game.maxMultiplier) (hc : CentCaps db)
    (h : Placed D db userId slug game forced selection raw b) :
    CentCap (applyWinCap raw (db.controlRule userId game.id)).multiplier :=
  cent_capped hc (resolveRound_cent hmax h.raw_eq)

/-- Four decimals lose nothing: the row has the multiplier of the round. -/
theorem Placed.multiplier_exact {slug : GameSlug} {game : Game} {forced : ForcedResult} {selection : GameSelection}
    {raw : RoundResult} (hmax : CentCap game.maxMultiplier) (hc : CentCaps db)
    (h : Placed D db userId slug game forced selection raw b) :
    b.multiplier = (applyWinCap raw (db.controlRule userId game.id)).multiplier :=
  h.multiplier_eq.trans (h.cent hmax hc).toFixed

theorem Placed.audited {slug : GameSlug} {game : Game} {forced : ForcedResult} {selection : GameSelection}
    {raw : RoundResult} (hs : SoundCaps db) (hc : CentCaps db)
    (h : Placed D db userId slug game forced selection raw b) : Audited b := by
  obtain ⟨_, _, hat, -⟩ := h.seat
  have hmax := hs.cents game hat.game_mem
  have hexact := h.multiplier_exact hmax hc
  have hpaid := h.payout_eq
  unfold betPayout at hpaid
  rw [applyWinCap_won] at hpaid
  cases hwon : raw.won with
  | true =>
    rw [hwon, if_pos rfl, ← hexact] at hpaid
    have hstatus := h.status_eq
    rw [applyWinCap_won, hwon, if_pos rfl] at hstatus
    refine ⟨hexact ▸ h.cent hmax hc, fun _ => hpaid, fun hlost => ?_⟩
    rw [hstatus] at hlost
    cases hlost
  | false =>
    rw [hwon, if_neg (by decide)] at hpaid
    have hsign : slug = .plinko ∨ slug = .keno → 0 ≤ game.maxMultiplier :=
      fun hslug => hs.nonneg game hat.game_mem (hat.game_slug ▸ hslug)
    refine audited_of_zero ?_ hpaid
    rw [hexact, applyWinCap_lost hwon]
    exact resolveRound_lost_eq hsign h.raw_eq hwon

/-- A bet that is cashed out pays the multiplier it has. -/
theorem audited_cashOut {now : Time} (hcent : CentCap b.multiplier) :
    Audited (Settable.apply (cashedOutSet now (cashOutPayout b)) b) :=
  ⟨hcent, fun _ => rfl, fun hlost => nomatch hlost⟩

/-- A reveal stores a multiplier of two decimals as it is. -/
theorem cent_reveal {multiplier : ℚ} (outcome : GameOutcome) (h : CentCap multiplier) :
    CentCap (Settable.apply (revealSet multiplier outcome) b).multiplier := by
  change CentCap (toFixed 4 multiplier)
  rwa [h.toFixed]

theorem minesMultiplier_cent (mineCount revealed : Nat) (houseEdge : ℚ) :
    CentCap (minesMultiplier mineCount revealed houseEdge) := by
  unfold minesMultiplier
  dsimp only
  split_ifs
  · exact centCap_zero
  · exact centCap_zero
  · exact centCap_round2 _

theorem towersMultiplier_cent (difficulty : TowersDifficulty) (climbed : Nat) (houseEdge : ℚ) :
    CentCap (towersMultiplier difficulty climbed houseEdge) := by
  unfold towersMultiplier
  split_ifs
  · exact centCap_zero
  · exact centCap_round2 _

theorem MinesMove.audited {houseEdge : ℚ} {step : Option Nat} (hb : CentCap bet.multiplier) (hopen : bet.status = .open)
    (h : MinesMove houseEdge bet step bet') : Audited bet' := by
  cases h with
  | hit now tile => exact audited_of_zero rfl rfl
  | safe tile =>
    have hcent := cent_reveal (b := bet) (.mines (bet.minePositions.getD []) (bet.revealed ++ [tile]))
      (minesMultiplier_cent bet.mineCount (bet.revealed.length + 1) houseEdge)
    exact ⟨hcent, fun hdone => absurd hopen hdone, fun hlost => nomatch hopen.symm.trans hlost⟩
  | clear now tile hlt hnew hsafe hfull shown hshown =>
    subst hshown
    exact audited_cashOut (cent_reveal _ (minesMultiplier_cent _ _ _))
  | cashOut now => exact audited_cashOut hb

theorem TowersMove.audited {houseEdge : ℚ} {step : Option Nat} (hb : CentCap bet.multiplier)
    (hopen : bet.status = .open) (h : TowersMove houseEdge bet step bet') : Audited bet' := by
  cases h with
  | hit now difficulty hd tile => exact audited_of_zero rfl rfl
  | safe difficulty hd tile =>
    have hcent := cent_reveal (b := bet) (.towers (bet.traps.getD []) (bet.picks ++ [tile]))
      (towersMultiplier_cent difficulty (bet.picks.length + 1) houseEdge)
    exact ⟨hcent, fun hdone => absurd hopen hdone, fun hlost => nomatch hopen.symm.trans hlost⟩
  | clear now difficulty hd tile hlt hsafe hrow shown hshown =>
    subst hshown
    exact audited_cashOut (cent_reveal _ (towersMultiplier_cent _ _ _))
  | cashOut now => exact audited_cashOut hb

/-! ## Runs -/

/-- Every bet audits itself. -/
def AuditedAll (db : Db) : Prop := ∀ b ∈ db.bets.rows, Audited b

theorem AuditedAll.insert (h : AuditedAll db) (hins : db.bets.insert b = some t.bets) (hb : Audited b) :
    AuditedAll t := by
  intro a ha
  rw [Table.rows_insert hins] at ha
  rcases List.mem_append.1 ha with ha | ha
  · exact h a ha
  · exact List.mem_singleton.1 ha ▸ hb

theorem AuditedAll.turn (h : AuditedAll db) (hturned : Turned db t bet bet') (hb : Audited bet') : AuditedAll t := by
  intro a ha
  rcases hturned.mem_iff.1 ha with rfl | ⟨ha, -⟩
  · exact hb
  · exact h a ha

theorem Opened.audited {Sel : Type} {G : GridGame Sel} {game : Game} {forced : ForcedResult} {selection : Sel}
    (h : Opened G D db userId game forced selection b) : Audited b :=
  audited_of_zero h.multiplier_eq h.payout_eq

theorem auditedAll_effect {request : Request} (hs : SoundCaps db) (hc : CentCaps db) (h : AuditedAll db)
    (he : BetEffect D db t request) : AuditedAll t := by
  cases he with
  | same _ hb =>
    intro b hmem
    exact h b (hb ▸ hmem)
  | placed hp =>
    obtain ⟨_, _, _, _, _, hplaced, hins⟩ := hp
    exact h.insert hins (hplaced.audited hs hc)
  | openedMines ho =>
    obtain ⟨_, _, _, _, hopened, hins⟩ := ho
    exact h.insert hins hopened.audited
  | openedTowers ho =>
    obtain ⟨_, _, _, _, hopened, hins⟩ := ho
    exact h.insert hins hopened.audited
  | shownMines _ hm =>
    obtain ⟨_, _, bet, _, _, hb, hturned, hmove⟩ := hm
    exact h.turn hturned (hmove.audited (h bet hb.mem).cent hb.status)
  | cashedOutMines hm =>
    obtain ⟨_, _, bet, _, _, hb, hturned, hmove⟩ := hm
    exact h.turn hturned (hmove.audited (h bet hb.mem).cent hb.status)
  | shownTowers _ hm =>
    obtain ⟨_, _, bet, _, _, hb, hturned, hmove⟩ := hm
    exact h.turn hturned (hmove.audited (h bet hb.mem).cent hb.status)
  | cashedOutTowers hm =>
    obtain ⟨_, _, bet, _, _, hb, hturned, hmove⟩ := hm
    exact h.turn hturned (hmove.audited (h bet hb.mem).cent hb.status)

theorem auditedAll_run : ∀ {requests : List (Fresh × Request)} {db : Db}, SoundCaps db → CentCaps db → AuditedAll db →
    ∀ s ∈ runRequests D requests db, AuditedAll s
  | [], _, _, _, _ => fun _ hs => nomatch hs
  | (fresh, request) :: rest, db, hs, hc, h => by
    have hnext := auditedAll_effect hs hc h (ends_serve D fresh request db)
    have hgames : ((serve D fresh request).run exec db).2.games = db.games := run_games rfl
    have hsound : SoundCaps ((serve D fresh request).run exec db).2 :=
      ⟨by rw [hgames]; exact hs.cents, by rw [hgames]; exact hs.nonneg⟩
    unfold runRequests
    rw [List.forall_mem_cons]
    exact ⟨hnext, auditedAll_run hsound (run_centCaps rfl hc) hnext⟩

/-- **Every settled bet audits itself**, after any requests, while no cap of Plinko or Keno is below zero. -/
theorem audited_run (D : Digest) (requests : List (Fresh × Request)) (db : Db) (hs : SoundCaps db)
    (hc : CentCaps db) (hnone : db.bets.rows = []) :
    ∀ s ∈ runRequests D requests db, ∀ b ∈ s.bets.rows, b.status = .won ∨ b.status = .lost ∨ b.status = .cashedOut →
      b.payout = roundMoney (b.stake.toRat * b.multiplier) ∧ CentCap b.multiplier ∧
        (b.status = .lost → b.multiplier = 0 ∧ b.payout = 0) := by
  intro s hmem b hb hsettled
  have hstart : AuditedAll db := by
    intro a ha
    rw [hnone] at ha
    cases ha
  have haudit := auditedAll_run hs hc hstart s hmem b hb
  refine ⟨haudit.payout_eq ?_, haudit.cent, haudit.lost⟩
  rintro hopen
  simp [hopen] at hsettled

theorem tableDb_soundCaps (slug : GameSlug) : SoundCaps (tableDb slug) :=
  ⟨catalogue_cents, fun game hg _ => (catalogue_sound game hg).2.2⟩

theorem audited_run_minesRound :
    (∃ s ∈ runRequests zeroDigest minesRound (tableDb .mines), ∃ b ∈ s.bets.rows, b.status = .cashedOut) ∧
    ∀ s ∈ runRequests zeroDigest minesRound (tableDb .mines), ∀ b ∈ s.bets.rows,
      b.status = .won ∨ b.status = .lost ∨ b.status = .cashedOut →
        b.payout = roundMoney (b.stake.toRat * b.multiplier) ∧ CentCap b.multiplier ∧
          (b.status = .lost → b.multiplier = 0 ∧ b.payout = 0) :=
  ⟨by decide +kernel,
    audited_run zeroDigest minesRound (tableDb .mines) (tableDb_soundCaps .mines) (fun _ hrow => nomatch hrow) rfl⟩

/-- A table whose games have the cap `-1`. -/
def cappedBelowZero (slug : GameSlug) : Db :=
  { tableDb slug with games := ⟨catalogue.map fun game => { game with maxMultiplier := -1 }, by decide +kernel⟩ }

/-- A Plinko drop there is lost with the multiplier `-1`. -/
theorem lost_below_zero :
    CentCap (-1) ∧ (∀ game ∈ (cappedBelowZero .plinko).games.rows, game.maxMultiplier = -1) ∧
      ∃ s ∈ runRequests zeroDigest
          [(freshAt 1, .placeBet "u1" "s1" .plinko (some 5) { risk := "low", rows := some 8 })]
          (cappedBelowZero .plinko),
        ∃ b ∈ s.bets.rows, b.status = .lost ∧ b.multiplier = -1 ∧ b.payout = 0 ∧
          ¬ (b.payout = roundMoney (b.stake.toRat * b.multiplier) ∧ b.multiplier = 0) :=
  ⟨⟨-100, by norm_num⟩, by decide +kernel, by decide +kernel⟩

end Smink
