import Smink.Gateway.Site
import Smink.Play.Spared

/-!
# What the guards are for

The engine takes a player's id from the envelope and asks nothing further. What keeps it right are the guards of the
gateway: in every interleaving of HTTP requests, engine messages, deposits and the worker, an envelope is what somebody
who was let in has asked for (`envelopes_vouched`), and the rows of a player change only through a request of the
player's own, its money only while Ably had the player present (`gateway_guards`).
-/

namespace Smink

open Store

/-- The sessions of a database apart, the rows of the user are as they were. -/
structure MoneyUntouched (userId : Id) (db t : Db) : Prop where
  wallets : t.sminkWallets.owned userId = db.sminkWallets.owned userId
  transactions : t.sminkTransactions.owned userId = db.sminkTransactions.owned userId
  bets : t.bets.owned userId = db.bets.owned userId
  controls : t.userGameControl.owned userId = db.userGameControl.owned userId

/-! ## The engine -/

/-- A call that does not act for the watched user; where sessions do not count, one that does not play for it. -/
def Watch.Excuses (W : Watch) : SiteCall → Prop
  | .http moment request => ∀ user, Admits moment request user → user.userId = W.userId →
    ¬ W.sessions ∧ request.route.presenceGuard = false
  | .credit _ depositId _ => ∀ r ∈ W.db.sminkTransactions.rows, r.id = depositId → r.userId ≠ W.userId
  | _ => True

/-- What the queue holds leaves the watched rows alone, and they are as they were. -/
def guardDiscipline (W : Watch) : Discipline SiteCall Hop Site Unit where
  inv w _ := (∀ envelope ∈ w.store.envelopes, ∀ request ∈ envelope.request, W.Allows request) ∧
    W.Untouched w.store.net.db
  rely w v := OwnersKept w.store.net.db v.store.net.db
  rely_refl w := .refl w.store.net.db
  rely_trans := .trans
  ok _ call _ := W.Excuses call

/-- The same of the other services, on the database. -/
def netGuard (W : Watch) : Discipline SiteCall Wire Net Unit := (watchDiscipline W).on Net.db

section Services

variable {W : Watch} {D : Digest} {call : SiteCall} {w : World SiteCall Wire Net} {v : World SiteCall Hop Site}
  {fresh : Fresh} {emission : Emission} {fails : Target → Bool} {α : Type}

theorem logFree_watch : LogFree (watchDiscipline W) where
  inv _ _ _ _ h := h
  rely _ _ _ _ _ _ h := h
  ok _ _ _ := trivial

theorem logFree_netGuard : LogFree (netGuard W) where
  inv _ _ _ _ h := h
  rely _ _ _ _ _ _ h := h
  ok _ _ _ := trivial

theorem guard_hosts : Hosts (netGuard W) (guardDiscipline W) Site.net fun site net => { site with net } where
  inv _ _ h := h.2
  rely _ _ h := h
  step w _ _ t _ _ _ h hrely hinv ht := by
    have henvelopes : t.envelopes = w.store.envelopes := by rw [ht]
    exact ⟨hrely, fun envelope he => h.1 envelope (henvelopes ▸ he), hinv⟩

theorem net_spared (i : Call) {p : Sql α} (hp : ∀ u, Spared W i p u) :
    Safe (netGuard W) execNet call (Sql.wired p) w 0 Released :=
  safe_embed logFree_watch embeds_db (hosts_on _ _) (Q := fun _ _ g => g = 0) (hp ⟨w.store.db, []⟩)

/-- What has nothing to do with the database. -/
theorem net_offDb {p : Wired α} (hp : p.Only Wire.offDb) : Safe (netGuard W) execNet call p w 0 Released := by
  refine (safe_only (u := w) (fun v q g r s hq _ hi hr => ?_) hp ((netGuard W).rely_refl w)).mono fun _ _ _ h => h.2
  have hdb : s.db = v.store.db := execNet_db hq hr
  constructor
  · show OwnersKept v.store.db s.db
    rw [hdb]
    exact .refl _
  · show W.Untouched s.db
    rw [hdb]
    exact hi

/-- The handler of a request that leaves the watched rows alone. -/
theorem net_handler_allowed {request : Request} (h : W.Allows request) :
    Safe (netGuard W) execNet call (EngineController.handler D fresh emission fails request) w 0 Released := by
  refine safe_bind_released (net_spared (.play fresh request) fun _ => spared_serve D fresh h) fun response v => ?_
  refine safe_bind_released (net_offDb (only_wired (Prog.only_all (fun _ => trivial) _))) fun done u => ?_
  split
  · exact rfl
  · split
    · exact rfl
    · exact rfl

theorem site_routed {p : Wired α} (hp : ∀ u, Safe (netGuard W) execNet call p u 0 Released) :
    Safe (guardDiscipline W) execSite call p.routed v 0 Released :=
  safe_embed logFree_netGuard embeds_net guard_hosts (Q := fun _ _ g => g = 0) (hp ⟨v.store.net, []⟩)

/-- A statement that only reads, or replies, and what it has read. -/
theorem site_hop {q : Hop} {Q : q.Resp → World SiteCall Hop Site → Unit → Prop}
    (hq : ∀ s r t, execSite q s = .ok (r, t) → t.net = s.net ∧ t.envelopes = s.envelopes)
    (hQ : ∀ u r t, (guardDiscipline W).inv u () → execSite q u.store = .ok (r, t) → Q r (u.after call q t) 0) :
    Safe (guardDiscipline W) execSite call (hop q) v 0 Q := by
  intro u hu frame hi _ r t hr
  obtain ⟨hnet, henvelopes⟩ := hq _ _ _ hr
  refine ⟨?_, 0, ?_, hQ u r t hi hr⟩
  · show OwnersKept u.store.net.db t.net.db
    rw [hnet]
    exact .refl _
  · obtain ⟨hall, huntouched⟩ := hi
    refine ⟨fun envelope he => hall envelope (henvelopes ▸ he), ?_⟩
    show W.Untouched t.net.db
    rw [hnet]
    exact huntouched

theorem site_await (n : Nat) : Safe (guardDiscipline W) execSite call (hop (.await n)) v 0 Released :=
  site_hop (fun s r t h => by cases h; exact ⟨rfl, rfl⟩) fun _ _ _ _ _ => rfl

theorem site_reply (n : Nat) (reply : Reply) :
    Safe (guardDiscipline W) execSite call (EngineController.reply n reply) v 0 Released :=
  site_hop (fun s r t h => by cases h; exact ⟨rfl, rfl⟩) fun _ _ _ _ _ => rfl

/-- What is taken has nothing to do with the database. -/
theorem site_takeJob (n : Nat) : Safe (guardDiscipline W) execSite call (hop (.wire (.takeJob n))) v 0 Released :=
  site_hop (fun s r t h => by cases h; exact ⟨rfl, rfl⟩) fun _ _ _ _ _ => rfl

theorem site_takeEvent (n : Nat) : Safe (guardDiscipline W) execSite call (hop (.wire (.takeEvent n))) v 0 Released :=
  site_hop (fun s r t h => by cases h; exact ⟨rfl, rfl⟩) fun _ _ _ _ _ => rfl

/-- The engine takes what the queue allows. -/
theorem site_onMessage (n : Nat) :
    Safe (guardDiscipline W) execSite call (EngineController.onMessage D fresh emission fails n) v 0 Released := by
  refine safe_bind (site_hop (fun s r t h => by cases h; exact ⟨rfl, rfl⟩) fun u r t hi hr => ?_)
  cases hr
  split
  · exact rfl
  rename_i envelope henvelope
  split
  · rename_i request hrequest
    have hallowed := hi.1 envelope (List.mem_of_getElem? henvelope) request hrequest
    have hhandler : ∀ u : World SiteCall Hop Site, Safe (guardDiscipline W) execSite call
        (EngineController.handler D fresh emission fails request).routed u 0 Released :=
      fun _ => site_routed fun _ => net_handler_allowed hallowed
    refine safe_bind ((safe_attempt (hhandler _)).mono fun result x g _ => ?_)
    obtain rfl : g = 0 := Subsingleton.elim g 0
    exact site_reply n _
  · split
    · exact site_reply n .pong
    · exact rfl

/-! ## The gateway -/

theorem site_send {envelope : RpcEnvelope} (hall : ∀ request ∈ envelope.request, W.Allows request) :
    Safe (guardDiscipline W) execSite call (hop (.send envelope)) v 0 Released := by
  intro u hu frame hi _ r t hr
  cases hr
  refine ⟨.refl _, 0, ⟨fun e he => ?_, hi.2⟩, rfl⟩
  rcases List.mem_append.1 he with he | he
  · exact hi.1 e he
  · rw [List.mem_singleton.1 he]
    exact hall

theorem site_ping : Safe (guardDiscipline W) execSite call EngineClient.ping v 0 Released := by
  refine safe_bind_released (site_send fun r hr => by cases hr) fun n u => ?_
  refine safe_bind_released (site_await n) fun reply u => ?_
  split
  · exact rfl
  · exact rfl

theorem site_engineClient {envelope : RpcEnvelope} (hall : ∀ request ∈ envelope.request, W.Allows request) :
    Safe (guardDiscipline W) execSite call (EngineClient.send envelope) v 0 Released := by
  refine safe_bind_released (site_send hall) fun n u => ?_
  refine safe_bind_released (site_await n) fun reply u => ?_
  split
  · exact rfl
  · exact rfl

/-- What is sent without a look at who is present spares money. -/
theorem sparesMoney_of_envelope {route : Route} {userId : Id} {body : Body} {envelope : RpcEnvelope} {request : Request}
    (hroute : route.presenceGuard = false) (h : route.envelope userId body = some envelope)
    (hrequest : envelope.request = some request) : request.sparesMoney = true := by
  cases route <;> cases hroute <;> cases h <;> cases hrequest <;> rfl

theorem site_answer {moment : Moment} {request : HttpRequest} (h : W.Excuses (.http moment request)) :
    Safe (guardDiscipline W) execSite call (GatewayController.answer moment request) v 0 Released := by
  unfold GatewayController.answer
  split
  · rename_i passed hadmit
    unfold GatewayController.handle
    split
    · exact safe_bind_released site_ping fun _ _ => rfl
    · rename_i user
      obtain ⟨hadmits, hvalid⟩ := admits_of_admit hadmit
      split
      · rename_i envelope henvelope
        refine safe_bind_released (site_engineClient fun r hr => ?_) fun _ _ => rfl
        obtain ⟨found, hfound, huser, -⟩ := request_of_envelope hvalid henvelope
        obtain rfl : found = r := Option.some.inj (hfound.symm.trans hr)
        by_cases hwatched : user.userId = W.userId
        · obtain ⟨hsessions, hpresence⟩ := h user hadmits hwatched
          exact .inr ⟨hsessions, sparesMoney_of_envelope hpresence henvelope hfound⟩
        · exact .inl (by rw [huser]; exact hwatched)
      · split
        · exact rfl
        · exact rfl
  · exact rfl

/-- Every call keeps the discipline. -/
theorem site_prog (D : Digest) (call : SiteCall) (v : World SiteCall Hop Site) :
    Safe (guardDiscipline W) execSite call (call.prog D) v 0 Released := by
  refine safe_assume (P := W.Excuses call) (fun _ _ h => h) fun hexcuses => ?_
  cases call with
  | http moment request => exact safe_bind_released (site_answer hexcuses) fun _ _ => rfl
  | message n fresh emission fails => exact safe_bind_released (site_onMessage n) fun _ _ => rfl
  | credit now depositId extraMetadata =>
    refine safe_bind_released (site_routed fun _ => ?_) fun _ _ => rfl
    exact net_spared (.credit now depositId extraMetadata) fun _ => spared_creditDeposit hexcuses now extraMetadata
  | job n fails =>
    refine safe_bind_released (site_takeJob n) fun job u => ?_
    exact safe_bind_released (site_routed fun _ => net_offDb (offDb_take job)) fun _ _ => rfl
  | event n fails =>
    refine safe_bind_released (site_takeEvent n) fun event u => ?_
    exact safe_bind_released (site_routed fun _ => net_offDb (offDb_takeEvent event)) fun _ _ => rfl

end Services

/-! ## The queue -/

/-- The statement sends nothing to the engine. -/
def Hop.silent : Hop → Prop
  | .send _ => False
  | _ => True

/-- The HTTP request, by a player who was let in, is what the envelope is sent for. The engine reads in it what is asked
at that route, by that player, with the values of the path or the body; the values have passed the checks, and there are
no others. What can move money was let in while the player was present. -/
structure VouchedBy (moment : Moment) (request : HttpRequest) (user : AuthUser) (envelope : RpcEnvelope)
    (asked : Request) : Prop where
  admits : Admits moment request user
  asked_eq : envelope.request = some asked
  userId_eq : asked.userId = user.userId
  asks : request.route.Asks request.body asked
  checked : asked.Checked
  known : ∀ entry ∈ envelope.payload, entry.1 ∈ asked.properties
  knownBody : request.route.dto.isSome = true → ∀ entry ∈ request.body, entry.1 ∈ asked.properties
  present : request.route.presenceGuard = true ∨ asked.sparesMoney = true

/-- One of the calls vouches for the envelope. -/
def Vouched (moves : List (Move SiteCall Fault)) (envelope : RpcEnvelope) : Prop :=
  ∃ moment request user asked, Move.start (.http moment request) ∈ moves ∧
    VouchedBy moment request user envelope asked

/-- Every envelope of the queue is vouched for, or asks whether the engine is there. -/
def queueDiscipline (moves : List (Move SiteCall Fault)) : Discipline SiteCall Hop Site Unit where
  inv w _ := ∀ envelope ∈ w.store.envelopes, envelope.command = .ping ∨ Vouched moves envelope
  rely _ _ := True
  rely_refl _ := trivial
  rely_trans _ _ := trivial
  ok _ call _ := Move.start call ∈ moves

section Queue

variable {moves : List (Move SiteCall Fault)} {D : Digest} {call : SiteCall} {v : World SiteCall Hop Site} {α : Type}

theorem execSite_silent {q : Hop} (hq : q.silent) {s t : Site} {r : q.Resp} (h : execSite q s = .ok (r, t)) :
    t.envelopes = s.envelopes := by
  cases q with
  | send envelope => exact hq.elim
  | wire q =>
    simp only [execSite] at h
    split at h <;> cases h
    rfl
  | _ => cases h; rfl

theorem queue_silent {p : Routed α} (hp : p.Only Hop.silent) :
    Safe (queueDiscipline moves) execSite call p v 0 Released := by
  refine (safe_only (u := v) (fun w q g r s hq _ hi hr => ⟨trivial, ?_⟩) hp trivial).mono fun _ _ _ h => h.2
  show ∀ envelope ∈ s.envelopes, _
  rw [execSite_silent hq hr]
  exact hi

theorem queue_send {envelope : RpcEnvelope} (h : envelope.command = .ping ∨ Vouched moves envelope) :
    Safe (queueDiscipline moves) execSite call (hop (.send envelope)) v 0 Released := by
  intro u _ frame hi _ r t hr
  cases hr
  refine ⟨trivial, 0, fun e he => ?_, rfl⟩
  rcases List.mem_append.1 he with he | he
  · exact hi e he
  · rw [List.mem_singleton.1 he]
    exact h

theorem only_hop {q : Hop} (hq : q.silent) : (hop q).Only Hop.silent := ⟨hq, fun _ => trivial⟩

theorem only_routed (p : Wired α) : p.routed.Only Hop.silent := Prog.only_embed (fun _ => trivial) p

theorem queue_engineClient {envelope : RpcEnvelope} (h : Vouched moves envelope) :
    Safe (queueDiscipline moves) execSite call (EngineClient.send envelope) v 0 Released := by
  refine safe_bind_released (queue_send (.inr h)) fun n u => queue_silent ?_
  refine Prog.only_bind (only_hop (q := .await n) trivial) fun reply => ?_
  split
  · trivial
  · trivial

theorem queue_ping : Safe (queueDiscipline moves) execSite call EngineClient.ping v 0 Released := by
  refine safe_bind_released (queue_send (.inl rfl)) fun n u => queue_silent ?_
  refine Prog.only_bind (only_hop (q := .await n) trivial) fun reply => ?_
  split
  · trivial
  · trivial

theorem queue_answer {moment : Moment} {request : HttpRequest} (h : Move.start (.http moment request) ∈ moves) :
    Safe (queueDiscipline moves) execSite call (GatewayController.answer moment request) v 0 Released := by
  unfold GatewayController.answer
  split
  · rename_i passed hadmit
    unfold GatewayController.handle
    split
    · exact safe_bind_released queue_ping fun _ _ => rfl
    · rename_i user
      obtain ⟨hadmits, hvalid⟩ := admits_of_admit hadmit
      split
      · rename_i envelope henvelope
        refine safe_bind_released (queue_engineClient ?_) fun _ _ => rfl
        obtain ⟨asked, hasked, huser, hchecked, hasks, hknown⟩ := request_of_envelope hvalid henvelope
        refine ⟨moment, request, user, asked, h, ⟨hadmits, hasked, huser, hasks, hchecked, hknown, fun hdto => ?_, ?_⟩⟩
        · exact properties_of_asks hasks hvalid hdto
        · cases hroute : request.route.presenceGuard with
          | true => exact .inl rfl
          | false => exact .inr (sparesMoney_of_envelope hroute henvelope hasked)
      · split
        · exact rfl
        · exact rfl
  · exact rfl

theorem only_onMessage {fresh : Fresh} {emission : Emission} {fails : Target → Bool} (n : Nat) :
    (EngineController.onMessage D fresh emission fails n).Only Hop.silent := by
  refine Prog.only_bind (only_hop (q := .receive n) trivial) fun envelope => ?_
  split
  · trivial
  · split
    · exact Prog.only_bind (Prog.only_attempt (only_routed _)) fun result => ⟨trivial, fun _ => trivial⟩
    · split
      · exact ⟨trivial, fun _ => trivial⟩
      · trivial

theorem queue_prog (D : Digest) (call : SiteCall) (v : World SiteCall Hop Site) :
    Safe (queueDiscipline moves) execSite call (call.prog D) v 0 Released := by
  refine safe_assume (P := Move.start call ∈ moves) (fun _ _ h => h) fun hstarted => ?_
  cases call with
  | http moment request => exact safe_bind_released (queue_answer hstarted) fun _ _ => rfl
  | message n fresh emission fails => exact queue_silent (Prog.only_bind (only_onMessage n) fun _ => trivial)
  | credit now depositId extraMetadata => exact queue_silent (Prog.only_bind (only_routed _) fun _ => trivial)
  | job n fails =>
    refine queue_silent (Prog.only_bind (only_hop (q := .wire (.takeJob n)) trivial) fun job => ?_)
    exact Prog.only_bind (only_routed _) fun _ => trivial
  | event n fails =>
    refine queue_silent (Prog.only_bind (only_hop (q := .wire (.takeEvent n)) trivial) fun event => ?_)
    exact Prog.only_bind (only_routed _) fun _ => trivial

end Queue

/-! ## Runs -/

/-- **Every envelope in the engine's queue is what one of the HTTP requests asks for**, by a player who was let in and
with checked values, in every state of every interleaving. -/
theorem envelopes_vouched (D : Digest) (db : Db) (moves : List (Move SiteCall Fault))
    (c : Pool SiteCall Hop.Resp Fault (Option HttpAnswer) Site)
    (hc : (Pool.init (Site.start db)).replay execSite (SiteCall.prog D) moves = some c) :
    ∀ envelope ∈ c.store.envelopes, envelope.command = .ping ∨ Vouched moves envelope := by
  have hinit : PoolInv (queueDiscipline moves) execSite (Pool.init (Site.start db) :
      Pool SiteCall Hop.Resp Fault (Option HttpAnswer) Site) := poolInv_init fun _ he => (by cases he)
  have hmay : MayMoves (queueDiscipline moves) execSite (SiteCall.prog D) (Pool.init (Site.start db)) moves :=
    mayMoves_of_started (fun _ _ _ h => h) (fun _ h => h) fun t ht => (by cases ht)
  exact (replay_safe_fail (queue_prog D) hc hmay hinit).2.inv

/-- What is watched stays as it was in a run whose calls do not act for the user. -/
theorem untouched_replay {D : Digest} {W : Watch} {moves : List (Move SiteCall Fault)}
    {c : Pool SiteCall Hop.Resp Fault (Option HttpAnswer) Site}
    (hc : (Pool.init (Site.start W.db)).replay execSite (SiteCall.prog D) moves = some c)
    (hmoves : ∀ call, Move.start call ∈ moves → W.Excuses call) : W.Untouched c.store.net.db := by
  have hinit : PoolInv (guardDiscipline W) execSite (Pool.init (Site.start W.db) :
      Pool SiteCall Hop.Resp Fault (Option HttpAnswer) Site) :=
    poolInv_init ⟨fun _ he => (by cases he), fun _ => rfl, rfl, rfl, rfl, rfl⟩
  have hmay : MayMoves (guardDiscipline W) execSite (SiteCall.prog D) (Pool.init (Site.start W.db)) moves :=
    mayMoves_of_started (fun _ _ _ h => h) hmoves fun t ht => (by cases ht)
  exact (replay_safe_fail (site_prog D) hc hmay hinit).2.inv.2

/-- **The rows of a player change only by a request of the player's own**, and its money only by one that is made while
Ably has the player present. -/
theorem gateway_guards (D : Digest) (db : Db) (moves : List (Move SiteCall Fault))
    (c : Pool SiteCall Hop.Resp Fault (Option HttpAnswer) Site)
    (hc : (Pool.init (Site.start db)).replay execSite (SiteCall.prog D) moves = some c) (userId : Id)
    (hcredit : ∀ now depositId extraMetadata, Move.start (.credit now depositId extraMetadata) ∈ moves →
      ∀ r ∈ db.sminkTransactions.rows, r.id = depositId → r.userId ≠ userId) :
    (RowsUntouched userId db c.store.net.db ∨ ∃ moment request user, Move.start (.http moment request) ∈ moves ∧
      Admits moment request user ∧ user.userId = userId) ∧
    (MoneyUntouched userId db c.store.net.db ∨ ∃ moment request user, Move.start (.http moment request) ∈ moves ∧
      Admits moment request user ∧ user.userId = userId ∧ request.route.presenceGuard = true) := by
  constructor
  · by_contra hnot
    obtain ⟨hrows, hnone⟩ := not_or.1 hnot
    have huntouched : Watch.Untouched ⟨userId, db, True⟩ c.store.net.db := by
      refine untouched_replay hc fun call hcall => ?_
      cases call with
      | http moment request =>
        exact fun user hadmits huser => (hnone ⟨moment, request, user, hcall, hadmits, huser⟩).elim
      | credit now depositId extraMetadata => exact hcredit now depositId extraMetadata hcall
      | _ => trivial
    exact hrows ⟨huntouched.sessions trivial, huntouched.wallets, huntouched.transactions, huntouched.bets,
      huntouched.controls⟩
  · by_contra hnot
    obtain ⟨hmoney, hnone⟩ := not_or.1 hnot
    have huntouched : Watch.Untouched ⟨userId, db, False⟩ c.store.net.db := by
      refine untouched_replay hc fun call hcall => ?_
      cases call with
      | http moment request =>
        refine fun user hadmits huser => ⟨id, ?_⟩
        exact Bool.not_eq_true _ |>.mp fun hroute => hnone ⟨moment, request, user, hcall, hadmits, huser, hroute⟩
      | credit now depositId extraMetadata => exact hcredit now depositId extraMetadata hcall
      | _ => trivial
    exact hmoney ⟨huntouched.wallets, huntouched.transactions, huntouched.bets, huntouched.controls⟩

/-- The first player opens a round while it is present; the second one asks with a token that is not good. -/
def roundRequests : List (Move SiteCall Fault) :=
  let body : Body := [("sessionId", .str "s1"), ("stake", .num (some 5)), ("mineCount", .num (some 3))]
  let request (token : String) : HttpRequest :=
    { route := .minesStart, headers := ⟨some ("Bearer " ++ token), none⟩, body }
  [.start (.http someMoment (request "header.payload==")), .start (.http someMoment (request "forged")), .stmt 0,
    .start (.message 0 (freshAt 1) ⟨"e", 1⟩ fun _ => false)] ++ List.replicate 12 (.stmt 2) ++ [.stmt 0]

/-- Nobody but the first player is let in. -/
theorem admits_someMoment {request : HttpRequest} {user : AuthUser} (h : Admits someMoment request user) :
    user.userId = "u1" := by
  obtain ⟨token, secret, -, -, -, -, hverify⟩ := canActivate_ok.1 h.authentic
  unfold someMoment at hverify
  dsimp only at hverify
  split at hverify
  · simp only [Option.some.injEq, JwtPayload.mk.injEq] at hverify
    exact hverify.1.symm
  · cases hverify

/-- The round is there, and the rows of the second player are as they were. -/
theorem gateway_guards_roundRequests : ∃ c : Pool SiteCall Hop.Resp Fault (Option HttpAnswer) Site,
    (Pool.init (Site.start twoPlayers)).replay execSite (SiteCall.prog zeroDigest) roundRequests = some c ∧
      (∃ b ∈ c.store.net.db.bets.rows, b.userId = "u1" ∧ b.status = .open) ∧
      RowsUntouched "u2" twoPlayers c.store.net.db := by
  have hrun : ((Pool.init (Site.start twoPlayers)).replay execSite (SiteCall.prog zeroDigest) roundRequests).any
      (fun c => decide (∃ b ∈ c.store.net.db.bets.rows, b.userId = "u1" ∧ b.status = .open)) = true := by
    decide +kernel
  obtain ⟨c, hc, hopen⟩ := (Option.any_eq_true _ _).1 hrun
  refine ⟨c, hc, of_decide_eq_true hopen, ?_⟩
  have hstarted : ∀ call, Move.start call ∈ roundRequests → (∃ request, call = .http someMoment request) ∨
      ∃ n fresh emission fails, call = .message n fresh emission fails := by
    intro call hcall
    simp only [roundRequests, List.mem_append, List.mem_cons, List.not_mem_nil, or_false, List.mem_replicate] at hcall
    rcases hcall with ((hcall | hcall | hcall | hcall) | hcall) | hcall
    · cases hcall; exact .inl ⟨_, rfl⟩
    · cases hcall; exact .inl ⟨_, rfl⟩
    · cases hcall
    · cases hcall; exact .inr ⟨_, _, _, _, rfl⟩
    · cases hcall.2
    · cases hcall
  have hguards := gateway_guards zeroDigest twoPlayers roundRequests c hc "u2" fun now id extra hcall => by
    rcases hstarted _ hcall with ⟨_, h⟩ | ⟨_, _, _, _, h⟩ <;> cases h
  refine hguards.1.resolve_right ?_
  rintro ⟨moment, request, user, hcall, hadmits, huser⟩
  rcases hstarted _ hcall with ⟨_, h⟩ | ⟨_, _, _, _, h⟩
  · cases h
    rw [admits_someMoment hadmits] at huser
    exact absurd huser (by decide)
  · cases h

/-- What the engine was sent is the first player's. -/
theorem envelopes_vouched_roundRequests : ∃ c : Pool SiteCall Hop.Resp Fault (Option HttpAnswer) Site,
    (Pool.init (Site.start twoPlayers)).replay execSite (SiteCall.prog zeroDigest) roundRequests = some c ∧
      c.store.envelopes.map RpcEnvelope.request = [some (.startMines "u1" "s1" (some 5) (some 3))] ∧
        ∀ envelope ∈ c.store.envelopes, envelope.command = .ping ∨ Vouched roundRequests envelope := by
  have hrun : ((Pool.init (Site.start twoPlayers)).replay execSite (SiteCall.prog zeroDigest) roundRequests).any
      (fun c => decide (c.store.envelopes.map RpcEnvelope.request =
        [some (.startMines "u1" "s1" (some 5) (some 3))])) = true := by
    decide +kernel
  obtain ⟨c, hc, hsent⟩ := (Option.any_eq_true _ _).1 hrun
  exact ⟨c, hc, of_decide_eq_true hsent, envelopes_vouched zeroDigest twoPlayers roundRequests c hc⟩

end Smink
