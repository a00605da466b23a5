import Smink.Rpc.Recorded

/-!
# What a listener hears

A player listens with a token for the channels of the player, of one session and of the lobby. Handlers and consumers
publish at any time, one step after another, in any order. What is published is about a bet or a session of the player
on whose channel it is, or of the player whose session it is (`netDiscipline`), however often jobs and events are
taken, whatever is rejected and wherever a statement fails. So with a token for an own session a player hears of no
other player's bets, the live wins of the lobby apart (`listener_hears_own`).
-/

namespace Smink

open Store

/-! ## What is claimed -/

/-- What the payload names is the user's. -/
def UpdatePayload.Own (db : Db) (userId : Id) : UpdatePayload → Prop
  | .bet settled => BetOf db userId settled.sessionId settled.reference
  | .mines round => BetOf db userId round.sessionId round.reference
  | .towers round => BetOf db userId round.sessionId round.reference
  | .session data => OwnsSession db userId data.id ∧ ∀ item ∈ data.history, BetOf db userId data.id item.reference

/-- The message is about the user's own bets and sessions, or a live win: the game, the payout and the multiplier of a
bet that is won, under no other name than its player's. -/
def Message.Fit (db : Db) (userId : Id) (message : Message) : Prop :=
  match message.payload with
  | .update payload => payload.Own db userId
  | .liveWin gameSlug payout multiplier winner => 0 < payout ∧
    ∃ player sessionId reference, Won db player sessionId reference gameSlug payout multiplier ∧
      ∀ named ∈ winner, named = player

/-! ## The discipline -/

/-- Nothing is held: what is sent and posted is about what is in the database. -/
def netDiscipline : Discipline Service Wire Net Unit where
  inv w _ := BetsSeated w.store.db ∧ (∀ call ∈ w.store.sent, call.Truthful w.store.db) ∧
    ∀ message ∈ w.store.posted, message.Truthful w.store.db
  rely w v := Recorded w.store.db v.store.db
  rely_refl w := .refl w.store.db
  rely_trans := .trans
  ok _ _ _ := True

section Services

variable {D : Digest} {i : Service} {w : World Service Wire Net} {db : Db} {fails : Target → Bool} {α : Type}

/-- The statement sends or posts what is about the database. -/
def Wire.Truthful (db : Db) : Wire → Prop
  | .call sent => sent.Truthful db
  | .post message => message.Truthful db
  | _ => False

/-- Calls and messages that are about what has been in the database. -/
theorem net_only {p : Wired α} (hp : p.Only (Wire.Truthful db)) (hw : Recorded db w.store.db) :
    Safe netDiscipline execNet i p w 0 fun _ _ g => g = 0 := by
  refine (safe_only (u := ⟨Net.start db, []⟩) (fun v q g r s hq hv hi hr => ?_) hp hw).mono
    fun _ _ _ h => h.2
  obtain ⟨hseated, hsent, hposted⟩ := hi
  cases q with
  | call call =>
    cases hr
    refine ⟨.refl _, hseated, fun c hc => ?_, hposted⟩
    rcases List.mem_append.1 hc with hc | hc
    · exact hsent c hc
    · rw [List.mem_singleton.1 hc]
      exact FanoutCall.Truthful.persist hq hv
  | post message =>
    cases hr
    refine ⟨.refl _, hseated, hsent, fun m hm => ?_⟩
    rcases List.mem_append.1 hm with hm | hm
    · exact hposted m hm
    · rw [List.mem_singleton.1 hm]
      exact Message.Truthful.persist hq hv
  | _ => exact hq.elim

theorem logFree : LogFree (seatDiscipline.inf recordDiscipline.unconditional) where
  inv _ _ _ _ h := h
  rely _ _ _ _ _ _ h := h
  ok _ _ _ := ⟨trivial, trivial⟩

/-- The services keep to what PlayService relies on. -/
theorem net_hosts : Hosts (seatDiscipline.inf recordDiscipline.unconditional) netDiscipline Net.db
    fun net db => { net with db } where
  inv _ _ h := ⟨h.1, trivial⟩
  rely _ _ h := ⟨h.sessions, h⟩
  step w i q t frame g g' h hrely hinv ht := by
    have hrecorded : Recorded w.store.db t.db := hrely.2
    obtain ⟨-, hsent, hposted⟩ := h
    have hsent' : t.sent = w.store.sent := by rw [ht]
    have hposted' : t.posted = w.store.posted := by rw [ht]
    refine ⟨hrecorded, hinv.1, fun call hcall => ?_, fun message hmessage => ?_⟩
    · exact (hsent call (hsent' ▸ hcall)).persist hrecorded
    · exact (hposted message (hposted' ▸ hmessage)).persist hrecorded

/-- A program of PlayService among the services. -/
theorem net_sql (call : Call) {p : Sql α} {Q : α → Db → Prop}
    (hseats : ∀ u : World Call Stmt Db, KeepsSeats call p u) (hrecords : ∀ u : World Call Stmt Db,
      Safe recordDiscipline.unconditional exec call p u 0 fun a v _ => Q a v.store) :
    Safe netDiscipline execNet i (Sql.wired p) w 0 fun a v g => Q a v.store.db ∧ g = 0 := by
  have hboth : Safe (seatDiscipline.inf recordDiscipline.unconditional) exec call p ⟨w.store.db, []⟩ 0 fun a v g =>
      Q a v.store ∧ g = 0 :=
    ((hseats _).inf (hrecords _)).mono fun _ _ _ h => ⟨h.2, h.1⟩
  exact safe_embed logFree embeds_db net_hosts (Q := fun a db g => Q a db ∧ g = 0) hboth

theorem net_handler (fresh : Fresh) (emission : Emission) (request : Request) :
    Safe netDiscipline execNet i (EngineController.handler D fresh emission fails request) w 0 fun _ _ g => g = 0 := by
  refine safe_bind ((net_sql (.play fresh request) (fun _ => seats_serve D fresh request)
    fun _ => records_prog (inPlay_serve D fresh request) (recorded_serve D fresh request)).mono
      fun response v g h => ?_)
  obtain ⟨hresponse, rfl⟩ := h
  refine safe_bind ((net_only (only_wired (fanout_truthful hresponse)) (.refl _)).mono fun done u g h => ?_)
  subst h
  split
  · exact rfl
  · split
    · exact rfl
    · exact rfl

/-- What a job is about, its messages are about. -/
theorem only_takeJob {job : Option Job} (h : ∀ userId sessionId event payload,
    job = some (.update userId sessionId event payload) → payload.About db userId sessionId) :
    Prog.Only (Wire.Truthful db) (RealtimeProcessor.take fails job) := by
  unfold RealtimeProcessor.take
  split
  · rename_i userId sessionId event payload
    have habout := h _ _ _ _ rfl
    refine only_process ⟨userId, sessionId, habout, .inl rfl⟩ ⟨userId, sessionId, habout, .inr rfl⟩
      fun bet hbet hpaid => ?_
    subst hbet
    exact ⟨rfl, hpaid, userId, bet.sessionId, bet.reference, habout.2.2 hpaid, fun _ hno => by cases hno⟩
  · trivial

theorem only_takeEvent {event : Option BetSettledEvent}
    (h : ∀ settled, event = some settled → settled.Truthful db) :
    Prog.Only (Wire.Truthful db) (EventsController.take fails event) := by
  unfold EventsController.take
  split
  · refine only_onBetSettled fun hpaid => ⟨rfl, hpaid, _, _, _, (h _ rfl).2 hpaid, fun named hnamed => ?_⟩
    exact (Option.some.inj hnamed).symm
  · trivial

/-- A job that can be taken is about what is in the database. -/
theorem mem_realtimeJobs {v : World Service Wire Net} {g : Unit} (h : netDiscipline.inv v g) {userId sessionId : Id}
    {event : ChannelEvent} {payload : UpdatePayload}
    (hjob : Job.update userId sessionId event payload ∈ v.store.realtimeJobs) :
    payload.About v.store.db userId sessionId := by
  obtain ⟨call, hcall, hsome⟩ := List.mem_filterMap.1 hjob
  have htruthful := h.2.1 call hcall
  cases call with
  | queue bull name job =>
    cases bull with
    | session => cases hsome
    | realtime =>
      cases hsome
      exact htruthful
  | _ => cases hsome

theorem mem_settledEvents {v : World Service Wire Net} {g : Unit} (h : netDiscipline.inv v g) {event : BetSettledEvent}
    (hevent : event ∈ v.store.settledEvents) : event.Truthful v.store.db := by
  obtain ⟨call, hcall, hsome⟩ := List.mem_filterMap.1 hevent
  have htruthful := h.2.1 call hcall
  cases call with
  | exchange routingKey payload =>
    cases routingKey <;> cases payload <;> cases hsome
    exact htruthful
  | _ => cases hsome

/-- Every service keeps the discipline. -/
theorem net_prog (D : Digest) (i : Service) (w : World Service Wire Net) :
    Safe netDiscipline execNet i (i.prog D) w 0 Released := by
  cases i with
  | command fresh emission fails request =>
    exact safe_bind ((net_handler fresh emission request).mono fun _ _ _ h => h)
  | credit now depositId extraMetadata =>
    refine safe_bind ((net_sql (.credit now depositId extraMetadata) (Q := fun _ _ => True)
      (fun _ => seats_quiet (addsNoBet_creditDeposit now depositId extraMetadata))
      fun _ => (records_creditDeposit now depositId extraMetadata).mono fun _ _ _ _ => trivial).mono fun _ _ _ h => h.2)
  | job n fails =>
    intro v hv frame hi _ r s hr
    cases hr
    refine ⟨.refl _, 0, hi, ?_⟩
    show Safe netDiscipline execNet _ (RealtimeProcessor.take fails v.store.realtimeJobs[n]? >>= fun _ => Prog.ret none)
      _ 0 Released
    have htake : Prog.Only (Wire.Truthful v.store.db) (RealtimeProcessor.take fails v.store.realtimeJobs[n]?) :=
      only_takeJob fun userId sessionId event payload hjob => mem_realtimeJobs hi (List.mem_of_getElem? hjob)
    refine safe_bind ((net_only htake ?_).mono fun _ _ _ h => h)
    exact .refl v.store.db
  | event n fails =>
    intro v hv frame hi _ r s hr
    cases hr
    refine ⟨.refl _, 0, hi, ?_⟩
    show Safe netDiscipline execNet _ (EventsController.take fails v.store.settledEvents[n]? >>= fun _ => Prog.ret none)
      _ 0 Released
    have htake : Prog.Only (Wire.Truthful v.store.db) (EventsController.take fails v.store.settledEvents[n]?) :=
      only_takeEvent fun event hevent => mem_settledEvents hi (List.mem_of_getElem? hevent)
    refine safe_bind ((net_only htake ?_).mono fun _ _ _ h => h)
    exact .refl v.store.db

end Services

/-! ## Listeners -/

section Listeners

variable {db : Db} {userId sessionId : Id}

theorem at_session {reference : String} {id : Id} (h : id = sessionId ∧ BetOf db userId sessionId reference) :
    BetOf db userId id reference := by
  obtain ⟨rfl, hb⟩ := h
  exact hb

/-- A bet is in a session of its player, so what is about a session is its owner's. -/
theorem UpdatePayload.About.own {payload : UpdatePayload} (h : payload.About db userId sessionId)
    (hseated : BetsSeated db) : payload.Own db userId := by
  cases payload with
  | bet settled => exact h.2.1
  | mines round => exact at_session h
  | towers round => exact at_session h
  | session data =>
    obtain ⟨hid, howns, hitems⟩ := h
    subst hid
    refine ⟨howns, fun item hitem => ?_⟩
    obtain ⟨player, b, hb, huser, hses, href⟩ := hitems item hitem
    obtain ⟨id, hid, s, hs, hsid, hsuser⟩ := hseated b hb
    obtain ⟨s', hs', hsid', hsuser'⟩ := howns
    have hsame : id = data.id := Option.some.inj (hid.symm.trans hses)
    obtain rfl := session_eq_of_id hs hs' (hsid.trans (hsame.trans hsid'.symm))
    exact ⟨b, hb, hsuser.symm.trans hsuser', hses, href⟩

/-- Whose payload it is. -/
theorem UpdatePayload.About.owns {payload : UpdatePayload} (h : payload.About db userId sessionId)
    (hseated : BetsSeated db) : OwnsSession db userId sessionId := by
  have seat : ∀ {reference : String}, BetOf db userId sessionId reference → OwnsSession db userId sessionId := by
    rintro reference ⟨b, hb, huser, hses, -⟩
    obtain ⟨id, hid, howns⟩ := hseated b hb
    rw [hses] at hid
    rw [Option.some.inj hid, ← huser]
    exact howns
  cases payload with
  | bet settled =>
    obtain ⟨rfl, hb, -⟩ := h
    exact seat hb
  | mines round => exact seat h.2
  | towers round => exact seat h.2
  | session data => exact h.2.1

theorem OwnsSession.user_eq {other : Id} (h : OwnsSession db userId sessionId) (h' : OwnsSession db other sessionId) :
    other = userId := by
  obtain ⟨s, hs, hid, rfl⟩ := h
  obtain ⟨s', hs', hid', rfl⟩ := h'
  rw [session_eq_of_id hs hs' (hid.trans hid'.symm)]

/-- A message that the token covers is one that fits the player. -/
theorem Message.Truthful.fit {A : Ably} {enabled : Bool} {request : TokenRequest} {message : Message}
    (h : message.Truthful db) (hseated : BetsSeated db)
    (htoken : createTokenRequest enabled userId (some sessionId) = .ok request) (hu : Literal userId)
    (hs : Literal sessionId) (howns : OwnsSession db userId sessionId)
    (hallows : A.allows request.capability "subscribe" message.channel = true) : message.Fit db userId := by
  obtain ⟨channel, event, payload⟩ := message
  cases payload with
  | liveWin gameSlug payout multiplier winner => exact h.2
  | update payload =>
    obtain ⟨player, id, habout, hchannel⟩ := h
    obtain rfl : player = userId := by
      rcases hchannel with rfl | rfl
      · by_contra hne
        rw [not_allows_user hu htoken hne] at hallows
        cases hallows
      · have hcovers := (allows_session hu htoken id).1 hallows
        obtain rfl := (covers_session hs).1 hcovers
        exact howns.user_eq (habout.owns hseated)
    exact habout.own hseated

/-- **A player who listens for an own session hears of no other player's bets**, the live wins apart. -/
theorem listener_hears_own (D : Digest) (db : Db) (hseated : BetsSeated db) (moves : List (Move Service Fault))
    (c : Pool Service Wire.Resp Fault (Option Response) Net)
    (hc : (Pool.init (Net.start db)).replay execNet (Service.prog D) moves = some c) (A : Ably) (enabled : Bool)
    (userId sessionId : Id) (request : TokenRequest)
    (htoken : createTokenRequest enabled userId (some sessionId) = .ok request) (hu : Literal userId)
    (hs : Literal sessionId) (howns : OwnsSession c.store.db userId sessionId) :
    ∀ message ∈ c.store.messages, A.allows request.capability "subscribe" message.channel = true →
      message.Fit c.store.db userId := by
  have hinit : PoolInv netDiscipline execNet (Pool.init (Net.start db) : Pool Service Wire.Resp Fault
    (Option Response) Net) :=
    poolInv_init ⟨hseated, fun _ hcall => (by cases hcall), fun _ hmessage => (by cases hmessage)⟩
  have hmay : MayMoves netDiscipline execNet (Service.prog D) (Pool.init (Net.start db)) moves :=
    mayMoves_of_ok (fun _ _ _ => trivial) moves _
  obtain ⟨hseated', hsent, hposted⟩ := (replay_safe_fail (net_prog D) hc hmay hinit).2.inv
  intro message hmessage hallows
  have htruthful : message.Truthful c.store.db := by
    rcases List.mem_append.1 hmessage with hm | hm
    · obtain ⟨call, hcall, hsome⟩ := List.mem_filterMap.1 hm
      cases call with
      | channel name event payload =>
        cases hsome
        exact hsent _ hcall
      | _ => cases hsome
    · exact hposted message hm
  exact htruthful.fit hseated' htoken hu hs howns hallows

/-- Two players with money, each at a Plinko table of its own. -/
def plinkoPlayers : Db :=
  { tableDb .plinko with
    gameSessions := ⟨[{ id := "s1", userId := "u1", gameId := "plinko", startedAt := 0 },
      { id := "s2", userId := "u2", gameId := "plinko", startedAt := 0 }], by decide⟩
    sminkWallets := ⟨[{ userId := "u1", balance := 10000 }, { userId := "u2", balance := 20000 }], by decide⟩ }

/-- Both drop at once, statement by statement; then the worker takes both jobs, and one event twice. -/
def bothDrop : List (Move Service Fault) :=
  let drop (n : Nat) (userId sessionId : Id) : Service := .command (freshAt n) ⟨"e", n⟩ (fun _ => false)
    (.placeBet userId sessionId .plinko (some 5) { risk := "low", rows := some 8 })
  [.start (drop 1 "u1" "s1"), .start (drop 2 "u2" "s2")] ++ (List.replicate 14 [.stmt 0, .stmt 1]).flatten ++
    [.start (.job 1 fun _ => false), .start (.job 0 fun _ => false), .start (.event 1 fun _ => false),
      .start (.event 1 fun _ => false)] ++ (List.replicate 4 [.stmt 2, .stmt 3]).flatten ++
    [.stmt 4, .stmt 5, .stmt 5, .stmt 4]

/-- Fourteen messages are published, ten of them heard, and the others are on the channels of the other player. -/
theorem listener_hears_own_bothDrop : ∃ (c : Pool Service Wire.Resp Fault (Option Response) Net)
    (request : TokenRequest),
    (Pool.init (Net.start plinkoPlayers)).replay execNet (Service.prog zeroDigest) bothDrop = some c ∧
      createTokenRequest true "u1" (some "s1") = .ok request ∧ c.store.messages.length = 14 ∧
        (c.store.messages.filter fun message => globAbly.allows request.capability "subscribe" message.channel).length =
          10 ∧
        ∀ message ∈ c.store.messages, globAbly.allows request.capability "subscribe" message.channel = true →
          message.Fit c.store.db "u1" := by
  obtain ⟨request, htoken⟩ : ∃ request, createTokenRequest true "u1" (some "s1") = .ok request := ⟨_, rfl⟩
  have hrun : ((Pool.init (Net.start plinkoPlayers)).replay execNet (Service.prog zeroDigest) bothDrop).any
      (fun c => decide (c.store.messages.length = 14 ∧
        (c.store.messages.filter fun message => globAbly.allows [("smink:user:u1", ["subscribe", "presence"]),
          ("smink:lobby", ["subscribe"]), ("smink:session:s1", ["subscribe"])] "subscribe" message.channel).length =
            10 ∧
            ∃ s ∈ c.store.db.gameSessions.rows, s.id = "s1" ∧ s.userId = "u1")) = true := by
    decide +kernel
  obtain ⟨c, hc, hreached⟩ := (Option.any_eq_true _ _).1 hrun
  obtain ⟨hlength, hheard, howns⟩ := of_decide_eq_true hreached
  have hseated : BetsSeated plinkoPlayers := fun b hb => by cases hb
  have hrequest := htoken
  cases hrequest
  exact ⟨c, _, hc, rfl, hlength, hheard, listener_hears_own zeroDigest plinkoPlayers hseated bothDrop c hc globAbly true
    "u1" "s1" _ htoken (by decide) (by decide) howns⟩

end Listeners

end Smink
