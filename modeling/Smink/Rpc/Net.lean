import Smink.Rpc.Engine
import Smink.Play.Explained
import Smink.Store.Embed

/-!
# The services together

The engine's handlers, and the two consumers of `apps/worker/src` that publish what the engine sends on:
`RealtimeProcessor` takes the jobs of the realtime queue, and `EventsController` the events of settled bets. Any number
of handlers and consumers run at once over one database, and each statement of PlayService and each call of a fan-out is
a step of its own. A job or an event may be taken at any time after it has been sent, and more than once. A handler that
nothing comes between does what `EngineController.handle` says (`run_handler`).
-/

namespace Smink

open Store

/-! ## What is published -/

/-- What goes to a channel, from the engine or from the worker. -/
inductive Published
  | update (payload : UpdatePayload)
  | liveWin (gameSlug : GameSlug) (payout : Money) (multiplier : ℚ) (userId : Option Id)
  deriving DecidableEq

structure Message where
  channel : String
  event : ChannelEvent
  payload : Published
  deriving DecidableEq

def ChannelPayload.published : ChannelPayload → Published
  | .bet settled => .update (.bet settled)
  | .liveWin gameSlug payout multiplier => .liveWin gameSlug payout multiplier none

/-- The store of the services: the database, the calls of the engine's fan-outs that have gone through, and what the
worker has published. -/
structure Net where
  db : Db
  sent : List FanoutCall
  posted : List Message

/-- The services before any call. -/
def Net.start (db : Db) : Net := ⟨db, [], []⟩

/-- All that has been published. -/
def Net.messages (net : Net) : List Message :=
  net.sent.filterMap (fun
    | .channel name event payload => some ⟨name, event, payload.published⟩
    | _ => none) ++ net.posted

/-- The jobs of the realtime queue. -/
def Net.realtimeJobs (net : Net) : List Job :=
  net.sent.filterMap fun
    | .queue .realtime _ job => some job
    | _ => none

/-- The events of settled bets. -/
def Net.settledEvents (net : Net) : List BetSettledEvent :=
  net.sent.filterMap fun
    | .exchange .betSettled (.bet event) => some event
    | _ => none

/-! ## Statements -/

inductive Wire
  | sql (q : Stmt)
  | call (call : FanoutCall)
  | takeJob (n : ℕ)
  | takeEvent (n : ℕ)
  | post (message : Message)

def Wire.Resp : Wire → Type
  | sql q => q.Resp
  | call _ => Unit
  | takeJob _ => Option Job
  | takeEvent _ => Option BetSettledEvent
  | post _ => Unit

/-- A program of the services. -/
abbrev Wired := Prog Wire.Resp Fault

def execNet : (q : Wire) → Net → Except Fault (q.Resp × Net)
  | .sql q, net =>
    match exec q net.db with
    | .ok (r, db) => .ok (r, { net with db })
    | .error e => .error e
  | .call call, net => .ok ((), { net with sent := net.sent ++ [call] })
  | .takeJob n, net => .ok (net.realtimeJobs[n]?, net)
  | .takeEvent n, net => .ok (net.settledEvents[n]?, net)
  | .post message, net => .ok ((), { net with posted := net.posted ++ [message] })

/-- A program over the database. -/
def Sql.wired {α : Type} (p : Sql α) : Wired α := Prog.embed Wire.sql (fun _ r => r) p

/-- A fan-out, and how it ends. -/
def Fanout.wired {α : Type} (fails : Target → Bool) : Fanout α → Wired (Except Fault α)
  | .ret a => .ret (.ok a)
  | .throw e => .ret (.error e)
  | .stmt call k =>
    if fails call.target then Fanout.wired fails (k false)
    else .stmt (.call call) fun _ => Fanout.wired fails (k true)

/-! ## The services -/

/-- The handler of a command. -/
def EngineController.handler (D : Digest) (fresh : Fresh) (emission : Emission) (fails : Target → Bool)
    (request : Request) : Wired Response := do
  let response ← Sql.wired (serve D fresh request)
  match ← Fanout.wired fails (fanout emission request response) with
  | .ok () => return response
  | .error e => if catches request then return response else .throw e

/-- `RealtimeService.publish` of the worker; a rejection is logged. -/
def post (fails : Target → Bool) (channel : String) (event : ChannelEvent) (payload : Published) : Wired Unit :=
  if fails (.channel channel event) then .ret () else .stmt (.post ⟨channel, event, payload⟩) .ret

/-- `RealtimeProcessor.process`. -/
def RealtimeProcessor.process (fails : Target → Bool) (userId sessionId : Id) (event : ChannelEvent)
    (payload : UpdatePayload) : Wired Unit := do
  post fails (channels.user userId) event (.update payload)
  if sessionId ≠ "" then
    post fails (channels.session sessionId) event (.update payload)
  if event = .betSettled then
    match payload with
    | .bet bet =>
      if bet.won ∧ bet.payout > 0 then
        post fails channels.lobby .liveWin (.liveWin bet.gameSlug bet.payout bet.multiplier none)
    | _ => return ()

/-- `EventsController.onBetSettled`. -/
def EventsController.onBetSettled (fails : Target → Bool) (event : BetSettledEvent) : Wired Unit :=
  if !event.won ∨ event.payout ≤ 0 then return ()
  else post fails channels.lobby .liveWin
    (.liveWin event.gameSlug event.payout event.multiplier (some event.userId))

/-- What the worker does with what it takes. -/
def RealtimeProcessor.take (fails : Target → Bool) : Option Job → Wired Unit
  | some (.update userId sessionId event payload) => RealtimeProcessor.process fails userId sessionId event payload
  | _ => return ()

def EventsController.take (fails : Target → Bool) : Option BetSettledEvent → Wired Unit
  | some event => EventsController.onBetSettled fails event
  | none => return ()

/-- A call of the services; `fails` are the calls of it that are rejected. -/
inductive Service
  | command (fresh : Fresh) (emission : Emission) (fails : Target → Bool) (request : Request)
  | credit (now : Time) (depositId : Id) (extraMetadata : Metadata → Metadata)
  | job (n : ℕ) (fails : Target → Bool)
  | event (n : ℕ) (fails : Target → Bool)

def Service.prog (D : Digest) : Service → Wired (Option Response)
  | .command fresh emission fails request => return some (← EngineController.handler D fresh emission fails request)
  | .credit now depositId extraMetadata => do
    let _ ← Sql.wired (creditDeposit now depositId extraMetadata)
    return none
  | .job n fails => do
    RealtimeProcessor.take fails (← .stmt (.takeJob n) .ret)
    return none
  | .event n fails => do
    EventsController.take fails (← .stmt (.takeEvent n) .ret)
    return none

/-! ## What the services do -/

section Services

variable {P : Wire → Prop} {fails : Target → Bool}

theorem only_post {channel : String} {event : ChannelEvent} {payload : Published}
    (h : P (.post ⟨channel, event, payload⟩)) : Prog.Only P (post fails channel event payload) := by
  unfold post
  split
  · trivial
  · exact ⟨h, fun _ => trivial⟩

theorem only_process {userId sessionId : Id} {event : ChannelEvent} {payload : UpdatePayload}
    (huser : P (.post ⟨channels.user userId, event, .update payload⟩))
    (hsession : P (.post ⟨channels.session sessionId, event, .update payload⟩))
    (hlobby : ∀ bet, payload = .bet bet → 0 < bet.payout →
      P (.post ⟨channels.lobby, .liveWin, .liveWin bet.gameSlug bet.payout bet.multiplier none⟩)) :
    Prog.Only P (RealtimeProcessor.process fails userId sessionId event payload) := by
  unfold RealtimeProcessor.process
  refine Prog.only_bind (only_post huser) fun _ => ?_
  dsimp only
  split
  on_goal 1 => refine Prog.only_bind (only_post hsession) fun _ => ?_
  -- what follows is the same with a session and without
  all_goals
    split
    · split
      · split
        · rename_i hwon
          exact only_post (hlobby _ rfl hwon.2)
        · trivial
      · trivial
    · trivial

theorem only_onBetSettled {event : BetSettledEvent}
    (h : 0 < event.payout → P (.post ⟨channels.lobby, .liveWin,
      .liveWin event.gameSlug event.payout event.multiplier (some event.userId)⟩)) :
    Prog.Only P (EventsController.onBetSettled fails event) := by
  unfold EventsController.onBetSettled
  split
  · trivial
  · rename_i hwon
    exact only_post (h (not_le.1 fun hle => hwon (.inr hle)))

theorem only_wired {α : Type} {p : Fanout α} (hp : p.Only fun call => P (.call call)) :
    Prog.Only P (Fanout.wired fails p) := by
  induction p with
  | ret a => trivial
  | throw e => trivial
  | stmt call k ih =>
    by_cases hf : fails call.target = true
    · rw [Fanout.wired, if_pos hf]
      exact ih false (hp.2 false)
    · rw [Fanout.wired, if_neg hf]
      exact ⟨hp.1, fun _ => ih true (hp.2 true)⟩

/-- The statement has nothing to do with the database. -/
def Wire.offDb : Wire → Prop
  | .sql _ => False
  | _ => True

theorem execNet_db {net : Net} {q : Wire} (hq : q.offDb) {r : q.Resp} {t : Net} (he : execNet q net = .ok (r, t)) :
    t.db = net.db := by
  cases q with
  | sql q => exact hq.elim
  | _ => cases he; rfl

theorem offDb_take (job : Option Job) :
    Prog.Only Wire.offDb (RealtimeProcessor.take fails job) := by
  unfold RealtimeProcessor.take
  split
  · exact only_process trivial trivial fun _ _ _ => trivial
  · trivial

theorem offDb_takeEvent (event : Option BetSettledEvent) :
    Prog.Only Wire.offDb (EventsController.take fails event) := by
  unfold EventsController.take
  split
  · exact only_onBetSettled fun _ => trivial
  · trivial

end Services

/-! ## A handler alone -/

section Alone

variable {net : Net} {fails : Target → Bool}

theorem embeds_db : Embeds exec execNet Wire.sql (fun _ r => r) Net.db fun net db => { net with db } where
  part_put _ _ := rfl
  put_part _ := rfl
  put_put _ _ _ := rfl
  error q net e he := by simp only [execNet, he]
  ok q net r db he := ⟨r, by simp only [execNet, he], rfl⟩

theorem run_sql {α : Type} (p : Sql α) :
    (Sql.wired p).run execNet net = ((p.run exec net.db).1, { net with db := (p.run exec net.db).2 }) :=
  run_embed embeds_db p net

theorem run_wired {α : Type} (p : Fanout α) : (Fanout.wired fails p).run execNet net =
    (.ok (p.outcome fails), { net with sent := net.sent ++ p.sent fails }) := by
  induction p generalizing net with
  | ret a => simp [Fanout.wired, Fanout.outcome, Fanout.sent]
  | throw e => simp [Fanout.wired, Fanout.outcome, Fanout.sent]
  | stmt call k ih =>
    cases hf : fails call.target with
    | true =>
      rw [Fanout.wired, if_pos hf, ih, Fanout.outcome, Fanout.sent, hf]
      rfl
    | false =>
      have hcall : execNet (.call call) net = .ok ((), { net with sent := net.sent ++ [call] }) := rfl
      rw [Fanout.wired, if_neg (by rw [hf]; exact Bool.false_ne_true), Prog.run_stmt hcall, ih, Fanout.outcome,
        Fanout.sent, hf, List.append_assoc]
      rfl

/-- What a handler does that nothing comes between. -/
theorem run_handler (D : Digest) (fresh : Fresh) (emission : Emission) (request : Request) :
    (EngineController.handler D fresh emission fails request).run execNet net =
      let handled := EngineController.handle D fresh emission fails request net.db
      (handled.answer, { net with db := handled.after, sent := net.sent ++ handled.sent }) := by
  unfold EngineController.handler EngineController.handle
  cases hrun : (serve D fresh request).run exec net.db with
  | mk result after =>
    have hsql : (Sql.wired (serve D fresh request)).run execNet net = (result, { net with db := after }) := by
      rw [run_sql, hrun]
    cases result with
    | error e =>
      rw [Prog.run_bind_error hsql]
      simp
    | ok response =>
      rw [Prog.run_bind_ok hsql, Prog.run_bind_ok (run_wired _)]
      dsimp only
      rw [run_fanout]
      cases Fanout.outcome fails (EngineController.fanout emission request response) with
      | ok done => simp
      | error e => by_cases hcatch : EngineController.catches request = true <;> simp [hcatch]

end Alone

end Smink
