import Smink.Play.Service
import Smink.Rpc.Channels

/-!
# The engine controller

The handlers of `apps/engine/src/engine.controller.ts`. A handler asks `PlayService` and answers with its result; before
that, when the result is a success, it fans it out: to Ably channels, to the RabbitMQ exchange and to BullMQ queues, one
awaited call after another. A call may be rejected. `RealtimeService.publish` and `EventsService.publish` catch that,
`queue.add` does not. Which calls are rejected is a parameter, by their targets: no handler addresses one twice
(`EngineController.targets_nodup`).
-/

namespace Smink

open Store

/-! ## What is sent -/

/-- `CHANNEL_EVENTS`, those of the engine. -/
inductive ChannelEvent
  | betSettled | minesUpdated | towersUpdated | sessionStarted | sessionEnded | liveWin
  deriving DecidableEq

/-- `ROUTING_KEYS`, those of the engine. -/
inductive RoutingKey
  | betSettled | minesStarted | minesSettled | towersStarted | towersSettled | sessionStarted | sessionEnded
  deriving DecidableEq

/-- `BULL_QUEUES`. -/
inductive BullQueue
  | realtime | session
  deriving DecidableEq

/-- The fields that all events have. -/
structure BaseEvent where
  eventId : String
  occurredAt : Time
  userId : Id
  deriving DecidableEq

structure BetSettledEvent extends BaseEvent where
  betReference : String
  sessionId : Id
  gameSlug : GameSlug
  stake : Money
  multiplier : ℚ
  payout : Money
  won : Bool
  outcome : GameOutcome
  wasControlled : Bool
  deriving DecidableEq

structure SessionEvent extends BaseEvent where
  sessionId : Id
  gameSlug : String
  deriving DecidableEq

/-- What goes to a channel. -/
inductive ChannelPayload
  | bet (bet : SettledBet)
  | liveWin (gameSlug : GameSlug) (payout : Money) (multiplier : ℚ)
  deriving DecidableEq

/-- What goes to the exchange; a round goes with the fields of its state. -/
inductive EventPayload
  | bet (event : BetSettledEvent)
  | session (event : SessionEvent)
  | mines (event : BaseEvent) (round : MinesRoundState)
  | towers (event : BaseEvent) (round : TowersRoundState)
  deriving DecidableEq

/-- The `payload` of a job of the realtime queue. -/
inductive UpdatePayload
  | bet (bet : SettledBet)
  | mines (round : MinesRoundState)
  | towers (round : TowersRoundState)
  | session (session : GameSessionDto)
  deriving DecidableEq

inductive Job
  | update (userId sessionId : Id) (event : ChannelEvent) (payload : UpdatePayload)
  | history (sessionId : Id) (item : SessionHistoryItem)
  | ended (event : SessionEvent)
  deriving DecidableEq

/-- A call of a fan-out. -/
inductive FanoutCall
  | channel (name : String) (event : ChannelEvent) (payload : ChannelPayload)
  | exchange (routingKey : RoutingKey) (payload : EventPayload)
  | queue (queue : BullQueue) (name : String) (job : Job)
  deriving DecidableEq

/-- Where a call goes. -/
inductive Target
  | channel (name : String) (event : ChannelEvent)
  | exchange (routingKey : RoutingKey)
  | queue (queue : BullQueue) (name : String)
  deriving DecidableEq

def FanoutCall.target : FanoutCall → Target
  | .channel name event _ => .channel name event
  | .exchange routingKey _ => .exchange routingKey
  | .queue bull name _ => .queue bull name

/-! ## Sending -/

/-- A fan-out: each call answers whether it has gone through. -/
abbrev Fanout := Prog (fun _ : FanoutCall => Bool) Fault

/-- A call and the calls that have gone through before it. -/
def send (fails : Target → Bool) (call : FanoutCall) (sent : List FanoutCall) : Except Fault (Bool × List FanoutCall) :=
  if fails call.target then .ok (false, sent) else .ok (true, sent ++ [call])

namespace RealtimeService

/-- A rejection is logged. -/
def publish (channel : String) (event : ChannelEvent) (payload : ChannelPayload) : Fanout Unit :=
  .stmt (.channel channel event payload) fun _ => .ret ()

def publishToUser (userId : Id) : ChannelEvent → ChannelPayload → Fanout Unit := publish (channels.user userId)

def publishToSession (sessionId : Id) : ChannelEvent → ChannelPayload → Fanout Unit :=
  publish (channels.session sessionId)

def publishToLobby : ChannelEvent → ChannelPayload → Fanout Unit := publish channels.lobby

end RealtimeService

namespace EventsService

/-- A rejection is logged. -/
def publish (routingKey : RoutingKey) (payload : EventPayload) : Fanout Unit :=
  .stmt (.exchange routingKey payload) fun _ => .ret ()

end EventsService

/-- `queue.add`. -/
def BullQueue.add (queue : BullQueue) (name : String) (job : Job) : Fanout Unit :=
  .stmt (.queue queue name job) fun added => if added then .ret () else .throw .threw

/-! ## The handlers -/

/-- `randomUUID()` and `new Date()` of one handler. -/
structure Emission where
  eventId : String
  now : Time
  deriving DecidableEq

namespace EngineController

def event (emission : Emission) (userId : Id) : BaseEvent :=
  { eventId := emission.eventId, occurredAt := emission.now, userId }

/-- The item of the session's history that a settled bet is sent with. -/
def queuedItem (bet : SettledBet) : SessionHistoryItem :=
  { reference := bet.reference
    won := bet.won
    stake := bet.stake
    multiplier := bet.multiplier
    payout := bet.payout
    status := if bet.won then .won else .lost
    outcome := some bet.outcome
    settledAt := some bet.settledAt }

/-- The `event` of `fanoutBet`. -/
def settledEvent (emission : Emission) (userId : Id) (bet : SettledBet) : BetSettledEvent :=
  { eventId := emission.eventId
    occurredAt := bet.settledAt
    userId
    betReference := bet.reference
    sessionId := bet.sessionId
    gameSlug := bet.gameSlug
    stake := bet.stake
    multiplier := bet.multiplier
    payout := bet.payout
    won := bet.won
    outcome := bet.outcome
    wasControlled := false }

def fanoutBet (emission : Emission) (userId : Id) (bet : SettledBet) : Fanout Unit := do
  RealtimeService.publishToUser userId .betSettled (.bet bet)
  if bet.sessionId ≠ "" then
    RealtimeService.publishToSession bet.sessionId .betSettled (.bet bet)
  if bet.won ∧ bet.payout > 0 then
    RealtimeService.publishToLobby .liveWin (.liveWin bet.gameSlug bet.payout bet.multiplier)
  EventsService.publish .betSettled (.bet (settledEvent emission userId bet))
  BullQueue.realtime.add "bet" (.update userId bet.sessionId .betSettled (.bet bet))
  BullQueue.session.add "history" (.history bet.sessionId (queuedItem bet))

def fanoutSession (emission : Emission) (userId : Id) (session : GameSessionDto) (started : Bool) : Fanout Unit := do
  let event : SessionEvent := {
    toBaseEvent := event emission userId
    sessionId := session.id
    gameSlug := session.gameSlug.text }
  EventsService.publish (if started then .sessionStarted else .sessionEnded) (.session event)
  BullQueue.realtime.add (if started then "started" else "ended")
    (.update userId session.id (if started then .sessionStarted else .sessionEnded) (.session session))

def startSession (emission : Emission) (userId : Id) (data : GameSessionDto) : Fanout Unit :=
  fanoutSession emission userId data true

def endSession (emission : Emission) (userId sessionId : Id) : Fanout Unit := do
  let event : SessionEvent := { toBaseEvent := event emission userId, sessionId, gameSlug := "" }
  EventsService.publish .sessionEnded (.session event)
  BullQueue.session.add "ended" (.ended event)

def minesStart (emission : Emission) (userId : Id) (data : MinesRoundState) : Fanout Unit :=
  EventsService.publish .minesStarted (.mines (event emission userId) data)

def minesReveal (emission : Emission) (userId sessionId : Id) (data : MinesRoundState) : Fanout Unit := do
  EventsService.publish .minesSettled (.mines (event emission userId) data)
  BullQueue.realtime.add "mines" (.update userId sessionId .minesUpdated (.mines data))

/-- The record that a cash-out is fanned out with. -/
def cashedOut (emission : Emission) (reference : String) (sessionId : Id) (gameSlug : GameSlug) (multiplier : ℚ)
    (payout balance : Option Money) (outcome : GameOutcome) : SettledBet :=
  { reference
    sessionId
    gameSlug
    won := true
    stake := 0
    multiplier
    payout := payout.getD 0
    outcome
    serverSeedHash := ""
    clientSeed := ""
    nonce := 0
    balance := balance.getD 0
    settledAt := emission.now }

def minesCashout (emission : Emission) (userId sessionId : Id) (data : MinesRoundState) : Fanout Unit := do
  EventsService.publish .minesSettled (.mines (event emission userId) data)
  if data.status = .cashedOut then
    fanoutBet emission userId (cashedOut emission data.reference sessionId .mines data.multiplier data.payout
      data.balance (.mines (data.minePositions.getD []) data.revealed))

def towersStart (emission : Emission) (userId : Id) (data : TowersRoundState) : Fanout Unit :=
  EventsService.publish .towersStarted (.towers (event emission userId) data)

def towersReveal (emission : Emission) (userId sessionId : Id) (data : TowersRoundState) : Fanout Unit := do
  EventsService.publish .towersSettled (.towers (event emission userId) data)
  BullQueue.realtime.add "towers" (.update userId sessionId .towersUpdated (.towers data))

def towersCashout (emission : Emission) (userId sessionId : Id) (data : TowersRoundState) : Fanout Unit := do
  EventsService.publish .towersSettled (.towers (event emission userId) data)
  if data.status = .cashedOut then
    fanoutBet emission userId (cashedOut emission data.reference sessionId .towers data.multiplier data.payout
      data.balance (.towers (data.traps.getD []) data.picks))

/-- What the handler of a command does with a success. -/
def fanout (emission : Emission) : Request → Response → Fanout Unit
  | .startSession userId _, .session data => startSession emission userId data
  | .endSession userId sessionId, .ended => endSession emission userId sessionId
  | .placeBet userId _ _ _ _, .settled bet => fanoutBet emission userId bet
  | .startMines userId _ _ _, .mines data => minesStart emission userId data
  | .revealMines userId sessionId _ _, .mines data => minesReveal emission userId sessionId data
  | .cashOutMines userId sessionId _, .mines data => minesCashout emission userId sessionId data
  | .startTowers userId _ _ _, .towers data => towersStart emission userId data
  | .revealTowers userId sessionId _ _, .towers data => towersReveal emission userId sessionId data
  | .cashOutTowers userId sessionId _, .towers data => towersCashout emission userId sessionId data
  | _, _ => pure ()

/-- The handler catches what its fan-out throws. -/
def catches : Request → Bool
  | .placeBet _ _ _ _ _ => true
  | _ => false

/-- What a command has led to: its answer, the store, and the calls that have gone through. -/
structure Handled where
  answer : Except Fault Response
  after : Db
  sent : List FanoutCall

/-- The handler of a command. -/
def handle (D : Digest) (fresh : Fresh) (emission : Emission) (fails : Target → Bool) (request : Request) (db : Db) :
    Handled :=
  let (result, after) := (serve D fresh request).run exec db
  match result with
  | .error e => { answer := .error e, after, sent := [] }
  | .ok response =>
    let (done, sent) := (fanout emission request response).run (send fails) []
    match done with
    | .ok () => { answer := .ok response, after, sent }
    | .error e => { answer := if catches request then .ok response else .error e, after, sent }

end EngineController

/-! ## Running a fan-out -/

/-- How a fan-out ends. -/
def Fanout.outcome {α : Type} (fails : Target → Bool) : Fanout α → Except Fault α
  | .ret a => .ok a
  | .throw e => .error e
  | .stmt call k => Fanout.outcome fails (k !fails call.target)

/-- The calls that go through. -/
def Fanout.sent {α : Type} (fails : Target → Bool) : Fanout α → List FanoutCall
  | .ret _ => []
  | .throw _ => []
  | .stmt call k => (if fails call.target then [] else [call]) ++ Fanout.sent fails (k !fails call.target)

theorem run_fanout {α : Type} (fails : Target → Bool) (p : Fanout α) (sent : List FanoutCall) :
    p.run (send fails) sent = (p.outcome fails, sent ++ p.sent fails) := by
  induction p generalizing sent with
  | ret a => simp [Fanout.outcome, Fanout.sent]
  | throw e => simp [Fanout.outcome, Fanout.sent]
  | stmt call k ih =>
    cases hf : fails call.target with
    | true =>
      have hsend : send fails call sent = .ok (false, sent) := if_pos hf
      rw [Prog.run_stmt hsend, ih, Fanout.outcome, Fanout.sent, hf]
      rfl
    | false =>
      have hsend : send fails call sent = .ok (true, sent ++ [call]) := if_neg (by rw [hf]; exact Bool.false_ne_true)
      rw [Prog.run_stmt hsend, ih, Fanout.outcome, Fanout.sent, hf, List.append_assoc]
      rfl

/-! ## The calls of a fan-out -/

/-- The calls that are made when none is rejected. -/
def Fanout.calls {α : Type} (p : Fanout α) : List FanoutCall := p.sent fun _ => false

theorem calls_exchange {α : Type} (routingKey : RoutingKey) (payload : EventPayload) (f : Unit → Fanout α) :
    (EventsService.publish routingKey payload >>= f).calls = .exchange routingKey payload :: (f ()).calls := rfl

namespace EngineController

variable {emission : Emission} {userId : Id} {bet : SettledBet}

theorem calls_fanoutBet : (fanoutBet emission userId bet).calls =
    .channel (channels.user userId) .betSettled (.bet bet) ::
      ((if bet.sessionId ≠ "" then [.channel (channels.session bet.sessionId) .betSettled (.bet bet)] else []) ++
      (if bet.won ∧ bet.payout > 0 then
        [.channel channels.lobby .liveWin (.liveWin bet.gameSlug bet.payout bet.multiplier)] else []) ++
      [.exchange .betSettled (.bet (settledEvent emission userId bet)),
        .queue .realtime "bet" (.update userId bet.sessionId .betSettled (.bet bet)),
        .queue .session "history" (.history bet.sessionId (queuedItem bet))]) := by
  unfold fanoutBet
  split <;> split <;> rfl

theorem fanoutBet_targets_nodup : ((fanoutBet emission userId bet).calls.map FanoutCall.target).Nodup := by
  have hsession : channels.user userId ≠ channels.session bet.sessionId := user_ne_session userId bet.sessionId
  rw [calls_fanoutBet]
  split <;> split <;> simp [FanoutCall.target, hsession]

/-- A cash-out's own event has a key that its bet is not sent with. -/
theorem cashout_targets_nodup {routingKey : RoutingKey} (hkey : routingKey ≠ .betSettled) (payload : EventPayload)
    (settled : Prop) [Decidable settled] :
    ((Fanout.calls (do
      EventsService.publish routingKey payload
      if settled then fanoutBet emission userId bet)).map FanoutCall.target).Nodup := by
  rw [calls_exchange, List.map_cons, List.nodup_cons]
  by_cases h : settled
  · rw [if_pos h]
    refine ⟨?_, fanoutBet_targets_nodup⟩
    rw [calls_fanoutBet]
    split <;> split <;> simp [FanoutCall.target, hkey]
  · rw [if_neg h]
    exact ⟨List.not_mem_nil, List.nodup_nil⟩

/-- No two calls of a handler go to one target. -/
theorem targets_nodup (emission : Emission) (request : Request) (response : Response) :
    ((fanout emission request response).calls.map FanoutCall.target).Nodup := by
  cases request <;> cases response <;> first | exact List.nodup_nil | skip
  case placeBet.settled => exact fanoutBet_targets_nodup
  case cashOutMines.mines => exact cashout_targets_nodup (by decide) _ _
  case cashOutTowers.towers => exact cashout_targets_nodup (by decide) _ _
  all_goals simp [fanout, startSession, endSession, fanoutSession, minesStart, minesReveal, towersStart, towersReveal,
    EventsService.publish, BullQueue.add, Fanout.calls, Fanout.sent, FanoutCall.target, bind, Prog.bind]

end EngineController

end Smink
