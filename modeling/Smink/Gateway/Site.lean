import Smink.Gateway.Http
import Smink.Rpc.Net

/-!
# Gateway and engine

The gateway sends an envelope to the engine's RabbitMQ queue and waits for the reply (`EngineClient.send`); the engine
takes messages off the queue, in whatever order, and replies. `Site` is what all of them share: the database and the
other services' messages (`Net`), the envelopes that have been sent, and the replies. An HTTP request, the handling of
one message, the crediting of a deposit and what the worker does are calls (`SiteCall`), and a pool of them interleaves
at single statements. A gateway that waits too long is one whose `await` comes before the reply.
-/

namespace Smink

open Store

/-! ## The queue -/

/-- What comes back for an envelope. -/
inductive Reply
  | pong
  | result (result : Except RpcError Response)
  /-- The handler threw. -/
  | err

structure Site where
  net : Net
  /-- What has been sent to the queue of the engine, in its order. -/
  envelopes : List RpcEnvelope
  /-- The replies, each to the envelope of a number. -/
  replies : List (Nat × Reply)

def Site.start (db : Db) : Site := { net := Net.start db, envelopes := [], replies := [] }

inductive Hop
  | wire (q : Wire)
  | send (envelope : RpcEnvelope)
  | await (n : Nat)
  | receive (n : Nat)
  | reply (n : Nat) (reply : Reply)

def Hop.Resp : Hop → Type
  | .wire q => q.Resp
  | .send _ => Nat
  | .await _ => Option Reply
  | .receive _ => Option RpcEnvelope
  | .reply _ _ => Unit

/-- A program of the gateway, the engine or the worker. -/
abbrev Routed := Prog Hop.Resp Fault

def execSite : (q : Hop) → Site → Except Fault (q.Resp × Site)
  | .wire q, site =>
    match execNet q site.net with
    | .ok (r, net) => .ok (r, { site with net })
    | .error e => .error e
  | .send envelope, site => .ok (site.envelopes.length, { site with envelopes := site.envelopes ++ [envelope] })
  | .await n, site => .ok (site.replies.lookup n, site)
  | .receive n, site => .ok (site.envelopes[n]?, site)
  | .reply n reply, site => .ok ((), { site with replies := site.replies ++ [(n, reply)] })

/-- One statement. -/
def hop (q : Hop) : Routed q.Resp := .stmt q .ret

/-- A program of the services. -/
def Wired.routed {α : Type} (p : Wired α) : Routed α := Prog.embed Hop.wire (fun _ r => r) p

/-! ## The gateway -/

namespace EngineClient

def unavailable : RpcError := ⟨"Play is paused right now. Try again in a moment.", .unavailable⟩

def send (envelope : RpcEnvelope) : Routed (Except RpcError Response) := do
  let n ← hop (.send envelope)
  match ← hop (.await n) with
  | some (.result result) => return result
  | _ => return .error unavailable

def ping : Routed Bool := do
  let n ← hop (.send { command := .ping, userId := "health", payload := [] })
  match ← hop (.await n) with
  | some .pong => return true
  | _ => return false

end EngineClient

inductive HttpAnswer
  | refused (error : HttpError)
  | health (engine realtime : Bool)
  | token (request : TokenRequest)
  | rpc (result : Except RpcError Response)

/-- The handler of a route; the one without a guard is `health`. -/
def GatewayController.handle (moment : Moment) (request : HttpRequest) (user : Option AuthUser) : Routed HttpAnswer :=
  match user with
  | none => do return .health (← EngineClient.ping) moment.enabled
  | some user =>
    match request.route.envelope user.userId request.body with
    | some envelope => do return .rpc (← EngineClient.send envelope)
    | none =>
      match createTokenRequest moment.enabled user.userId (request.body.text "sessionId") with
      | .ok token => return .token token
      | .error _ => return .refused ⟨500, "Internal server error"⟩

/-- An HTTP request. -/
def GatewayController.answer (moment : Moment) (request : HttpRequest) : Routed HttpAnswer :=
  match request.admit moment with
  | .ok user => handle moment request user
  | .error e => return .refused e

/-! ## The engine -/

def Reply.ofResult : Except Fault Response → Reply
  | .ok response => .result (.ok response)
  | .error (.fail e) => .result (.error e)
  | .error .threw => .err

def EngineController.reply (n : Nat) (reply : Reply) : Routed Unit := hop (.reply n reply)

/-- The handler of the message that the queue has under the number. -/
def EngineController.onMessage (D : Digest) (fresh : Fresh) (emission : Emission) (fails : Target → Bool) (n : Nat) :
    Routed Unit := do
  match ← hop (.receive n) with
  | none => return ()
  | some envelope =>
    match envelope.request with
    | some request =>
      let result ← (EngineController.handler D fresh emission fails request).routed.attempt
      reply n (.ofResult result)
    | none => if envelope.command = .ping then reply n .pong

/-! ## Calls -/

inductive SiteCall
  | http (moment : Moment) (request : HttpRequest)
  | message (n : Nat) (fresh : Fresh) (emission : Emission) (fails : Target → Bool)
  | credit (now : Time) (depositId : Id) (extraMetadata : Metadata → Metadata)
  | job (n : Nat) (fails : Target → Bool)
  | event (n : Nat) (fails : Target → Bool)

def SiteCall.prog (D : Digest) : SiteCall → Routed (Option HttpAnswer)
  | .http moment request => return some (← GatewayController.answer moment request)
  | .message n fresh emission fails => do
    EngineController.onMessage D fresh emission fails n
    return none
  | .credit now depositId extraMetadata => do
    let _ ← (Sql.wired (creditDeposit now depositId extraMetadata)).routed
    return none
  | .job n fails => do
    (RealtimeProcessor.take fails (← hop (.wire (.takeJob n)))).routed
    return none
  | .event n fails => do
    (EventsController.take fails (← hop (.wire (.takeEvent n)))).routed
    return none

theorem embeds_net : Embeds execNet execSite Hop.wire (fun _ r => r) Site.net fun site net => { site with net } where
  part_put _ _ := rfl
  put_part _ := rfl
  put_put _ _ _ := rfl
  error q site e he := by simp only [execSite, he]
  ok q site r net he := ⟨r, by simp only [execSite, he], rfl⟩

/-! ## Who is let in -/

section Admission

variable {moment : Moment} {request : HttpRequest} {user : AuthUser}

/-- The player is let in by the guards of the route. -/
structure Admits (moment : Moment) (request : HttpRequest) (user : AuthUser) : Prop where
  authentic : JwtGuard.canActivate moment request.headers = .ok user
  present : request.route.presenceGuard = true → moment.enabled = true ∧
    (isUserPresent true moment.members user.userId = true ∨ isUserPresent true moment.membersLater user.userId = true)

theorem except_bind_ok {α β ε : Type} {a : Except ε α} {f : α → Except ε β} {b : β} (h : (a >>= f) = .ok b) :
    ∃ x, a = .ok x ∧ f x = .ok b := by
  cases a with
  | error e => cases h
  | ok x => exact ⟨x, rfl, h⟩

theorem presence_ok {passed : Unit} (h : PresenceGuard.canActivate moment (some user) = .ok passed) :
    moment.enabled = true ∧ (isUserPresent true moment.members user.userId = true ∨
      isUserPresent true moment.membersLater user.userId = true) := by
  unfold PresenceGuard.canActivate at h
  cases henabled : moment.enabled with
  | false => simp [henabled] at h
  | true =>
    refine ⟨rfl, ?_⟩
    simp only [henabled, Bool.not_true, Bool.false_eq_true, if_false] at h
    split_ifs at h with hempty hnow hlater
    · exact .inl hnow
    · exact .inr hlater

/-- Who gets past the guards. -/
theorem admits_of_pass (h : request.route.pass moment request.headers = .ok (some user)) :
    Admits moment request user := by
  unfold Route.pass at h
  split at h
  · cases h
  obtain ⟨found, hfound, h⟩ := except_bind_ok h
  split at h
  · obtain ⟨passed, hpassed, h⟩ := except_bind_ok h
    cases h
    exact ⟨hfound, fun _ => presence_ok hpassed⟩
  · rename_i hpresence
    cases h
    exact ⟨hfound, fun h => absurd h hpresence⟩

/-- Who gets past the guards and the pipe. -/
theorem admits_of_admit (h : request.admit moment = .ok (some user)) :
    Admits moment request user ∧ ∀ dto ∈ request.route.dto, validate dto request.body = true := by
  unfold HttpRequest.admit at h
  obtain ⟨passed, hpass, h⟩ := except_bind_ok h
  split at h
  · cases h
  · rename_i hvalid
    cases h
    refine ⟨admits_of_pass hpass, fun dto hdto => ?_⟩
    rw [Option.mem_def.1 hdto] at hvalid
    simpa using hvalid

end Admission

end Smink
