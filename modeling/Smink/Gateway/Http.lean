import Smink.Gateway.Auth
import Smink.Play.Stranded

/-!
# The routes of the gateway

`apps/gateway/src/gateway.controller.ts`: the guards of each route, the body it takes, the checks of `class-validator`
on it, and the command it sends to the engine. Nest runs the guards first and then the `ValidationPipe`, so a request is
let through by `HttpRequest.admit` before its handler sees it. What the engine reads of an envelope is
`RpcEnvelope.request`; it finds there all it asks for (`request_of_admit`).
-/

namespace Smink

/-! ## Bodies -/

/-- A JSON value. A number is `none` when it is too large to be finite. -/
inductive Value
  | null
  | bool (b : Bool)
  | num (value : Num)
  | str (s : String)
  | arr
  /-- An object, as the engine reads a selection. -/
  | obj (selection : RawSelection)

/-- The properties of a JSON object; none where there is no body. -/
abbrev Body := List (String × Value)

def Body.text (body : Body) (name : String) : Option String :=
  match body.lookup name with
  | some (.str s) => some s
  | _ => none

def Body.number (body : Body) (name : String) : Option Num :=
  match body.lookup name with
  | some (.num value) => some value
  | _ => none

def Body.object (body : Body) (name : String) : Option RawSelection :=
  match body.lookup name with
  | some (.obj selection) => some selection
  | _ => none

/-- `{ name: body[name] }`, as it is sent: without the property where there is no value. -/
def Body.only (body : Body) (name : String) : Body :=
  match body.lookup name with
  | some value => [(name, value)]
  | none => []

/-! ## Checks -/

/-- The decorators of a property. -/
inductive Check
  | isString
  | isNumber
  | isInt
  | isObject
  | min (bound : ℚ)
  | isIn (values : List String)

/-- What passes a decorator; `none` is a missing property. -/
def Check.holds : Check → Option Value → Bool
  | .isString, some (.str _) => true
  | .isNumber, some (.num value) => value.isSome
  | .isInt, some (.num (some q)) => decide (q.den = 1)
  | .isObject, some (.obj _) => true
  | .min bound, some (.num (some q)) => decide (bound ≤ q)
  | .isIn values, some (.str s) => decide (s ∈ values)
  | _, _ => false

structure Property where
  name : String
  checks : List Check
  /-- `@IsOptional()`: nothing is checked where there is no value, or `null`. -/
  isOptional : Bool := false

def Property.holds (property : Property) (body : Body) : Bool :=
  match body.lookup property.name with
  | none => property.isOptional || property.checks.all (·.holds none)
  | some .null => property.isOptional || property.checks.all (·.holds (some .null))
  | some value => property.checks.all (·.holds (some value))

/-- The `ValidationPipe` with `whitelist` and `forbidNonWhitelisted`. -/
def validate (dto : List Property) (body : Body) : Bool :=
  body.all (fun entry => dto.any fun property => property.name = entry.1) && dto.all (·.holds body)

def text (name : String) : Property := ⟨name, [.isString], false⟩

def stakeProperty : Property := ⟨"stake", [.isNumber, .min (1 / 100)], false⟩

def tileProperty : Property := ⟨"tile", [.isInt, .min 0], false⟩

def TokenBody : List Property := [⟨"sessionId", [.isString], true⟩]

def StartSessionBody : List Property := [text "gameSlug"]

def PlaceBetBody : List Property := [text "sessionId", text "slug", stakeProperty, ⟨"selection", [.isObject], false⟩]

def MinesStartBody : List Property := [text "sessionId", stakeProperty, ⟨"mineCount", [.isInt, .min 1], false⟩]

def MinesRevealBody : List Property := [text "sessionId", text "reference", tileProperty]

def MinesCashoutBody : List Property := [text "sessionId", text "reference"]

def TowersStartBody : List Property :=
  [text "sessionId", stakeProperty, ⟨"difficulty", [.isIn ["easy", "medium", "hard", "expert"]], false⟩]

def TowersRevealBody : List Property := [text "sessionId", text "reference", tileProperty]

def TowersCashoutBody : List Property := [text "sessionId", text "reference"]

/-! ## Routes -/

/-- `COMMANDS`. -/
inductive COMMANDS
  | ping
  | startSession | endSession | getSession
  | placeBet
  | minesStart | minesReveal | minesCashout | minesOpen
  | towersStart | towersReveal | towersCashout | towersOpen
  deriving DecidableEq

/-- The handlers of `GatewayController`, with the parameters of their paths. -/
inductive Route
  | health
  | token
  | startSession
  | endSession (sessionId : String)
  | getSession (sessionId : String)
  | play
  | minesStart | minesReveal | minesCashout
  | minesOpen (sessionId : String)
  | towersStart | towersReveal | towersCashout
  | towersOpen (sessionId : String)
  deriving DecidableEq

/-- `@UseGuards(JwtGuard)`. -/
def Route.jwtGuard : Route → Bool
  | .health => false
  | _ => true

/-- `@UseGuards(JwtGuard, PresenceGuard)`. -/
def Route.presenceGuard : Route → Bool
  | .startSession | .play => true
  | .minesStart | .minesReveal | .minesCashout => true
  | .towersStart | .towersReveal | .towersCashout => true
  | .health | .token | .endSession _ | .getSession _ | .minesOpen _ | .towersOpen _ => false

/-- The type of `@Body()`, where the handler has one. -/
def Route.dto : Route → Option (List Property)
  | .token => some TokenBody
  | .startSession => some StartSessionBody
  | .play => some PlaceBetBody
  | .minesStart => some MinesStartBody
  | .minesReveal => some MinesRevealBody
  | .minesCashout => some MinesCashoutBody
  | .towersStart => some TowersStartBody
  | .towersReveal => some TowersRevealBody
  | .towersCashout => some TowersCashoutBody
  | .health | .endSession _ | .getSession _ | .minesOpen _ | .towersOpen _ => none

structure HttpRequest where
  route : Route
  headers : Headers
  body : Body

/-- The guards of the route, in their order. -/
def Route.pass (route : Route) (moment : Moment) (headers : Headers) : Except HttpError (Option AuthUser) := do
  if !route.jwtGuard then return none
  let user ← JwtGuard.canActivate moment headers
  if route.presenceGuard then PresenceGuard.canActivate moment (some user)
  return some user

/-- The guards and then the pipe. -/
def HttpRequest.admit (request : HttpRequest) (moment : Moment) : Except HttpError (Option AuthUser) := do
  let user ← request.route.pass moment request.headers
  if (request.route.dto.map fun dto => validate dto request.body) = some false then throw ⟨400, "Bad Request"⟩
  return user

/-! ## Envelopes -/

structure RpcEnvelope where
  command : COMMANDS
  userId : Id
  payload : Body

/-- What the handler of a route sends to the engine. -/
def Route.envelope (route : Route) (userId : Id) (body : Body) : Option RpcEnvelope :=
  let send (command : COMMANDS) (payload : Body) : Option RpcEnvelope := some { command, userId, payload }
  match route with
  | .health | .token => none
  | .startSession => send .startSession (body.only "gameSlug")
  | .endSession sessionId => send .endSession [("sessionId", .str sessionId)]
  | .getSession sessionId => send .getSession [("sessionId", .str sessionId)]
  | .play => send .placeBet body
  | .minesStart => send .minesStart body
  | .minesReveal => send .minesReveal body
  | .minesCashout => send .minesCashout body
  | .minesOpen sessionId => send .minesOpen [("sessionId", .str sessionId)]
  | .towersStart => send .towersStart body
  | .towersReveal => send .towersReveal body
  | .towersCashout => send .towersCashout body
  | .towersOpen sessionId => send .towersOpen [("sessionId", .str sessionId)]

/-- The slug that a text is. -/
def GameSlug.ofText (name : String) : GameSlug :=
  if name = "dice" then .dice
  else if name = "coin-flip" then .coinFlip
  else if name = "limbo" then .limbo
  else if name = "wheel" then .wheel
  else if name = "mines" then .mines
  else if name = "plinko" then .plinko
  else if name = "towers" then .towers
  else if name = "keno" then .keno
  else .other name

/-- What the handler of a command reads of its envelope, as long as it finds it there. -/
def RpcEnvelope.request (envelope : RpcEnvelope) : Option Request :=
  let userId := envelope.userId
  let payload := envelope.payload
  match envelope.command with
  | .ping => none
  | .startSession => do return .startSession userId (GameSlug.ofText (← payload.text "gameSlug"))
  | .endSession => do return .endSession userId (← payload.text "sessionId")
  | .getSession => do return .getSession userId (← payload.text "sessionId")
  | .placeBet => do
    return .placeBet userId (← payload.text "sessionId") (GameSlug.ofText (← payload.text "slug"))
      (← payload.number "stake") (← payload.object "selection")
  | .minesStart => do
    return .startMines userId (← payload.text "sessionId") (← payload.number "stake") (← payload.number "mineCount")
  | .minesReveal => do
    return .revealMines userId (← payload.text "sessionId") (← payload.text "reference") (← payload.number "tile")
  | .minesCashout => do return .cashOutMines userId (← payload.text "sessionId") (← payload.text "reference")
  | .minesOpen => do return .getOpenMines userId (← payload.text "sessionId")
  | .towersStart => do
    return .startTowers userId (← payload.text "sessionId") (← payload.number "stake") (← payload.text "difficulty")
  | .towersReveal => do
    return .revealTowers userId (← payload.text "sessionId") (← payload.text "reference") (← payload.number "tile")
  | .towersCashout => do return .cashOutTowers userId (← payload.text "sessionId") (← payload.text "reference")
  | .towersOpen => do return .getOpenTowers userId (← payload.text "sessionId")

/-! ## What an envelope carries -/

/-- The properties that the engine reads of the envelope of a request, apart from the user's id. -/
def Request.properties : Request → List String
  | .startSession _ _ => ["gameSlug"]
  | .endSession _ _ | .getSession _ _ | .getOpenMines _ _ | .getOpenTowers _ _ => ["sessionId"]
  | .placeBet _ _ _ _ _ => ["sessionId", "slug", "stake", "selection"]
  | .startMines _ _ _ _ => ["sessionId", "stake", "mineCount"]
  | .startTowers _ _ _ _ => ["sessionId", "stake", "difficulty"]
  | .revealMines _ _ _ _ | .revealTowers _ _ _ _ => ["sessionId", "reference", "tile"]
  | .cashOutMines _ _ _ | .cashOutTowers _ _ _ => ["sessionId", "reference"]

/-- What a route is for: the request that is asked there, with what the path or the body says. -/
def Route.Asks (body : Body) : Route → Request → Prop
  | .startSession, .startSession _ gameSlug =>
    ∃ name, body.text "gameSlug" = some name ∧ gameSlug = GameSlug.ofText name
  | .endSession id, .endSession _ sessionId => sessionId = id
  | .getSession id, .getSession _ sessionId => sessionId = id
  | .play, .placeBet _ sessionId slug stake selection => body.text "sessionId" = some sessionId ∧
    (∃ name, body.text "slug" = some name ∧ slug = GameSlug.ofText name) ∧ body.number "stake" = some stake ∧
      body.object "selection" = some selection
  | .minesStart, .startMines _ sessionId stake mineCount =>
    body.text "sessionId" = some sessionId ∧ body.number "stake" = some stake ∧ body.number "mineCount" = some mineCount
  | .minesReveal, .revealMines _ sessionId reference tile =>
    body.text "sessionId" = some sessionId ∧ body.text "reference" = some reference ∧ body.number "tile" = some tile
  | .minesCashout, .cashOutMines _ sessionId reference =>
    body.text "sessionId" = some sessionId ∧ body.text "reference" = some reference
  | .minesOpen id, .getOpenMines _ sessionId => sessionId = id
  | .towersStart, .startTowers _ sessionId stake difficulty =>
    body.text "sessionId" = some sessionId ∧ body.number "stake" = some stake ∧
      body.text "difficulty" = some difficulty
  | .towersReveal, .revealTowers _ sessionId reference tile =>
    body.text "sessionId" = some sessionId ∧ body.text "reference" = some reference ∧ body.number "tile" = some tile
  | .towersCashout, .cashOutTowers _ sessionId reference =>
    body.text "sessionId" = some sessionId ∧ body.text "reference" = some reference
  | .towersOpen id, .getOpenTowers _ sessionId => sessionId = id
  | _, _ => False

/-- A stake of at least a cent. -/
def IsStake (stake : Num) : Prop := ∃ q : ℚ, stake = some q ∧ 1 / 100 ≤ q

/-- What the checks of the bodies promise the engine. -/
def Request.Checked : Request → Prop
  | .placeBet _ _ _ stake _ => IsStake stake
  | .startMines _ _ stake mineCount => IsStake stake ∧ ∃ n : ℕ, 1 ≤ n ∧ mineCount = some (n : ℚ)
  | .startTowers _ _ stake difficulty => IsStake stake ∧ ∃ d : TowersDifficulty, difficulty = d.text
  | .revealMines _ _ _ tile | .revealTowers _ _ _ tile => ∃ n : ℕ, tile = some (n : ℚ)
  | _ => True

section Checked

variable {body : Body} {name : String}

/-- A body that is let through has the properties of its type and no other. -/
theorem properties_of_validate {dto : List Property} (h : validate dto body = true) :
    ∀ entry ∈ body, entry.1 ∈ dto.map Property.name := by
  intro entry hentry
  rw [validate, Bool.and_eq_true, List.all_eq_true] at h
  obtain ⟨property, hproperty, hname⟩ := List.any_eq_true.1 (h.1 entry hentry)
  exact List.mem_map.2 ⟨property, hproperty, of_decide_eq_true hname⟩

/-- The body of a request has no property that the engine does not read. -/
theorem properties_of_asks {route : Route} {asked : Request} (h : route.Asks body asked)
    (hvalid : ∀ dto ∈ route.dto, validate dto body = true) (hdto : route.dto.isSome = true) :
    ∀ entry ∈ body, entry.1 ∈ asked.properties := by
  cases route <;> first | exact absurd hdto Bool.false_ne_true | skip
  all_goals
    have hnames := properties_of_validate (hvalid _ rfl)
    cases asked <;> first | exact hnames | exact h.elim

theorem text_only : (body.only name).text name = body.text name := by
  unfold Body.only Body.text
  cases hvalue : body.lookup name with
  | none => rfl
  | some value => simp

theorem properties_only : ∀ entry ∈ body.only name, entry.1 = name := by
  intro entry hentry
  unfold Body.only at hentry
  split at hentry
  · rw [List.mem_singleton.1 hentry]
  · cases hentry

theorem text_of_holds (h : (text name).holds body = true) : ∃ s, body.text name = some s := by
  unfold Property.holds text at h
  unfold Body.text
  cases hvalue : body.lookup name with
  | none => simp [hvalue, Check.holds] at h
  | some value => cases value <;> simp [hvalue, Check.holds] at h ⊢

theorem number_of_holds {check : Check} {bound : ℚ}
    (h : (Property.mk name [check, .min bound] false).holds body = true) :
    ∃ q : ℚ, body.number name = some (some q) ∧ check.holds (some (.num (some q))) = true ∧ bound ≤ q := by
  unfold Property.holds at h
  unfold Body.number
  cases hvalue : body.lookup name with
  | none => simp [hvalue, Check.holds] at h
  | some value =>
    cases value with
    | num value => cases value <;> simp_all [Check.holds]
    | _ => simp [hvalue, Check.holds] at h

theorem stake_of_holds (h : stakeProperty.holds body = true) :
    ∃ stake, body.number "stake" = some stake ∧ IsStake stake := by
  obtain ⟨q, hq, -, hle⟩ := number_of_holds h
  exact ⟨some q, hq, q, rfl, hle⟩

/-- An integer of at least a natural number is one. -/
theorem natural_of_holds (least : ℕ) (h : (Property.mk name [.isInt, .min least] false).holds body = true) :
    ∃ n : ℕ, body.number name = some (some (n : ℚ)) ∧ least ≤ n := by
  obtain ⟨q, hq, hint, hle⟩ := number_of_holds h
  have hden : q.den = 1 := by simpa [Check.holds] using hint
  have hcast : ((q.num : ℤ) : ℚ) = q := Rat.coe_int_num_of_den_eq_one hden
  have hnum : (least : ℤ) ≤ q.num := by
    rw [← hcast] at hle
    exact_mod_cast hle
  obtain ⟨n, hn⟩ := Int.eq_ofNat_of_zero_le ((Int.natCast_nonneg least).trans hnum)
  refine ⟨n, ?_, by omega⟩
  rw [hq, ← hcast, hn]
  rfl

theorem difficulty_of_holds
    (h : (Property.mk name [.isIn ["easy", "medium", "hard", "expert"]] false).holds body = true) :
    ∃ d : TowersDifficulty, body.text name = some d.text := by
  unfold Property.holds at h
  unfold Body.text
  cases hvalue : body.lookup name with
  | none => simp [hvalue, Check.holds] at h
  | some value =>
    cases value with
    | str s =>
      simp only [hvalue, List.all_cons, List.all_nil, Bool.and_true, Check.holds,
        decide_eq_true_eq, List.mem_cons, List.not_mem_nil, or_false] at h
      rcases h with rfl | rfl | rfl | rfl
      · exact ⟨.easy, rfl⟩
      · exact ⟨.medium, rfl⟩
      · exact ⟨.hard, rfl⟩
      · exact ⟨.expert, rfl⟩
    | _ => simp [hvalue, Check.holds] at h

theorem object_of_holds (h : (Property.mk name [.isObject] false).holds body = true) :
    ∃ selection, body.object name = some selection := by
  unfold Property.holds at h
  unfold Body.object
  cases hvalue : body.lookup name with
  | none => simp [hvalue, Check.holds] at h
  | some value => cases value <;> simp [hvalue, Check.holds] at h ⊢

/-- **What a route sends, the engine reads as the request that is asked there**, by the same user, with what the checks
promise and with no property that the engine does not read. -/
theorem request_of_envelope {route : Route} {userId : Id} {envelope : RpcEnvelope}
    (hvalid : ∀ dto ∈ route.dto, validate dto body = true) (h : route.envelope userId body = some envelope) :
    ∃ request, envelope.request = some request ∧ request.userId = userId ∧ request.Checked ∧ route.Asks body request ∧
      ∀ entry ∈ envelope.payload, entry.1 ∈ request.properties := by
  have holds : ∀ {dto : List Property}, route.dto = some dto → ∀ property ∈ dto, property.holds body = true := by
    intro dto hdto property hproperty
    have hdto := hvalid dto hdto
    rw [validate, Bool.and_eq_true, List.all_eq_true, List.all_eq_true] at hdto
    exact hdto.2 property hproperty
  have named : ∀ {dto : List Property}, route.dto = some dto → ∀ entry ∈ body, entry.1 ∈ dto.map Property.name :=
    fun hdto => properties_of_validate (hvalid _ hdto)
  -- an envelope with the id of the path
  have path : ∀ {id : String}, ∀ entry ∈ ([("sessionId", .str id)] : Body), entry.1 ∈ ["sessionId"] := by
    intro id entry hentry
    rw [List.mem_singleton.1 hentry]
    exact List.mem_singleton_self _
  cases route with
  | health => cases h
  | token => cases h
  | endSession sessionId => cases h; exact ⟨_, rfl, rfl, trivial, rfl, path⟩
  | getSession sessionId => cases h; exact ⟨_, rfl, rfl, trivial, rfl, path⟩
  | minesOpen sessionId => cases h; exact ⟨_, rfl, rfl, trivial, rfl, path⟩
  | towersOpen sessionId => cases h; exact ⟨_, rfl, rfl, trivial, rfl, path⟩
  | startSession =>
    cases h
    obtain ⟨slug, hslug⟩ := text_of_holds (holds rfl (text "gameSlug") (by simp [StartSessionBody]))
    refine ⟨.startSession userId (GameSlug.ofText slug), by simp [RpcEnvelope.request, text_only, hslug], rfl, trivial,
      ⟨slug, hslug, rfl⟩, fun entry hentry => ?_⟩
    rw [properties_only entry hentry]
    exact List.mem_singleton_self _
  | play =>
    cases h
    obtain ⟨sessionId, hses⟩ := text_of_holds (holds rfl (text "sessionId") (by simp [PlaceBetBody]))
    obtain ⟨slug, hslug⟩ := text_of_holds (holds rfl (text "slug") (by simp [PlaceBetBody]))
    obtain ⟨stake, hstake, hcent⟩ := stake_of_holds (holds rfl stakeProperty (by simp [PlaceBetBody]))
    obtain ⟨selection, hsel⟩ := object_of_holds (holds rfl ⟨"selection", [.isObject], false⟩ (by simp [PlaceBetBody]))
    exact ⟨.placeBet userId sessionId (GameSlug.ofText slug) stake selection,
      by simp [RpcEnvelope.request, hses, hslug, hstake, hsel], rfl, hcent, ⟨hses, ⟨slug, hslug, rfl⟩, hstake, hsel⟩,
      named rfl⟩
  | minesStart =>
    cases h
    obtain ⟨sessionId, hses⟩ := text_of_holds (holds rfl (text "sessionId") (by simp [MinesStartBody]))
    obtain ⟨stake, hstake, hcent⟩ := stake_of_holds (holds rfl stakeProperty (by simp [MinesStartBody]))
    obtain ⟨n, hn, hone⟩ := natural_of_holds 1 (holds rfl ⟨"mineCount", [.isInt, .min 1], false⟩
      (by simp [MinesStartBody]))
    exact ⟨.startMines userId sessionId stake (some n), by simp [RpcEnvelope.request, hses, hstake, hn], rfl,
      ⟨hcent, n, hone, rfl⟩, ⟨hses, hstake, hn⟩, named rfl⟩
  | towersStart =>
    cases h
    obtain ⟨sessionId, hses⟩ := text_of_holds (holds rfl (text "sessionId") (by simp [TowersStartBody]))
    obtain ⟨stake, hstake, hcent⟩ := stake_of_holds (holds rfl stakeProperty (by simp [TowersStartBody]))
    obtain ⟨d, hd⟩ := difficulty_of_holds (holds rfl ⟨"difficulty", [.isIn ["easy", "medium", "hard", "expert"]], false⟩
      (by simp [TowersStartBody]))
    exact ⟨.startTowers userId sessionId stake d.text, by simp [RpcEnvelope.request, hses, hstake, hd], rfl,
      ⟨hcent, d, rfl⟩, ⟨hses, hstake, hd⟩, named rfl⟩
  | minesReveal =>
    cases h
    obtain ⟨sessionId, hses⟩ := text_of_holds (holds rfl (text "sessionId") (by simp [MinesRevealBody]))
    obtain ⟨reference, href⟩ := text_of_holds (holds rfl (text "reference") (by simp [MinesRevealBody]))
    obtain ⟨n, hn, -⟩ := natural_of_holds 0 (holds rfl tileProperty (by simp [MinesRevealBody]))
    exact ⟨.revealMines userId sessionId reference (some n), by simp [RpcEnvelope.request, hses, href, hn], rfl,
      ⟨n, rfl⟩, ⟨hses, href, hn⟩, named rfl⟩
  | towersReveal =>
    cases h
    obtain ⟨sessionId, hses⟩ := text_of_holds (holds rfl (text "sessionId") (by simp [TowersRevealBody]))
    obtain ⟨reference, href⟩ := text_of_holds (holds rfl (text "reference") (by simp [TowersRevealBody]))
    obtain ⟨n, hn, -⟩ := natural_of_holds 0 (holds rfl tileProperty (by simp [TowersRevealBody]))
    exact ⟨.revealTowers userId sessionId reference (some n), by simp [RpcEnvelope.request, hses, href, hn], rfl,
      ⟨n, rfl⟩, ⟨hses, href, hn⟩, named rfl⟩
  | minesCashout =>
    cases h
    obtain ⟨sessionId, hses⟩ := text_of_holds (holds rfl (text "sessionId") (by simp [MinesCashoutBody]))
    obtain ⟨reference, href⟩ := text_of_holds (holds rfl (text "reference") (by simp [MinesCashoutBody]))
    exact ⟨.cashOutMines userId sessionId reference, by simp [RpcEnvelope.request, hses, href], rfl, trivial,
      ⟨hses, href⟩, named rfl⟩
  | towersCashout =>
    cases h
    obtain ⟨sessionId, hses⟩ := text_of_holds (holds rfl (text "sessionId") (by simp [TowersCashoutBody]))
    obtain ⟨reference, href⟩ := text_of_holds (holds rfl (text "reference") (by simp [TowersCashoutBody]))
    exact ⟨.cashOutTowers userId sessionId reference, by simp [RpcEnvelope.request, hses, href], rfl, trivial,
      ⟨hses, href⟩, named rfl⟩

end Checked

end Smink
