import Smink.Rpc.Channels
import Mathlib.Data.List.DropRight

/-!
# The guards of the gateway

`apps/gateway/src/auth`: which token a request carries, and whom it lets in. A browser sends all its cookies in one
header; `readCookie_cookieHeader` says that the guard finds in it what the browser has put there, and
`jwtGuard_iff` whom `JwtGuard` then lets in. What `jwtVerify` makes of a token, and what Ably knows of who is present,
are parts of a `Moment`.
-/

namespace Smink

/-! ## Cookies -/

/-- White space and line ends, what `String.prototype.trim` takes away. -/
def isWhiteSpace (c : Char) : Bool :=
  c.toNat ∈ [0x9, 0xa, 0xb, 0xc, 0xd, 0x20, 0xa0, 0x1680, 0x2028, 0x2029, 0x202f, 0x205f, 0x3000, 0xfeff] ||
    decide (0x2000 ≤ c.toNat ∧ c.toNat ≤ 0x200a)

def trim (s : List Char) : List Char := (s.dropWhile isWhiteSpace).rdropWhile isWhiteSpace

/-- What `readCookie` makes of one part of the header. -/
def cookieIn (name : String) (part : List Char) : Option String :=
  match (trim part).splitOn '=' with
  | key :: rest => if key = name.toList then some (String.ofList (['='].intercalate rest)) else none
  | [] => none

def readCookie (header : Option String) (name : String) : Option String :=
  match header with
  | none => none
  | some header => if header = "" then none else (header.toList.splitOn ';').findSome? (cookieIn name)

/-! ## JwtGuard -/

def COOKIE_LOCAL : String := "smink_localhost_session"

def COOKIE_PROD : String := "smink_session"

/-- An answer of the gateway that is not the engine's. -/
structure HttpError where
  status : Nat
  message : String
  deriving DecidableEq

def unauthorized (message : String) : HttpError := ⟨401, message⟩

def serviceUnavailable (message : String) : HttpError := ⟨503, message⟩

structure AuthUser where
  userId : Id
  email : String
  deriving DecidableEq

/-- The payload of a token that `jwtVerify` accepts; a claim that is missing or no string is `none`. -/
structure JwtPayload where
  userId : Option String
  email : Option String
  deriving DecidableEq

structure Headers where
  authorization : Option String
  cookie : Option String
  deriving DecidableEq

/-- What a request meets outside of the gateway: the configuration, `jwtVerify` at its time, and the members that Ably
finds on a channel when it is asked, and when it is asked again; `none` is a rejected call. -/
structure Moment where
  jwtSecret : Option String
  jwtVerify : (token secret : String) → Option JwtPayload
  enabled : Bool
  members : (channel : String) → Option Nat
  membersLater : (channel : String) → Option Nat

namespace JwtGuard

/-- `bearer.slice("Bearer ".length)`. -/
def tokenFromHeader (authorization : Option String) : Option String :=
  authorization.bind fun bearer =>
    if "Bearer ".toList <+: bearer.toList then some (String.ofList (bearer.toList.drop 7)) else none

def tokenFromCookie (cookie : Option String) : Option String :=
  (readCookie cookie COOKIE_LOCAL).or (readCookie cookie COOKIE_PROD)

def token (headers : Headers) : Option String :=
  (tokenFromHeader headers.authorization).or (tokenFromCookie headers.cookie)

/-- `if (!value)` of an optional string. -/
def orUnauthorized (value : Option String) (message : String) : Except HttpError String :=
  match value with
  | none => .error (unauthorized message)
  | some s => if s = "" then .error (unauthorized message) else .ok s

/-- The user of a payload; the check inside the `try` fails with the message of the `catch`. -/
def userOf : Option JwtPayload → Except HttpError AuthUser
  | some ⟨some userId, some email⟩ => .ok { userId, email }
  | _ => .error (unauthorized "Session expired. Sign in again.")

def canActivate (moment : Moment) (headers : Headers) : Except HttpError AuthUser := do
  let token ← orUnauthorized (token headers) "Sign in to play"
  let secret ← orUnauthorized moment.jwtSecret "Server is missing JWT_SECRET"
  userOf (moment.jwtVerify token secret)

end JwtGuard

/-! ## PresenceGuard -/

/-- `RealtimeService.isUserPresent`, with what Ably answers. -/
def isUserPresent (enabled : Bool) (members : String → Option Nat) (userId : Id) : Bool :=
  enabled && (members (channels.user userId)).any (0 < ·)

namespace PresenceGuard

def canActivate (moment : Moment) (user : Option AuthUser) : Except HttpError Unit :=
  if !moment.enabled then
    .error (serviceUnavailable "Play is paused until realtime is connected. Check the status in the header.")
  else
    match user with
    | none => .error ⟨403, "Forbidden resource"⟩
    | some user =>
      if user.userId = "" then .error ⟨403, "Forbidden resource"⟩
      else if isUserPresent moment.enabled moment.members user.userId then .ok ()
      else if isUserPresent moment.enabled moment.membersLater user.userId then .ok ()
      else .error (serviceUnavailable "You are not connected. Wait for the live indicator before playing.")

end PresenceGuard

/-! ## The header of a browser -/

/-- The cookies of a browser, as it sends them. -/
def cookieHeader : List (String × String) → String
  | [] => ""
  | [cookie] => cookie.1 ++ "=" ++ cookie.2
  | cookie :: next :: rest => cookie.1 ++ "=" ++ cookie.2 ++ "; " ++ cookieHeader (next :: rest)

/-- No separator is in the name, none but `=` in the value, and no white space at the ends. -/
structure WellFormedCookie (cookie : String × String) : Prop where
  name : ';' ∉ cookie.1.toList ∧ '=' ∉ cookie.1.toList
  value : ';' ∉ cookie.2.toList
  first : (cookie.1.toList.head?.any isWhiteSpace) = false
  last : (cookie.2.toList.getLast?.any isWhiteSpace) = false

/-- The characters of one cookie. -/
def cookieText (cookie : String × String) : List Char := cookie.1.toList ++ '=' :: cookie.2.toList

section Cookies

variable {cookie : String × String} {name : String}

theorem trim_space (s : List Char) : trim (' ' :: s) = trim s := by
  have hspace : isWhiteSpace ' ' = true := by decide
  rw [trim, List.dropWhile_cons_of_pos hspace, trim]

/-- No white space is taken from a cookie. -/
theorem trim_cookieText (h : WellFormedCookie cookie) : trim (cookieText cookie) = cookieText cookie := by
  have hequals : isWhiteSpace '=' = false := by decide
  have hfirst : (cookieText cookie).dropWhile isWhiteSpace = cookieText cookie := by
    cases hname : cookie.1.toList with
    | nil => simp [cookieText, hname, hequals]
    | cons c rest =>
      have hc : isWhiteSpace c = false := by simpa [hname] using h.first
      simp [cookieText, hname, hc]
  have hlast : (cookieText cookie).rdropWhile isWhiteSpace = cookieText cookie := by
    rw [List.rdropWhile_eq_self_iff]
    intro hne
    cases hvalue : cookie.2.toList with
    | nil => simp [cookieText, hvalue, hequals]
    | cons c rest =>
      have hlast : isWhiteSpace ((c :: rest).getLast (by simp)) = false := by
        simpa [hvalue, List.getLast?_eq_some_getLast] using h.last
      simp [cookieText, hvalue, hlast]
  rw [trim, hfirst, hlast]

/-- One part of the header. -/
theorem cookieIn_cookieText (h : WellFormedCookie cookie) :
    cookieIn name (cookieText cookie) = if cookie.1 = name then some cookie.2 else none := by
  have hsplit : (cookieText cookie).splitOn '=' = cookie.1.toList :: cookie.2.toList.splitOn '=' :=
    List.splitOn_append_cons_self_of_not_mem h.name.2 _
  unfold cookieIn
  rw [trim_cookieText h, hsplit]
  simp [String.toList_inj]

/-- The space after a separator is trimmed away. -/
theorem cookieIn_space (part : List Char) : cookieIn name (' ' :: part) = cookieIn name part := by
  rw [cookieIn, trim_space, cookieIn]

theorem not_mem_cookieText (h : WellFormedCookie cookie) : ';' ∉ cookieText cookie := by
  intro hmem
  rcases List.mem_append.1 hmem with hmem | hmem
  · exact h.name.1 hmem
  · rcases List.mem_cons.1 hmem with heq | hmem
    · exact absurd heq (by decide)
    · exact h.value hmem

theorem lookup_cookie (rest : List (String × String)) :
    (cookie :: rest).lookup name = (if cookie.1 = name then some cookie.2 else none).or (rest.lookup name) := by
  obtain ⟨key, value⟩ := cookie
  rw [List.lookup_cons]
  by_cases h : key = name
  · subst h
    simp
  · simp [h, beq_false_of_ne (Ne.symm h)]

theorem findSome_parts {part : List Char} (parts : List (List Char)) :
    (part :: parts).findSome? (cookieIn name) = (cookieIn name part).or (parts.findSome? (cookieIn name)) := by
  rw [List.findSome?_cons]
  cases cookieIn name part <;> simp

/-- The first part that has the name, at the start of a header and after a separator. -/
theorem find_cookieHeader : ∀ cookies : List (String × String), cookies ≠ [] →
    (∀ cookie ∈ cookies, WellFormedCookie cookie) →
      ((cookieHeader cookies).toList.splitOn ';').findSome? (cookieIn name) = cookies.lookup name ∧
        ((' ' :: (cookieHeader cookies).toList).splitOn ';').findSome? (cookieIn name) = cookies.lookup name
  | [], hne, _ => absurd rfl hne
  | [cookie], _, h => by
    have hcookie := h cookie (by simp)
    have htext : (cookieHeader [cookie]).toList = cookieText cookie := by simp [cookieHeader, cookieText]
    have hsep : ';' ∉ ' ' :: cookieText cookie := by simp [not_mem_cookieText hcookie]
    rw [htext, List.splitOn_eq_singleton (not_mem_cookieText hcookie), List.splitOn_eq_singleton hsep,
      findSome_parts, findSome_parts, cookieIn_space, cookieIn_cookieText hcookie, lookup_cookie]
    exact ⟨rfl, rfl⟩
  | cookie :: next :: rest, _, h => by
    have hcookie := h cookie (by simp)
    obtain ⟨-, ih⟩ := find_cookieHeader (next :: rest) (by simp) fun c hc => h c (by simp [hc])
    have htext : (cookieHeader (cookie :: next :: rest)).toList =
        cookieText cookie ++ ';' :: ' ' :: (cookieHeader (next :: rest)).toList := by
      simp [cookieHeader, cookieText]
    have hsep : ';' ∉ ' ' :: cookieText cookie := by simp [not_mem_cookieText hcookie]
    rw [htext, List.splitOn_append_cons_self_of_not_mem (not_mem_cookieText hcookie), ← List.cons_append,
      List.splitOn_append_cons_self_of_not_mem hsep, findSome_parts, findSome_parts, cookieIn_space, ih,
      cookieIn_cookieText hcookie, lookup_cookie (next :: rest)]
    exact ⟨rfl, rfl⟩

theorem toList_cookieHeader : ∀ {cookies : List (String × String)}, cookies ≠ [] → '=' ∈ (cookieHeader cookies).toList
  | [], hne => absurd rfl hne
  | [cookie], _ => by simp [cookieHeader]
  | cookie :: next :: rest, _ => by simp [cookieHeader]

/-- What a browser has put into its header, `readCookie` finds. -/
theorem readCookie_cookieHeader {cookies : List (String × String)} (h : ∀ cookie ∈ cookies, WellFormedCookie cookie) :
    readCookie (some (cookieHeader cookies)) name = cookies.lookup name := by
  cases cookies with
  | nil => rfl
  | cons cookie rest =>
    have hne : cookieHeader (cookie :: rest) ≠ "" := by
      intro hempty
      have hmem := toList_cookieHeader (List.cons_ne_nil cookie rest)
      rw [hempty] at hmem
      exact absurd hmem (by decide)
    show (if cookieHeader (cookie :: rest) = "" then _ else _) = _
    rw [if_neg hne]
    exact (find_cookieHeader _ (List.cons_ne_nil cookie rest) h).1

end Cookies

/-! ## Whom the guard lets in -/

section Guard

variable {moment : Moment} {user : AuthUser}

theorem orUnauthorized_ok {value : Option String} {message s : String} :
    JwtGuard.orUnauthorized value message = .ok s ↔ value = some s ∧ s ≠ "" := by
  cases value with
  | none => simp [JwtGuard.orUnauthorized]
  | some t =>
    by_cases ht : t = ""
    · simp only [JwtGuard.orUnauthorized, if_pos ht, reduceCtorEq, Option.some.injEq, false_iff, not_and, not_not]
      exact fun hs => hs ▸ ht
    · simp only [JwtGuard.orUnauthorized, if_neg ht, Except.ok.injEq, Option.some.injEq]
      constructor
      · rintro rfl
        exact ⟨rfl, ht⟩
      · exact fun h => h.1

theorem userOf_ok {payload : Option JwtPayload} :
    JwtGuard.userOf payload = .ok user ↔ payload = some ⟨some user.userId, some user.email⟩ := by
  obtain ⟨userId, email⟩ := user
  rcases payload with _ | ⟨_ | u, _ | e⟩ <;> simp [JwtGuard.userOf]

/-- Whom `JwtGuard` lets in, by the token it finds. -/
theorem canActivate_ok {headers : Headers} : JwtGuard.canActivate moment headers = .ok user ↔
    ∃ token secret, JwtGuard.token headers = some token ∧ token ≠ "" ∧ moment.jwtSecret = some secret ∧ secret ≠ "" ∧
      moment.jwtVerify token secret = some ⟨some user.userId, some user.email⟩ := by
  unfold JwtGuard.canActivate
  cases htoken : JwtGuard.orUnauthorized (JwtGuard.token headers) "Sign in to play" with
  | error e =>
    refine ⟨fun h => (by cases h), fun ⟨token, _, hfound, hne, _⟩ => ?_⟩
    rw [orUnauthorized_ok.2 ⟨hfound, hne⟩] at htoken
    cases htoken
  | ok token =>
    obtain ⟨hfound, hne⟩ := orUnauthorized_ok.1 htoken
    cases hsecret : JwtGuard.orUnauthorized moment.jwtSecret "Server is missing JWT_SECRET" with
    | error e =>
      refine ⟨fun h => (by cases h), fun ⟨_, secret, _, _, hset, hsecretNe, _⟩ => ?_⟩
      rw [orUnauthorized_ok.2 ⟨hset, hsecretNe⟩] at hsecret
      cases hsecret
    | ok secret =>
      obtain ⟨hset, hsecretNe⟩ := orUnauthorized_ok.1 hsecret
      constructor
      · exact fun h => ⟨token, secret, hfound, hne, hset, hsecretNe, userOf_ok.1 h⟩
      · rintro ⟨token', secret', hfound', -, hset', -, hverify⟩
        obtain rfl := Option.some.inj (hfound.symm.trans hfound')
        obtain rfl := Option.some.inj (hset.symm.trans hset')
        exact userOf_ok.2 hverify

/-- **The guard verifies what the browser holds.** Whatever other cookies are sent along, a request is let in as a user
exactly when the token of its Bearer header, else its first local session cookie, else its first session cookie is not
empty and `jwtVerify` accepts it, under a secret that is set, as a token of that user. -/
theorem jwtGuard_iff (moment : Moment) (cookies : List (String × String))
    (h : ∀ cookie ∈ cookies, WellFormedCookie cookie) (authorization : Option String) (user : AuthUser) :
    JwtGuard.canActivate moment ⟨authorization, some (cookieHeader cookies)⟩ = .ok user ↔
      ∃ token secret, (JwtGuard.tokenFromHeader authorization).or
          ((cookies.lookup COOKIE_LOCAL).or (cookies.lookup COOKIE_PROD)) = some token ∧ token ≠ "" ∧
        moment.jwtSecret = some secret ∧ secret ≠ "" ∧
          moment.jwtVerify token secret = some ⟨some user.userId, some user.email⟩ := by
  rw [canActivate_ok, JwtGuard.token, JwtGuard.tokenFromCookie, readCookie_cookieHeader h, readCookie_cookieHeader h]

/-- A browser with the cookies of other pages, and one of a name that only starts as the session's. -/
def someCookies : List (String × String) :=
  [("theme", "dark"), ("smink_session_old", "a"), ("smink_session", "header.payload=="), ("lang", "")]

/-- A moment at which one token is good. -/
def someMoment : Moment where
  jwtSecret := some "secret"
  jwtVerify token secret :=
    if token = "header.payload==" ∧ secret = "secret" then some ⟨some "u1", some "u1@example.com"⟩ else none
  enabled := true
  members channel := if channel = "smink:user:u1" then some 1 else some 0
  membersLater _ := none

/-- The session of the third cookie is found. -/
theorem jwtGuard_iff_someCookies :
    JwtGuard.canActivate someMoment ⟨none, some (cookieHeader someCookies)⟩ = .ok ⟨"u1", "u1@example.com"⟩ := by
  refine (jwtGuard_iff someMoment someCookies ?_ none ⟨"u1", "u1@example.com"⟩).2 ?_
  · intro cookie hcookie
    simp only [someCookies, List.mem_cons, List.not_mem_nil, or_false] at hcookie
    rcases hcookie with rfl | rfl | rfl | rfl <;>
      exact ⟨by decide, by decide, by decide, by decide⟩
  · exact ⟨"header.payload==", "secret", by decide, by decide, rfl, by decide, by decide⟩

end Guard

end Smink
