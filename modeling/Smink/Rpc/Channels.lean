import Smink.Db.Seed

/-!
# Realtime channels and tokens

`libs/contracts/src/channels.ts`, and the token that `libs/realtime/src/realtime.service.ts` asks Ably for. The token is
scoped by the keys of its capability; how a key covers channels is Ably's part and a parameter (`Ably`). The key of a
session is made of an id that the client sends, or of `*` when it sends none, and nothing asks whose session it is:
`token_confined_iff` says when the token stays with its player all the same, and `token_reaches_session` that it need
not.
-/

namespace Smink

open Store

/-! ## Channels -/

namespace channels

/-- Per user: balance changes, round results, reconnect replays. -/
def user (userId : Id) : String := "smink:user:" ++ userId

/-- Per session: the history feed of one session. -/
def session (sessionId : String) : String := "smink:session:" ++ sessionId

/-- Public: the live wins. -/
def lobby : String := "smink:lobby"

end channels

/-! ## Tokens -/

/-- The keys of a capability, with the operations each allows. -/
abbrev Capability := List (String × List String)

structure TokenRequest where
  clientId : Id
  capability : Capability
  ttl : Nat
  deriving DecidableEq

/-- A browser token for just this user's channels. -/
def createTokenRequest (enabled : Bool) (userId : Id) (sessionId : Option String) : Except String TokenRequest :=
  if !enabled then .error "Realtime is not configured. Set ABLY_API_KEY."
  else .ok {
    clientId := userId
    capability := [
      (channels.user userId, ["subscribe", "presence"]),
      (channels.lobby, ["subscribe"]),
      (channels.session (sessionId.getD "*"), ["subscribe"])]
    ttl := 60 * 60 * 1000 }

/-- The name has no wildcard. -/
def Literal (name : String) : Prop := '*' ∉ name.toList

instance (name : String) : Decidable (Literal name) := inferInstanceAs (Decidable (¬ '*' ∈ name.toList))

/-- Which channels a key of a capability covers: without a wildcard the one of that name, with one for all that
follows a namespace every channel in it, and never a channel outside its namespace. -/
structure Ably where
  covers : (key channel : String) → Bool
  literal : ∀ key channel, Literal key → (covers key channel = true ↔ key = channel)
  wildcard : ∀ space name, Literal space → name ≠ "" → covers (space ++ ":" ++ "*") (space ++ ":" ++ name) = true
  inside : ∀ space name channel, Literal space → covers (space ++ ":" ++ name) channel = true →
    ∃ rest, channel = space ++ ":" ++ rest

/-- The capability allows the operation on the channel. -/
def Ably.allows (A : Ably) (capability : Capability) (operation channel : String) : Bool :=
  capability.any fun (key, operations) => A.covers key channel && operations.contains operation

/-- The capability lets the user subscribe neither to the session of another user nor to that user's own channel. -/
def Confined (A : Ably) (db : Db) (userId : Id) (capability : Capability) : Prop :=
  ∀ s ∈ db.gameSessions.rows, s.userId ≠ userId →
    A.allows capability "subscribe" (channels.session s.id) = false ∧
      A.allows capability "subscribe" (channels.user s.userId) = false

/-- The id that the client has sent is of no other user's session; a pattern covers none, and without an id nobody else
has a session. -/
def NamesNoOther (A : Ably) (db : Db) (userId : Id) : Option String → Prop
  | none => ∀ s ∈ db.gameSessions.rows, s.userId = userId
  | some sessionId => ∀ s ∈ db.gameSessions.rows, s.userId ≠ userId →
    if Literal sessionId then sessionId ≠ s.id
    else A.covers (channels.session sessionId) (channels.session s.id) = false

/-- A generated id: no wildcard, and not empty. -/
structure Generated (id : Id) : Prop where
  literal : Literal id
  nonempty : id ≠ ""

/-! ## Names -/

section Names

variable {a b c : String}

theorem literal_append : Literal (a ++ b) ↔ Literal a ∧ Literal b := by
  unfold Literal
  rw [String.toList_append, List.mem_append, not_or]

theorem append_left_inj (h : a ++ b = a ++ c) : b = c := by
  have hlist := congrArg String.toList h
  rw [String.toList_append, String.toList_append] at hlist
  exact String.toList_inj.1 (List.append_cancel_left hlist)

theorem session_eq (a : String) : channels.session a = "smink:session" ++ ":" ++ a := rfl

theorem literal_session (h : Literal a) : Literal (channels.session a) := literal_append.2 ⟨by decide, h⟩

theorem literal_user (h : Literal a) : Literal (channels.user a) := literal_append.2 ⟨by decide, h⟩

/-- No channel of a user is in the namespace of the sessions. -/
theorem user_ne_session (a rest : String) : channels.user a ≠ "smink:session" ++ ":" ++ rest := by
  intro h
  have hlist := congrArg (fun name => name.toList.take 8) h
  simp [channels.user, String.toList_append] at hlist

theorem user_ne_lobby (a : String) : channels.user a ≠ channels.lobby := by
  intro h
  have hlist := congrArg (fun name => name.toList.take 8) h
  simp [channels.user, channels.lobby, String.toList_append] at hlist

theorem session_ne_lobby (a : String) : channels.session a ≠ channels.lobby := by
  intro h
  have hlist := congrArg (fun name => name.toList.take 8) h
  simp [channels.session, channels.lobby, String.toList_append] at hlist

end Names

/-! ## What a token allows -/

section Token

variable {A : Ably} {db : Db} {enabled : Bool} {userId : Id} {sessionId : Option String} {request : TokenRequest}

/-- The token subscribes to what one of its three keys covers. -/
theorem allows_subscribe (h : createTokenRequest enabled userId sessionId = .ok request) (channel : String) :
    A.allows request.capability "subscribe" channel = true ↔ A.covers (channels.user userId) channel = true ∨
      A.covers channels.lobby channel = true ∨ A.covers (channels.session (sessionId.getD "*")) channel = true := by
  unfold createTokenRequest at h
  split_ifs at h
  cases h
  simp [Ably.allows]

/-- The key of the sessions covers no user's channel. -/
theorem not_allows_user (hu : Literal userId) (h : createTokenRequest enabled userId sessionId = .ok request)
    {other : Id} (hne : other ≠ userId) : A.allows request.capability "subscribe" (channels.user other) = false := by
  rw [← Bool.not_eq_true, allows_subscribe h]
  rintro (hkey | hkey | hkey)
  · rw [A.literal _ _ (literal_user hu)] at hkey
    exact hne (append_left_inj hkey).symm
  · rw [A.literal _ _ (by decide)] at hkey
    exact user_ne_lobby other hkey.symm
  · rw [session_eq] at hkey
    obtain ⟨rest, hrest⟩ := A.inside _ _ _ (by decide) hkey
    exact user_ne_session other rest hrest

/-- Of the three keys, only that of the sessions can cover a session's channel. -/
theorem allows_session (hu : Literal userId) (h : createTokenRequest enabled userId sessionId = .ok request)
    (id : String) : A.allows request.capability "subscribe" (channels.session id) = true ↔
      A.covers (channels.session (sessionId.getD "*")) (channels.session id) = true := by
  rw [allows_subscribe h]
  constructor
  · rintro (hkey | hkey | hkey)
    · rw [A.literal _ _ (literal_user hu)] at hkey
      exact absurd hkey (user_ne_session userId id)
    · rw [A.literal _ _ (by decide)] at hkey
      exact absurd hkey.symm (session_ne_lobby id)
    · exact hkey
  · exact fun hkey => .inr (.inr hkey)

/-- The key of a literal id covers the channel of that session alone. -/
theorem covers_session {id : String} {a : String} (ha : Literal a) :
    A.covers (channels.session a) (channels.session id) = true ↔ a = id := by
  rw [A.literal _ _ (literal_session ha)]
  exact ⟨append_left_inj, congrArg _⟩

/-- **A token stays with its player exactly when the client has sent an id that is of no other user's session.** -/
theorem token_confined_iff (A : Ably) (db : Db) (enabled : Bool) (userId : Id) (sessionId : Option String)
    (request : TokenRequest) (h : createTokenRequest enabled userId sessionId = .ok request) (hu : Generated userId)
    (hids : ∀ s ∈ db.gameSessions.rows, Generated s.id) :
    Confined A db userId request.capability ↔ NamesNoOther A db userId sessionId := by
  constructor
  · intro hconfined
    cases sessionId with
    | none =>
      intro s hs
      by_contra hne
      have hnot := (hconfined s hs hne).1
      rw [← Bool.not_eq_true, allows_session hu.literal h] at hnot
      exact hnot (A.wildcard "smink:session" s.id (by decide) (hids s hs).nonempty)
    | some sessionId =>
      intro s hs hne
      have hnot := (hconfined s hs hne).1
      rw [← Bool.not_eq_true, allows_session hu.literal h] at hnot
      split_ifs with hlit
      · exact fun he => hnot ((covers_session hlit).2 he)
      · exact Bool.not_eq_true _ ▸ hnot
  · intro hnames s hs hne
    refine ⟨?_, not_allows_user hu.literal h hne⟩
    rw [← Bool.not_eq_true, allows_session hu.literal h]
    cases sessionId with
    | none => exact absurd (hnames s hs) hne
    | some sessionId =>
      have hother := hnames s hs hne
      split_ifs at hother with hlit
      · exact fun hcovers => hother ((covers_session hlit).1 hcovers)
      · rw [Option.getD_some, hother]
        exact Bool.false_ne_true

end Token

/-! ## A player who sends no id, or another's -/

/-- Matching in which a wildcard stands for any characters. -/
def glob : List Char → List Char → Bool
  | [], channel => channel.isEmpty
  | k :: key, channel =>
    if k = '*' then channel.tails.any (glob key)
    else match channel with
      | [] => false
      | c :: channel => k == c && glob key channel

section Glob

variable {key rest : List Char} {k c : Char}

theorem glob_cons (hk : k ≠ '*') (key channel : List Char) :
    glob (k :: key) (c :: channel) = (k == c && glob key channel) := if_neg hk

theorem glob_cons_nil (hk : k ≠ '*') (key : List Char) : glob (k :: key) [] = false := if_neg hk

theorem glob_literal : ∀ {key channel : List Char}, '*' ∉ key → (glob key channel = true ↔ key = channel)
  | [], _, _ => List.isEmpty_iff.trans eq_comm
  | k :: key, channel, h => by
    obtain ⟨hk, hkey⟩ := not_or.1 (List.mem_cons.not.1 h)
    cases channel with
    | nil => simp [glob_cons_nil (Ne.symm hk)]
    | cons c channel => rw [glob_cons (Ne.symm hk), Bool.and_eq_true, beq_iff_eq, glob_literal hkey, List.cons.injEq]

theorem glob_append : ∀ {space : List Char} (channel : List Char), '*' ∉ space →
    glob (space ++ rest) (space ++ channel) = glob rest channel
  | [], _, _ => rfl
  | k :: space, channel, h => by
    obtain ⟨hk, hspace⟩ := not_or.1 (List.mem_cons.not.1 h)
    rw [List.cons_append, List.cons_append, glob_cons (Ne.symm hk), beq_self_eq_true, Bool.true_and,
      glob_append channel hspace]

theorem glob_inside : ∀ {space channel : List Char}, '*' ∉ space → glob (space ++ rest) channel = true →
    ∃ tail, channel = space ++ tail
  | [], channel, _, _ => ⟨channel, rfl⟩
  | k :: space, channel, h, hglob => by
    obtain ⟨hk, hspace⟩ := not_or.1 (List.mem_cons.not.1 h)
    rw [List.cons_append] at hglob
    cases channel with
    | nil =>
      rw [glob_cons_nil (Ne.symm hk)] at hglob
      cases hglob
    | cons c channel =>
      rw [glob_cons (Ne.symm hk), Bool.and_eq_true, beq_iff_eq] at hglob
      obtain ⟨tail, rfl⟩ := glob_inside hspace hglob.2
      exact ⟨tail, by rw [hglob.1, List.cons_append]⟩

/-- A wildcard at the end covers the rest. -/
theorem glob_wildcard (channel : List Char) : glob ['*'] channel = true := by
  change channel.tails.any (fun tail => tail.isEmpty) = true
  rw [List.any_eq_true]
  exact ⟨[], (List.mem_tails _ _).2 List.nil_suffix, rfl⟩

end Glob

def globAbly : Ably where
  covers key channel := glob key.toList channel.toList
  literal key channel h := (glob_literal h).trans String.toList_inj
  wildcard space name h _ := by
    have hspace : '*' ∉ (space ++ ":").toList := literal_append.2 ⟨h, by decide⟩
    rw [String.toList_append, String.toList_append (t := name), glob_append _ hspace]
    exact glob_wildcard name.toList
  inside space name channel h hglob := by
    have hspace : '*' ∉ (space ++ ":").toList := literal_append.2 ⟨h, by decide⟩
    rw [String.toList_append] at hglob
    obtain ⟨tail, htail⟩ := glob_inside hspace hglob
    refine ⟨String.ofList tail, String.toList_inj.1 ?_⟩
    rw [htail, String.toList_append (t := String.ofList tail), String.toList_ofList]

/-- Two players, each at a table of their own. -/
def twoTables : Db :=
  { tableDb .dice with
    gameSessions := ⟨[{ id := "s1", userId := "u1", gameId := "dice", startedAt := 0 },
      { id := "s2", userId := "u2", gameId := "dice", startedAt := 0 }], by decide⟩ }

theorem token_confined_iff_ownSession :
    Confined globAbly twoTables "u1" [("smink:user:u1", ["subscribe", "presence"]), ("smink:lobby", ["subscribe"]),
        ("smink:session:s1", ["subscribe"])] ↔ NamesNoOther globAbly twoTables "u1" (some "s1") :=
  token_confined_iff globAbly twoTables true "u1" (some "s1") ⟨"u1", _, 60 * 60 * 1000⟩ rfl ⟨by decide, by decide⟩ (by
    intro s hs
    simp only [twoTables, List.mem_cons, List.not_mem_nil, or_false] at hs
    rcases hs with rfl | rfl <;> exact ⟨by decide, by decide⟩)

/-- Without an id, and with that of the other player's session, the token of `u1` subscribes to what `s2` is dealt. -/
theorem token_reaches_session :
    (∃ request, createTokenRequest true "u1" none = .ok request ∧
        ¬ Confined globAbly twoTables "u1" request.capability) ∧
      ∃ request, createTokenRequest true "u1" (some "s2") = .ok request ∧
        ¬ Confined globAbly twoTables "u1" request.capability := by
  have reaches : ∀ {sessionId : Option String} {request : TokenRequest},
      createTokenRequest true "u1" sessionId = .ok request →
      globAbly.covers (channels.session (sessionId.getD "*")) (channels.session "s2") = true →
        ¬ Confined globAbly twoTables "u1" request.capability := by
    intro sessionId request h hcovers hconfined
    have hnot := (hconfined { id := "s2", userId := "u2", gameId := "dice", startedAt := 0 }
      (by simp [twoTables]) (by decide)).1
    rw [← Bool.not_eq_true, allows_session (by decide) h] at hnot
    exact hnot hcovers
  exact ⟨⟨_, rfl, reaches rfl (by decide +kernel)⟩, ⟨_, rfl, reaches rfl (by decide +kernel)⟩⟩

end Smink
