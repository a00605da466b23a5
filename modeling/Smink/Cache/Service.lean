import Smink.Play.Round
import Smink.Store.Expiring

/-!
# The cache service

`libs/cache/src/cache.service.ts` as programs over Redis: keys with values that may expire, on Redis' own clock in
milliseconds. A value is a text; what the code reads from it is the token of a lock or what `JSON.parse` makes of it.
-/

namespace Smink

open Store

/-- A text under a key: the token of a lock, which is no JSON, or the JSON of a session's history. -/
inductive Stored
  | token (token : String)
  | history (items : List SessionHistoryItem)
  deriving DecidableEq

abbrev Redis := Expiring String Stored

/-- The commands that the service sends; times are in seconds. -/
inductive RedisCommand
  | get (key : String)
  | set (key : String) (value : Stored) (ex : Option ℕ)
  /-- `SET key value EX ex NX`. -/
  | setNX (key : String) (value : Stored) (ex : ℕ)
  | del (keys : List String)
  /-- The script of `releaseLock`: `del` if `get` answers with the argument. -/
  | delIf (key : String) (value : Stored)

def RedisCommand.Resp : RedisCommand → Type
  | get _ => Option Stored
  | set _ _ _ => Unit
  | setNX _ _ _ => Bool
  | del _ => Unit
  | delIf _ _ => Bool

/-- The meaning of a command; Redis takes no expiry of zero seconds. -/
def execRedis : (q : RedisCommand) → Redis → Except Fault (q.Resp × Redis)
  | .get key, s => .ok (s.get key, s)
  | .set key value ex, s =>
    if ex = some 0 then .error .threw else .ok ((), s.put key value (ex.map (1000 * ·)))
  | .setNX key value ex, s =>
    if ex = 0 then .error .threw
    else if (s.get key).isSome then .ok (false, s)
    else .ok (true, s.put key value (some (1000 * ex)))
  | .del keys, s => .ok ((), keys.foldl Expiring.remove s)
  | .delIf key value, s => if s.get key = some value then .ok (true, s.remove key) else .ok (false, s)

/-- The programs of the service. -/
abbrev Cached (α : Type) := Prog RedisCommand.Resp Fault α

/-- One command. -/
def redis (q : RedisCommand) : Cached q.Resp := Prog.query q

namespace CacheService

/-- What does not parse is discarded. -/
def get (key : String) : Cached (Option (List SessionHistoryItem)) := do
  match ← redis (.get key) with
  | some (.history items) => return some items
  | some (.token _) => return none
  | none => return none

/-- A `ttlSeconds` of zero is none. -/
def set (key : String) (value : List SessionHistoryItem) (ttlSeconds : Option ℕ) : Cached Unit :=
  if (ttlSeconds.getD 0) ≠ 0 then .stmt (.set key (.history value) ttlSeconds) fun _ => .ret ()
  else .stmt (.set key (.history value) none) fun _ => .ret ()

def del (keys : List String) : Cached Unit :=
  if keys.length > 0 then .stmt (.del keys) fun _ => .ret () else pure ()

def lockKey (key : String) : String := "lock:" ++ key

/-- The token is a draw of the call. -/
def acquireLock (key : String) (ttlSeconds : ℕ) (token : String) : Cached (Option String) := do
  let result : Bool ← redis (.setNX (lockKey key) (.token token) ttlSeconds)
  return if result then some token else none

def releaseLock (key token : String) : Cached Unit :=
  .stmt (.delIf (lockKey key) (.token token)) fun _ => .ret ()

/-! ## What the methods do -/

variable {key token : String} {s : Redis} {items : List SessionHistoryItem}

/-- What `get` makes of the value under a key. -/
def parsed : Option Stored → Option (List SessionHistoryItem)
  | some (.history items) => some items
  | some (.token _) => none
  | none => none

theorem run_get : (get key).run execRedis s = (.ok (parsed (s.get key)), s) := by
  have hget : execRedis (.get key) s = .ok (s.get key, s) := rfl
  unfold get
  cases h : s.get key with
  | none =>
    rw [h] at hget
    exact Prog.run_stmt hget
  | some value =>
    rw [h] at hget
    cases value <;> exact Prog.run_stmt hget

theorem run_set (ttlSeconds : ℕ) (httl : ttlSeconds ≠ 0) : (set key items (some ttlSeconds)).run execRedis s =
    (.ok (), s.put key (.history items) (some (1000 * ttlSeconds))) := by
  unfold set
  rw [Option.getD_some, if_pos httl]
  exact Prog.run_stmt (if_neg (by simpa using httl))

theorem run_del (keys : List String) : (del keys).run execRedis s = (.ok (), keys.foldl Expiring.remove s) := by
  cases keys with
  | nil => rfl
  | cons key keys => exact Prog.run_stmt rfl

theorem run_acquireLock (ttlSeconds : ℕ) : (acquireLock key ttlSeconds token).run execRedis s =
    if ttlSeconds = 0 then (.error .threw, s)
    else if (s.get (lockKey key)).isSome then (.ok none, s)
    else (.ok (some token), s.put (lockKey key) (.token token) (some (1000 * ttlSeconds))) := by
  by_cases hzero : ttlSeconds = 0
  · rw [if_pos hzero]
    exact Prog.run_stmt_error (if_pos hzero)
  · rw [if_neg hzero]
    by_cases hsome : (s.get (lockKey key)).isSome = true
    · have hexec : execRedis (.setNX (lockKey key) (.token token) ttlSeconds) s = .ok (false, s) :=
        (if_neg hzero).trans (if_pos hsome)
      rw [if_pos hsome]
      exact Prog.run_stmt hexec
    · have hexec : execRedis (.setNX (lockKey key) (.token token) ttlSeconds) s =
          .ok (true, s.put (lockKey key) (.token token) (some (1000 * ttlSeconds))) :=
        (if_neg hzero).trans (if_neg hsome)
      rw [if_neg hsome]
      exact Prog.run_stmt hexec

theorem run_releaseLock : (releaseLock key token).run execRedis s =
    (.ok (), if s.get (lockKey key) = some (.token token) then s.remove (lockKey key) else s) := by
  by_cases hget : s.get (lockKey key) = some (.token token)
  · rw [if_pos hget]
    exact Prog.run_stmt (if_pos hget)
  · rw [if_neg hget]
    exact Prog.run_stmt (if_neg hget)

end CacheService

end Smink
