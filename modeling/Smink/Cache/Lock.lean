import Smink.Cache.Service

/-!
# The lock of the cache service

`acquireLock` answers with a token when it has set the key, and `releaseLock` deletes the key if it still holds that
token. A caller knows no more than that: it has been granted the lock, for `ttlSeconds`, until it gives it back. Each
method sends one command, so any callers together are a sequence of calls, with time passing in between. At most one of
them is ever in possession of a lock, nobody is turned away from a lock that is free, and a caller that comes too late
to give the lock back takes it from nobody (`lock_exclusive`).
-/

namespace Smink

open Store

/-! ## Calls -/

/-- A call of the service, or milliseconds that pass. -/
inductive CacheCall
  | get (key : String)
  | set (key : String) (value : List SessionHistoryItem) (ttlSeconds : Option ℕ)
  | del (keys : List String)
  | acquireLock (key : String) (ttlSeconds : ℕ) (token : String)
  | releaseLock (key token : String)
  | wait (ms : ℕ)

/-- What a caller has been granted: the lock, its token, and until when. -/
structure Grant where
  key : String
  token : String
  expires : ℕ
  deriving DecidableEq

/-- Redis, and the grants that have not been given back. -/
structure Locks where
  redis : Redis
  grants : List Grant

namespace Locks

/-- The grants of a lock whose time is not over. -/
def held (s : Locks) (key : String) : List Grant :=
  s.grants.filter fun g => g.key == key && decide (s.redis.now ≤ g.expires)

def step (s : Locks) : CacheCall → Locks
  | .get key => { s with redis := ((CacheService.get key).run execRedis s.redis).2 }
  | .set key value ttlSeconds => { s with redis := ((CacheService.set key value ttlSeconds).run execRedis s.redis).2 }
  | .del keys => { s with redis := ((CacheService.del keys).run execRedis s.redis).2 }
  | .acquireLock key ttlSeconds token =>
    match (CacheService.acquireLock key ttlSeconds token).run execRedis s.redis with
    | (.ok (some token), redis) => ⟨redis, s.grants ++ [⟨key, token, s.redis.now + 1000 * ttlSeconds⟩]⟩
    | (_, redis) => { s with redis }
  | .releaseLock key token =>
    { redis := ((CacheService.releaseLock key token).run execRedis s.redis).2
      grants := s.grants.filter fun g => !(g.key == key && g.token == token) }
  | .wait ms => { s with redis := s.redis.wait ms }

def run (s : Locks) (calls : List CacheCall) : Locks := calls.foldl step s

end Locks

/-- Nothing but the lock's own methods touches the key of a lock. -/
def CacheCall.SparesLocks : CacheCall → Prop
  | .set key _ _ => ∀ lock, key ≠ CacheService.lockKey lock
  | .del keys => ∀ key ∈ keys, ∀ lock, key ≠ CacheService.lockKey lock
  | _ => True

/-- The token that the call draws. -/
def CacheCall.draws : CacheCall → List String
  | .acquireLock _ _ token => [token]
  | _ => []

/-! ## The invariant -/

/-- Redis holds a lock exactly for the grant whose time is not over, and no token has been granted twice. -/
structure LockInv (used : List String) (s : Locks) : Prop where
  kept : ∀ g ∈ s.grants, s.redis.now ≤ g.expires →
    s.redis.entry (CacheService.lockKey g.key) = some ⟨.token g.token, some g.expires⟩
  granted : ∀ key e, s.redis.entry (CacheService.lockKey key) = some e →
    ∃ g ∈ s.grants, g.key = key ∧ e = ⟨.token g.token, some g.expires⟩
  drawn : ∀ g ∈ s.grants, g.token ∈ used
  distinct : s.grants.Pairwise fun g g' => g.token ≠ g'.token

section Steps

variable {used : List String} {s : Locks} {key token : String}

theorem lockKey_inj {a b : String} (h : CacheService.lockKey a = CacheService.lockKey b) : a = b := by
  have hlist := congrArg String.toList h
  unfold CacheService.lockKey at hlist
  rw [String.toList_append, String.toList_append] at hlist
  exact String.toList_inj.1 (List.append_cancel_left hlist)

/-- A step that leaves the locks in Redis as they are. -/
theorem LockInv.frame (h : LockInv used s) {redis : Redis} (hnow : redis.now = s.redis.now)
    (hentry : ∀ lock, redis.entry (CacheService.lockKey lock) = s.redis.entry (CacheService.lockKey lock)) :
    LockInv used { s with redis } where
  kept g hg hlive := by
    rw [hentry]
    exact h.kept g hg (hnow ▸ hlive)
  granted lock e he := by
    rw [hentry] at he
    exact h.granted lock e he
  drawn := h.drawn
  distinct := h.distinct

/-- The entry of a lock is in time. -/
theorem expires_of_entry {k : String} {v : Stored} {time : ℕ} (h : s.redis.entry k = some ⟨v, some time⟩) :
    s.redis.now ≤ time := by
  have hlive := (Expiring.entry_eq_some.1 h).2
  exact of_decide_eq_true hlive

theorem LockInv.wait (h : LockInv used s) (ms : ℕ) : LockInv used { s with redis := s.redis.wait ms } where
  kept g hg hlive := by
    have hnow : s.redis.now ≤ g.expires := by
      have hlater : s.redis.now + ms ≤ g.expires := hlive
      omega
    show (s.redis.wait ms).entry _ = _
    rw [Expiring.entry_wait, h.kept g hg hnow]
    exact if_pos (decide_eq_true hlive)
  granted lock e he := by
    rw [Expiring.entry_wait, Option.filter_eq_some_iff] at he
    exact h.granted lock e he.1
  drawn := h.drawn
  distinct := h.distinct

/-- The lock has nobody exactly when Redis has no entry for it. -/
theorem LockInv.held_eq_nil (h : LockInv used s) (key : String) :
    s.held key = [] ↔ s.redis.get (CacheService.lockKey key) = none := by
  rw [Expiring.get_eq_none]
  constructor
  · intro hnone
    cases he : s.redis.entry (CacheService.lockKey key) with
    | none => rfl
    | some e =>
      obtain ⟨g, hg, rfl, rfl⟩ := h.granted key e he
      have hmem : g ∈ s.held g.key :=
        List.mem_filter.2 ⟨hg, by simpa using expires_of_entry he⟩
      rw [hnone] at hmem
      cases hmem
  · intro hnone
    refine List.filter_eq_nil_iff.2 fun g hg hheld => ?_
    simp only [Bool.and_eq_true, beq_iff_eq, decide_eq_true_eq] at hheld
    obtain ⟨rfl, hlive⟩ := hheld
    rw [h.kept g hg hlive] at hnone
    cases hnone

/-- A lock is granted exactly when nobody has it. -/
theorem LockInv.acquire (h : LockInv used s) (ttlSeconds : ℕ) (hfresh : token ∉ used) :
    LockInv (used ++ [token]) (s.step (.acquireLock key ttlSeconds token)) := by
  have hmore : LockInv (used ++ [token]) s :=
    ⟨h.kept, h.granted, fun g hg => List.mem_append_left _ (h.drawn g hg), h.distinct⟩
  unfold Locks.step
  dsimp only
  rw [CacheService.run_acquireLock]
  by_cases hzero : ttlSeconds = 0
  · rw [if_pos hzero]
    exact hmore
  rw [if_neg hzero]
  by_cases hsome : (s.redis.get (CacheService.lockKey key)).isSome = true
  · rw [if_pos hsome]
    exact hmore
  rw [if_neg hsome]
  have hput : (s.redis.put (CacheService.lockKey key) (.token token) (some (1000 * ttlSeconds))).entry
      (CacheService.lockKey key) = some ⟨.token token, some (s.redis.now + 1000 * ttlSeconds)⟩ :=
    Expiring.entry_put_self
  have hnobody : s.held key = [] := by
    rw [h.held_eq_nil]
    simpa using hsome
  refine ⟨fun g hg hlive => ?_, fun lock e he => ?_, fun g hg => ?_, ?_⟩
  · rcases List.mem_append.1 hg with hold | hnew
    · by_cases hkey : g.key = key
      · -- an older grant of the lock is over
        have hnow : s.redis.now ≤ g.expires := hlive
        have hmem : g ∈ s.held key := List.mem_filter.2 ⟨hold, by simpa [hkey] using hnow⟩
        rw [hnobody] at hmem
        cases hmem
      · rw [Expiring.entry_put_of_ne fun hlock => hkey (lockKey_inj hlock)]
        exact h.kept g hold hlive
    · rw [List.mem_singleton.1 hnew]
      exact hput
  · by_cases hkey : lock = key
    · subst hkey
      rw [hput] at he
      exact ⟨_, List.mem_append_right _ (List.mem_singleton_self _), rfl, (Option.some.inj he).symm⟩
    · rw [Expiring.entry_put_of_ne fun hlock => hkey (lockKey_inj hlock)] at he
      obtain ⟨g, hg, hrest⟩ := h.granted lock e he
      exact ⟨g, List.mem_append_left _ hg, hrest⟩
  · rcases List.mem_append.1 hg with hold | hnew
    · exact List.mem_append_left _ (h.drawn g hold)
    · rw [List.mem_singleton.1 hnew]
      exact List.mem_append_right _ (List.mem_singleton_self _)
  · refine List.pairwise_append.2 ⟨h.distinct, List.pairwise_singleton .., fun g hg g' hg' => ?_⟩
    rw [List.mem_singleton.1 hg']
    intro heq
    refine hfresh ?_
    rw [← show g.token = token from heq]
    exact h.drawn g hg

/-- Only the entry that holds the token is deleted, and the grant with it. -/
theorem LockInv.release (h : LockInv used s) (key token : String) :
    LockInv used (s.step (.releaseLock key token)) := by
  unfold Locks.step
  dsimp only
  rw [CacheService.run_releaseLock]
  have hleft : ∀ g : Grant, g ∈ s.grants.filter (fun g => !(g.key == key && g.token == token)) ↔
      g ∈ s.grants ∧ ¬ (g.key = key ∧ g.token = token) := fun g => by
    simp only [List.mem_filter, Bool.not_eq_true', Bool.and_eq_false_iff, beq_eq_false_iff_ne, ne_eq, not_and_or]
  by_cases hget : s.redis.get (CacheService.lockKey key) = some (.token token)
  · rw [if_pos hget]
    obtain ⟨e, he, hvalue⟩ := Expiring.get_eq_some.1 hget
    obtain ⟨holder, hholder, hkey, rfl⟩ := h.granted key e he
    obtain rfl : holder.token = token := by cases hvalue; rfl
    refine ⟨fun g hg hlive => ?_, fun lock e' he' => ?_, fun g hg => h.drawn g ((hleft g).1 hg).1, h.distinct.filter _⟩
    · obtain ⟨hg, hother⟩ := (hleft g).1 hg
      by_cases hsame : g.key = key
      · -- another grant of the lock would be in Redis as well
        have hentry := h.kept g hg hlive
        rw [hsame, he] at hentry
        injection hentry with hentry
        injection hentry with htoken
        injection htoken with htoken
        exact absurd ⟨hsame, htoken.symm⟩ hother
      · show (s.redis.remove _).entry _ = _
        rw [Expiring.entry_remove_of_ne fun hlock => hsame (lockKey_inj hlock)]
        exact h.kept g hg hlive
    · by_cases hlock : lock = key
      · subst hlock
        rw [Expiring.entry_remove_self] at he'
        cases he'
      · rw [Expiring.entry_remove_of_ne fun hl => hlock (lockKey_inj hl)] at he'
        obtain ⟨g, hg, hgkey, hge⟩ := h.granted lock e' he'
        exact ⟨g, (hleft g).2 ⟨hg, fun hboth => hlock (hgkey.symm.trans hboth.1)⟩, hgkey, hge⟩
  · rw [if_neg hget]
    refine ⟨fun g hg hlive => h.kept g ((hleft g).1 hg).1 hlive, fun lock e he => ?_,
      fun g hg => h.drawn g ((hleft g).1 hg).1, h.distinct.filter _⟩
    obtain ⟨g, hg, hgkey, hge⟩ := h.granted lock e he
    refine ⟨g, (hleft g).2 ⟨hg, fun hboth => hget ?_⟩, hgkey, hge⟩
    rw [Expiring.get_eq_some]
    exact ⟨e, by rw [← hboth.1, hgkey]; exact he, by rw [hge, hboth.2]⟩

/-- A value that is set under another key, for whatever time. -/
theorem LockInv.put (h : LockInv used s) {k : String} (hk : ∀ lock, k ≠ CacheService.lockKey lock) (value : Stored)
    (ttl : Option ℕ) : LockInv used { s with redis := s.redis.put k value ttl } :=
  h.frame rfl fun lock => Expiring.entry_put_of_ne (hk lock).symm

theorem LockInv.remove (h : LockInv used s) (keys : List String)
    (hkeys : ∀ key ∈ keys, ∀ lock, key ≠ CacheService.lockKey lock) :
    LockInv used { s with redis := keys.foldl Expiring.remove s.redis } := by
  induction keys generalizing s with
  | nil => exact h
  | cons key keys ih =>
    have hone : LockInv used { s with redis := s.redis.remove key } :=
      h.frame rfl fun lock => Expiring.entry_remove_of_ne (hkeys key List.mem_cons_self lock).symm
    exact ih hone fun k hk => hkeys k (List.mem_cons_of_mem _ hk)

theorem LockInv.step (h : LockInv used s) {call : CacheCall} (hspare : call.SparesLocks)
    (hfresh : ∀ token ∈ call.draws, token ∉ used) : LockInv (used ++ call.draws) (s.step call) := by
  have drawn : ∀ {t : Locks}, LockInv used t → LockInv (used ++ []) t := fun ht => by
    rw [List.append_nil]
    exact ht
  cases call with
  | get key =>
    refine drawn ?_
    unfold Locks.step
    dsimp only
    rw [CacheService.run_get]
    exact h
  | set key value ttlSeconds =>
    refine drawn ?_
    unfold Locks.step CacheService.set
    dsimp only
    split
    · rename_i hsome
      have hzero : ttlSeconds ≠ some 0 := fun he => hsome (by rw [he]; rfl)
      rw [Prog.run_stmt (show execRedis (.set key (.history value) ttlSeconds) s.redis = .ok ((), _) from if_neg hzero)]
      exact h.put hspare _ _
    · rw [Prog.run_stmt (show execRedis (.set key (.history value) none) s.redis = .ok ((), _) from rfl)]
      exact h.put hspare _ _
  | del keys =>
    refine drawn ?_
    unfold Locks.step
    dsimp only
    rw [CacheService.run_del]
    exact h.remove keys hspare
  | acquireLock key ttlSeconds token => exact h.acquire ttlSeconds (hfresh token (by simp [CacheCall.draws]))
  | releaseLock key token =>
    exact drawn (h.release key token)
  | wait ms =>
    exact drawn (h.wait ms)

/-- Calls that draw different tokens. -/
theorem LockInv.run {calls : List CacheCall} (h : LockInv used s) (hspare : ∀ call ∈ calls, call.SparesLocks)
    (hdraws : (calls.flatMap CacheCall.draws).Nodup) (hfresh : ∀ token ∈ calls.flatMap CacheCall.draws, token ∉ used) :
    LockInv (used ++ calls.flatMap CacheCall.draws) (s.run calls) := by
  induction calls generalizing used s with
  | nil =>
    rw [List.flatMap_nil, List.append_nil]
    exact h
  | cons call calls ih =>
    rw [List.flatMap_cons] at hdraws hfresh ⊢
    obtain ⟨-, hrest, hapart⟩ := List.nodup_append.1 hdraws
    have hstep := h.step (hspare call List.mem_cons_self) fun token ht => hfresh token (List.mem_append_left _ ht)
    rw [← List.append_assoc]
    refine ih hstep (fun c hc => hspare c (List.mem_cons_of_mem _ hc)) hrest fun token ht hused => ?_
    rcases List.mem_append.1 hused with hold | hnew
    · exact hfresh token (List.mem_append_right _ ht) hold
    · exact hapart token hnew token ht rfl

/-- Two grants of one lock that are both in time are one. -/
theorem LockInv.exclusive (h : LockInv used s) (key : String) : (s.held key).length ≤ 1 := by
  have hone : ∀ g ∈ s.held key, s.redis.entry (CacheService.lockKey key) = some ⟨.token g.token, some g.expires⟩ := by
    intro g hg
    obtain ⟨hmem, hheld⟩ := List.mem_filter.1 hg
    simp only [Bool.and_eq_true, beq_iff_eq, decide_eq_true_eq] at hheld
    obtain ⟨rfl, hlive⟩ := hheld
    exact h.kept g hmem hlive
  have hdistinct : (s.held key).Pairwise fun g g' => g.token ≠ g'.token := h.distinct.filter _
  cases hheld : s.held key with
  | nil => exact Nat.zero_le 1
  | cons g rest =>
    cases rest with
    | nil => exact le_rfl
    | cons g' rest =>
      rw [hheld] at hone hdistinct
      have hsame := (hone g (by simp)).symm.trans (hone g' (by simp))
      injection hsame with hsame
      injection hsame with htoken
      injection htoken with htoken
      exact absurd htoken (List.rel_of_pairwise_cons hdistinct (by simp : g' ∈ g' :: rest))

end Steps

/-- **The lock is exclusive, and never lost to others.** After any calls that draw different tokens: at most one grant
of a lock is in time and not given back; Redis holds that grant's token; and the lock is granted to the next who asks
exactly when there is none. -/
theorem lock_exclusive (redis : Redis) (hfree : ∀ lock, redis.entry (CacheService.lockKey lock) = none)
    (calls : List CacheCall) (hspare : ∀ call ∈ calls, call.SparesLocks)
    (hdraws : (calls.flatMap CacheCall.draws).Nodup) (key : String) :
    let s := Locks.run ⟨redis, []⟩ calls
    (s.held key).length ≤ 1 ∧
      (∀ g ∈ s.held key, s.redis.get (CacheService.lockKey key) = some (.token g.token)) ∧
        ∀ ttlSeconds ≠ 0, ∀ token,
          (((CacheService.acquireLock key ttlSeconds token).run execRedis s.redis).1 = .ok (some token) ↔
            s.held key = []) := by
  intro s
  have hinit : LockInv [] ⟨redis, []⟩ :=
    { kept := fun g hg => by cases hg
      granted := fun lock e he => by
        rw [hfree] at he
        cases he
      drawn := fun g hg => by cases hg
      distinct := .nil }
  have h := hinit.run hspare hdraws fun _ _ hused => by cases hused
  refine ⟨h.exclusive key, fun g hg => ?_, fun ttlSeconds httl token => ?_⟩
  · obtain ⟨hmem, hheld⟩ := List.mem_filter.1 hg
    simp only [Bool.and_eq_true, beq_iff_eq, decide_eq_true_eq] at hheld
    obtain ⟨rfl, hlive⟩ := hheld
    exact Expiring.get_eq_some.2 ⟨_, h.kept g hmem hlive, rfl⟩
  · rw [h.held_eq_nil, CacheService.run_acquireLock, if_neg httl]
    cases hget : s.redis.get (CacheService.lockKey key) with
    | none => simp
    | some value => simp

/-- A caller whose time is over gives the lock back after another has got it; the others are turned away, the first of
them at the very end of that time. -/
def lateRelease : List CacheCall :=
  [.acquireLock "bet:u1" 10 "a", .wait 10000, .acquireLock "bet:u1" 10 "b", .wait 1, .acquireLock "bet:u1" 10 "c",
    .releaseLock "bet:u1" "a", .acquireLock "bet:u1" 10 "d"]

theorem lock_exclusive_lateRelease :
    let s := Locks.run ⟨.empty 0, []⟩ lateRelease
    s.grants = [⟨"bet:u1", "c", 20001⟩] ∧ (s.held "bet:u1").length ≤ 1 ∧
      ∀ g ∈ s.held "bet:u1", s.redis.get (CacheService.lockKey "bet:u1") = some (.token g.token) := by
  have hspare : ∀ call ∈ lateRelease, call.SparesLocks := by
    intro call hcall
    simp only [lateRelease, List.mem_cons, List.not_mem_nil, or_false] at hcall
    rcases hcall with rfl | rfl | rfl | rfl | rfl | rfl | rfl <;> trivial
  obtain ⟨hone, htoken, -⟩ := lock_exclusive (.empty 0) (fun _ => rfl) lateRelease hspare (by decide) "bet:u1"
  exact ⟨by decide +kernel, hone, htoken⟩

end Smink
