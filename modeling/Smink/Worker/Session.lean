import Smink.Cache.Service
import Smink.Rpc.Engine

/-!
# The cached history of a session

`apps/worker/src/session.processor.ts`: the worker's processor of the session queue. It keeps a copy of the newest 50
items of a session in the cache, for twelve hours from the last item on, and drops it when the session ends. One worker
takes the jobs one after another, with time passing in between. What is in the cache then can be read off the jobs
backwards, from the newest on (`newest`, `cached_eq_newest`).
-/

namespace Smink

open Store

/-- A job of the session queue. -/
inductive SessionJob
  | history (sessionId : Id) (item : SessionHistoryItem)
  | ended (sessionId : Id)
  deriving DecidableEq

namespace SessionProcessor

def historyKey (sessionId : Id) : String := "session:" ++ sessionId ++ ":history"

/-- How many items are kept. -/
def limit : ℕ := 50

/-- Twelve hours, in seconds. -/
def ttl : ℕ := 60 * 60 * 12

def process : SessionJob → Cached Unit
  | .ended sessionId => CacheService.del [historyKey sessionId]
  | .history sessionId item =>
    if sessionId = "" then pure ()
    else do
      let existing ← CacheService.get (historyKey sessionId)
      CacheService.set (historyKey sessionId) ((item :: existing.getD []).take limit) (some ttl)

end SessionProcessor

/-- A job that the worker takes, or milliseconds that pass. -/
inductive WorkerStep
  | job (job : SessionJob)
  | wait (ms : ℕ)
  deriving DecidableEq

/-- The cache after one step. -/
def WorkerStep.run : WorkerStep → Redis → Redis
  | .job task, s => ((SessionProcessor.process task).run execRedis s).2
  | .wait ms, s => s.wait ms

/-- The cache after one step after another. -/
def runWorker (steps : List WorkerStep) (s : Redis) : Redis := steps.foldl (fun s step => step.run s) s

/-- The history that the cache has for the session. -/
def cachedHistory (s : Redis) (sessionId : Id) : Option (List SessionHistoryItem) :=
  CacheService.parsed (s.get (SessionProcessor.historyKey sessionId))

/-- The items of a session from the newest on, back to where it ended, or to where more than twelve hours went by
without one.
The steps come in reverse; `waited` is the time since the item before. -/
def newest (sessionId : Id) : ℕ → List WorkerStep → List SessionHistoryItem
  | _, [] => []
  | waited, .wait ms :: steps =>
    if waited + ms ≤ 1000 * SessionProcessor.ttl then newest sessionId (waited + ms) steps else []
  | waited, .job (.ended ended) :: steps => if ended = sessionId then [] else newest sessionId waited steps
  | waited, .job (.history of item) :: steps =>
    if of = sessionId then item :: newest sessionId 0 steps else newest sessionId waited steps

/-! ## Keys -/

section Keys

theorem historyKey_inj {a b : Id} (h : SessionProcessor.historyKey a = SessionProcessor.historyKey b) : a = b := by
  have hlist := congrArg String.toList h
  unfold SessionProcessor.historyKey at hlist
  simp only [String.toList_append] at hlist
  exact String.toList_inj.1 (List.append_cancel_left (List.append_cancel_right hlist))

end Keys

/-! ## One step -/

section Steps

variable {s : Redis} {sessionId : Id} {item : SessionHistoryItem}

theorem run_history (h : sessionId ≠ "") : WorkerStep.run (.job (.history sessionId item)) s =
    s.put (SessionProcessor.historyKey sessionId)
      (.history ((item :: (cachedHistory s sessionId).getD []).take SessionProcessor.limit))
      (some (1000 * SessionProcessor.ttl)) := by
  show ((SessionProcessor.process (.history sessionId item)).run execRedis s).2 = _
  rw [SessionProcessor.process, if_neg h, Prog.run_bind_ok CacheService.run_get, CacheService.run_set _ (by decide)]
  rfl

theorem run_ended : WorkerStep.run (.job (.ended sessionId)) s = s.remove (SessionProcessor.historyKey sessionId) := by
  show ((CacheService.del _).run execRedis s).2 = _
  rw [CacheService.run_del]
  rfl

end Steps

/-! ## All steps -/

/-- The cache has these items for the session, newest first, and no entry if there are none. -/
def Caches (s : Redis) (sessionId : Id) (items : List SessionHistoryItem) : Prop :=
  cachedHistory s sessionId = if items = [] then none else some (items.take SessionProcessor.limit)

/-- The entry of the session, if there is one, is over in twelve hours. -/
def EndsSoon (s : Redis) (sessionId : Id) : Prop :=
  ∀ e, s.entry (SessionProcessor.historyKey sessionId) = some e →
    ∃ time, e.expires = some time ∧ time ≤ s.now + 1000 * SessionProcessor.ttl

section Runs

variable {s : Redis} {sessionId : Id} {items : List SessionHistoryItem} {item : SessionHistoryItem} {w : ℕ}

theorem now_run_job (task : SessionJob) : (WorkerStep.run (.job task) s).now = s.now := by
  cases task with
  | ended other => rw [run_ended]; rfl
  | history other item =>
    by_cases hempty : other = ""
    · subst hempty
      rfl
    · rw [run_history hempty]
      rfl

/-- A job of another session. -/
theorem entry_run_other {task : SessionJob} (hhistory : ∀ item, task ≠ .history sessionId item)
    (hended : task ≠ .ended sessionId) : (WorkerStep.run (.job task) s).entry (SessionProcessor.historyKey sessionId) =
      s.entry (SessionProcessor.historyKey sessionId) := by
  cases task with
  | ended other =>
    have hother : other ≠ sessionId := fun he => hended (by rw [he])
    rw [run_ended, Expiring.entry_remove_of_ne fun he => hother (historyKey_inj he).symm]
  | history other item =>
    have hother : other ≠ sessionId := fun he => hhistory item (by rw [he])
    by_cases hempty : other = ""
    · subst hempty
      rfl
    · rw [run_history hempty, Expiring.entry_put_of_ne fun he => hother (historyKey_inj he).symm]

theorem EndsSoon.run (h : EndsSoon s sessionId) (hses : sessionId ≠ "") (step : WorkerStep) :
    EndsSoon (step.run s) sessionId := by
  have other : ∀ {task : SessionJob}, (∀ item, task ≠ .history sessionId item) → task ≠ .ended sessionId →
      EndsSoon (WorkerStep.run (.job task) s) sessionId := by
    intro task hhistory hended e he
    rw [entry_run_other hhistory hended] at he
    rw [now_run_job]
    exact h e he
  cases step with
  | wait ms =>
    intro e he
    rw [WorkerStep.run, Expiring.entry_wait, Option.filter_eq_some_iff] at he
    obtain ⟨time, hexp, htime⟩ := h e he.1
    refine ⟨time, hexp, ?_⟩
    show time ≤ s.now + ms + 1000 * SessionProcessor.ttl
    omega
  | job task =>
    cases task with
    | ended of =>
      by_cases hof : of = sessionId
      · subst hof
        intro e he
        rw [run_ended, Expiring.entry_remove_self] at he
        cases he
      · exact other (fun _ he => by cases he) fun he => hof (by injection he)
    | history of item =>
      by_cases hof : of = sessionId
      · subst hof
        intro e he
        rw [run_history hses, Expiring.entry_put_self] at he
        rw [now_run_job]
        cases he
        exact ⟨_, rfl, le_rfl⟩
      · exact other (fun _ he => hof (by injection he)) fun he => by cases he

theorem EndsSoon.runWorker (h : EndsSoon s sessionId) (hses : sessionId ≠ "") (steps : List WorkerStep) :
    EndsSoon (runWorker steps s) sessionId := by
  induction steps generalizing s with
  | nil => exact h
  | cons step steps ih => exact ih (h.run hses step)

/-- What the cache answers depends on the entry and the time. -/
theorem caches_congr {s' : Redis} (hnow : s'.now = s.now)
    (hentry : s'.entry (SessionProcessor.historyKey sessionId) = s.entry (SessionProcessor.historyKey sessionId))
    (h : Caches (s.wait w) sessionId items) : Caches (s'.wait w) sessionId items := by
  unfold Caches cachedHistory Expiring.get at h ⊢
  rw [Expiring.entry_wait] at h ⊢
  rw [hnow, hentry]
  exact h

/-- The item comes first, and what is cached for the session after it. -/
theorem caches_history (hses : sessionId ≠ "") (hw : w ≤ 1000 * SessionProcessor.ttl) (h : Caches s sessionId items) :
    Caches ((WorkerStep.run (.job (.history sessionId item)) s).wait w) sessionId (item :: items) := by
  have hold : (cachedHistory s sessionId).getD [] = items.take SessionProcessor.limit := by
    rw [h]
    by_cases hnil : items = []
    · rw [if_pos hnil, hnil]
      rfl
    · rw [if_neg hnil]
      rfl
  have htake : (item :: items.take SessionProcessor.limit).take SessionProcessor.limit =
      (item :: items).take SessionProcessor.limit := by
    simp [SessionProcessor.limit, List.take_take]
  unfold Caches cachedHistory
  rw [run_history hses, hold, htake, Expiring.get_put_wait hw, if_neg (List.cons_ne_nil _ _)]
  rfl

theorem caches_ended : Caches ((WorkerStep.run (.job (.ended sessionId)) s).wait w) sessionId [] := by
  unfold Caches cachedHistory Expiring.get
  rw [run_ended, Expiring.entry_wait, Expiring.entry_remove_self]
  rfl

/-- The cache after some steps and some time. -/
theorem caches_newest (hnone : s.entry (SessionProcessor.historyKey sessionId) = none) (hses : sessionId ≠ "")
    (steps : List WorkerStep) (hw : w ≤ 1000 * SessionProcessor.ttl) :
    Caches ((runWorker steps s).wait w) sessionId (newest sessionId w steps.reverse) := by
  induction steps using List.reverseRecOn generalizing w with
  | nil =>
    unfold Caches cachedHistory Expiring.get
    show CacheService.parsed (Option.map Entry.value ((s.wait w).entry _)) = _
    rw [Expiring.entry_wait, hnone]
    rfl
  | append_singleton steps step ih =>
    have hlast : runWorker (steps ++ [step]) s = step.run (runWorker steps s) := by
      unfold runWorker
      rw [List.foldl_append]
      rfl
    rw [hlast, List.reverse_append, List.reverse_singleton, List.singleton_append]
    cases step with
    | wait ms =>
      have hwait : ((WorkerStep.wait ms).run (runWorker steps s)).wait w = (runWorker steps s).wait (w + ms) :=
        Expiring.wait_wait ms w
      rw [hwait, newest]
      by_cases hlong : w + ms ≤ 1000 * SessionProcessor.ttl
      · rw [if_pos hlong]
        exact ih hlong
      · rw [if_neg hlong]
        -- more than twelve hours have gone by, and the entry with them
        have hsoon : EndsSoon (runWorker steps s) sessionId := by
          refine EndsSoon.runWorker (fun e he => ?_) hses steps
          rw [hnone] at he
          cases he
        have hgone : ((runWorker steps s).wait (w + ms)).entry (SessionProcessor.historyKey sessionId) = none := by
          rw [Expiring.entry_wait]
          refine Option.filter_eq_none_iff.2 fun e he hlive => ?_
          obtain ⟨time, hexp, htime⟩ := hsoon e he
          unfold Entry.live at hlive
          rw [hexp] at hlive
          have hlater := of_decide_eq_true hlive
          omega
        unfold Caches cachedHistory Expiring.get
        rw [hgone]
        rfl
    | job task =>
      have other : (∀ item, task ≠ .history sessionId item) → task ≠ .ended sessionId →
          Caches ((WorkerStep.run (.job task) (runWorker steps s)).wait w) sessionId
            (newest sessionId w steps.reverse) :=
        fun hhistory hended => caches_congr (now_run_job task) (entry_run_other hhistory hended) (ih hw)
      cases task with
      | ended of =>
        rw [newest]
        by_cases hof : of = sessionId
        · subst hof
          rw [if_pos rfl]
          exact caches_ended
        · rw [if_neg hof]
          exact other (fun _ he => by cases he) fun he => hof (by injection he)
      | history of item =>
        rw [newest]
        by_cases hof : of = sessionId
        · subst hof
          rw [if_pos rfl]
          exact caches_history hses hw (ih (w := 0) (by decide))
        · rw [if_neg hof]
          exact other (fun _ he => hof (by injection he)) fun he => by cases he

end Runs

/-- **The cache has the newest 50 items of the session**, back to where it ended or to where more than twelve hours went
by without one. -/
theorem cached_eq_newest (sessionId : Id) (hses : sessionId ≠ "") (s : Redis)
    (hnone : s.entry (SessionProcessor.historyKey sessionId) = none) (steps : List WorkerStep) :
    cachedHistory (runWorker steps s) sessionId =
      if newest sessionId 0 steps.reverse = [] then none
      else some ((newest sessionId 0 steps.reverse).take SessionProcessor.limit) :=
  caches_newest (w := 0) hnone hses steps (by decide)

/-- An item of a bet. -/
def sampleItem (reference : String) : SessionHistoryItem :=
  { reference, won := true, stake := 500, multiplier := 2, payout := 1000, status := .won, outcome := none,
    settledAt := none }

/-- Two sessions; one is quiet for a millisecond more than twelve hours, and the other is ended. -/
def sampleSteps : List WorkerStep :=
  [.job (.history "s1" (sampleItem "BET-1")), .job (.history "s2" (sampleItem "BET-2")), .wait 43200000,
    .job (.history "s2" (sampleItem "BET-3")), .wait 1, .job (.history "s1" (sampleItem "BET-4")), .wait 43200000,
    .job (.ended "s2"), .job (.history "s1" (sampleItem "BET-5"))]

theorem cached_eq_newest_sampleSteps :
    (cachedHistory (runWorker sampleSteps (.empty 0)) "s1").map (List.map SessionHistoryItem.reference) =
        some ["BET-5", "BET-4"] ∧
      cachedHistory (runWorker sampleSteps (.empty 0)) "s2" = none := by
  rw [cached_eq_newest "s1" (by decide) (.empty 0) rfl, cached_eq_newest "s2" (by decide) (.empty 0) rfl]
  decide +kernel

end Smink
