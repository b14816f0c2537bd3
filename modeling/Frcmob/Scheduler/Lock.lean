import Mathlib.Data.Fintype.Basic
import Mathlib.Logic.Function.Basic
import Frcmob.Lib.Numerals
import Frcmob.Lib.Transition
import Frcmob.Text

/-!
The lock in Redis under which one worker at a time runs a job: `_scheduled_job` of
`scheduler.py` and `run_regional_automation_tick`. The lock is set with `NX` and `EX` under a
fresh token; its release is a `GET`, a comparison and a `DEL`.
-/

namespace Frcmob.Scheduler
open Transition

structure LockSettings where
  distributedLockEnabled : Bool
  distributedLockPrefix : String
  distributedLockTtlSec : Int

def distributedLockKey (settings : LockSettings) (jobKey : String) : String :=
  let stripped := strip (if settings.distributedLockPrefix.isEmpty then "scheduler:lock:"
    else settings.distributedLockPrefix)
  (if stripped.toList.getLast? = some ':' then stripped else stripped ++ ":") ++ jobKey

/-- In seconds. -/
def distributedLockTtl (settings : LockSettings) : Option Int → Nat
  | none =>
      let ttl := if settings.distributedLockTtlSec = 0 then 900 else settings.distributedLockTtlSec
      (max 60 ttl).toNat
  | some resolved => (max 60 resolved).toNat

def automationRedisKey (scope : String) (season : Nat) (keyType : String) : String :=
  "automation:" ++ scope ++ ":season:" ++ toString season ++ ":" ++ keyType

/-- What runs under a lock. -/
inductive LockedJob
  | scheduledJob (jobKey : String) (lockTtlSec : Option Int)
  | regionalTick (season : Nat) (intervalMinutes : Int)
deriving DecidableEq

def LockedJob.lockKey (settings : LockSettings) : LockedJob → String
  | .scheduledJob jobKey _ => distributedLockKey settings jobKey
  | .regionalTick season _ => automationRedisKey "regional" season "lock"

def LockedJob.lockTtl (settings : LockSettings) : LockedJob → Nat
  | .scheduledJob _ lockTtlSec => distributedLockTtl settings lockTtlSec
  | .regionalTick _ intervalMinutes => (max (15 * 60) (max 60 (intervalMinutes * 60))).toNat

/-- A scheduled job runs without the lock when Redis is unavailable or the lock is disabled. -/
def LockedJob.degrades : LockedJob → Bool
  | .scheduledJob .. => true
  | .regionalTick .. => false

/-- The command is done and answered, not done, or done although its answer is lost. -/
inductive RedisReply
  | answered
  | unavailable
  | lost
deriving DecidableEq

structure LockValue where
  token : String
  expiresAt : Nat
deriving DecidableEq

/-- A worker and one lock. A lock taken has a token and the time when it runs out. -/
inductive LockRun
  | idle
  | unlocked
  | locked (lock : LockValue)
  | releasing (lock : LockValue)
  | deleting (lock : LockValue)
deriving DecidableEq

/-- The lock of a worker that has taken it and not released it. -/
def LockRun.lock : LockRun → Option LockValue
  | .idle | .unlocked => none
  | .locked lock | .releasing lock | .deleting lock => some lock

/-- Between a `GET` that gave the worker's own token and the `DEL`. -/
def LockRun.isDeleting : LockRun → Bool
  | .deleting _ => true
  | _ => false

/-- A `DEL` that removed a lock: the worker's own token and the one removed. -/
structure Removal where
  token : String
  removed : String
deriving DecidableEq

/-- Redis with its clock (in ms), the workers, and for the record the tokens given out and the
locks removed. -/
structure Locks (ι : Type*) where
  now : Nat := 0
  cache : String → Option LockValue := fun _ => none
  runs : ι → String → LockRun := fun _ _ => .idle
  tokens : List String := []
  removals : List Removal := []

inductive LockAction (ι : Type*)
  | tick (ms : Nat)
  | acquire (worker : ι) (job : LockedJob) (token : String) (reply : RedisReply)
  | finish (worker : ι) (key : String)
  | readBack (worker : ι) (key : String) (reply : RedisReply)
  | delete (worker : ι) (key : String) (reply : RedisReply)
  | crash (worker : ι) (key : String)
deriving DecidableEq

namespace Locks
variable {ι : Type*} [DecidableEq ι]

/-- `GET`: a lock whose time has run out is gone. -/
def get (s : Locks ι) (key : String) : Option LockValue :=
  (s.cache key).filter fun lock => s.now < lock.expiresAt

def setRun (s : Locks ι) (worker : ι) (key : String) (run : LockRun) : Locks ι :=
  { s with runs := Function.update s.runs worker (Function.update (s.runs worker) key run) }

def setLock (s : Locks ι) (key : String) (lock : Option LockValue) : Locks ι :=
  { s with cache := Function.update s.cache key lock }

/-- `_acquire_distributed_job_lock`, and the same in the regional tick. -/
def acquire (settings : LockSettings) (s : Locks ι) (worker : ι) (job : LockedJob)
    (token : String) (reply : RedisReply) : Locks ι :=
  let key := job.lockKey settings
  let lock : LockValue := ⟨token, s.now + job.lockTtl settings * 1000⟩
  let degraded := if job.degrades then LockRun.unlocked else .idle
  if job.degrades ∧ ¬ settings.distributedLockEnabled then s.setRun worker key .unlocked
  else
    match reply with
    | .unavailable => s.setRun worker key degraded
    | .answered =>
        if (s.get key).isSome then s
        else (s.setLock key (some lock)).setRun worker key (.locked lock)
    | .lost =>
        if (s.get key).isSome then s.setRun worker key degraded
        else (s.setLock key (some lock)).setRun worker key degraded

/-- `str(current or "")` -/
def currentToken (s : Locks ι) (key : String) : String :=
  match s.get key with
  | some current => current.token
  | none => ""

/-- The `GET` of the release. -/
def readBack (s : Locks ι) (worker : ι) (key : String) (lock : LockValue) (reply : RedisReply) :
    Locks ι :=
  if reply = .answered ∧ s.currentToken key = lock.token then s.setRun worker key (.deleting lock)
  else s.setRun worker key .idle

/-- The `DEL` of the release. -/
def delete (s : Locks ι) (worker : ι) (key : String) (lock : LockValue) (reply : RedisReply) :
    Locks ι :=
  if reply = .unavailable then s.setRun worker key .idle
  else
    { (s.setLock key none).setRun worker key .idle with
      removals := s.removals ++ (s.get key).toList.map fun current =>
        { token := lock.token, removed := current.token } }

/-- The tokens are fresh (`uuid4().hex`). -/
def step (settings : LockSettings) (s : Locks ι) : LockAction ι → Option (Locks ι)
  | .tick ms => some { s with now := s.now + ms }
  | .acquire worker job token reply =>
      if s.runs worker (job.lockKey settings) = .idle ∧ token ∉ s.tokens ∧ token ≠ "" then
        some ({ s with tokens := token :: s.tokens }.acquire settings worker job token reply)
      else none
  | .finish worker key =>
      match s.runs worker key with
      | .unlocked => some (s.setRun worker key .idle)
      | .locked lock => some (s.setRun worker key (.releasing lock))
      | _ => none
  | .readBack worker key reply =>
      match s.runs worker key with
      | .releasing lock => some (s.readBack worker key lock reply)
      | _ => none
  | .delete worker key reply =>
      match s.runs worker key with
      | .deleting lock => some (s.delete worker key lock reply)
      | _ => none
  | .crash worker key => some (s.setRun worker key .idle)

end Locks

def lockSystem (ι : Type*) [DecidableEq ι] (settings : LockSettings) :
    System (Locks ι) (LockAction ι) where
  start s := s.cache = (fun _ => none) ∧ s.runs = (fun _ _ => .idle) ∧ s.removals = []
  step := Locks.step settings

/-! ### One holder -/

namespace Locks
variable {ι : Type*} {s : Locks ι} {settings : LockSettings}

/-- The worker has the lock and its time has not run out. -/
def Holds (s : Locks ι) (worker : ι) (key : String) : Prop :=
  ∃ lock, (s.runs worker key).lock = some lock ∧ s.now < lock.expiresAt

structure OneHolder (s : Locks ι) : Prop where
  removals : ∀ removal ∈ s.removals, removal.removed = removal.token
  holder : ∀ key worker worker', s.Holds worker key → s.Holds worker' key → worker = worker'

/-- No worker takes the lock between another's `GET` of its own token and its `DEL`. -/
def AcquiresApart (settings : LockSettings) (s : Locks ι) : LockAction ι → Prop
  | .acquire _ job _ _ => s.get (job.lockKey settings) = none →
      ∀ worker, ¬ (s.runs worker (job.lockKey settings)).isDeleting
  | _ => True

instance [Fintype ι] (s : Locks ι) (a : LockAction ι) : Decidable (AcquiresApart settings s a) := by
  cases a <;> unfold AcquiresApart <;> infer_instance

structure Exclusive (s : Locks ι) : Prop where
  held : ∀ worker key lock, (s.runs worker key).lock = some lock → s.now < lock.expiresAt →
    s.cache key = some lock
  given : ∀ worker key lock, (s.runs worker key).lock = some lock → lock.token ∈ s.tokens
  own : ∀ worker worker' key lock lock', (s.runs worker key).lock = some lock →
    (s.runs worker' key).lock = some lock' → lock.token = lock'.token → worker = worker'
  found : ∀ worker key lock, s.runs worker key = .deleting lock →
    ∀ current, s.get key = some current → current.token = lock.token
  removals : ∀ removal ∈ s.removals, removal.removed = removal.token

theorem get_eq_some {key : String} {lock : LockValue} :
    s.get key = some lock ↔ s.cache key = some lock ∧ s.now < lock.expiresAt := by
  simp [get, Option.filter_eq_some_iff]

theorem get_setLock_of_ne (s : Locks ι) {key k : String} (lock : Option LockValue) (h : k ≠ key) :
    (s.setLock key lock).get k = s.get k := by
  have hcache : (s.setLock key lock).cache k = s.cache k := Function.update_of_ne h ..
  rw [get, get, hcache]
  rfl

theorem Exclusive.oneHolder (h : s.Exclusive) : s.OneHolder := by
  refine ⟨h.removals, fun key worker worker' hholds hholds' => ?_⟩
  obtain ⟨lock, hlock, hlive⟩ := hholds
  obtain ⟨lock', hlock', hlive'⟩ := hholds'
  have hsame : lock = lock' := Option.some_inj.mp
    ((h.held worker key lock hlock hlive).symm.trans (h.held worker' key lock' hlock' hlive'))
  exact h.own worker worker' key lock lock' hlock hlock' (congrArg _ hsame)

/-- A lock is set where there is none, and nobody is about to delete it. -/
theorem Exclusive.setLock (h : s.Exclusive) {key : String} (hfree : s.get key = none)
    (hapart : ∀ worker, ¬ (s.runs worker key).isDeleting) (lock : LockValue) :
    (s.setLock key (some lock)).Exclusive := by
  refine ⟨fun w k lock' hrun hlive => ?_, h.given, h.own, fun w k lock' hrun => ?_, h.removals⟩
  · have hcache : s.cache k = some lock' := h.held w k lock' hrun hlive
    by_cases hk : k = key
    · subst hk
      rw [get_eq_some.mpr ⟨hcache, hlive⟩] at hfree
      cases hfree
    · simpa [Locks.setLock, hk] using hcache
  · by_cases hk : k = key
    · have hdeleting : s.runs w k = .deleting lock' := hrun
      exact absurd (by rw [← hk, hdeleting]; rfl) (hapart w)
    · rw [get_setLock_of_ne s _ hk]
      exact h.found w k lock' hrun

variable [DecidableEq ι]

theorem runs_setRun (s : Locks ι) (worker : ι) (key : String) (run : LockRun) (w : ι)
    (k : String) : (s.setRun worker key run).runs w k =
      if w = worker ∧ k = key then run else s.runs w k := by
  by_cases hw : w = worker
  · subst hw
    by_cases hk : k = key
    · simp [setRun, hk]
    · simp [setRun, hk]
  · simp [setRun, hw]

/-- A worker's run changes, but not to another lock. -/
theorem Exclusive.setRun (h : s.Exclusive) {worker : ι} {key : String} {run : LockRun}
    (hlock : ∀ lock, run.lock = some lock → (s.runs worker key).lock = some lock)
    (hfound : ∀ lock, run = .deleting lock →
      ∀ current, s.get key = some current → current.token = lock.token) :
    (s.setRun worker key run).Exclusive := by
  have hold : ∀ w k lock, ((s.setRun worker key run).runs w k).lock = some lock →
      (s.runs w k).lock = some lock := by
    intro w k lock hrun
    rw [runs_setRun] at hrun
    split at hrun
    · rename_i hsame
      rw [hsame.1, hsame.2]
      exact hlock lock hrun
    · exact hrun
  refine ⟨fun w k lock hrun => h.held w k lock (hold w k lock hrun),
    fun w k lock hrun => h.given w k lock (hold w k lock hrun),
    fun w w' k lock lock' hrun hrun' => h.own w w' k lock lock' (hold w k lock hrun)
      (hold w' k lock' hrun'), fun w k lock hrun => ?_, h.removals⟩
  rw [runs_setRun] at hrun
  split at hrun
  · rename_i hsame
    rw [hsame.2]
    exact hfound lock hrun
  · exact h.found w k lock hrun

theorem Exclusive.setIdle (h : s.Exclusive) (worker : ι) (key : String) :
    (s.setRun worker key .idle).Exclusive :=
  h.setRun (fun _ => nofun) fun _ => nofun

theorem Exclusive.setUnlocked (h : s.Exclusive) (worker : ι) (key : String) :
    (s.setRun worker key .unlocked).Exclusive :=
  h.setRun (fun _ => nofun) fun _ => nofun

/-- The worker that set the lock has it. -/
theorem Exclusive.setLocked (h : s.Exclusive) {worker : ι} {key : String} {lock : LockValue}
    (hcache : s.cache key = some lock) (hgiven : lock.token ∈ s.tokens)
    (hfresh : ∀ w k lock', (s.runs w k).lock = some lock' → lock'.token ≠ lock.token) :
    (s.setRun worker key (.locked lock)).Exclusive := by
  have hruns : ∀ w k lock', ((s.setRun worker key (.locked lock)).runs w k).lock = some lock' →
      (w = worker ∧ k = key ∧ lock' = lock) ∨ (s.runs w k).lock = some lock' := by
    intro w k lock' hrun
    rw [runs_setRun] at hrun
    split at hrun
    · rename_i hsame
      exact .inl ⟨hsame.1, hsame.2, (Option.some_inj.mp hrun).symm⟩
    · exact .inr hrun
  refine ⟨fun w k lock' hrun hlive => ?_, fun w k lock' hrun => ?_,
    fun w w' k lock₁ lock₂ hrun hrun' htoken => ?_, fun w k lock' hrun => ?_, h.removals⟩
  · cases hruns w k lock' hrun with
    | inl hnew =>
        obtain ⟨-, rfl, rfl⟩ := hnew
        exact hcache
    | inr hold => exact h.held w k lock' hold hlive
  · cases hruns w k lock' hrun with
    | inl hnew => exact hnew.2.2 ▸ hgiven
    | inr hold => exact h.given w k lock' hold
  · cases hruns w k lock₁ hrun with
    | inl hnew =>
        cases hruns w' k lock₂ hrun' with
        | inl hnew' => exact hnew.1.trans hnew'.1.symm
        | inr hold' =>
            exact absurd (htoken.symm.trans (congrArg _ hnew.2.2)) (hfresh w' k lock₂ hold')
    | inr hold =>
        cases hruns w' k lock₂ hrun' with
        | inl hnew' => exact absurd (htoken.trans (congrArg _ hnew'.2.2)) (hfresh w k lock₁ hold)
        | inr hold' => exact h.own w w' k lock₁ lock₂ hold hold' htoken
  · rw [runs_setRun] at hrun
    split at hrun
    · cases hrun
    · exact h.found w k lock' hrun

theorem Exclusive.acquire (h : s.Exclusive) {worker : ι} {job : LockedJob} {token : String}
    {reply : RedisReply} (hgiven : token ∈ s.tokens)
    (hfresh : ∀ w k lock, (s.runs w k).lock = some lock → lock.token ≠ token)
    (hapart : s.AcquiresApart settings (.acquire worker job token reply)) :
    (s.acquire settings worker job token reply).Exclusive := by
  have hset := fun hfree : ¬ (s.get (job.lockKey settings)).isSome =>
    h.setLock (Option.not_isSome_iff_eq_none.mp hfree)
      (hapart (Option.not_isSome_iff_eq_none.mp hfree))
      ⟨token, s.now + job.lockTtl settings * 1000⟩
  have hdegraded : ∀ {t : Locks ι}, t.Exclusive → (t.setRun worker (job.lockKey settings)
      (if job.degrades then .unlocked else .idle)).Exclusive := by
    intro t ht
    split
    · exact ht.setUnlocked ..
    · exact ht.setIdle ..
  simp only [Locks.acquire]
  split
  · exact h.setUnlocked ..
  · split
    · exact hdegraded h
    · split
      · exact h
      · rename_i hfree
        exact (hset hfree).setLocked (by simp [Locks.setLock]) hgiven hfresh
    · split
      · exact hdegraded h
      · rename_i hfree
        exact hdegraded (hset hfree)

theorem Exclusive.readBack (h : s.Exclusive) {worker : ι} {key : String} {lock : LockValue}
    (hrun : s.runs worker key = .releasing lock) (reply : RedisReply) :
    (s.readBack worker key lock reply).Exclusive := by
  rw [Locks.readBack]
  split
  · rename_i hmatch
    refine h.setRun (fun lock' heq => ?_) fun lock' heq current hcurrent => ?_
    · rw [hrun]
      exact heq
    · rw [currentToken, hcurrent] at hmatch
      exact LockRun.deleting.inj heq ▸ hmatch.2
  · exact h.setIdle ..

theorem Exclusive.delete (h : s.Exclusive) {worker : ι} {key : String} {lock : LockValue}
    (hrun : s.runs worker key = .deleting lock) (reply : RedisReply) :
    (s.delete worker key lock reply).Exclusive := by
  have hidle := h.setIdle worker key
  rw [Locks.delete]
  split
  · exact hidle
  · refine ⟨fun w k lock' hlock hlive => ?_, hidle.given, hidle.own,
      fun w k lock' hdel current hcurrent => ?_, fun removal hmem => ?_⟩
    · have hcache : s.cache k = some lock' := hidle.held w k lock' hlock hlive
      by_cases hk : k = key
      · subst hk
        have htoken := h.found worker k lock hrun lock' (get_eq_some.mpr ⟨hcache, hlive⟩)
        have hlock : ((s.setRun worker k .idle).runs w k).lock = some lock' := hlock
        rw [runs_setRun] at hlock
        split at hlock
        · cases hlock
        · rename_i hne
          have hsame := h.own w worker k lock' lock hlock (by rw [hrun]; rfl) htoken
          exact absurd ⟨hsame, rfl⟩ hne
      · simpa [Locks.setRun, Locks.setLock, hk] using hcache
    · have hget := get_eq_some.mp hcurrent
      by_cases hk : k = key
      · subst hk
        simp [Locks.setRun, Locks.setLock] at hget
      · have hcache : s.cache k = some current := by
          simpa [Locks.setRun, Locks.setLock, hk] using hget.1
        exact hidle.found w k lock' hdel current (get_eq_some.mpr ⟨hcache, hget.2⟩)
    · cases List.mem_append.mp hmem with
      | inl hold => exact h.removals removal hold
      | inr hnew =>
          obtain ⟨current, hcurrent, rfl⟩ := List.mem_map.mp hnew
          exact h.found worker key lock hrun current (Option.mem_toList.mp hcurrent)

theorem Exclusive.step (h : s.Exclusive) {a : LockAction ι} {t : Locks ι}
    (hapart : s.AcquiresApart settings a) (hstep : Locks.step settings s a = some t) :
    t.Exclusive := by
  cases a with
  | tick ms =>
      obtain rfl := Option.some_inj.mp hstep
      have hlater : ∀ {lock : LockValue}, s.now + ms < lock.expiresAt → s.now < lock.expiresAt :=
        fun hlt => (Nat.le_add_right ..).trans_lt hlt
      refine ⟨fun w k lock hrun hlive => h.held w k lock hrun (hlater hlive), h.given, h.own,
        fun w k lock hrun current hcurrent => ?_, h.removals⟩
      obtain ⟨hcache, hlive⟩ := get_eq_some.mp hcurrent
      exact h.found w k lock hrun current (get_eq_some.mpr ⟨hcache, hlater hlive⟩)
  | acquire worker job token reply =>
      rw [Locks.step] at hstep
      split at hstep
      · rename_i hguard
        have hnext : ({ s with tokens := token :: s.tokens } : Locks ι).Exclusive :=
          ⟨h.held, fun w k lock hrun => List.mem_cons_of_mem _ (h.given w k lock hrun), h.own,
            h.found, h.removals⟩
        refine Option.some_inj.mp hstep ▸ hnext.acquire List.mem_cons_self ?_ hapart
        intro w k lock hrun heq
        exact hguard.2.1 (heq ▸ h.given w k lock hrun)
      · cases hstep
  | finish worker key =>
      rw [Locks.step] at hstep
      split at hstep
      · exact Option.some_inj.mp hstep ▸ h.setIdle worker key
      · rename_i lock hrun
        refine Option.some_inj.mp hstep ▸ h.setRun (fun lock' heq => ?_) fun _ => nofun
        rw [hrun]
        exact heq
      · cases hstep
  | readBack worker key reply =>
      rw [Locks.step] at hstep
      split at hstep
      · rename_i lock hrun
        exact Option.some_inj.mp hstep ▸ h.readBack hrun reply
      · cases hstep
  | delete worker key reply =>
      rw [Locks.step] at hstep
      split at hstep
      · rename_i lock hrun
        exact Option.some_inj.mp hstep ▸ h.delete hrun reply
      · cases hstep
  | crash worker key => exact Option.some_inj.mp hstep ▸ h.setIdle worker key

end Locks

open Locks

/-- A release removes its worker's own lock only, and no lock has two holders, as long as no
worker takes a lock that another's release is about to delete. -/
theorem one_holder {ι : Type*} [DecidableEq ι] {settings : LockSettings} {s : Locks ι}
    (h : ReachableWhen (lockSystem ι settings) (AcquiresApart settings) s) : s.OneHolder := by
  refine (h.invariant (P := Exclusive) (fun s hs => ?_)
    fun _ _ _ hs hapart hstep => hs.step hapart hstep).oneHolder
  obtain ⟨hcache, hruns, hremovals⟩ := hs
  refine ⟨fun w k lock hrun => ?_, fun w k lock hrun => ?_, fun w w' k lock lock' hrun => ?_,
    fun w k lock hrun => ?_, fun removal hmem => ?_⟩
  · rw [hruns] at hrun
    cases hrun
  · rw [hruns] at hrun
    cases hrun
  · rw [hruns] at hrun
    cases hrun
  · rw [hruns] at hrun
    cases hrun
  · rw [hremovals] at hmem
    cases hmem

/-! Three workers and the regional tick. -/

def defaultSettings : LockSettings where
  distributedLockEnabled := true
  distributedLockPrefix := "scheduler:lock:"
  distributedLockTtlSec := 900

def regional : LockedJob :=
  .regionalTick 2026 60

def regionalKey : String :=
  "automation:regional:season:2026:lock"

/-- The first worker's lock runs out between its `GET` and its `DEL`, and the second worker takes
it. The `DEL` removes that lock, and the third worker takes it as well. -/
def lateDeleteRun : List (LockAction (Fin 3)) :=
  [.acquire 0 regional "token0" .answered, .finish 0 regionalKey, .tick 3599999,
    .readBack 0 regionalKey .answered, .tick 1, .acquire 1 regional "token1" .answered,
    .delete 0 regionalKey .answered, .acquire 2 regional "token2" .answered]

theorem lock_held_twice :
    ∃ s, Reachable (lockSystem (Fin 3) defaultSettings) s ∧
      s.removals = [⟨"token0", "token1"⟩] ∧ ¬ s.OneHolder := by
  refine ⟨_, reachable_of_run lateDeleteRun (s := {}) ⟨rfl, rfl, rfl⟩ rfl, by decide +kernel, ?_⟩
  intro h
  refine absurd (h.holder regionalKey 1 2 ?_ ?_) (by decide)
  · exact ⟨⟨"token1", 7200000⟩, by decide +kernel, by decide +kernel⟩
  · exact ⟨⟨"token2", 7200000⟩, by decide +kernel, by decide +kernel⟩

/-- The second worker finds the lock taken, and takes it once it is released. -/
def handedOverRun : List (LockAction (Fin 2)) :=
  [.acquire 0 regional "token0" .answered, .acquire 1 regional "token1" .answered,
    .finish 0 regionalKey, .readBack 0 regionalKey .answered, .delete 0 regionalKey .answered,
    .acquire 1 regional "token2" .answered]

theorem one_holder_handed_over :
    ∃ s, (lockSystem (Fin 2) defaultSettings).run {} handedOverRun = some s ∧
      s.cache regionalKey = some ⟨"token2", 3600000⟩ ∧ s.OneHolder := by
  have hmeets : (lockSystem (Fin 2) defaultSettings).RunMeets (AcquiresApart defaultSettings) {}
      handedOverRun := by
    decide +kernel
  exact ⟨_, rfl, by decide +kernel,
    one_holder (reachableWhen_of_run handedOverRun (.start ⟨rfl, rfl, rfl⟩) hmeets rfl)⟩

end Frcmob.Scheduler
