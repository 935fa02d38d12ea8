import MoCodes.Lib.Guard
import MoCodes.Lib.Transition

/-! The state variable that guards the database connection. A call tests it under the lock as
often as it may, and then decides whether the connection is its own. -/
namespace MoCodes.MoFaceRec.Db
open Lib.Guard Lib.Transition

inductive DbMysqlState where
  | idle
  | insert
  | query
  | delete
deriving DecidableEq

def maxFaceNum : Nat := 8

/-- What a thread does with the database; an insertion names so many people. -/
inductive Oper where
  | query
  | insert (people : Nat)
  | delete
deriving DecidableEq

namespace Oper

def state : Oper → DbMysqlState
  | query => .query
  | insert _ => .insert
  | delete => .delete

/-- How often the guard is tested, with a second of sleep after each failure. -/
def tries : Oper → Nat
  | query => 3
  | insert _ => 3
  | delete => 10

/-- What is returned when the guard is not got. -/
def refused : Oper → Option Int
  | query => some (-1)
  | insert _ => some (-2)
  | delete => none

/-- What is returned after `mysql_query`. -/
def result (succeed : Bool) : Oper → Option Int
  | query => some (if succeed then 0 else -2)
  | insert _ => some (if succeed then 0 else -3)
  | delete => none

end Oper

/-- Where a thread is: not in a call, before `pthread_mutex_lock`, in the loop after `cnt` failed
tests, behind the loop with the state set, or between the guard and its reset. -/
inductive Place where
  | out (returned : Option Int)
  | locking (oper : Oper)
  | testing (oper : Oper) (cnt : Nat)
  | got (oper : Oper)
  | inUse (oper : Oper)
deriving DecidableEq

def Oper.enter : Oper → Place
  | .insert people => if maxFaceNum < people then .out (some (-1)) else .locking (.insert people)
  | oper => .locking oper

/-- Where a call goes on after the loop. Only `run` looks at its counter. -/
def Oper.decided (oper : Oper) (mState : DbMysqlState) (got : Bool) : Place :=
  match oper with
  | .delete => if got then .inUse .delete else .out none
  | oper => if mState = oper.state then .inUse oper else .out oper.refused

structure DbMysql where
  mState : DbMysqlState
  mStateLock : Option Nat
  places : Nat → Place

inductive Event where
  | call (thread : Nat) (oper : Oper)
  | lock (thread : Nat)
  | test (thread : Nat)
  | unlock (thread : Nat)
  | done (thread : Nat) (succeed : Bool)
deriving DecidableEq

def runThread : Nat := 0

namespace DbMysql

def setPlace (db : DbMysql) (thread : Nat) (place : Place) : DbMysql :=
  {db with places := Function.update db.places thread place}

def call (db : DbMysql) (thread : Nat) (oper : Oper) : Option DbMysql :=
  match db.places thread with
  | .out _ =>
    if oper = .delete ↔ thread = runThread then some (db.setPlace thread oper.enter) else none
  | _ => none

def lock (db : DbMysql) (thread : Nat) : Option DbMysql :=
  match db.places thread,db.mStateLock with
  | .locking oper,none => some {db.setPlace thread (.testing oper 0) with mStateLock := some thread}
  | _,_ => none

def test (db : DbMysql) (thread : Nat) : Option DbMysql :=
  match db.places thread with
  | .testing oper cnt =>
    if cnt < oper.tries then
      if db.mState = .idle then some {db.setPlace thread (.got oper) with mState := oper.state}
      else some (db.setPlace thread (.testing oper (cnt + 1)))
    else none
  | _ => none

/-- The loop is left, by its `break` or after its last test. -/
def unlock (db : DbMysql) (thread : Nat) : Option DbMysql :=
  match db.places thread with
  | .testing oper cnt =>
    if cnt < oper.tries then none
    else some {db.setPlace thread (oper.decided db.mState false) with mStateLock := none}
  | .got oper => some {db.setPlace thread (oper.decided db.mState true) with mStateLock := none}
  | _ => none

def done (db : DbMysql) (thread : Nat) (succeed : Bool) : Option DbMysql :=
  match db.places thread with
  | .inUse oper => some {db.setPlace thread (.out (oper.result succeed)) with mState := .idle}
  | _ => none

def step (db : DbMysql) : Event → Option DbMysql
  | .call thread oper => db.call thread oper
  | .lock thread => db.lock thread
  | .test thread => db.test thread
  | .unlock thread => db.unlock thread
  | .done thread succeed => db.done thread succeed

end DbMysql

def dbMysql : System DbMysql Event where
  Enabled db event := (db.step event).isSome
  next db event := (db.step event).getD db

instance (db : DbMysql) (event : Event) : Decidable (dbMysql.Enabled db event) :=
  inferInstanceAs (Decidable (_ = true))

def started : DbMysql := ⟨.idle,none,fun _ => .out none⟩

namespace DbMysql

/-- One operation at most uses the connection, and the state is not idle while one does. -/
structure Exclusive (db : DbMysql) : Prop where
  one : ∀ thread other oper oper', db.places thread = .inUse oper → db.places other = .inUse oper' →
    other = thread
  idle : db.mState = .idle → ∀ thread oper, db.places thread ≠ .inUse oper

/-- When a query or an insertion has used up its tests, no operation of its kind is running. -/
def noneAlike (db : DbMysql) : Event → Prop
  | .unlock thread => ∀ oper cnt, db.places thread = .testing oper cnt → oper ≠ .delete →
    ∀ other oper', db.places other = .inUse oper' → oper'.state ≠ oper.state
  | _ => True

end DbMysql

/-- The state a thread has set and not reset. -/
def Place.owns : Place → Option DbMysqlState
  | .got oper => some oper.state
  | .inUse oper => some oper.state
  | _ => none

def Place.locks : Place → Bool
  | .testing _ _ => true
  | .got _ => true
  | _ => false

theorem Oper.state_busy (oper : Oper) : oper.state ≠ .idle := by
  cases oper <;> exact fun same => by cases same

theorem Oper.decided_got (oper : Oper) : oper.decided oper.state true = .inUse oper := by
  cases oper <;> rfl

theorem Oper.decided_own {oper : Oper} (other : oper ≠ .delete) (mState : DbMysqlState) (got : Bool) :
    oper.decided mState got = if mState = oper.state then .inUse oper else .out oper.refused := by
  cases oper with
  | delete => exact absurd rfl other
  | query => rfl
  | insert people => rfl

theorem Oper.enter_outside (oper : Oper) : oper.enter.owns = none ∧ oper.enter.locks = false := by
  cases oper with
  | insert people =>
    rw [Oper.enter]
    split_ifs <;> exact ⟨rfl,rfl⟩
  | _ => exact ⟨rfl,rfl⟩

theorem Oper.decided_locks (oper : Oper) (mState : DbMysqlState) (got : Bool) :
    (oper.decided mState got).locks = false := by
  by_cases other : oper = .delete
  · subst other
    cases got <;> rfl
  · rw [Oper.decided_own other]
    split_ifs <;> rfl

inductive DbMysql.Acts (db : DbMysql) : Event → DbMysql → Prop where
  | call {thread oper returned} (before : db.places thread = .out returned) :
      Acts db (.call thread oper) (db.setPlace thread oper.enter)
  | lock {thread oper} (before : db.places thread = .locking oper) (free : db.mStateLock = none) :
      Acts db (.lock thread) {db.setPlace thread (.testing oper 0) with mStateLock := some thread}
  | take {thread oper cnt} (before : db.places thread = .testing oper cnt) (free : db.mState = .idle) :
      Acts db (.test thread) {db.setPlace thread (.got oper) with mState := oper.state}
  | retry {thread oper cnt} (before : db.places thread = .testing oper cnt) (busy : db.mState ≠ .idle) :
      Acts db (.test thread) (db.setPlace thread (.testing oper (cnt + 1)))
  | giveUp {thread oper cnt} (before : db.places thread = .testing oper cnt) (most : oper.tries ≤ cnt) :
      Acts db (.unlock thread)
        {db.setPlace thread (oper.decided db.mState false) with mStateLock := none}
  | go {thread oper} (before : db.places thread = .got oper) :
      Acts db (.unlock thread)
        {db.setPlace thread (oper.decided db.mState true) with mStateLock := none}
  | done {thread oper succeed} (before : db.places thread = .inUse oper) :
      Acts db (.done thread succeed)
        {db.setPlace thread (.out (oper.result succeed)) with mState := .idle}

namespace DbMysql

variable {db after : DbMysql} {event : Event}

theorem step_acts (enabled : dbMysql.Enabled db event) : db.Acts event (dbMysql.next db event) := by
  obtain ⟨after,made⟩ := Option.isSome_iff_exists.mp enabled
  rw [show dbMysql.next db event = after from congrArg (Option.getD · db) made]
  cases event with
  | call thread oper =>
    rw [step,call] at made
    split at made
    · rename_i before
      split_ifs at made with own
      obtain rfl := Option.some.inj made
      exact .call before
    · cases made
  | lock thread =>
    rw [step,lock] at made
    split at made
    · rename_i before free
      obtain rfl := Option.some.inj made
      exact .lock before free
    · cases made
  | test thread =>
    rw [step,test] at made
    split at made
    · rename_i before
      split_ifs at made with more free <;> obtain rfl := Option.some.inj made
      · exact .take before free
      · exact .retry before free
    · cases made
  | unlock thread =>
    rw [step,unlock] at made
    split at made
    · rename_i before
      split_ifs at made with more
      obtain rfl := Option.some.inj made
      exact .giveUp before (not_lt.mp more)
    · rename_i before
      obtain rfl := Option.some.inj made
      exact .go before
    · cases made
  | done thread succeed =>
    rw [step,done] at made
    split at made
    · rename_i before
      obtain rfl := Option.some.inj made
      exact .done before
    · cases made

/-- The lock is with the thread that tests or decides, and what the state says is owned by one
thread. -/
structure Guarded (db : DbMysql) : Prop where
  lock : ∀ thread, (db.places thread).locks ↔ db.mStateLock = some thread
  mark : Marked .idle db.mState fun thread => (db.places thread).owns

theorem setPlace_owns (db : DbMysql) (thread : Nat) (place : Place) :
    (fun other => ((db.setPlace thread place).places other).owns) =
      Function.update (fun other => (db.places other).owns) thread place.owns := by
  funext other
  rcases eq_or_ne other thread with rfl | apart
  · simp [setPlace]
  · simp [setPlace,apart]

theorem setPlace_self (db : DbMysql) (thread : Nat) (place : Place) :
    (db.setPlace thread place).places thread = place := Function.update_self ..

theorem setPlace_other {thread other : Nat} (apart : other ≠ thread) (place : Place) :
    (db.setPlace thread place).places other = db.places other := Function.update_of_ne apart _ _

section Lock

variable {thread : Nat} {place : Place}

theorem lock_stays (guarded : db.Guarded) (same : place.locks = (db.places thread).locks) (other : Nat) :
    ((db.setPlace thread place).places other).locks ↔ db.mStateLock = some other := by
  rcases eq_or_ne other thread with rfl | apart
  · rw [setPlace_self,same]
    exact guarded.lock other
  · rw [setPlace_other apart]
    exact guarded.lock other

theorem lock_taken (guarded : db.Guarded) (free : db.mStateLock = none) (locks : place.locks) (other : Nat) :
    ((db.setPlace thread place).places other).locks ↔ some thread = some other := by
  rcases eq_or_ne other thread with rfl | apart
  · rw [setPlace_self]
    exact iff_of_true locks rfl
  · rw [setPlace_other apart,guarded.lock other,free]
    exact iff_of_false (by rintro ⟨⟩) fun same => apart (Option.some.inj same).symm

theorem lock_left (guarded : db.Guarded) (locked : (db.places thread).locks) (left : place.locks = false)
    (other : Nat) : ((db.setPlace thread place).places other).locks ↔ none = some other := by
  rcases eq_or_ne other thread with rfl | apart
  · rw [setPlace_self,left]
    exact iff_of_false (by rintro ⟨⟩) (by rintro ⟨⟩)
  · rw [setPlace_other apart,guarded.lock other,(guarded.lock thread).mp locked]
    exact iff_of_false (fun same => apart (Option.some.inj same).symm) (by rintro ⟨⟩)

theorem mark_stays (guarded : db.Guarded) (same : place.owns = (db.places thread).owns) :
    Marked .idle db.mState fun other => ((db.setPlace thread place).places other).owns := by
  rw [setPlace_owns,same,Function.update_eq_self thread fun other => (db.places other).owns]
  exact guarded.mark

end Lock

theorem inUse_owns {thread : Nat} {oper : Oper} (place : db.places thread = .inUse oper) :
    (db.places thread).owns = some oper.state := by
  rw [place]
  rfl

theorem using_of_busy (guarded : db.Guarded) {thread cnt : Nat} {oper : Oper}
    (before : db.places thread = .testing oper cnt) (busy : db.mState ≠ .idle) :
    ∃ other oper', db.places other = .inUse oper' ∧ oper'.state = db.mState := by
  obtain ⟨other,owns⟩ := guarded.mark.somebody busy
  have holds : db.mStateLock = some thread := (guarded.lock thread).mp (by rw [before]; rfl)
  cases place : db.places other with
  | inUse oper' =>
    rw [place] at owns
    exact ⟨other,oper',place,Option.some.inj owns⟩
  | got oper' =>
    have locks := (guarded.lock other).mp (by rw [place]; rfl)
    rw [holds] at locks
    obtain rfl := Option.some.inj locks
    rw [before] at place
    cases place
  | _ =>
    rw [place] at owns
    cases owns

theorem decided_alone (guarded : db.Guarded) {thread cnt : Nat} {oper : Oper}
    (before : db.places thread = .testing oper cnt) (alone : db.noneAlike (.unlock thread)) :
    (oper.decided db.mState false).owns = none := by
  by_cases other : oper = .delete
  · rw [other]
    rfl
  · rw [Oper.decided_own other]
    split_ifs with same
    · obtain ⟨party,oper',place,own⟩ := using_of_busy guarded before (same ▸ oper.state_busy)
      exact absurd (own.trans same) (alone oper cnt before other party oper' place)
    · rfl

theorem guarded_next (guarded : db.Guarded) (enabled : dbMysql.Enabled db event) (alone : db.noneAlike event) :
    (dbMysql.next db event).Guarded := by
  have acts := step_acts enabled
  revert acts
  generalize dbMysql.next db event = after
  intro acts
  cases acts with
  | @call thread oper _ before =>
    refine ⟨lock_stays guarded ?_,mark_stays guarded ?_⟩
    · rw [before,oper.enter_outside.2]
      rfl
    · rw [before,oper.enter_outside.1]
      rfl
  | lock before free =>
    refine ⟨lock_taken guarded free rfl,mark_stays guarded ?_⟩
    rw [before]
    rfl
  | @take thread oper cnt before free =>
    refine ⟨lock_stays guarded (by rw [before]; rfl),?_⟩
    rw [setPlace_owns]
    exact (free ▸ guarded.mark).take oper.state_busy thread
  | retry before =>
    exact ⟨lock_stays guarded (by rw [before]; rfl),mark_stays guarded (by rw [before]; rfl)⟩
  | @giveUp thread oper cnt before =>
    refine ⟨lock_left guarded (by rw [before]; rfl) (oper.decided_locks _ _),mark_stays guarded ?_⟩
    rw [before,decided_alone guarded before alone]
    rfl
  | @go thread oper before =>
    have owns : (db.places thread).owns = some oper.state := by rw [before]; rfl
    refine ⟨lock_left guarded (by rw [before]; rfl) (oper.decided_locks _ _),mark_stays guarded ?_⟩
    rw [(guarded.mark.holder owns).1,oper.decided_got,owns]
    rfl
  | @done thread oper succeed before =>
    refine ⟨lock_stays guarded (by rw [before]; rfl),?_⟩
    rw [setPlace_owns]
    exact guarded.mark.release (inUse_owns before)

theorem Guarded.exclusive (guarded : db.Guarded) : db.Exclusive where
  one thread other oper oper' place place' :=
    guarded.mark.unique (inUse_owns place) (inUse_owns place')
  idle idle thread oper place := by
    have none := (idle ▸ guarded.mark).nobody thread
    rw [place] at none
    cases none

/-- A call that finds the state of its own kind after the last test goes on beside its owner. -/
theorem exclusive_alone (guarded : db.Guarded) (enabled : dbMysql.Enabled db event)
    (exclusive : (dbMysql.next db event).Exclusive) : db.noneAlike event := by
  cases event with
  | unlock thread =>
    intro oper cnt before other party oper' place same
    have own := guarded.mark.holder (inUse_owns place)
    have apart : party ≠ thread := by
      rintro rfl
      rw [before] at place
      cases place
    have decided : oper.decided db.mState false = .inUse oper := by
      rw [Oper.decided_own other,own.1,if_pos same]
    have acts := step_acts enabled
    revert acts exclusive
    generalize dbMysql.next db (.unlock thread) = after
    intro exclusive acts
    cases acts with
    | giveUp before' =>
      obtain ⟨rfl,_⟩ := Place.testing.inj (before.symm.trans before')
      have goes := (setPlace_self db thread _).trans decided
      have stays := (setPlace_other apart (oper.decided db.mState false)).trans place
      exact apart (exclusive.one thread party oper oper' goes stays)
    | go before' =>
      rw [before] at before'
      cases before'
  | _ => trivial

end DbMysql

theorem started_guarded : started.Guarded :=
  ⟨fun _ => iff_of_false (by rintro ⟨⟩) (by rintro ⟨⟩),Or.inl ⟨rfl,fun _ => rfl⟩⟩

/-- However the threads take turns, the connection is used by one at a time exactly when no query
and no insertion has run out of tests beside another one of its kind. -/
theorem database_exclusive_iff {events : List Event} (follows : dbMysql.Follows anyEvent started events) :
    (∀ front, front <+: events → (front.foldl dbMysql.next started).Exclusive) ↔
      dbMysql.Follows DbMysql.noneAlike started events :=
  follows_iff_kept (I := DbMysql.Guarded) DbMysql.guarded_next DbMysql.exclusive_alone
    DbMysql.Guarded.exclusive started_guarded follows

def begun (thread : Nat) (oper : Oper) : List Event :=
  [.call thread oper,.lock thread,.test thread,.unlock thread]

/-- A second query waits for as long as it may while the first one runs. -/
def twoQueries : List Event :=
  begun 1 .query ++ [.call 2 .query,.lock 2,.test 2,.test 2,.test 2,.unlock 2]

theorem database_exclusive_query : ((begun 1 .query).foldl dbMysql.next started).Exclusive := by
  have alone : dbMysql.Follows DbMysql.noneAlike started (begun 1 .query) :=
    ⟨⟨rfl,trivial⟩,⟨rfl,trivial⟩,⟨rfl,trivial⟩,⟨rfl,(by rintro _ _ ⟨⟩)⟩,trivial⟩
  exact (database_exclusive_iff (by decide)).mpr alone _ List.prefix_rfl

theorem connection_shared : dbMysql.Follows anyEvent started twoQueries ∧
    (twoQueries.foldl dbMysql.next started).places 1 = .inUse .query ∧
    (twoQueries.foldl dbMysql.next started).places 2 = .inUse .query ∧
    ¬ (twoQueries.foldl dbMysql.next started).Exclusive := by
  have first : (twoQueries.foldl dbMysql.next started).places 1 = .inUse .query := by decide
  have second : (twoQueries.foldl dbMysql.next started).places 2 = .inUse .query := by decide
  refine ⟨by decide,first,second,fun exclusive => ?_⟩
  exact absurd (exclusive.one 1 2 _ _ first second) (by decide)

end MoCodes.MoFaceRec.Db
