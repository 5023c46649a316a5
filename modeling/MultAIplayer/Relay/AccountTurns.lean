import MultAIplayer.Lib.InsertionMap
import MultAIplayer.Lib.Machine
import MultAIplayer.Lib.WaitingLines
import Mathlib.Algebra.GroupWithZero.Nat
import Mathlib.Algebra.Ring.Nat

/-!
# Account turns

Three kinds of promise chains serialize what the relay does between its awaits: the mutation turns
of each account, the account-quota transaction, and the publish queue of each room.

A task acquires the turns of its accounts one after the other in their `localeCompare` order, may
then enter the quota transaction or the publish queue of a room, and gives everything back. Between
these points it awaits storage only, which settles by itself and is no step here.

## Reduction to waiting lines

The tail promises refine the waiting lines of `WaitingLines`: the unreleased turns of a chain are
the line, and the turn that `await previous` waits for is settled exactly at the head of the line.
-/

namespace MultAIplayer

open WaitingLines (Event)

/-! ### Promise chains -/

/-- What a promise chain serializes: the mutations of an account, the account-quota transaction, or
the publishing into a room. -/
inductive TurnKey where
  | account (userId : String)
  | quota
  | room (roomKey : String)
  deriving DecidableEq

/-- A tail promise: `Promise.resolve()`, or `previous.then(() => turn)` for the promise of one
turn. -/
inductive TurnTail where
  | resolved
  | after (previous : TurnTail) (turn : ℕ)
  deriving DecidableEq

/-- Whether a tail is settled, given which turns have been released. -/
def TurnTail.settled (released : List ℕ) : TurnTail → Bool
  | resolved => true
  | after previous turn => previous.settled released && released.contains turn

/-- What an acquisition keeps for its `await` and in its release function. -/
structure Acquisition where
  key : TurnKey
  previous : TurnTail
  turn : ℕ
  deriving DecidableEq

def Acquisition.tail (a : Acquisition) : TurnTail := .after a.previous a.turn

/-- The last tail of each chain, the released turns, and the number of turns so far. A map of tails
that becomes empty is dropped and made anew, which nobody can tell from the empty map. -/
structure TurnTails where
  tails : InsertionMap TurnKey TurnTail := .empty
  released : List ℕ := []
  nextTurn : ℕ := 0

namespace TurnTails

/-- The tail that the next acquisition awaits. -/
def last (t : TurnTails) (key : TurnKey) : TurnTail := (t.tails.get key).getD .resolved

/-- The part of an acquisition before its `await previous`. -/
def acquire (t : TurnTails) (key : TurnKey) : TurnTails × Acquisition :=
  let a : Acquisition := { key, previous := t.last key, turn := t.nextTurn }
  ({ t with tails := t.tails.set key a.tail, nextTurn := t.nextTurn + 1 }, a)

def acquireAccountMutationTurn (t : TurnTails) (userId : String) : TurnTails × Acquisition :=
  t.acquire (.account userId)

def acquireDurableQuotaTransaction (t : TurnTails) : TurnTails × Acquisition := t.acquire .quota

def publishMlsMessage (t : TurnTails) (roomKey : String) : TurnTails × Acquisition :=
  t.acquire (.room roomKey)

/-- The release function of an acquisition. -/
def release (t : TurnTails) (a : Acquisition) : TurnTails :=
  { t with
    released := a.turn :: t.released
    tails := if t.tails.get a.key = some a.tail then t.tails.delete a.key else t.tails }

end TurnTails

/-! ### Tasks -/

/-- What a task may enter while it holds its account turns. -/
inductive InnerQueue where
  | quota
  | room (roomKey : String)
  deriving DecidableEq

def InnerQueue.key : InnerQueue → TurnKey
  | quota => .quota
  | room roomKey => .room roomKey

def TurnKey.isAccount : TurnKey → Bool
  | account _ => true
  | _ => false

/-- What a task has still to acquire, what it awaits, and what it holds, latest first. -/
structure TurnTask where
  wanted : List TurnKey := []
  awaiting : Option Acquisition := none
  held : List Acquisition := []
  deriving DecidableEq

/-- The order in which several turns are acquired: each account once, in `localeCompare` order. -/
def orderedUserIds (localeCompare : String → String → Ordering) (userIds : List String) :
    List String :=
  userIds.eraseDups.mergeSort fun left right ↦ (localeCompare left right).isLE

/-- A task that acquires the turns of some accounts and then one more queue. -/
def acquireAccountMutationTurns (localeCompare : String → String → Ordering)
    (userIds : List String) (inner : Option InnerQueue) : TurnTask where
  wanted := (orderedUserIds localeCompare userIds).map .account ++ (inner.map InnerQueue.key).toList

/-- The promise chains and the tasks of a relay process. -/
structure AccountTurns where
  turns : TurnTails := {}
  tasks : List TurnTask := []

/-- What can happen next: a task begins, or a task goes on. -/
inductive TurnOp where
  | start (userIds : List String) (inner : Option InnerQueue)
  /-- The next turn is asked for. -/
  | request (task : ℕ)
  /-- `await previous` is over. -/
  | granted (task : ℕ)
  /-- The request is no longer authorized and does not enter its inner queue. -/
  | refuse (task : ℕ)
  /-- The inner queue is left. -/
  | leave (task : ℕ)
  /-- The account turns are released, the last one first. -/
  | finish (task : ℕ)
  deriving DecidableEq

/-- The task that a step is about, unless the step begins a new one. -/
def TurnOp.task : TurnOp → Option ℕ
  | start _ _ => none
  | request i | granted i | refuse i | leave i | finish i => some i

namespace AccountTurns

variable (localeCompare : String → String → Ordering)

def setTask (s : AccountTurns) (i : ℕ) (task : TurnTask) : AccountTurns :=
  { s with tasks := s.tasks.set i task }

/-- One step, where it is possible. -/
def attempt (s : AccountTurns) : TurnOp → Option (AccountTurns × List (Event TurnKey))
  | .start userIds inner =>
    some ({ s with
      tasks := s.tasks ++ [acquireAccountMutationTurns localeCompare userIds inner] }, [])
  | .request i =>
    match s.tasks[i]? with
    | some ⟨key :: wanted, none, held⟩ =>
      let (turns, a) := s.turns.acquire key
      some ({ s with turns }.setTask i ⟨wanted, some a, held⟩, [.asked key i])
    | _ => none
  | .granted i =>
    match s.tasks[i]? with
    | some ⟨wanted, some a, held⟩ =>
      if a.previous.settled s.turns.released then
        some (s.setTask i ⟨wanted, none, a :: held⟩, [.granted a.key i])
      else none
    | _ => none
  | .refuse i =>
    match s.tasks[i]? with
    | some ⟨[key], none, held⟩ =>
      if key.isAccount then none else some (s.setTask i ⟨[], none, held⟩, [])
    | _ => none
  | .leave i =>
    match s.tasks[i]? with
    | some ⟨[], none, a :: held⟩ =>
      if a.key.isAccount then none
      else some ({ s with turns := s.turns.release a }.setTask i ⟨[], none, held⟩, [])
    | _ => none
  | .finish i =>
    match s.tasks[i]? with
    | some ⟨[], none, a :: held⟩ =>
      if a.key.isAccount then
        some ({ s with turns := (a :: held).foldl TurnTails.release s.turns }.setTask i {}, [])
      else none
    | _ => none

/-- A step that is not possible changes nothing. -/
@[grind =] def step (s : AccountTurns) (op : TurnOp) : AccountTurns × List (Event TurnKey) :=
  (s.attempt localeCompare op).getD (s, [])

/-- A task holds the turn of an account. -/
def Holds (s : AccountTurns) (i : ℕ) (userId : String) : Prop :=
  ∃ task, s.tasks[i]? = some task ∧ ∃ a ∈ task.held, a.key = .account userId

/-- A task has something left to do. -/
def Unfinished (s : AccountTurns) (i : ℕ) : Prop := ∃ task, s.tasks[i]? = some task ∧ task ≠ {}

/-- How many steps the tasks can take at most before they have all finished. -/
def remaining (s : AccountTurns) : ℕ := (s.tasks.map fun task ↦
  3 * task.wanted.length + 2 * task.awaiting.toList.length + task.held.length).sum

end AccountTurns

/-! ### The order of the chains -/

/-- The order in which every task acquires: accounts in `localeCompare` order, then the quota
transaction or a publish queue. -/
def TurnKey.Before (localeCompare : String → String → Ordering) : TurnKey → TurnKey → Prop
  | account left, account right => localeCompare left right = .lt
  | account _, _ => True
  | _, _ => False

section Order

variable (localeCompare : String → String → Ordering) [Std.TransCmp localeCompare]

instance : IsStrictOrder TurnKey (TurnKey.Before localeCompare) where
  irrefl a := by
    cases a with
    | account userId =>
      have hself : localeCompare userId userId = .eq := Std.ReflCmp.compare_self
      intro h
      rw [TurnKey.Before, hself] at h
      cases h
    | quota => exact id
    | room roomKey => exact id
  trans a b c hab hbc := by
    cases a <;> cases b <;> cases c <;> try trivial
    exact Std.TransCmp.lt_trans hab hbc

theorem nodup_eraseDups : (l : List String) → l.eraseDups.Nodup
  | [] => List.nodup_nil
  | a :: l => by
    rw [List.eraseDups_cons, List.nodup_cons]
    refine ⟨fun ha ↦ ?_, nodup_eraseDups _⟩
    rw [List.mem_eraseDups, List.mem_filter] at ha
    simp at ha
  termination_by l => l.length
  decreasing_by
    exact Nat.lt_succ_of_le (List.length_filter_le _ _)

/-- No account is acquired twice, and the next one is always later. -/
theorem orderedUserIds_pairwise [Std.LawfulEqCmp localeCompare] (userIds : List String) :
    (orderedUserIds localeCompare userIds).Pairwise fun left right ↦
      localeCompare left right = .lt := by
  have hle : (orderedUserIds localeCompare userIds).Pairwise fun left right ↦
      (localeCompare left right).isLE = true :=
    List.pairwise_mergeSort (fun _ _ _ ↦ Std.TransCmp.isLE_trans)
      (fun left right ↦ by
        have hswap : localeCompare right left = (localeCompare left right).swap :=
          Std.OrientedCmp.eq_swap
        rw [hswap]
        cases localeCompare left right <;> rfl) _
  have hnodup : (orderedUserIds localeCompare userIds).Nodup :=
    (List.mergeSort_perm _ _).nodup_iff.mpr (nodup_eraseDups userIds)
  refine (hle.and hnodup).imp fun {left right} ⟨hle, hne⟩ ↦ ?_
  cases hcompare : localeCompare left right with
  | lt => rfl
  | eq => exact absurd (Std.LawfulEqCmp.eq_of_compare hcompare) hne
  | gt => rw [hcompare] at hle; cases hle

/-- Every task acquires in the order of the chains. -/
theorem wanted_pairwise [Std.LawfulEqCmp localeCompare] (userIds : List String)
    (inner : Option InnerQueue) :
    (acquireAccountMutationTurns localeCompare userIds inner).wanted.Pairwise
      (TurnKey.Before localeCompare) := by
  refine List.pairwise_append.mpr
    ⟨(List.pairwise_map).mpr (orderedUserIds_pairwise localeCompare userIds), ?_, ?_⟩
  · cases inner with
    | none => exact List.Pairwise.nil
    | some inner => exact List.pairwise_singleton _ _
  · intro a ha b hb
    obtain ⟨userId, -, rfl⟩ := List.mem_map.mp ha
    rw [Option.mem_toList, Option.map_eq_some_iff] at hb
    obtain ⟨inner, -, rfl⟩ := hb
    cases inner <;> trivial

end Order

/-! ### The line of a chain -/

theorem TurnTail.settled_mono {released released' : List ℕ} (h : released ⊆ released') :
    {t : TurnTail} → t.settled released = true → t.settled released' = true
  | .resolved, _ => rfl
  | .after previous turn, ht => by
    rw [settled, Bool.and_eq_true, List.contains_iff_mem] at ht ⊢
    exact ⟨settled_mono h ht.1, h ht.2⟩

/-- Acquisitions made one behind the other, from a first tail to the last one. -/
def Chained (first : TurnTail) : List Acquisition → TurnTail → Prop
  | [], last => last = first
  | a :: as, last => a.previous = first ∧ Chained a.tail as last

theorem chained_append {first last : TurnTail} {as : List Acquisition} (h : Chained first as last)
    {a : Acquisition} (ha : a.previous = last) : Chained first (as ++ [a]) a.tail := by
  induction as generalizing first with
  | nil => exact ⟨ha.trans h, rfl⟩
  | cons b as ih => exact ⟨h.1, ih h.2⟩

/-- Where a chain ends in the tail of an acquisition that is not on it, the chain is empty. -/
theorem Chained.eq_nil {first : TurnTail} {as : List Acquisition} {a : Acquisition}
    (h : Chained first as a.tail) (ha : ∀ b ∈ as, b.turn ≠ a.turn) : as = [] ∧ a.tail = first := by
  induction as generalizing first with
  | nil => exact ⟨rfl, h⟩
  | cons b as ih =>
    obtain ⟨-, htail⟩ := ih h.2 fun c hc ↦ ha c (List.mem_cons_of_mem b hc)
    rw [Acquisition.tail, Acquisition.tail, TurnTail.after.injEq] at htail
    exact absurd htail.2.symm (ha b List.mem_cons_self)

theorem Chained.not_settled {released : List ℕ} {first last : TurnTail} {as : List Acquisition}
    (h : Chained first as last) (hfirst : first.settled released = false) {a : Acquisition}
    (ha : a ∈ as) : a.previous.settled released = false := by
  induction as generalizing first with
  | nil => cases ha
  | cons b as ih =>
    rcases List.mem_cons.mp ha with rfl | ha
    · rw [h.1, hfirst]
    · refine ih h.2 ?_ ha
      rw [Acquisition.tail, TurnTail.settled, h.1, hfirst, Bool.false_and]

/-- What an unreleased chain awaits is settled at its head only. -/
theorem Chained.head_of_settled {released : List ℕ} {first last : TurnTail}
    {as : List Acquisition} (h : Chained first as last) (hfresh : ∀ b ∈ as, b.turn ∉ released)
    {a : Acquisition} (ha : a ∈ as) (hsettled : a.previous.settled released = true) :
    as.head? = some a := by
  obtain ⟨b, as, rfl⟩ := List.exists_cons_of_ne_nil (List.ne_nil_of_mem ha)
  rcases List.mem_cons.mp ha with rfl | ha
  · rfl
  · have hb : b.tail.settled released = false := by
      rw [Acquisition.tail, TurnTail.settled, Bool.and_eq_false_iff]
      exact .inr (by simpa using hfresh b List.mem_cons_self)
    rw [h.2.not_settled hb ha] at hsettled
    cases hsettled

/-! ### Refinement -/

def TurnTask.process (task : TurnTask) : WaitingLines.Process TurnKey :=
  ⟨task.wanted, task.awaiting.map Acquisition.key, task.held.map Acquisition.key⟩

/-- An acquisition that a task awaits or holds. -/
@[grind =] def TurnTask.Has (task : TurnTask) (a : Acquisition) : Prop :=
  a ∈ task.held ∨ task.awaiting = some a

namespace AccountTurns

def process (c : AccountTurns) (i : ℕ) : WaitingLines.Process TurnKey :=
  ((c.tasks[i]?).map TurnTask.process).getD {}

@[grind =] def Has (c : AccountTurns) (i : ℕ) (a : Acquisition) : Prop :=
  ∃ task, c.tasks[i]? = some task ∧ task.Has a

/-- The promise chains are waiting lines, with the acquisition of each process in its line. -/
structure Refines (c : AccountTurns) (s : WaitingLines.System TurnKey)
    (queue : TurnKey → List (ℕ × Acquisition)) : Prop where
  process : ∀ i, s.process i = c.process i
  line : ∀ key, (queue key).map Prod.fst = s.line key
  mem_queue : ∀ key i a, (i, a) ∈ queue key ↔ a.key = key ∧ c.Has i a
  /-- A chain consists of a settled tail and the unreleased acquisitions behind it. -/
  chained : ∀ key, ∃ first : TurnTail, first.settled c.turns.released = true ∧
    Chained first ((queue key).map Prod.snd) (c.turns.last key)
  fresh : ∀ i a, c.Has i a → a.turn < c.turns.nextTurn ∧ a.turn ∉ c.turns.released
  released_lt : ∀ turn ∈ c.turns.released, turn < c.turns.nextTurn
  /-- Every acquisition has a turn of its own. -/
  distinct : ∀ i a j b, c.Has i a → c.Has j b → a.turn = b.turn → i = j ∧ a = b

section SetTask

variable {c : AccountTurns} {i : ℕ} {old task : TurnTask} (hold : c.tasks[i]? = some old)
include hold

theorem getElem?_setTask (j : ℕ) :
    (c.setTask i task).tasks[j]? = if j = i then some task else c.tasks[j]? := by
  obtain ⟨hlt, -⟩ := List.getElem?_eq_some_iff.mp hold
  rw [setTask, List.getElem?_set]
  by_cases hji : j = i
  · rw [if_pos hji.symm, if_pos hlt, if_pos hji]
  · rw [if_neg (Ne.symm hji), if_neg hji]

theorem process_setTask (j : ℕ) :
    (c.setTask i task).process j = if j = i then task.process else c.process j := by
  rw [process, getElem?_setTask hold]
  by_cases hji : j = i
  · rw [if_pos hji, if_pos hji]
    rfl
  · rw [if_neg hji, if_neg hji]
    rfl

theorem has_setTask (j : ℕ) (a : Acquisition) :
    (c.setTask i task).Has j a ↔ if j = i then task.Has a else c.Has j a := by
  rw [Has, getElem?_setTask hold]
  by_cases hji : j = i
  · simp [hji]
  · rw [if_neg hji, if_neg hji]
    rfl

theorem has_iff (a : Acquisition) : c.Has i a ↔ old.Has a := by
  simp [Has, hold]

theorem process_eq : c.process i = old.process := by
  rw [process, hold]
  rfl

end SetTask

variable {c : AccountTurns} {s : WaitingLines.System TurnKey}
  {queue : TurnKey → List (ℕ × Acquisition)}

/-- A task that awaits and holds the same as before moves nobody else. -/
theorem Refines.setTask (h : c.Refines s queue) {i : ℕ} {old task : TurnTask}
    (hold : c.tasks[i]? = some old) (hsame : ∀ a, task.Has a ↔ old.Has a) :
    (c.setTask i task).Refines (s.setProcess i task.process) queue := by
  have hhas : ∀ j a, (c.setTask i task).Has j a ↔ c.Has j a := by
    intro j a
    rw [has_setTask hold]
    by_cases hji : j = i
    · rw [if_pos hji, hji, has_iff hold, hsame]
    · rw [if_neg hji]
  exact {
    process := fun j ↦ by
      rw [process_setTask hold, WaitingLines.System.process_setProcess, h.process]
    line := h.line
    mem_queue := fun key j a ↦ by rw [h.mem_queue, hhas]
    chained := h.chained
    fresh := fun j a ha ↦ h.fresh j a ((hhas j a).mp ha)
    released_lt := h.released_lt
    distinct := fun j a k b ha hb ↦ h.distinct j a k b ((hhas j a).mp ha) ((hhas k b).mp hb) }

/-- A new task stands in no line. -/
theorem Refines.start (h : c.Refines s queue) (wanted : List TurnKey) :
    s.process c.tasks.length = {} ∧
      Refines { c with tasks := c.tasks ++ [{ wanted }] }
        (s.setProcess c.tasks.length { wanted }) queue := by
  have hget : ∀ j, (c.tasks ++ [({ wanted } : TurnTask)])[j]? =
      if j = c.tasks.length then some { wanted } else c.tasks[j]? := by
    intro j
    rw [List.getElem?_append]
    by_cases hji : j = c.tasks.length
    · simp [hji]
    · rcases lt_or_gt_of_ne hji with hlt | hgt
      · rw [if_pos hlt, if_neg hji]
      · rw [if_neg (by omega), if_neg hji, List.getElem?_eq_none (by simp; omega),
          List.getElem?_eq_none (by omega)]
  have hhas : ∀ j a, Has { c with tasks := c.tasks ++ [{ wanted }] } j a ↔ c.Has j a := by
    intro j a
    rw [Has, Has]
    simp only [hget]
    by_cases hji : j = c.tasks.length
    · simp [hji, TurnTask.Has]
    · rw [if_neg hji]
  have hidle : c.process c.tasks.length = {} := by
    rw [AccountTurns.process, List.getElem?_eq_none (le_refl _)]
    rfl
  refine ⟨(h.process _).trans hidle, {
    process := fun j ↦ ?_
    line := h.line
    mem_queue := fun key j a ↦ by rw [h.mem_queue, hhas]
    chained := h.chained
    fresh := fun j a ha ↦ h.fresh j a ((hhas j a).mp ha)
    released_lt := h.released_lt
    distinct := fun j a k b ha hb ↦ h.distinct j a k b ((hhas j a).mp ha) ((hhas k b).mp hb) }⟩
  rw [WaitingLines.System.process_setProcess, h.process]
  change _ = (((c.tasks ++ [({ wanted } : TurnTask)])[j]?).map TurnTask.process).getD {}
  rw [hget]
  by_cases hji : j = c.tasks.length
  · rw [if_pos hji, if_pos hji]
    rfl
  · rw [if_neg hji, if_neg hji]
    rfl

theorem last_acquire (t : TurnTails) (key k : TurnKey) :
    (t.acquire key).1.last k = if k = key then (t.acquire key).2.tail else t.last k := by
  rw [TurnTails.last, TurnTails.acquire]
  dsimp only
  rw [InsertionMap.get_set]
  by_cases hk : k = key
  · rw [if_pos hk, if_pos hk]
    rfl
  · rw [if_neg hk, if_neg hk]
    rfl

/-- A request is the new end of its chain and of its line. -/
theorem Refines.request (h : c.Refines s queue) {i : ℕ} {key : TurnKey} {wanted : List TurnKey}
    {held : List Acquisition} (hold : c.tasks[i]? = some ⟨key :: wanted, none, held⟩) :
    ({ c with turns := (c.turns.acquire key).1 }.setTask i
        ⟨wanted, some (c.turns.acquire key).2, held⟩).Refines
      ((s.setProcess i ⟨wanted, some key, held.map Acquisition.key⟩).setLine key
        (s.line key ++ [i]))
      fun k ↦ if k = key then queue key ++ [(i, (c.turns.acquire key).2)] else queue k := by
  set a := (c.turns.acquire key).2 with ha
  set c' : AccountTurns := { c with turns := (c.turns.acquire key).1 } with hc'
  have hold' : c'.tasks[i]? = some ⟨key :: wanted, none, held⟩ := hold
  have hhas : ∀ j b, (c'.setTask i ⟨wanted, some a, held⟩).Has j b ↔
      c.Has j b ∨ (j = i ∧ b = a) := by
    intro j b
    rw [has_setTask hold']
    by_cases hji : j = i
    · rw [if_pos hji, hji, has_iff hold]
      simp [TurnTask.Has, eq_comm]
    · rw [if_neg hji]
      simp only [hji, false_and, or_false]
      rfl
  have hlt : ∀ j b, c.Has j b → b.turn ≠ a.turn := fun j b hb ↦ (h.fresh j b hb).1.ne
  refine {
    process := fun j ↦ ?_
    line := fun k ↦ ?_
    mem_queue := fun k j b ↦ ?_
    chained := fun k ↦ ?_
    fresh := fun j b hb ↦ ?_
    released_lt := fun turn hturn ↦ Nat.lt_succ_of_lt (h.released_lt turn hturn)
    distinct := fun j b k d hb hd hturn ↦ ?_ }
  · rw [process_setTask hold', WaitingLines.System.process_setLine,
      WaitingLines.System.process_setProcess, h.process]
    rfl
  · rw [WaitingLines.System.line_setLine, WaitingLines.System.line_setProcess]
    by_cases hk : k = key
    · rw [if_pos hk, if_pos hk, List.map_append, h.line]
      rfl
    · rw [if_neg hk, if_neg hk, h.line]
  · rw [hhas]
    by_cases hk : k = key
    · rw [if_pos hk, List.mem_append, h.mem_queue, List.mem_singleton, Prod.mk.injEq, hk]
      refine ⟨?_, ?_⟩
      · rintro (⟨hkey, hb⟩ | ⟨rfl, rfl⟩)
        · exact ⟨hkey, .inl hb⟩
        · exact ⟨rfl, .inr ⟨rfl, rfl⟩⟩
      · rintro ⟨hkey, hb | hb⟩
        · exact .inl ⟨hkey, hb⟩
        · exact .inr hb
    · rw [if_neg hk, h.mem_queue]
      refine ⟨fun ⟨hkey, hb⟩ ↦ ⟨hkey, .inl hb⟩, ?_⟩
      rintro ⟨hkey, hb | ⟨rfl, rfl⟩⟩
      · exact ⟨hkey, hb⟩
      · exact absurd hkey.symm hk
  · obtain ⟨first, hsettled, hchained⟩ := h.chained k
    refine ⟨first, hsettled, ?_⟩
    change Chained first _ ((c.turns.acquire key).1.last k)
    rw [last_acquire]
    by_cases hk : k = key
    · rw [if_pos hk, if_pos hk, List.map_append]
      have hprevious : a.previous = c.turns.last key := rfl
      rw [hk] at hchained
      exact chained_append hchained hprevious
    · rwa [if_neg hk, if_neg hk]
  · rcases (hhas j b).mp hb with hb | ⟨rfl, rfl⟩
    · exact ⟨Nat.lt_succ_of_lt (h.fresh j b hb).1, (h.fresh j b hb).2⟩
    · exact ⟨Nat.lt_succ_self _, fun hmem ↦ (h.released_lt _ hmem).ne rfl⟩
  · rcases (hhas j b).mp hb with hold | ⟨hj, hnew⟩ <;>
      rcases (hhas k d).mp hd with hold' | ⟨hk, hnew'⟩
    · exact h.distinct j b k d hold hold' hturn
    · exact absurd (hnew' ▸ hturn) (hlt j b hold)
    · exact absurd (hnew ▸ hturn.symm) (hlt k d hold')
    · exact ⟨hj.trans hk.symm, hnew.trans hnew'.symm⟩

variable {localeCompare : String → String → Ordering} {log : List (Event TurnKey)}

theorem Refines.has_of_mem (h : c.Refines s queue) {key : TurnKey} {b : Acquisition}
    (hb : b ∈ (queue key).map Prod.snd) : ∃ j, c.Has j b := by
  obtain ⟨⟨j, d⟩, hd, hdb⟩ := List.mem_map.mp hb
  obtain rfl : d = b := hdb
  exact ⟨j, ((h.mem_queue key j d).mp hd).2⟩

theorem Refines.head_of_settled (h : c.Refines s queue) {i : ℕ} {a : Acquisition}
    (ha : c.Has i a) (hsettled : a.previous.settled c.turns.released = true) :
    (queue a.key).head? = some (i, a) := by
  obtain ⟨first, hfirst, hchained⟩ := h.chained a.key
  have hmem : (i, a) ∈ queue a.key := (h.mem_queue a.key i a).mpr ⟨rfl, ha⟩
  have hhead := hchained.head_of_settled
    (fun b hb ↦ (h.has_of_mem hb).elim fun j hj ↦ (h.fresh j b hj).2) (List.mem_map_of_mem hmem)
    hsettled
  obtain ⟨⟨j, b⟩, rest, hqueue⟩ := List.exists_cons_of_ne_nil (List.ne_nil_of_mem hmem)
  rw [hqueue, List.map_cons, List.head?_cons, Option.some.injEq] at hhead
  obtain rfl : b = a := hhead
  have hj : c.Has j b := ((h.mem_queue b.key j b).mp (hqueue ▸ List.mem_cons_self)).2
  rw [hqueue, List.head?_cons, (h.distinct j b i b hj ha rfl).1]

/-- What the first of a line awaits is settled. -/
theorem Refines.settled_of_head (h : c.Refines s queue) {i : ℕ} {a : Acquisition}
    (hhead : (queue a.key).head? = some (i, a)) : a.previous.settled c.turns.released = true := by
  obtain ⟨first, hfirst, hchained⟩ := h.chained a.key
  obtain ⟨rest, hqueue⟩ := List.head?_eq_some_iff.mp hhead
  rw [hqueue, List.map_cons] at hchained
  rwa [hchained.1]

theorem last_release (t : TurnTails) (a : Acquisition) (k : TurnKey) :
    (t.release a).last k = if k = a.key ∧ t.tails.get a.key = some a.tail then .resolved
      else t.last k := by
  rw [TurnTails.last, TurnTails.release]
  dsimp only
  by_cases hlast : t.tails.get a.key = some a.tail
  · rw [if_pos hlast, InsertionMap.get_delete]
    by_cases hk : k = a.key
    · rw [if_pos hk, if_pos ⟨hk, hlast⟩]
      rfl
    · rw [if_neg hk, if_neg fun h ↦ hk h.1]
      rfl
  · rw [if_neg hlast, if_neg fun h ↦ hlast h.2]
    rfl

/-- The first of a line has one acquisition in it. -/
theorem Refines.queue_of_first (h : c.Refines s queue)
    (hs : WaitingLines.Sound (TurnKey.Before localeCompare) s log) {i : ℕ} {a : Acquisition}
    (ha : c.Has i a) (hfirst : (s.line a.key).head? = some i) :
    ∃ rest, queue a.key = (i, a) :: rest ∧ i ∉ rest.map Prod.fst := by
  have hmem : (i, a) ∈ queue a.key := (h.mem_queue _ i a).mpr ⟨rfl, ha⟩
  obtain ⟨⟨j, b⟩, rest, hqueue⟩ := List.exists_cons_of_ne_nil (List.ne_nil_of_mem hmem)
  have hline : s.line a.key = j :: rest.map Prod.fst := by rw [← h.line, hqueue, List.map_cons]
  obtain rfl : j = i := by
    rw [hline, List.head?_cons] at hfirst
    exact Option.some.inj hfirst
  have hnodup := hs.nodup a.key
  rw [hline, List.nodup_cons] at hnodup
  rw [hqueue] at hmem
  rcases List.mem_cons.mp hmem with heq | hrest
  · exact ⟨rest, by rw [hqueue, heq], hnodup.1⟩
  · exact absurd (List.mem_map_of_mem hrest) hnodup.1

/-- Who holds a turn is the first of its line. -/
theorem Refines.queue_of_held (h : c.Refines s queue)
    (hs : WaitingLines.Sound (TurnKey.Before localeCompare) s log) {i : ℕ} {task : TurnTask}
    (hold : c.tasks[i]? = some task) {a : Acquisition} (ha : a ∈ task.held) :
    ∃ rest, queue a.key = (i, a) :: rest ∧ i ∉ rest.map Prod.fst := by
  refine h.queue_of_first hs ((has_iff hold a).mpr (.inl ha)) (hs.first i a.key ?_)
  rw [h.process, process_eq hold]
  exact List.mem_map_of_mem ha

/-- Releasing a turn takes the first of its line out. -/
theorem Refines.release [Std.TransCmp localeCompare] (h : c.Refines s queue)
    (hs : WaitingLines.Sound (TurnKey.Before localeCompare) s log) {i : ℕ} {a : Acquisition}
    {wanted : List TurnKey} {held : List Acquisition}
    (hold : c.tasks[i]? = some ⟨wanted, none, a :: held⟩) :
    ({ c with turns := c.turns.release a }.setTask i ⟨wanted, none, held⟩).Refines
      ((s.setProcess i ⟨wanted, none, held.map Acquisition.key⟩).setLine a.key (s.line a.key).tail)
      fun k ↦ if k = a.key then (queue a.key).tail else queue k := by
  set c' : AccountTurns := { c with turns := c.turns.release a } with hc'
  have hold' : c'.tasks[i]? = some ⟨wanted, none, a :: held⟩ := hold
  obtain ⟨rest, hqueue, hrest⟩ := h.queue_of_held hs hold List.mem_cons_self
  have hnot : a ∉ held := by
    intro hmem
    have hordered := hs.ordered i
    rw [h.process, process_eq hold] at hordered
    have hlast : TurnKey.Before localeCompare a.key a.key := by
      simp only [TurnTask.process, WaitingLines.Process.resources, List.map_cons,
        List.reverse_cons] at hordered
      exact (List.pairwise_append.mp (List.pairwise_append.mp
        (List.pairwise_append.mp hordered).1).1).2.2 a.key
          (List.mem_reverse.mpr (List.mem_map_of_mem hmem)) a.key (List.mem_singleton_self _)
    exact irrefl a.key hlast
  have hhas : ∀ j b, (c'.setTask i ⟨wanted, none, held⟩).Has j b ↔
      c.Has j b ∧ ¬(j = i ∧ b = a) := by
    intro j b
    rw [has_setTask hold']
    by_cases hji : j = i
    · rw [if_pos hji, hji, has_iff hold]
      simp only [TurnTask.Has, List.mem_cons, reduceCtorEq, or_false, true_and]
      exact ⟨fun hb ↦ ⟨.inr hb, fun hba ↦ hnot (hba ▸ hb)⟩, fun ⟨hb, hne⟩ ↦ hb.resolve_left hne⟩
    · rw [if_neg hji]
      simp only [hji, false_and, not_false_iff, and_true]
      rfl
  have ha : c.Has i a := (has_iff hold a).mpr (.inl List.mem_cons_self)
  have hother : ∀ j b, c.Has j b → ¬(j = i ∧ b = a) → b.turn ≠ a.turn := fun j b hb hne hturn ↦
    hne (h.distinct j b i a hb ha hturn)
  refine {
    process := fun j ↦ ?_
    line := fun k ↦ ?_
    mem_queue := fun k j b ↦ ?_
    chained := fun k ↦ ?_
    fresh := fun j b hb ↦ ?_
    released_lt := fun turn hturn ↦ ?_
    distinct := fun j b k d hb hd ↦ h.distinct j b k d ((hhas j b).mp hb).1 ((hhas k d).mp hd).1 }
  · rw [process_setTask hold', WaitingLines.System.process_setLine,
      WaitingLines.System.process_setProcess, h.process]
    rfl
  · rw [WaitingLines.System.line_setLine, WaitingLines.System.line_setProcess]
    by_cases hk : k = a.key
    · rw [if_pos hk, if_pos hk, ← h.line, List.map_tail]
    · rw [if_neg hk, if_neg hk, h.line]
  · have hmem := h.mem_queue k j b
    rw [hhas]
    by_cases hk : k = a.key
    · rw [if_pos hk, hk, hqueue, List.tail_cons]
      rw [hk, hqueue, List.mem_cons, Prod.mk.injEq] at hmem
      refine ⟨fun hb ↦ ?_, fun ⟨hkey, hb, hne⟩ ↦ (hmem.mpr ⟨hkey, hb⟩).resolve_left hne⟩
      obtain ⟨hkey, hb'⟩ := hmem.mp (.inr hb)
      exact ⟨hkey, hb', fun hji ↦ hrest (hji.1 ▸ List.mem_map_of_mem hb)⟩
    · rw [if_neg hk, hmem]
      refine ⟨fun ⟨hkey, hb⟩ ↦ ⟨hkey, hb, fun hba ↦ hk ?_⟩, fun ⟨hkey, hb, _⟩ ↦ ⟨hkey, hb⟩⟩
      rw [← hkey, hba.2]
  · obtain ⟨first, hsettled, hchained⟩ := h.chained k
    have hmono : c.turns.released ⊆ (c.turns.release a).released := List.subset_cons_self _ _
    change ∃ first : TurnTail, first.settled (c.turns.release a).released = true ∧
      Chained first _ ((c.turns.release a).last k)
    rw [last_release]
    by_cases hk : k = a.key
    · rw [hk, hqueue, List.map_cons] at hchained
      have htail : a.tail.settled (c.turns.release a).released = true := by
        rw [Acquisition.tail, TurnTail.settled, hchained.1, TurnTail.settled_mono hmono hsettled]
        exact List.contains_iff_mem.mpr List.mem_cons_self
      rw [if_pos hk, hqueue, List.tail_cons]
      by_cases hlast : c.turns.tails.get a.key = some a.tail
      · have hend : c.turns.last a.key = a.tail := by rw [TurnTails.last, hlast, Option.getD_some]
        rw [hend] at hchained
        obtain ⟨hnil, -⟩ := hchained.2.eq_nil fun b hb ↦ by
          obtain ⟨⟨j, d⟩, hd, rfl⟩ := List.mem_map.mp hb
          refine hother j d ((h.mem_queue a.key j d).mp ?_).2 fun hji ↦
            hrest (hji.1 ▸ List.mem_map_of_mem hd)
          rw [hqueue]
          exact List.mem_cons_of_mem _ hd
        rw [if_pos ⟨hk, hlast⟩, hnil]
        exact ⟨.resolved, rfl, rfl⟩
      · rw [if_neg fun hboth ↦ hlast hboth.2, hk]
        exact ⟨a.tail, htail, hchained.2⟩
    · rw [if_neg hk, if_neg fun hboth ↦ hk hboth.1]
      exact ⟨first, TurnTail.settled_mono hmono hsettled, hchained⟩
  · obtain ⟨hb, hne⟩ := (hhas j b).mp hb
    refine ⟨(h.fresh j b hb).1, fun hmem ↦ ?_⟩
    rcases List.mem_cons.mp hmem with hturn | hmem
    · exact hother j b hb hne hturn
    · exact (h.fresh j b hb).2 hmem
  · rcases List.mem_cons.mp hturn with hturn | hturn
    · exact hturn ▸ (h.fresh i a ha).1
    · exact h.released_lt turn hturn

/-! ### Runs -/

variable (localeCompare) in
/-- What the tasks did so far is what processes in waiting lines can do. -/
def Follows (c : AccountTurns) (log : List (Event TurnKey)) : Prop :=
  ∃ s queue, WaitingLines.Reached (TurnKey.Before localeCompare) s log ∧ c.Refines s queue

theorem follows_initial : Follows localeCompare {} [] := by
  refine ⟨{}, fun _ ↦ [], .initial, {
    process := fun _ ↦ rfl
    line := fun _ ↦ rfl
    mem_queue := fun key i a ↦ ⟨fun ha ↦ (List.not_mem_nil ha).elim, fun ha ↦ ?_⟩
    chained := fun _ ↦ ⟨.resolved, rfl, rfl⟩
    fresh := fun i a ha ↦ ?_
    released_lt := fun _ hturn ↦ (List.not_mem_nil hturn).elim
    distinct := fun i a j b ha ↦ ?_ }⟩
  · obtain ⟨-, task, htask, -⟩ := ha
    cases htask
  · obtain ⟨task, htask, -⟩ := ha
    cases htask
  · obtain ⟨task, htask, -⟩ := ha
    cases htask

section Steps

variable [Std.TransCmp localeCompare]

theorem Follows.release (h : c.Follows localeCompare log) {i : ℕ} {a : Acquisition}
    {wanted : List TurnKey} {held : List Acquisition}
    (hold : c.tasks[i]? = some ⟨wanted, none, a :: held⟩) :
    ({ c with turns := c.turns.release a }.setTask i ⟨wanted, none, held⟩).Follows
      localeCompare log := by
  obtain ⟨s, queue, hreached, hrefines⟩ := h
  have hstep := hreached.step (.giveBack i a.key wanted (held.map Acquisition.key) (by
    rw [hrefines.process, process_eq hold]
    rfl))
  rw [List.append_nil] at hstep
  exact ⟨_, _, hstep, hrefines.release hreached.sound hold⟩

/-- The account turns are released one after the other. -/
theorem Follows.releaseAll {held : List Acquisition} {i : ℕ} (h : c.Follows localeCompare log)
    (hold : c.tasks[i]? = some ⟨[], none, held⟩) :
    ({ c with turns := held.foldl TurnTails.release c.turns }.setTask i {}).Follows
      localeCompare log := by
  induction held generalizing c with
  | nil =>
    have hself : c.setTask i {} = c := by
      obtain ⟨hlt, hget⟩ := List.getElem?_eq_some_iff.mp hold
      have hset : c.tasks.set i {} = c.tasks := by
        rw [← hget]
        exact List.set_getElem_self hlt
      rw [setTask, hset]
    rw [List.foldl_nil, hself]
    exact h
  | cons a held ih =>
    have hrest := ih (h.release hold) (by rw [getElem?_setTask (by exact hold), if_pos rfl])
    simpa [setTask] using hrest

theorem Follows.attempt [Std.LawfulEqCmp localeCompare] (h : c.Follows localeCompare log)
    {op : TurnOp} {c' : AccountTurns} {events : List (Event TurnKey)}
    (hop : c.attempt localeCompare op = some (c', events)) :
    c'.Follows localeCompare (log ++ events) := by
  cases op with
  | start userIds inner =>
    cases hop
    obtain ⟨s, queue, hreached, hrefines⟩ := h
    obtain ⟨hidle, hstart⟩ :=
      hrefines.start (acquireAccountMutationTurns localeCompare userIds inner).wanted
    exact ⟨_, _, hreached.step (.start _ _ hidle (wanted_pairwise localeCompare userIds inner)),
      hstart⟩
  | request i =>
    simp only [AccountTurns.attempt] at hop
    split at hop
    · rename_i key wanted held hold
      cases hop
      obtain ⟨s, queue, hreached, hrefines⟩ := h
      exact ⟨_, _, hreached.step (.ask i key wanted (held.map Acquisition.key) (by
        rw [hrefines.process, process_eq hold]
        rfl)), hrefines.request hold⟩
    · cases hop
  | granted i =>
    simp only [AccountTurns.attempt] at hop
    split at hop
    · rename_i wanted a held hold
      split at hop
      · rename_i hsettled
        cases hop
        obtain ⟨s, queue, hreached, hrefines⟩ := h
        have hhead : (s.line a.key).head? = some i := by
          rw [← hrefines.line, List.head?_map,
            hrefines.head_of_settled ((has_iff hold a).mpr (.inr rfl)) hsettled]
          rfl
        refine ⟨_, _, hreached.step (.grant i a.key wanted (held.map Acquisition.key) (by
          rw [hrefines.process, process_eq hold]
          rfl) hhead), hrefines.setTask hold fun b ↦ ?_⟩
        simp [TurnTask.Has, or_comm, eq_comm]
      · cases hop
    · cases hop
  | refuse i =>
    simp only [AccountTurns.attempt] at hop
    split at hop
    · rename_i key held hold
      split at hop
      · cases hop
      · cases hop
        obtain ⟨s, queue, hreached, hrefines⟩ := h
        exact ⟨_, _, hreached.step (.giveUp i [key] (held.map Acquisition.key) (by
          rw [hrefines.process, process_eq hold]
          rfl)), hrefines.setTask hold fun b ↦ Iff.rfl⟩
    · cases hop
  | leave i =>
    simp only [AccountTurns.attempt] at hop
    split at hop
    · rename_i a held hold
      split at hop
      · cases hop
      · cases hop
        rw [List.append_nil]
        exact h.release hold
    · cases hop
  | finish i =>
    simp only [AccountTurns.attempt] at hop
    split at hop
    · rename_i a held hold
      split at hop
      · cases hop
        rw [List.append_nil]
        exact h.releaseAll hold
      · cases hop
    · cases hop

variable (localeCompare) in
theorem follows_run [Std.LawfulEqCmp localeCompare] (ops : List TurnOp) :
    (Machine.run (step localeCompare) {} ops).1.Follows localeCompare
      (Machine.run (step localeCompare) {} ops).2 := by
  have hstep : ∀ (c : AccountTurns) log (op : TurnOp), c.Follows localeCompare log → True →
      (step localeCompare c op).1.Follows localeCompare (log ++ (step localeCompare c op).2) := by
    intro c log op h _
    rw [step]
    cases hop : c.attempt localeCompare op with
    | none => simpa using h
    | some result => exact h.attempt hop
  exact Machine.run_invariant hstep follows_initial (Machine.along_true _ ops)

end Steps

/-! ### Progress -/

theorem sum_set_lt {α : Type} (f : α → ℕ) {x y : α} (h : f y < f x) :
    {l : List α} → {i : ℕ} → l[i]? = some x → ((l.set i y).map f).sum < (l.map f).sum
  | [], _, hi => by cases hi
  | a :: l, 0, hi => by
    obtain rfl : a = x := by simpa using hi
    simpa using h
  | a :: l, i + 1, hi => by
    have hrest := sum_set_lt f h (l := l) (i := i) (by simpa using hi)
    simpa using hrest

/-- Every step of a task is one of finitely many. -/
theorem remaining_attempt {op : TurnOp} {i : ℕ} {c' : AccountTurns}
    {events : List (Event TurnKey)} (htask : op.task = some i)
    (hop : c.attempt localeCompare op = some (c', events)) : c'.remaining < c.remaining := by
  cases op with
  | start userIds inner => cases htask
  | request i =>
    simp only [attempt] at hop
    split at hop
    · rename_i hold
      cases hop
      exact sum_set_lt _ (by simp; omega) hold
    · cases hop
  | granted i =>
    simp only [attempt] at hop
    split at hop
    · rename_i hold
      split at hop
      · cases hop
        exact sum_set_lt _ (by simp; omega) hold
      · cases hop
    · cases hop
  | refuse i =>
    simp only [attempt] at hop
    split at hop
    · rename_i hold
      split at hop
      · cases hop
      · cases hop
        exact sum_set_lt _ (by simp) hold
    · cases hop
  | leave i =>
    simp only [attempt] at hop
    split at hop
    · rename_i hold
      split at hop
      · cases hop
      · cases hop
        exact sum_set_lt _ (by simp) hold
    · cases hop
  | finish i =>
    simp only [attempt] at hop
    split at hop
    · rename_i hold
      split at hop
      · cases hop
        exact sum_set_lt _ (by simp) hold
      · cases hop
    · cases hop

/-- A process that can go on is a task that can take a step. -/
theorem Refines.exists_attempt (h : c.Refines s queue)
    (hs : WaitingLines.Sound (TurnKey.Before localeCompare) s log) {i : ℕ} (hready : s.Ready i) :
    ∃ op, op.task = some i ∧ (c.attempt localeCompare op).isSome = true := by
  obtain ⟨hunfinished, hhead⟩ := hready
  rw [h.process] at hunfinished hhead
  cases hold : c.tasks[i]? with
  | none =>
    rw [AccountTurns.process, hold] at hunfinished
    exact absurd rfl hunfinished
  | some task =>
    obtain ⟨wanted, awaiting, held⟩ := task
    cases awaiting with
    | some a =>
      have hfirst : (s.line a.key).head? = some i := hhead a.key (by rw [process_eq hold]; rfl)
      obtain ⟨rest, hqueue, -⟩ := h.queue_of_first hs ((has_iff hold a).mpr (.inr rfl)) hfirst
      have hsettled := h.settled_of_head (by rw [hqueue, List.head?_cons])
      refine ⟨.granted i, rfl, ?_⟩
      simp only [attempt, hold, if_pos hsettled]
      rfl
    | none =>
      cases wanted with
      | cons key wanted =>
        refine ⟨.request i, rfl, ?_⟩
        simp only [attempt, hold]
        rfl
      | nil =>
        cases held with
        | nil =>
          rw [process_eq hold] at hunfinished
          exact absurd rfl hunfinished
        | cons a held =>
          by_cases haccount : a.key.isAccount = true
          · refine ⟨.finish i, rfl, ?_⟩
            simp only [attempt, hold, if_pos haccount]
            rfl
          · refine ⟨.leave i, rfl, ?_⟩
            simp only [attempt, hold, if_neg haccount]
            rfl

/-- **Account turns.** After any steps of any tasks, no two tasks hold the turn of one account, the
turns of one account have been granted in the order in which they were requested, and while a task
is unfinished some task can take a step, which brings them all closer to the end. -/
theorem turns_exclusive_ordered_live (localeCompare : String → String → Ordering)
    [Std.TransCmp localeCompare] [Std.LawfulEqCmp localeCompare] (ops : List TurnOp) :
    let run := Machine.run (step localeCompare) {} ops
    (∀ userId i j, run.1.Holds i userId → run.1.Holds j userId → i = j) ∧
      (∀ userId, WaitingLines.grants (.account userId) run.2 <+:
        WaitingLines.requests (.account userId) run.2) ∧
      ((∃ i, run.1.Unfinished i) → ∃ op i c' events, op.task = some i ∧
        run.1.attempt localeCompare op = some (c', events) ∧ c'.remaining < run.1.remaining) := by
  obtain ⟨s, queue, hreached, hrefines⟩ := follows_run localeCompare ops
  have hsound := hreached.sound
  refine ⟨?_, fun userId ↦ hsound.granted_prefix _, ?_⟩
  · rintro userId i j ⟨task, htask, a, ha, hkey⟩ ⟨task', htask', b, hb, hkey'⟩
    obtain ⟨rest, hqueue, -⟩ := hrefines.queue_of_held hsound htask ha
    obtain ⟨rest', hqueue', -⟩ := hrefines.queue_of_held hsound htask' hb
    rw [hkey, ← hkey', hqueue'] at hqueue
    cases hqueue
    rfl
  · rintro ⟨i, task, htask, hne⟩
    have hunfinished : (s.process i).Unfinished := by
      rw [hrefines.process, process_eq htask]
      intro hidle
      obtain ⟨wanted, awaiting, held⟩ := task
      simp only [TurnTask.process, WaitingLines.Process.mk.injEq, Option.map_eq_none_iff,
        List.map_eq_nil_iff] at hidle
      obtain ⟨rfl, rfl, rfl⟩ := hidle
      exact hne rfl
    obtain ⟨j, hready⟩ := hsound.exists_ready ⟨i, hunfinished⟩
    obtain ⟨op, htask, hop⟩ := hrefines.exists_attempt hsound hready
    obtain ⟨⟨c', events⟩, hop⟩ := Option.isSome_iff_exists.mp hop
    exact ⟨op, j, c', events, htask, hop, remaining_attempt htask hop⟩

/-- Two tasks ask for the turns of the same two accounts in opposite orders. -/
theorem turns_exclusive_ordered_live_compare :
    let run := Machine.run (step compare) {} [.start ["b", "a"] none,
      .start ["a", "b", "a"] (some .quota), .request 0, .request 1, .granted 0, .granted 1]
    (∀ userId i j, run.1.Holds i userId → run.1.Holds j userId → i = j) ∧
      (∀ userId, WaitingLines.grants (.account userId) run.2 <+:
        WaitingLines.requests (.account userId) run.2) ∧
      ((∃ i, run.1.Unfinished i) → ∃ op i c' events, op.task = some i ∧
        run.1.attempt compare op = some (c', events) ∧ c'.remaining < run.1.remaining) :=
  turns_exclusive_ordered_live compare [.start ["b", "a"] none,
    .start ["a", "b", "a"] (some .quota), .request 0, .request 1, .granted 0, .granted 1]

end AccountTurns

end MultAIplayer
