import MultAIplayer.Desktop.HistoryQueueRuns
import MultAIplayer.Lib.Tally

/-!
# What the history write queue guarantees

For every schedule of calls, settling promises and reactions (`writeQueue_contract`): saves and
destructive operations of a room exclude each other, snapshots are saved in the order in which they
were queued, and a flush that resolves has drained its rooms. Under a fair schedule the newest
snapshot of a room reaches `save` when the calls for the room have come to an end, since each
reaction uses up some of the room's remaining work (`Falls`).

A barrier that succeeds makes every snapshot obsolete that was queued before it was over, also one
that was queued after the barrier was called (`dropped_by_running_barrier`).
-/

namespace MultAIplayer.Desktop

open QueueEvent HistoryQueueRun

/-! ### The remaining work of a room -/

@[grind =] def SavePhase.work : SavePhase → ℤ
  | .saving => 2
  | .settled _ => 1

@[grind =] def BarrierPhase.work : BarrierPhase → ℤ
  | .chained => 4
  | .waiting _ => 3
  | .operating => 2
  | .settled => 1

/-- A snapshot that waits has a save before it. -/
@[grind =] def waitingWork (n : Option ℕ) : ℤ := if n.isSome then 2 else 0

@[grind =] def RoomHistoryWriter.work (w : RoomHistoryWriter) : ℤ :=
  w.active.elim 0 (·.phase.work) + waitingWork w.pending

namespace HistoryQueueRun

variable (q : HistoryQueueRun)

/-- The work of the barriers of a room. -/
@[grind =] def barrierWork (r : String) (_ : ℕ) (c : BarrierCall) : ℤ :=
  if c.roomId = r then c.phase.work else 0

/-- The reactions that can still happen in a room without another call. -/
@[grind =] def work (r : String) : ℤ :=
  (q.writers.get r).elim 0 (·.work) + waitingWork (q.blockedPending.get r) +
    q.barrierCalls.tally (barrierWork r)

/-- The room in which an action takes a save or a barrier further. -/
def completionRoom : QueueAction → Option String
  | .saveSettles r _ _ | .finishSave r => some r
  | .runBarrier b | .resumeBarrier b | .operationSettles b _ | .returnBarrier b =>
    (q.barrierCalls.get b).map (·.roomId)
  | .queue _ | .withBarrier _ | .flush _ | .resumeFlush _ => none

/-- An action that can be taken takes a save or a barrier of a room further. -/
def Completes (r : String) (a : QueueAction) : Prop :=
  (q.attempt a).isSome ∧ q.completionRoom a = some r

/-- A room's work falls, and that of no other room rises. -/
structure Falls (r : String) (q q' : HistoryQueueRun) : Prop where
  room : q'.work r < q.work r
  other : ∀ r' ≠ r, q'.work r' ≤ q.work r'

end HistoryQueueRun

section Work

variable {q q' : HistoryQueueRun} {r r' : String} {new : List QueueEvent}

theorem waitingWork_nonneg (n : Option ℕ) : 0 ≤ waitingWork n := by
  unfold waitingWork
  split <;> omega

theorem SavePhase.work_pos (phase : SavePhase) : 0 < phase.work := by
  cases phase <;> simp [SavePhase.work]

theorem BarrierPhase.work_pos (phase : BarrierPhase) : 0 < phase.work := by
  cases phase <;> simp [BarrierPhase.work]

theorem RoomHistoryWriter.work_nonneg (w : RoomHistoryWriter) : 0 ≤ w.work := by
  have hpending := waitingWork_nonneg w.pending
  unfold RoomHistoryWriter.work
  cases w.active with
  | none => exact Int.add_nonneg le_rfl hpending
  | some a => exact Int.add_nonneg a.phase.work_pos.le hpending

theorem barrierWork_nonneg (r : String) (b : ℕ) (c : BarrierCall) : 0 ≤ barrierWork r b c := by
  unfold barrierWork
  split
  · exact c.phase.work_pos.le
  · exact le_rfl

theorem work_nonneg (q : HistoryQueueRun) (r : String) : 0 ≤ q.work r := by
  have htally := InsertionMap.tally_nonneg (m := q.barrierCalls) (barrierWork_nonneg r)
  have hwaiting := waitingWork_nonneg (q.blockedPending.get r)
  have hwriter : 0 ≤ (q.writers.get r).elim 0 (·.work) := by
    cases q.writers.get r with
    | none => exact le_rfl
    | some w => exact w.work_nonneg
  unfold work
  omega

/-- Where only the writer of a room changes, the rest of the work stays. -/
theorem work_setWriter (q : HistoryQueueRun) (r : String) (w : RoomHistoryWriter) :
    work { q with writers := q.writers.set r w } r =
        q.work r + w.work - (q.writers.get r).elim 0 (·.work) ∧
      ∀ r' ≠ r, work { q with writers := q.writers.set r w } r' = q.work r' := by
  constructor
  · simp only [work, InsertionMap.get_set_self, Option.elim]
    omega
  · intro r' hr'
    simp only [work, InsertionMap.get_set_of_ne _ _ hr']

/-- Handing a snapshot over or letting it wait adds the work of one save at most. -/
theorem work_enqueue (q : HistoryQueueRun) (r : String) (n : ℕ) :
    (q.enqueue r n).1.work r ≤ q.work r + 2 ∧
      ∀ r' ≠ r, (q.enqueue r n).1.work r' = q.work r' := by
  unfold HistoryQueueRun.enqueue start
  split
  · constructor
    · have hold := waitingWork_nonneg (q.blockedPending.get r)
      simp only [work, InsertionMap.get_set_self, waitingWork, Option.isSome_some, if_true]
      unfold waitingWork at hold
      omega
    · intro r' hr'
      simp only [work, InsertionMap.get_set_of_ne _ _ hr']
  dsimp only
  split
  · refine ⟨?_, (work_setWriter q r _).2⟩
    rw [(work_setWriter q r _).1]
    cases hw : q.writers.get r with
    | none =>
      simp only [RoomHistoryWriter.work, waitingWork, Option.getD_none, Option.elim,
        Option.isSome_some, if_true]
      omega
    | some w =>
      have hpending := waitingWork_nonneg w.pending
      simp only [RoomHistoryWriter.work, waitingWork, Option.getD_some, Option.elim_some,
        Option.isSome_some, if_true] at hpending ⊢
      omega
  · next hactive =>
    refine ⟨?_, (work_setWriter q r _).2⟩
    rw [(work_setWriter q r _).1]
    cases hw : q.writers.get r with
    | none =>
      simp only [RoomHistoryWriter.work, SavePhase.work, waitingWork, Option.getD_none,
        Option.elim]
      simp
    | some w =>
      rw [hw, Option.getD_some] at hactive
      have hnone : w.active = none := by simpa using hactive
      simp only [RoomHistoryWriter.work, SavePhase.work, hnone, Option.getD_some, Option.elim]
      omega

theorem falls_saveSettles {succeeded threw : Bool}
    (hs : q.saveSettles r succeeded threw = some (q', new)) : Falls r q q' := by
  unfold HistoryQueueRun.saveSettles at hs
  split at hs
  case h_2 => cases hs
  next n pending hw =>
  dsimp only at hs
  obtain ⟨hself, hother⟩ := work_setWriter q r ⟨some ⟨n, .settled threw⟩, pending⟩
  have hless : work { q with writers := q.writers.set r ⟨some ⟨n, .settled threw⟩, pending⟩ } r <
      q.work r := by
    rw [hself, hw]
    simp only [RoomHistoryWriter.work, SavePhase.work, Option.elim]
    omega
  split at hs
  all_goals
    obtain ⟨rfl, -⟩ := Prod.mk.inj (Option.some.inj hs)
    exact ⟨hless, fun r' hr' ↦ (hother r' hr').le⟩

theorem falls_finishSave (hs : q.finishSave r = some (q', new)) : Falls r q q' := by
  unfold HistoryQueueRun.finishSave start at hs
  split at hs
  case h_2 => cases hs
  next n threw pending hw =>
  have hdropped : Falls r q { q with
      promises := fun m ↦ if m = n then some threw else q.promises m
      writers := q.writers.delete r } := by
    constructor
    · have hpending := waitingWork_nonneg pending
      simp only [work, InsertionMap.get_delete_self, hw, RoomHistoryWriter.work, SavePhase.work,
        Option.elim]
      omega
    · intro r' hr'
      simp only [work, InsertionMap.get_delete_of_ne _ hr']
      exact le_rfl
  dsimp only at hs
  cases pending with
  | none =>
    obtain ⟨rfl, -⟩ := Prod.mk.inj (Option.some.inj hs)
    exact hdropped
  | some m =>
    dsimp only at hs
    split at hs
    · obtain ⟨rfl, -⟩ := Prod.mk.inj (Option.some.inj hs)
      constructor
      · simp only [work, InsertionMap.get_set_self, hw, RoomHistoryWriter.work, SavePhase.work,
          waitingWork, Option.elim]
        simp
      · intro r' hr'
        simp only [work, InsertionMap.get_set_of_ne _ _ hr']
        exact le_rfl
    · obtain ⟨rfl, -⟩ := Prod.mk.inj (Option.some.inj hs)
      exact hdropped

/-- The work of the barriers after one of them moves on. -/
theorem tally_setPhase {b : ℕ} {c : BarrierCall} (hb : q.barrierCalls.get b = some c)
    (phase : BarrierPhase) (r : String) :
    (q.barrierCalls.set b { c with phase }).tally (barrierWork r) =
      q.barrierCalls.tally (barrierWork r) +
        if c.roomId = r then phase.work - c.phase.work else 0 := by
  rw [InsertionMap.tally_set, InsertionMap.weightAt, hb, Option.elim_some]
  unfold barrierWork
  dsimp only
  split
  · omega
  · omega

theorem falls_setPhase {b : ℕ} {c : BarrierCall} (hb : q.barrierCalls.get b = some c)
    {phase : BarrierPhase} (hless : phase.work < c.phase.work) :
    Falls c.roomId q (q.setPhase b c phase) := by
  constructor
  · have htally := tally_setPhase hb phase c.roomId
    rw [if_pos rfl] at htally
    simp only [work, HistoryQueueRun.setPhase, htally]
    omega
  · intro r' hr'
    have htally := tally_setPhase hb phase r'
    rw [if_neg (Ne.symm hr')] at htally
    simp only [work, HistoryQueueRun.setPhase, htally]
    omega

theorem falls_runBarrier {b : ℕ} {c : BarrierCall} (hb : q.barrierCalls.get b = some c)
    (hs : q.runBarrier b = some (q', new)) : Falls c.roomId q q' := by
  unfold HistoryQueueRun.runBarrier at hs
  rw [hb] at hs
  dsimp only at hs
  split at hs
  case isFalse => cases hs
  next hready =>
  split at hs
  · obtain ⟨rfl, -⟩ := Prod.mk.inj (Option.some.inj hs)
    exact falls_setPhase hb (by simp [hready.1, BarrierPhase.work])
  · obtain ⟨rfl, -⟩ := Prod.mk.inj (Option.some.inj hs)
    exact falls_setPhase hb (by simp [hready.1, BarrierPhase.work])

theorem falls_resumeBarrier {b : ℕ} {c : BarrierCall} (hb : q.barrierCalls.get b = some c)
    (hs : q.resumeBarrier b = some (q', new)) : Falls c.roomId q q' := by
  unfold HistoryQueueRun.resumeBarrier at hs
  rw [hb] at hs
  dsimp only at hs
  split at hs
  case h_2 => cases hs
  next n hphase =>
  split at hs
  · obtain ⟨rfl, -⟩ := Prod.mk.inj (Option.some.inj hs)
    exact falls_setPhase hb (by simp [hphase, BarrierPhase.work])
  · obtain ⟨rfl, -⟩ := Prod.mk.inj (Option.some.inj hs)
    exact falls_setPhase hb (by simp [hphase, BarrierPhase.work])
  · cases hs

theorem falls_operationSettles {b : ℕ} {c : BarrierCall} {succeeded : Bool}
    (hb : q.barrierCalls.get b = some c) (hs : q.operationSettles b succeeded = some (q', new)) :
    Falls c.roomId q q' := by
  unfold HistoryQueueRun.operationSettles at hs
  rw [hb] at hs
  dsimp only at hs
  split at hs
  case isFalse => cases hs
  next hphase =>
  have hfalls : Falls c.roomId q (q.setPhase b c .settled) :=
    falls_setPhase hb (by rw [hphase]; decide)
  split at hs
  · obtain ⟨rfl, -⟩ := Prod.mk.inj (Option.some.inj hs)
    constructor
    · have hless := hfalls.room
      have hold := waitingWork_nonneg (q.blockedPending.get c.roomId)
      simp only [work, HistoryQueueRun.setPhase, InsertionMap.get_delete_self] at hless ⊢
      have hnone : waitingWork none = 0 := rfl
      omega
    · intro r' hr'
      have hle := hfalls.other r' hr'
      simp only [work, HistoryQueueRun.setPhase, InsertionMap.get_delete_of_ne _ hr'] at hle ⊢
      exact hle
  · obtain ⟨rfl, -⟩ := Prod.mk.inj (Option.some.inj hs)
    exact hfalls

/-- The work of the barriers after one of them has returned. -/
theorem falls_delete {b : ℕ} {c : BarrierCall} (hb : q.barrierCalls.get b = some c) :
    Falls c.roomId q { q with barrierCalls := q.barrierCalls.delete b } := by
  have htally : ∀ r, (q.barrierCalls.delete b).tally (barrierWork r) =
      q.barrierCalls.tally (barrierWork r) - barrierWork r b c := by
    intro r
    rw [InsertionMap.tally_delete, InsertionMap.weightAt, hb, Option.elim_some]
  constructor
  · have hpos := c.phase.work_pos
    have hwork : barrierWork c.roomId b c = c.phase.work := if_pos rfl
    simp only [work, htally, hwork]
    omega
  · intro r' hr'
    have hwork : barrierWork r' b c = 0 := if_neg (Ne.symm hr')
    simp only [work, htally, hwork]
    omega

/-- Unblocking a room moves its waiting snapshot. -/
theorem work_unblock (q : HistoryQueueRun) (r : String) :
    (q.unblock r).1.work r ≤ q.work r ∧ ∀ r' ≠ r, (q.unblock r).1.work r' = q.work r' := by
  have hcleared : work { q with
      barriers := q.barriers.delete r
      blockedRooms := q.blockedRooms.erase r
      blockedPending := q.blockedPending.delete r } r =
        q.work r - waitingWork (q.blockedPending.get r) := by
    have hnone : waitingWork none = 0 := rfl
    simp only [work, InsertionMap.get_delete_self, hnone]
    omega
  have hother : ∀ r' ≠ r, work { q with
      barriers := q.barriers.delete r
      blockedRooms := q.blockedRooms.erase r
      blockedPending := q.blockedPending.delete r } r' = q.work r' := by
    intro r' hr'
    simp only [work, InsertionMap.get_delete_of_ne _ hr']
  unfold HistoryQueueRun.unblock
  dsimp only
  split
  · next n hn =>
    obtain ⟨hself, hrest⟩ := work_enqueue { q with
      barriers := q.barriers.delete r
      blockedRooms := q.blockedRooms.erase r
      blockedPending := q.blockedPending.delete r } r n
    have htwo : waitingWork (q.blockedPending.get r) = 2 := by
      rw [hn]
      rfl
    exact ⟨by omega, fun r' hr' ↦ (hrest r' hr').trans (hother r' hr')⟩
  · have hold := waitingWork_nonneg (q.blockedPending.get r)
    exact ⟨by dsimp only; omega, hother⟩

theorem falls_returnBarrier {b : ℕ} {c : BarrierCall} (hb : q.barrierCalls.get b = some c)
    (hs : q.returnBarrier b = some (q', new)) : Falls c.roomId q q' := by
  unfold HistoryQueueRun.returnBarrier at hs
  rw [hb] at hs
  dsimp only at hs
  split at hs
  case isFalse => cases hs
  have hfalls := falls_delete hb
  split at hs
  · obtain ⟨rfl, -⟩ := Prod.mk.inj (Option.some.inj hs)
    obtain ⟨hself, hother⟩ := work_unblock
      { q with barrierCalls := q.barrierCalls.delete b } c.roomId
    exact ⟨hself.trans_lt hfalls.room, fun r' hr' ↦ (hother r' hr').le.trans (hfalls.other r' hr')⟩
  · obtain ⟨rfl, -⟩ := Prod.mk.inj (Option.some.inj hs)
    exact hfalls

/-- **Every completion uses up work.** -/
theorem falls_of_completes {a : QueueAction} (h : q.Completes r a) : Falls r q (q.step a).1 := by
  obtain ⟨hsome, hroom⟩ := h
  obtain ⟨⟨q', new⟩, hs⟩ := Option.isSome_iff_exists.mp hsome
  have hstep : q.step a = (q', new) := by
    unfold HistoryQueueRun.step
    rw [hs]
    rfl
  have hbarrier : ∀ {b}, (q.barrierCalls.get b).map (·.roomId) = some r →
      ∃ c, q.barrierCalls.get b = some c ∧ c.roomId = r := fun hmap ↦
    Option.map_eq_some_iff.mp hmap
  rw [hstep]
  cases a with
  | saveSettles r₀ succeeded threw =>
    obtain rfl := Option.some.inj hroom
    exact falls_saveSettles hs
  | finishSave r₀ =>
    obtain rfl := Option.some.inj hroom
    exact falls_finishSave hs
  | runBarrier b =>
    obtain ⟨c, hb, rfl⟩ := hbarrier hroom
    exact falls_runBarrier hb hs
  | resumeBarrier b =>
    obtain ⟨c, hb, rfl⟩ := hbarrier hroom
    exact falls_resumeBarrier hb hs
  | operationSettles b succeeded =>
    obtain ⟨c, hb, rfl⟩ := hbarrier hroom
    exact falls_operationSettles hb hs
  | returnBarrier b =>
    obtain ⟨c, hb, rfl⟩ := hbarrier hroom
    exact falls_returnBarrier hb hs
  | queue r₀ => cases hroom
  | withBarrier r₀ => cases hroom
  | flush target => cases hroom
  | resumeFlush f => cases hroom

theorem work_withBarrier_of_ne (hne : r' ≠ r) : (q.withBarrier r).1.work r' ≤ q.work r' := by
  have htally : (q.barrierCalls.set q.next { roomId := r, previous := q.barriers.get r }).tally
      (barrierWork r') ≤ q.barrierCalls.tally (barrierWork r') := by
    have hnew : barrierWork r' q.next { roomId := r, previous := q.barriers.get r } = 0 :=
      if_neg (Ne.symm hne)
    have hold : 0 ≤ q.barrierCalls.weightAt (barrierWork r') q.next := by
      unfold InsertionMap.weightAt
      cases q.barrierCalls.get q.next with
      | none => exact le_rfl
      | some c => exact barrierWork_nonneg r' q.next c
    rw [InsertionMap.tally_set, hnew]
    omega
  unfold HistoryQueueRun.withBarrier retainPending
  split
  · simp only [work, InsertionMap.get_set_of_ne _ _ hne]
    omega
  · simp only [work]
    omega

theorem work_flushRound (f : ℕ) (target : Option String) :
    (q.flushRound f target).1.work r = q.work r := by
  unfold HistoryQueueRun.flushRound HistoryQueueRun.reportFailures
  dsimp only
  split
  · split <;> rfl
  · rfl

/-- **Work comes from calls.** No other action adds any. -/
theorem work_step_le {a : QueueAction} (hqueue : a ≠ .queue r) (hbarrier : a ≠ .withBarrier r) :
    (q.step a).1.work r ≤ q.work r := by
  cases hattempt : q.attempt a with
  | none =>
    unfold HistoryQueueRun.step
    rw [hattempt]
    exact le_rfl
  | some x =>
    obtain ⟨q', new⟩ := x
    have hsome : (q.attempt a).isSome := by
      rw [hattempt]
      rfl
    have hcompletes : ∀ r₀, q.completionRoom a = some r₀ → (q.step a).1.work r ≤ q.work r := by
      intro r₀ hroom
      have hfalls := falls_of_completes ⟨hsome, hroom⟩
      by_cases hr : r = r₀
      · exact hr ▸ hfalls.room.le
      · exact hfalls.other r hr
    have hcalled : ∀ {b}, q.barrierCalls.get b ≠ none → ∃ r₀,
        (q.barrierCalls.get b).map (·.roomId) = some r₀ := by
      intro b hb
      obtain ⟨c, hc⟩ := Option.ne_none_iff_exists'.mp hb
      exact ⟨c.roomId, by rw [hc]; rfl⟩
    cases a with
    | queue r₀ =>
      have hne : r ≠ r₀ := fun heq ↦ hqueue (heq ▸ rfl)
      exact ((work_enqueue { q with next := q.next + 1 } r₀ q.next).2 r hne).le
    | withBarrier r₀ => exact work_withBarrier_of_ne fun heq ↦ hbarrier (heq ▸ rfl)
    | flush target => exact (work_flushRound (q := { q with next := q.next + 1 }) q.next _).le
    | saveSettles r₀ succeeded threw => exact hcompletes r₀ rfl
    | finishSave r₀ => exact hcompletes r₀ rfl
    | runBarrier b =>
      obtain ⟨r₀, hr₀⟩ := hcalled (b := b) fun hnone ↦ by
        simp [HistoryQueueRun.attempt, HistoryQueueRun.runBarrier, hnone] at hattempt
      exact hcompletes r₀ hr₀
    | resumeBarrier b =>
      obtain ⟨r₀, hr₀⟩ := hcalled (b := b) fun hnone ↦ by
        simp [HistoryQueueRun.attempt, HistoryQueueRun.resumeBarrier, hnone] at hattempt
      exact hcompletes r₀ hr₀
    | operationSettles b succeeded =>
      obtain ⟨r₀, hr₀⟩ := hcalled (b := b) fun hnone ↦ by
        simp [HistoryQueueRun.attempt, HistoryQueueRun.operationSettles, hnone] at hattempt
      exact hcompletes r₀ hr₀
    | returnBarrier b =>
      obtain ⟨r₀, hr₀⟩ := hcalled (b := b) fun hnone ↦ by
        simp [HistoryQueueRun.attempt, HistoryQueueRun.returnBarrier, hnone] at hattempt
      exact hcompletes r₀ hr₀
    | resumeFlush f =>
      have hround : q.resumeFlush f = some (q', new) := hattempt
      have hstep : (q.step (.resumeFlush f)).1 = q' := by
        unfold HistoryQueueRun.step
        rw [hattempt]
        rfl
      rw [hstep]
      unfold HistoryQueueRun.resumeFlush at hround
      split at hround
      case h_2 => cases hround
      split at hround
      · obtain ⟨rfl, -⟩ := Prod.mk.inj (Option.some.inj hround)
        exact le_rfl
      split at hround
      · split at hround
        · obtain ⟨rfl, -⟩ := Prod.mk.inj (Option.some.inj hround)
          exact le_rfl
        · obtain ⟨rfl, -⟩ := Prod.mk.inj (Option.some.inj hround)
          exact (work_flushRound f _).le
      · cases hround

end Work

/-! ### Progress -/

section Progress

variable {q : HistoryQueueRun} {r : String} {log : List QueueEvent}

/-- A room in which nothing can be taken further. -/
def Stuck (q : HistoryQueueRun) (r : String) : Prop := ∀ a, ¬q.Completes r a

/-- **Whatever a room has in progress can be taken further.** -/
theorem Sound.idle_of_stuck (h : Sound q log) (hstuck : Stuck q r) :
    (q.line r).writer = none ∧ (∀ b, (q.line r).call b = none) ∧
      (q.line r).blockedPending = none := by
  have hroom := h.room r
  have hwriter : (q.line r).writer = none := by
    cases hw : (q.line r).writer with
    | none => rfl
    | some w =>
      obtain ⟨active, pending⟩ := w
      obtain ⟨⟨n, phase⟩, ha⟩ := Option.isSome_iff_exists.mp (hroom.writing.active _ hw)
      obtain rfl : active = _ := ha
      have hget : q.writers.get r = some ⟨some ⟨n, phase⟩, pending⟩ := hw
      cases phase with
      | saving =>
        refine absurd ⟨?_, rfl⟩ (hstuck (.saveSettles r true false))
        simp [HistoryQueueRun.attempt, HistoryQueueRun.saveSettles, hget]
      | settled threw =>
        refine absurd ⟨?_, rfl⟩ (hstuck (.finishSave r))
        simp only [HistoryQueueRun.attempt, HistoryQueueRun.finishSave, hget]
        cases pending with
        | none => rfl
        | some m =>
          dsimp only
          split <;> rfl
  have hcompletes : ∀ {b c a}, (q.line r).call b = some c → (q.attempt a).isSome →
      q.completionRoom a = (q.barrierCalls.get b).map (·.roomId) → False := by
    intro b c a hb hsome hroomOf
    obtain ⟨hget, rfl⟩ := line_call_eq.mp hb
    refine hstuck a ⟨hsome, ?_⟩
    rw [hroomOf, hget]
    rfl
  have hcalls : ∀ b, (q.line r).call b = none := by
    intro b
    induction b using Nat.strongRecOn with
    | ind b ih =>
      cases hb : (q.line r).call b with
      | none => rfl
      | some c =>
        obtain ⟨hget, hroomId⟩ := line_call_eq.mp hb
        cases hphase : c.phase with
        | chained =>
          -- The barrier before it has returned, since it has a smaller number.
          have hprevious : c.previous.all q.isSettled = true := by
            cases hp : c.previous with
            | none => rfl
            | some p =>
              rw [Option.all_some, isSettled]
              cases hgetp : q.barrierCalls.get p with
              | none => rfl
              | some cp =>
                have hpr := h.previous b c p cp hget hp hgetp
                have hline := line_call_eq.mpr ⟨hgetp, hpr.trans hroomId⟩
                rw [ih p (hroom.chained.previous_lt b c p hb hp)] at hline
                cases hline
          refine (hcompletes (a := .runBarrier b) hb ?_ rfl).elim
          simp only [HistoryQueueRun.attempt, HistoryQueueRun.runBarrier, hget]
          rw [if_pos ⟨hphase, hprevious⟩]
          split <;> rfl
        | waiting n =>
          have hallows := hroom.writing.phases b c hb
          rw [hphase] at hallows
          rcases hallows with ⟨hsettled, -⟩ | hactive
          · obtain ⟨threw, hthrew⟩ := Option.isSome_iff_exists.mp hsettled
            refine (hcompletes (a := .resumeBarrier b) hb ?_ rfl).elim
            simp only [HistoryQueueRun.attempt, HistoryQueueRun.resumeBarrier, hget, hphase, hthrew]
            cases threw <;> rfl
          · rw [RoomLine.active, hwriter] at hactive
            cases hactive
        | operating =>
          refine (hcompletes (a := .operationSettles b true) hb ?_ rfl).elim
          simp [HistoryQueueRun.attempt, HistoryQueueRun.operationSettles, hget, hphase]
        | settled =>
          refine (hcompletes (a := .returnBarrier b) hb ?_ rfl).elim
          simp [HistoryQueueRun.attempt, HistoryQueueRun.returnBarrier, hget, hphase]
  have hbarrier : (q.line r).barrier = none := by
    cases hb : (q.line r).barrier with
    | none => rfl
    | some b =>
      have hsome := (hroom.chained.latest b hb).1
      rw [hcalls b] at hsome
      cases hsome
  refine ⟨hwriter, hcalls, hroom.writing.blockedPending ?_⟩
  rw [hroom.chained.blocked, hbarrier]
  rfl

/-- The newest snapshot that has been queued for a room. -/
structure Newest (r : String) (n : ℕ) (log : List QueueEvent) : Prop where
  queued : .queued r n ∈ log
  newest : ∀ m, .queued r m ∈ log → m ≤ n

/-- The newest snapshot is handed over, waits, or is obsolete. -/
theorem Sound.newest_kept (h : Sound q log) {n : ℕ} (hn : Newest r n log) :
    SucceededAfter log r n ∨ .handed r n ∈ log ∨ (q.line r).Held n := by
  have hlogged := (h.room r).logged
  rcases (h.room r).kept n hn.queued with hsucceeded | ⟨n', hle, hdealt⟩
  · exact .inl hsucceeded
  refine .inr ?_
  have hsame : .queued r n' ∈ log → n' = n := fun hq ↦ le_antisymm (hn.newest n' hq) hle
  have hhanded : .handed r n' ∈ log → .handed r n ∈ log := fun hh ↦
    hsame (hlogged.handed n' hh).1 ▸ hh
  cases hdealt with
  | held hheld => exact .inr (hsame (hlogged.held n' hheld).queued ▸ hheld)
  | active hactive => exact .inl (hhanded (hlogged.active _ hactive).1)
  | saved hsaved => exact .inl (hhanded (hlogged.ended n' (.inl hsaved)))
  | failed hfailed => exact .inl (hhanded (hlogged.ended n' (.inr hfailed)))

/-- In a room that is stuck it does not wait. -/
theorem Sound.newest_handed (h : Sound q log) (hstuck : Stuck q r) {n : ℕ} (hn : Newest r n log) :
    SucceededAfter log r n ∨ .handed r n ∈ log := by
  obtain ⟨hwriter, -, hpending⟩ := h.idle_of_stuck hstuck
  refine (h.newest_kept hn).imp_right fun hor ↦ hor.resolve_right ?_
  rintro (hheld | hheld)
  · rw [hpending] at hheld
    cases hheld
  · rw [hwriter] at hheld
    cases hheld

end Progress

/-! ### The contract -/

/-- A save of a room that has started and not settled. -/
def SaveActive (r : String) (log : List QueueEvent) (n : ℕ) : Prop :=
  .handed r n ∈ log ∧ .saved r n ∉ log ∧ .saveFailed r n ∉ log

/-- A barrier's operation that has started and not settled. -/
def OperationActive (r : String) (log : List QueueEvent) (b : ℕ) : Prop :=
  .operationStarted r b ∈ log ∧ .barrierSucceeded r b ∉ log ∧ .barrierFailed r b ∉ log

/-- One save of a room is active, or one operation, or nothing. -/
structure Exclusive (r : String) (log : List QueueEvent) : Prop where
  save : ∀ n n', SaveActive r log n → SaveActive r log n' → n = n'
  operation : ∀ b b', OperationActive r log b → OperationActive r log b' → b = b'
  either : ∀ n b, SaveActive r log n → ¬OperationActive r log b

theorem Sound.exclusive {q : HistoryQueueRun} {log : List QueueEvent} (h : Sound q log)
    (r : String) : Exclusive r log := by
  have hroom := h.room r
  have hsave : ∀ {n}, SaveActive r log n → (q.line r).active = some ⟨n, .saving⟩ := by
    rintro n ⟨hhanded, hsaved, hfailed⟩
    exact ((hroom.logged.handed n hhanded).2.resolve_left hsaved).resolve_left hfailed
  have hoperation : ∀ {b}, OperationActive r log b →
      ∃ c, (q.line r).call b = some c ∧ c.phase = .operating := by
    rintro b ⟨hstarted, hsucceeded, hfailed⟩
    exact ((hroom.recorded.started b hstarted).resolve_left hsucceeded).resolve_left hfailed
  refine ⟨fun n n' hn hn' ↦ ?_, fun b b' hb hb' ↦ ?_, fun n b hn hb ↦ ?_⟩
  · simpa using (hsave hn).symm.trans (hsave hn')
  · obtain ⟨c, hc, hphase⟩ := hoperation hb
    obtain ⟨c', hc', hphase'⟩ := hoperation hb'
    exact hroom.chained.eq_of_begun hc hc' (by rw [hphase]; decide) (by rw [hphase']; decide)
  · obtain ⟨c, hc, hphase⟩ := hoperation hb
    have hallows := hroom.writing.phases b c hc
    rw [hphase] at hallows
    have hactive := hsave hn
    rw [RoomLine.active, show (q.line r).writer = none from hallows] at hactive
    cases hactive

/-- The queue and its log after the first actions of a schedule. -/
def historyAfter (schedule : ℕ → QueueAction) (k : ℕ) : HistoryQueueRun × List QueueEvent :=
  Machine.after HistoryQueueRun.step {} schedule k

/-- Saves and operations settle sooner or later, and reactions run. -/
def Fair (schedule : ℕ → QueueAction) : Prop :=
  ∀ k r, ¬Stuck (historyAfter schedule k).1 r →
    ∃ k' ≥ k, (historyAfter schedule k').1.Completes r (schedule k')

/-- When the calls for a room have come to an end, its newest snapshot is handed over, unless it is
obsolete. -/
def EventuallyHanded (obsolete : List QueueEvent → String → ℕ → Prop)
    (schedule : ℕ → QueueAction) : Prop :=
  ∀ start r n, Newest r n (historyAfter schedule start).2 →
    (∀ k ≥ start, schedule k ≠ .queue r ∧ schedule k ≠ .withBarrier r) →
    ∃ k ≥ start, .handed r n ∈ (historyAfter schedule k).2 ∨
      obsolete (historyAfter schedule k).2 r n

/-- What the queue guarantees under a schedule. -/
structure WriteQueueContract (schedule : ℕ → QueueAction) : Prop where
  exclusive : ∀ k r, Exclusive r (historyAfter schedule k).2
  ordered : ∀ k r, (handedSnapshots r (historyAfter schedule k).2).Pairwise (· < ·)
  kept : ∀ k r n, Newest r n (historyAfter schedule k).2 →
    SucceededAfter (historyAfter schedule k).2 r n ∨ .handed r n ∈ (historyAfter schedule k).2 ∨
      ((historyAfter schedule k).1.line r).Held n
  eventually : Fair schedule → EventuallyHanded SucceededAfter schedule
  flushed : ∀ k, Flushed (historyAfter schedule k).2

section Schedules

variable {schedule : ℕ → QueueAction}

theorem sound_historyAfter (schedule : ℕ → QueueAction) (k : ℕ) :
    Sound (historyAfter schedule k).1 (historyAfter schedule k).2 := sound_run _

theorem historyAfter_succ (schedule : ℕ → QueueAction) (k : ℕ) :
    historyAfter schedule (k + 1) =
      (((historyAfter schedule k).1.step (schedule k)).1,
        (historyAfter schedule k).2 ++ ((historyAfter schedule k).1.step (schedule k)).2) := by
  unfold historyAfter
  rw [Machine.after_succ]

/-- The events of a step that takes something further are no queueing. -/
theorem queued_of_attempt {q q' : HistoryQueueRun} {a : QueueAction} {new : List QueueEvent}
    {r : String} {n : ℕ} (hs : q.attempt a = some (q', new)) (h : .queued r n ∈ new) :
    a = .queue r := by
  have hround : ∀ (q : HistoryQueueRun) f target, .queued r n ∉ (q.flushRound f target).2 := by
    intro q f target hin
    unfold HistoryQueueRun.flushRound HistoryQueueRun.reportFailures at hin
    dsimp only at hin
    split at hin
    · split at hin
      · cases hin
      · have heq := List.mem_singleton.mp hin
        split at heq <;> cases heq
    · cases hin
  have hreport : ∀ f target, .queued r n ∉ (q.reportFailures f target).2 := by
    intro f target hin
    have heq := List.mem_singleton.mp hin
    split at heq <;> cases heq
  cases a with
  | queue r₀ =>
    obtain ⟨-, rfl⟩ := Prod.mk.inj (Option.some.inj hs)
    rcases List.mem_cons.mp h with heq | hin
    · obtain ⟨rfl, -⟩ := QueueEvent.queued.inj heq
      rfl
    · cases mem_enqueue hin
  | withBarrier r₀ =>
    obtain ⟨-, rfl⟩ := Prod.mk.inj (Option.some.inj hs)
    cases List.mem_singleton.mp h
  | flush target =>
    obtain ⟨-, rfl⟩ := Prod.mk.inj (Option.some.inj hs)
    exact absurd h (hround _ _ _)
  | saveSettles r₀ succeeded threw =>
    simp only [HistoryQueueRun.attempt, HistoryQueueRun.saveSettles] at hs
    split at hs
    case h_2 => cases hs
    split at hs <;> obtain ⟨-, rfl⟩ := Prod.mk.inj (Option.some.inj hs) <;>
      cases List.mem_singleton.mp h
  | finishSave r₀ =>
    simp only [HistoryQueueRun.attempt, HistoryQueueRun.finishSave, start] at hs
    split at hs
    case h_2 => cases hs
    split at hs
    · split at hs <;> obtain ⟨-, rfl⟩ := Prod.mk.inj (Option.some.inj hs)
      · cases List.mem_singleton.mp h
      · cases h
    · obtain ⟨-, rfl⟩ := Prod.mk.inj (Option.some.inj hs)
      cases h
  | runBarrier b =>
    simp only [HistoryQueueRun.attempt, HistoryQueueRun.runBarrier] at hs
    split at hs
    case h_2 => cases hs
    split at hs
    case isFalse => cases hs
    split at hs <;> obtain ⟨-, rfl⟩ := Prod.mk.inj (Option.some.inj hs)
    · cases h
    · cases List.mem_singleton.mp h
  | resumeBarrier b =>
    simp only [HistoryQueueRun.attempt, HistoryQueueRun.resumeBarrier] at hs
    split at hs
    case h_2 => cases hs
    split at hs
    case h_2 => cases hs
    split at hs
    case h_3 => cases hs
    all_goals
      obtain ⟨-, rfl⟩ := Prod.mk.inj (Option.some.inj hs)
      cases List.mem_singleton.mp h
  | operationSettles b succeeded =>
    simp only [HistoryQueueRun.attempt, HistoryQueueRun.operationSettles] at hs
    split at hs
    case h_2 => cases hs
    split at hs
    case isFalse => cases hs
    split at hs <;> obtain ⟨-, rfl⟩ := Prod.mk.inj (Option.some.inj hs) <;>
      cases List.mem_singleton.mp h
  | returnBarrier b =>
    simp only [HistoryQueueRun.attempt, HistoryQueueRun.returnBarrier] at hs
    split at hs
    case h_2 => cases hs
    split at hs
    case isFalse => cases hs
    obtain ⟨-, rfl⟩ := Prod.mk.inj (Option.some.inj hs)
    rcases List.mem_cons.mp h with heq | hin
    · cases heq
    · split at hin
      · unfold unblock at hin
        dsimp only at hin
        split at hin
        · cases mem_enqueue hin
        · cases hin
      · cases hin
  | resumeFlush f =>
    simp only [HistoryQueueRun.attempt, HistoryQueueRun.resumeFlush] at hs
    split at hs
    case h_2 => cases hs
    split at hs
    · obtain ⟨-, rfl⟩ := Prod.mk.inj (Option.some.inj hs)
      cases List.mem_singleton.mp h
    split at hs
    case isFalse => cases hs
    split at hs <;> obtain ⟨-, rfl⟩ := Prod.mk.inj (Option.some.inj hs)
    · exact absurd h (hreport _ _)
    · exact absurd h (hround _ _ _)

theorem queued_of_step {q : HistoryQueueRun} {a : QueueAction} {r : String} {n : ℕ}
    (h : .queued r n ∈ (q.step a).2) : a = .queue r := by
  unfold HistoryQueueRun.step at h
  cases hs : q.attempt a with
  | none =>
    rw [hs] at h
    cases h
  | some x =>
    rw [hs] at h
    exact queued_of_attempt hs h

/-- Nothing is queued without a call. -/
theorem queued_historyAfter {start r n} (hcalls : ∀ k ≥ start, schedule k ≠ .queue r) {k : ℕ}
    (hk : start ≤ k) (h : .queued r n ∈ (historyAfter schedule k).2) :
    .queued r n ∈ (historyAfter schedule start).2 := by
  induction k, hk using Nat.le_induction with
  | base => exact h
  | succ k hk ih =>
    rw [historyAfter_succ] at h
    rcases List.mem_append.mp h with hold | hnew
    · exact ih hold
    · exact absurd (queued_of_step hnew) (hcalls k hk)

theorem subset_historyAfter {start k : ℕ} (hk : start ≤ k) :
    (historyAfter schedule start).2 ⊆ (historyAfter schedule k).2 := by
  induction k, hk using Nat.le_induction with
  | base => exact List.Subset.refl _
  | succ k hk ih =>
    rw [historyAfter_succ]
    exact List.subset_append_of_subset_left _ ih

/-- **Fairness brings a room to its end.** -/
theorem exists_stuck (hfair : Fair schedule) {start : ℕ} {r : String}
    (hcalls : ∀ k ≥ start, schedule k ≠ .queue r ∧ schedule k ≠ .withBarrier r) :
    ∃ k ≥ start, Stuck (historyAfter schedule k).1 r := by
  refine Machine.exists_of_measure (μ := fun k ↦ ((historyAfter schedule k).1.work r).toNat) ?_ ?_
  · intro k hk _
    rw [historyAfter_succ]
    have hle := work_step_le (q := (historyAfter schedule k).1) (hcalls k hk).1 (hcalls k hk).2
    exact Int.toNat_le_toNat hle
  · intro k _ hnot
    obtain ⟨k', hk', hcompletes⟩ := hfair k r hnot
    refine ⟨k', hk', ?_⟩
    rw [historyAfter_succ]
    have hfalls := (falls_of_completes hcompletes).room
    have hnonneg := work_nonneg ((historyAfter schedule k').1.step (schedule k')).1 r
    dsimp only
    omega

/-- **The contract of the write queue.** -/
theorem writeQueue_contract (schedule : ℕ → QueueAction) : WriteQueueContract schedule where
  exclusive := fun k ↦ (sound_historyAfter schedule k).exclusive
  ordered := fun k r ↦ ((sound_historyAfter schedule k).room r).logged.order
  kept := fun k _ _ ↦ (sound_historyAfter schedule k).newest_kept
  eventually := by
    intro hfair start r n hn hcalls
    obtain ⟨k, hk, hstuck⟩ := exists_stuck hfair hcalls
    have hnewest : Newest r n (historyAfter schedule k).2 :=
      ⟨subset_historyAfter hk hn.queued, fun m hm ↦
        hn.newest m (queued_historyAfter (fun k hk ↦ (hcalls k hk).1) hk hm)⟩
    exact ⟨k, hk, ((sound_historyAfter schedule k).newest_handed hstuck hnewest).symm⟩
  flushed := fun k ↦ (sound_historyAfter schedule k).flushed

end Schedules

/-! ### A snapshot that is queued while a barrier runs -/

/-- A barrier that was called after a snapshot was queued has succeeded. -/
def CalledAfter (log : List QueueEvent) (r : String) (n : ℕ) : Prop :=
  ∃ before after b, log = before ++ after ∧ .queued r n ∈ before ∧ .barrierCalled r b ∈ after ∧
    .barrierSucceeded r b ∈ after

/-- A snapshot is queued while the history of its room is being deleted; nothing else happens. -/
@[grind =] def droppedSchedule (k : ℕ) : QueueAction :=
  [QueueAction.withBarrier "room-a", .runBarrier 0, .queue "room-a", .operationSettles 0 true,
    .returnBarrier 0].getD k (.resumeFlush 0)

theorem historyAfter_dropped {k : ℕ} (hk : 5 ≤ k) :
    historyAfter droppedSchedule k = historyAfter droppedSchedule 5 := by
  induction k, hk using Nat.le_induction with
  | base => rfl
  | succ k hk ih =>
    have hidle : droppedSchedule k = .resumeFlush 0 := by
      unfold droppedSchedule
      rw [List.getD_eq_getElem?_getD, List.getElem?_eq_none (by simpa using hk), Option.getD_none]
    rw [historyAfter_succ, ih, hidle]
    rfl

/-- What a room has in progress comes from an event of the room. -/
theorem Sound.event_of_completes {q : HistoryQueueRun} {log : List QueueEvent} (h : Sound q log)
    {r : String} {a : QueueAction} (hcompletes : q.Completes r a) :
    ∃ e ∈ log, e.roomId = some r := by
  by_contra hnone
  have hno : ∀ e ∈ log, e.roomId ≠ some r := fun e he heq ↦ hnone ⟨e, he, heq⟩
  have hroom := h.room r
  have hwriter : q.writers.get r = none := by
    refine hroom.writing.writer_eq_none ?_
    cases hactive : (q.line r).active with
    | none => rfl
    | some a => exact absurd rfl (hno _ (hroom.logged.active a hactive).1)
  have hcall : ∀ {b}, (q.barrierCalls.get b).map (·.roomId) ≠ some r := by
    intro b hb
    obtain ⟨c, hget, hroomId⟩ := Option.map_eq_some_iff.mp hb
    have hline := line_call_eq.mpr ⟨hget, hroomId⟩
    exact hno _ (hroom.recorded.opened b (by rw [hline]; rfl)).1 rfl
  obtain ⟨hsome, hroomOf⟩ := hcompletes
  cases a with
  | saveSettles r₀ succeeded threw =>
    obtain rfl := Option.some.inj hroomOf
    simp [HistoryQueueRun.attempt, HistoryQueueRun.saveSettles, hwriter] at hsome
  | finishSave r₀ =>
    obtain rfl := Option.some.inj hroomOf
    simp [HistoryQueueRun.attempt, HistoryQueueRun.finishSave, hwriter] at hsome
  | runBarrier b => exact hcall hroomOf
  | resumeBarrier b => exact hcall hroomOf
  | operationSettles b succeeded => exact hcall hroomOf
  | returnBarrier b => exact hcall hroomOf
  | queue r₀ => cases hroomOf
  | withBarrier r₀ => cases hroomOf
  | flush target => cases hroomOf
  | resumeFlush f => cases hroomOf

/-- In the end nothing is in progress. -/
theorem stuck_dropped (r : String) : Stuck (historyAfter droppedSchedule 5).1 r := by
  intro a hcompletes
  obtain ⟨e, he, hroom⟩ := (sound_historyAfter droppedSchedule 5).event_of_completes hcompletes
  have hall : ∀ e ∈ (historyAfter droppedSchedule 5).2, e.roomId = some "room-a" := by
    decide
  obtain rfl : "room-a" = r := Option.some.inj ((hall e he).symm.trans hroom)
  have hwriter : (historyAfter droppedSchedule 5).1.writers.get "room-a" = none := by
    decide
  have hcalls : ∀ b, (historyAfter droppedSchedule 5).1.barrierCalls.get b = none := by
    have hempty : (historyAfter droppedSchedule 5).1.barrierCalls.size = 0 := by decide
    intro b
    rw [InsertionMap.eq_empty_of_size_eq_zero hempty]
    rfl
  obtain ⟨hsome, hroomOf⟩ := hcompletes
  cases a with
  | saveSettles r₀ succeeded threw =>
    obtain rfl := Option.some.inj hroomOf
    simp [HistoryQueueRun.attempt, HistoryQueueRun.saveSettles, hwriter] at hsome
  | finishSave r₀ =>
    obtain rfl := Option.some.inj hroomOf
    simp [HistoryQueueRun.attempt, HistoryQueueRun.finishSave, hwriter] at hsome
  | runBarrier b => simp [completionRoom, hcalls] at hroomOf
  | resumeBarrier b => simp [completionRoom, hcalls] at hroomOf
  | operationSettles b succeeded => simp [completionRoom, hcalls] at hroomOf
  | returnBarrier b => simp [completionRoom, hcalls] at hroomOf
  | queue r₀ => cases hroomOf
  | withBarrier r₀ => cases hroomOf
  | flush target => cases hroomOf
  | resumeFlush f => cases hroomOf

theorem fair_dropped : Fair droppedSchedule := by
  intro k r hnot
  by_cases hk : 5 ≤ k
  · rw [historyAfter_dropped hk] at hnot
    exact absurd (stuck_dropped r) hnot
  · refine ⟨4, by omega, ?_⟩
    simp only [Stuck, not_forall, not_not] at hnot
    obtain ⟨a, hcompletes⟩ := hnot
    obtain ⟨e, he, hroom⟩ := (sound_historyAfter droppedSchedule k).event_of_completes hcompletes
    have hall : ∀ e ∈ (historyAfter droppedSchedule 5).2, e.roomId = some "room-a" := by
      decide
    have hin := subset_historyAfter (show k ≤ 5 by omega) he
    obtain rfl : "room-a" = r := Option.some.inj ((hall e hin).symm.trans hroom)
    exact ⟨by decide, by decide⟩

/-- **A running barrier drops a snapshot** that is queued after it was called. -/
theorem dropped_by_running_barrier : ¬EventuallyHanded CalledAfter droppedSchedule := by
  intro h
  have hlog : (historyAfter droppedSchedule 5).2 = [.barrierCalled "room-a" 0,
      .operationStarted "room-a" 0, .queued "room-a" 1, .barrierSucceeded "room-a" 0,
      .barrierReturned "room-a" 0] := by
    decide
  have hnewest : Newest "room-a" 1 (historyAfter droppedSchedule 5).2 := by
    rw [hlog]
    exact ⟨by simp, by simp⟩
  have hcalls : ∀ k ≥ 5, droppedSchedule k ≠ .queue "room-a" ∧
      droppedSchedule k ≠ .withBarrier "room-a" := by
    intro k hk
    unfold droppedSchedule
    rw [List.getD_eq_getElem?_getD, List.getElem?_eq_none (by simpa using hk), Option.getD_none]
    exact ⟨nofun, nofun⟩
  obtain ⟨k, hk, hend⟩ := h 5 "room-a" 1 hnewest hcalls
  rw [historyAfter_dropped hk, hlog] at hend
  rcases hend with hhanded | ⟨before, after, b, heq, hqueued, hcalled, -⟩
  · simp at hhanded
  · -- The only call of a barrier is the first event.
    cases before with
    | nil => cases hqueued
    | cons e before =>
      rw [List.cons_append] at heq
      obtain ⟨-, hrest⟩ := List.cons.inj heq
      have hin := List.mem_append_right before hcalled
      rw [← hrest] at hin
      simp at hin

end MultAIplayer.Desktop
