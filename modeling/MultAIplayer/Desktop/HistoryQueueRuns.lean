import MultAIplayer.Desktop.HistoryLines

/-!
# Runs of the history write queue

An action changes the line of one room at most (`Sound.act`), or it is a step of a flush, which
takes away failures that it reports (`Sound.flushStep`). So the invariants of the lines hold after
every run (`sound_run`), and when a flush resolves, the rooms that it covers are drained.
-/

namespace MultAIplayer.Desktop

open QueueEvent

/-! ### The invariant of a run -/

structure RoomSound (r : String) (l : RoomLine) (promises : ℕ → Option Bool) (next : ℕ)
    (log : List QueueEvent) : Prop where
  chained : Chained l
  writing : Writing l promises
  logged : Logged r l promises log
  kept : Kept r l log
  recorded : Recorded r l next log

/-- Every snapshot that had been queued for a room, none of whose barriers was in progress, is
obsolete, or it or a newer one has been saved or has failed with an error that a flush has
thrown. -/
def Drained (r : String) (log : List QueueEvent) : Prop :=
  (∀ b, .barrierCalled r b ∈ log → .barrierReturned r b ∈ log) →
    ∀ n, .queued r n ∈ log → SucceededAfter log r n ∨ ∃ n' ≥ n, .queued r n' ∈ log ∧
      (.saved r n' ∈ log ∨ .saveFailed r n' ∈ log ∧ Reported log n')

/-- The rooms that a flush covers. -/
def Covers (target : Option String) (r : String) : Prop := ∀ roomId ∈ target, roomId = r

/-- What was true when a flush resolved. -/
def Flushed (log : List QueueEvent) : Prop :=
  ∀ before f target after, log = before ++ .flushResolved f target :: after →
    ∀ r, Covers target r → Drained r before

structure Sound (q : HistoryQueueRun) (log : List QueueEvent) : Prop where
  room : ∀ r, RoomSound r (q.line r) q.promises q.next log
  owner : ∀ r r' n, .queued r n ∈ log → .queued r' n ∈ log → r = r'
  queued_lt : ∀ r n, .queued r n ∈ log → n < q.next
  promised : ∀ n, (q.promises n).isSome → ∃ r, .handed r n ∈ log
  call_lt : ∀ b, (q.barrierCalls.get b).isSome → b < q.next
  previous : ∀ b c p cp, q.barrierCalls.get b = some c → c.previous = some p →
    q.barrierCalls.get p = some cp → cp.roomId = c.roomId
  flushed : Flushed log

/-- The room of an event. -/
@[grind =] def QueueEvent.roomId : QueueEvent → Option String
  | .queued r _ | .handed r _ | .saved r _ | .saveFailed r _ | .barrierCalled r _
  | .operationStarted r _ | .barrierSucceeded r _ | .barrierFailed r _ | .barrierReturned r _ =>
    some r
  | .flushResolved _ _ | .flushFailed _ _ | .flushThrew _ => none

section Frame

variable {r : String} {l : RoomLine} {p p' : ℕ → Option Bool} {next next' : ℕ}
  {log new : List QueueEvent}

theorem quiet_of_foreign {e : QueueEvent} (h : e.roomId ≠ some r) : Quiet r e := by
  cases e <;> first | trivial | exact fun heq ↦ h (congrArg some heq)

theorem calm_of_foreign {e : QueueEvent} (h : e.roomId ≠ some r) : Calm r e := by
  cases e <;> first | trivial | exact fun heq ↦ h (congrArg some heq)

/-- What happens to other rooms leaves a room as it is. -/
theorem RoomSound.frame (h : RoomSound r l p next log) (hnew : ∀ e ∈ new, e.roomId ≠ some r)
    (hp : ∀ n, (p n).isSome → (p' n).isSome) (hmine : ∀ n, .queued r n ∈ log → p' n = p n)
    (hnext : next ≤ next') : RoomSound r l p' next' (log ++ new) where
  chained := h.chained
  writing := by
    refine h.writing.congr rfl id h.writing.blockedPending (fun a ha ↦ ?_) fun b c hb ↦
      (h.writing.phases b c hb).mono rfl hp
    rw [hmine _ (h.logged.handed _ (h.logged.active a ha).1).1]
    exact h.writing.unsettled a ha
  logged := by
    have hquiet : ∀ e ∈ new, Quiet r e := fun e he ↦ quiet_of_foreign (hnew e he)
    refine h.logged.append hquiet (fun _ ↦ id) (fun _ ↦ id) (fun n hn ↦ ?_) fun _ ↦ id
    have hwaits := h.logged.held n hn
    exact hwaits.append hquiet ((hmine n hwaits.queued).trans hwaits.unsettled)
  kept := h.kept.append (fun n hn ↦ ⟨n, le_rfl, hn.append id id .inl⟩) fun n hn ↦
    absurd rfl (hnew _ hn)
  recorded := h.recorded.append (fun e he ↦ calm_of_foreign (hnew e he)) rfl hnext

end Frame

namespace HistoryQueueRun

variable {q : HistoryQueueRun} {r r' : String}

theorem line_setWriters_of_ne (hne : r' ≠ r) (w : RoomHistoryWriter) :
    line { q with writers := q.writers.set r w } r' = q.line r' := by
  unfold line
  rw [InsertionMap.get_set_of_ne _ _ hne]

/-- The calls of a room after one of them is set. -/
theorem call_set_self (b : ℕ) (c : BarrierCall) (hroom : c.roomId = r) :
    (fun b' ↦ ((q.barrierCalls.set b c).get b').filter (·.roomId = r)) =
      Function.update (q.line r).call b (some c) := by
  funext b'
  by_cases hb : b' = b
  · subst hb
    rw [InsertionMap.get_set_self, Function.update_self]
    simp [hroom]
  · rw [InsertionMap.get_set_of_ne _ _ hb, Function.update_of_ne hb]
    rfl

theorem call_set_of_ne {b : ℕ} {c : BarrierCall} (hroom : c.roomId = r) (hne : r' ≠ r)
    (hold : ∀ c', q.barrierCalls.get b = some c' → c'.roomId = r) :
    (fun b' ↦ ((q.barrierCalls.set b c).get b').filter (·.roomId = r')) = (q.line r').call := by
  funext b'
  by_cases hb : b' = b
  · subst hb
    rw [InsertionMap.get_set_self]
    show _ = (q.barrierCalls.get b').filter _
    rw [Option.filter_some, if_neg (by simpa [hroom] using Ne.symm hne)]
    cases hget : q.barrierCalls.get b' with
    | none => rfl
    | some c' => rw [Option.filter_some, if_neg (by simpa [hold c' hget] using Ne.symm hne)]
  · rw [InsertionMap.get_set_of_ne _ _ hb]
    rfl

theorem call_delete_self (b : ℕ) :
    (fun b' ↦ ((q.barrierCalls.delete b).get b').filter (·.roomId = r)) =
      Function.update (q.line r).call b none := by
  funext b'
  by_cases hb : b' = b
  · subst hb
    rw [InsertionMap.get_delete_self, Function.update_self]
    rfl
  · rw [InsertionMap.get_delete_of_ne _ hb, Function.update_of_ne hb]
    rfl

theorem call_delete_of_ne {b : ℕ} {c : BarrierCall} (hb : q.barrierCalls.get b = some c)
    (hne : r' ≠ c.roomId) :
    (fun b' ↦ ((q.barrierCalls.delete b).get b').filter (·.roomId = r')) = (q.line r').call := by
  funext b'
  by_cases heq : b' = b
  · subst heq
    rw [InsertionMap.get_delete_self]
    show _ = (q.barrierCalls.get b').filter _
    rw [hb, Option.filter_some, if_neg (by simpa using Ne.symm hne)]
    rfl
  · rw [InsertionMap.get_delete_of_ne _ heq]
    rfl

theorem line_call_eq {b : ℕ} {c : BarrierCall} :
    (q.line r).call b = some c ↔ q.barrierCalls.get b = some c ∧ c.roomId = r := by
  show (q.barrierCalls.get b).filter _ = some c ↔ _
  rw [Option.filter_eq_some_iff]
  simp

/-! ### Queueing -/

/-- The only thing that `enqueue` changes is the line of its room. -/
theorem line_enqueue_of_ne (q : HistoryQueueRun) (n : ℕ) (hne : r' ≠ r) :
    (q.enqueue r n).1.line r' = q.line r' := by
  unfold enqueue start
  split
  · unfold line
    rw [InsertionMap.get_set_of_ne _ _ hne]
  dsimp only
  split
  · exact line_setWriters_of_ne hne _
  · exact line_setWriters_of_ne hne _

theorem enqueue_rest (q : HistoryQueueRun) (n : ℕ) :
    (q.enqueue r n).1.promises = q.promises ∧ (q.enqueue r n).1.next = q.next ∧
      (q.enqueue r n).1.barrierCalls = q.barrierCalls := by
  unfold enqueue start
  split
  · exact ⟨rfl, rfl, rfl⟩
  dsimp only
  split
  · exact ⟨rfl, rfl, rfl⟩
  · exact ⟨rfl, rfl, rfl⟩

theorem mem_enqueue {q : HistoryQueueRun} {n : ℕ} {e : QueueEvent} (he : e ∈ (q.enqueue r n).2) :
    e = .handed r n := by
  unfold enqueue start at he
  split at he
  · cases he
  dsimp only at he
  split at he
  · cases he
  · exact List.mem_singleton.mp he

end HistoryQueueRun

open HistoryQueueRun

section Actions

variable {q : HistoryQueueRun} {r r' : String} {log : List QueueEvent}

/-- The newest snapshot takes the place of those that wait. -/
theorem kept_of_newest {l l' : RoomLine} {new : List QueueEvent} {n : ℕ}
    (hkept : ∀ k, .queued r k ∈ log →
      SucceededAfter log r k ∨ ∃ n' ≥ k, n' = n ∨ Dealt r l log n')
    (hnew : ∀ k, .queued r k ∉ new) (hheld : ∀ m, l.Held m → m ≤ n)
    (hactive : ∀ m, l.active = some ⟨m, .saving⟩ → l'.active = some ⟨m, .saving⟩)
    (hfailure : l'.failure = l.failure) (hn : Dealt r l' (log ++ new) n) :
    Kept r l' (log ++ new) := by
  intro k hk
  have hin : .queued r k ∈ log := (List.mem_append.mp hk).resolve_right (hnew k)
  rcases hkept k hin with hsucceeded | ⟨n', hle, rfl | hdealt⟩
  · exact .inl hsucceeded.append
  · exact .inr ⟨n', hle, hn⟩
  · by_cases hwaits : l.Held n'
    · exact .inr ⟨n, hle.trans (hheld n' hwaits), hn⟩
    · exact .inr ⟨n', hle, hdealt.append (fun h ↦ absurd h hwaits) (hactive n')
        fun h ↦ .inl (hfailure.trans h)⟩

/-- What `enqueue` makes of the line of its room. -/
theorem RoomSound.enqueue {n : ℕ} (hchained : Chained (q.line r))
    (hwriting : Writing (q.line r) q.promises) (hlogged : Logged r (q.line r) q.promises log)
    (hrecorded : Recorded r (q.line r) q.next log) (hn : Waits r q.promises log n)
    (hheld : ∀ m, (q.line r).Held m → m ≤ n)
    (hkept : ∀ k, .queued r k ∈ log →
      SucceededAfter log r k ∨ ∃ n' ≥ k, n' = n ∨ Dealt r (q.line r) log n') :
    RoomSound r ((q.enqueue r n).1.line r) q.promises q.next (log ++ (q.enqueue r n).2) := by
  unfold HistoryQueueRun.enqueue start
  split
  · -- The room is blocked, and its writer has nothing pending.
    next hblocked =>
    have hline : line { q with blockedPending := q.blockedPending.set r n } r =
        { q.line r with blockedPending := some n } := by
      unfold line
      rw [InsertionMap.get_set_self]
    rw [hline]
    have hpending := hwriting.pending (decide_eq_true hblocked)
    have hwaits : ∀ m, RoomLine.Held { q.line r with blockedPending := some n } m → m = n := by
      rintro m (hm | hm)
      · exact (Option.some.inj hm).symm
      · rw [hpending] at hm
        cases hm
    refine ⟨hchained.congr rfl rfl rfl, ?_, ?_, ?_, ?_⟩
    · refine hwriting.congr rfl id (fun hopen ↦ ?_) hwriting.unsettled fun b c hb ↦
        (hwriting.phases b c hb).mono rfl fun _ ↦ id
      rw [show (q.line r).blocked = true from decide_eq_true hblocked] at hopen
      cases hopen
    · refine hlogged.append (by simp) (fun _ ↦ id) (fun _ ↦ id) (fun m hm ↦ ?_) fun _ ↦ id
      rw [hwaits m hm]
      exact hn.append (by simp) hn.unsettled
    · exact kept_of_newest hkept (by simp) hheld (fun _ ↦ id) rfl (.held (.inl rfl))
    · exact hrecorded.append (by simp) rfl le_rfl
  · next hopen =>
    have hblocked : (q.line r).blocked = false := decide_eq_false hopen
    have hnone := hwriting.blockedPending hblocked
    dsimp only
    split
    · -- A save is active, and the snapshot waits for it.
      next hactive =>
      obtain ⟨w, hw⟩ : ∃ w, q.writers.get r = some w := by
        cases hget : q.writers.get r with
        | none =>
          rw [hget] at hactive
          cases hactive
        | some w => exact ⟨w, rfl⟩
      rw [hw, Option.getD_some]
      have hline : line { q with writers := q.writers.set r { w with pending := some n } } r =
          { q.line r with writer := some { w with pending := some n } } := by
        unfold line
        rw [InsertionMap.get_set_self]
      rw [hline]
      have hsame : RoomLine.active { q.line r with writer := some { w with pending := some n } } =
          (q.line r).active := by
        show w.active = (q.writers.get r).bind _
        rw [hw]
        rfl
      have hwaits : ∀ m, RoomLine.Held
          { q.line r with writer := some { w with pending := some n } } m → m = n := by
        rintro m (hm | hm)
        · rw [hnone] at hm
          cases hm
        · exact (Option.some.inj hm).symm
      refine ⟨hchained.congr rfl rfl rfl, ?_, ?_, ?_, ?_⟩
      · refine hwriting.rewritten hw rfl rfl rfl rfl (fun hb ↦ ?_) rfl
        rw [hblocked] at hb
        cases hb
      · refine hlogged.append (by simp) (fun _ ha ↦ hsame ▸ ha) (fun _ ha ↦ hsame ▸ ha)
          (fun m hm ↦ ?_) fun _ ↦ id
        rw [hwaits m hm]
        exact hn.append (by simp) hn.unsettled
      · exact kept_of_newest hkept (by simp) hheld (fun _ ha ↦ hsame ▸ ha) rfl (.held (.inr rfl))
      · exact hrecorded.append (by simp) rfl le_rfl
    · -- Nothing is active, and the snapshot is handed over.
      next hactive =>
      have hidle : (q.line r).active = none := by
        show (q.writers.get r).bind _ = none
        cases hget : q.writers.get r with
        | none => rfl
        | some w =>
          rw [hget] at hactive
          simpa using hactive
      have hwriter : q.writers.get r = none := hwriting.writer_eq_none hidle
      rw [hwriter, Option.getD_none]
      have hline : line { q with
          writers := q.writers.set r { active := some ⟨n, .saving⟩, pending := none } } r =
            { q.line r with writer := some ⟨some ⟨n, .saving⟩, none⟩ } := by
        unfold line
        rw [InsertionMap.get_set_self]
      have hempty : ∀ m, ¬RoomLine.Held
          { q.line r with writer := some ⟨some ⟨n, .saving⟩, none⟩ } m := by
        rintro m (hm | hm)
        · rw [hnone] at hm
          cases hm
        · cases hm
      rw [hline]
      refine ⟨hchained.congr rfl rfl rfl, ?_, ?_, ?_, ?_⟩
      · refine .started rfl hn.unsettled hnone fun b c hb ↦ ?_
        by_contra hunsettled
        rw [hchained.blocked_of_unsettled hb hunsettled] at hblocked
        cases hblocked
      · refine hlogged.started hn (fun m hm ↦ ?_) rfl hempty rfl
        rw [hidle] at hm
        cases hm
      · refine kept_of_newest hkept (by simp) hheld (fun m hm ↦ ?_) rfl (.active rfl)
        rw [hidle] at hm
        cases hm
      · exact hrecorded.append (by simp [Calm]) rfl le_rfl

/-! ### The actions of a room -/

/-- A flush that resolved has resolved. -/
theorem Flushed.append {new : List QueueEvent} (h : Flushed log)
    (hnew : ∀ f target, .flushResolved f target ∉ new) : Flushed (log ++ new) := by
  intro before f target after heq r hcovers
  rcases List.append_eq_append_iff.mp heq with ⟨mid, -, hin⟩ | ⟨mid, hold, hrest⟩
  · exact absurd (hin ▸ List.mem_append_right _ List.mem_cons_self) (hnew f target)
  cases mid with
  | nil =>
    rw [List.nil_append] at hrest
    exact absurd (hrest ▸ List.mem_cons_self) (hnew f target)
  | cons e mid =>
    obtain ⟨rfl, -⟩ := List.cons.inj hrest
    exact h before f target mid hold r hcovers

/-- **An action of one room.** -/
theorem Sound.act {q' : HistoryQueueRun} {new : List QueueEvent} (h : Sound q log)
    (hroom : RoomSound r (q'.line r) q'.promises q'.next (log ++ new))
    (hother : ∀ r' ≠ r, q'.line r' = q.line r') (hnew : ∀ e ∈ new, e.roomId = some r)
    (hpromises : ∀ n, q'.promises n = q.promises n ∨
      .handed r n ∈ log ∧ (q'.promises n).isSome)
    (hnext : q.next ≤ q'.next)
    (hqueued : ∀ n, .queued r n ∈ new → n = q.next ∧ q.next < q'.next)
    (hcall : ∀ b, (q'.barrierCalls.get b).isSome → b < q'.next)
    (hprevious : ∀ b c p cp, q'.barrierCalls.get b = some c → c.previous = some p →
      q'.barrierCalls.get p = some cp → cp.roomId = c.roomId) :
    Sound q' (log ++ new) := by
  have hroomOf : ∀ {r₁ n}, .queued r₁ n ∈ new → r₁ = r := fun hin ↦ Option.some.inj (hnew _ hin)
  refine ⟨fun r' ↦ ?_, fun r₁ r₂ n h₁ h₂ ↦ ?_, fun r' n hn ↦ ?_, fun n hn ↦ ?_, hcall, hprevious,
    h.flushed.append fun f target hin ↦ ?_⟩
  · by_cases hr : r' = r
    · subst hr
      exact hroom
    · rw [hother r' hr]
      refine (h.room r').frame (fun e he heq ↦ ?_) (fun n hn ↦ ?_) (fun n hn ↦ ?_) hnext
      · exact hr (Option.some.inj (heq.symm.trans (hnew e he)))
      · rcases hpromises n with hsame | ⟨-, hsome⟩
        · rw [hsame]
          exact hn
        · exact hsome
      · refine (hpromises n).resolve_right fun ⟨hhanded, _⟩ ↦ hr ?_
        exact h.owner r' r n hn ((h.room r).logged.handed n hhanded).1
  · rcases List.mem_append.mp h₁ with h₁ | h₁ <;> rcases List.mem_append.mp h₂ with h₂ | h₂
    · exact h.owner r₁ r₂ n h₁ h₂
    · have hlt := h.queued_lt r₁ n h₁
      obtain rfl := hroomOf h₂
      have := (hqueued n h₂).1
      omega
    · have hlt := h.queued_lt r₂ n h₂
      obtain rfl := hroomOf h₁
      have := (hqueued n h₁).1
      omega
    · rw [hroomOf h₁, hroomOf h₂]
  · rcases List.mem_append.mp hn with hin | hin
    · exact (h.queued_lt r' n hin).trans_le hnext
    · obtain rfl := hroomOf hin
      obtain ⟨rfl, hlt⟩ := hqueued n hin
      exact hlt
  · rcases hpromises n with hsame | ⟨hhanded, -⟩
    · rw [hsame] at hn
      obtain ⟨r', hr'⟩ := h.promised n hn
      exact ⟨r', List.mem_append_left _ hr'⟩
    · exact ⟨r, List.mem_append_left _ hhanded⟩
  · cases hnew _ hin

/-- The next number is that of no snapshot. -/
theorem Sound.promises_next (h : Sound q log) : q.promises q.next = none := by
  cases hp : q.promises q.next with
  | none => rfl
  | some x =>
    obtain ⟨r', hr'⟩ := h.promised q.next (by rw [hp]; rfl)
    have hlt := h.queued_lt r' _ ((h.room r').logged.handed _ hr').1
    omega

theorem Sound.queue (h : Sound q log) (r : String) :
    Sound (q.queue r).1 (log ++ (q.queue r).2) := by
  have hroom := h.room r
  have hlt : ∀ m, .queued r m ∈ log → m < q.next := h.queued_lt r
  have hquiet : ∀ e ∈ [QueueEvent.queued r q.next], Quiet r e := by simp [Quiet]
  obtain ⟨hpromises, hnext, hcalls⟩ := enqueue_rest (r := r) { q with next := q.next + 1 } q.next
  show Sound (enqueue { q with next := q.next + 1 } r q.next).1
    (log ++ ([.queued r q.next] ++ (enqueue { q with next := q.next + 1 } r q.next).2))
  refine h.act (r := r) ?_ (fun r' hr' ↦ ?_) (fun e he ↦ ?_) (fun n ↦ .inl ?_) ?_ (fun n hn ↦ ?_)
    ?_ ?_
  · rw [hpromises, hnext, ← List.append_assoc]
    refine RoomSound.enqueue hroom.chained hroom.writing ?_ ?_ ⟨by simp, h.promises_next, ?_⟩ ?_ ?_
    · exact hroom.logged.append hquiet (fun _ ↦ id) (fun _ ↦ id)
        (fun m hm ↦ (hroom.logged.held m hm).append hquiet (hroom.logged.held m hm).unsettled)
        fun _ ↦ id
    · exact hroom.recorded.append (by simp [Calm]) rfl (Nat.le_succ _)
    · intro m hm
      exact hlt m (hroom.logged.handed m (by simpa using hm)).1
    · exact fun m hm ↦ (hlt m (hroom.logged.held m hm).queued).le
    · intro k hk
      simp only [List.mem_append, List.mem_singleton, QueueEvent.queued.injEq, true_and] at hk
      rcases hk with hin | rfl
      · rcases hroom.kept k hin with hsucceeded | ⟨n', hle, hdealt⟩
        · exact .inl hsucceeded.append
        · exact .inr ⟨n', hle, .inr (hdealt.append id id .inl)⟩
      · exact .inr ⟨_, le_rfl, .inl rfl⟩
  · exact line_enqueue_of_ne _ _ hr'
  · rcases List.mem_append.mp he with hin | hin
    · rw [List.mem_singleton.mp hin]
      rfl
    · rw [mem_enqueue hin]
      rfl
  · rw [hpromises]
  · rw [hnext]
    exact Nat.le_succ _
  · rw [hnext]
    rcases List.mem_append.mp hn with hin | hin
    · obtain ⟨-, rfl⟩ := QueueEvent.queued.inj (List.mem_singleton.mp hin)
      exact ⟨rfl, Nat.lt_succ_self _⟩
    · cases mem_enqueue hin
  · rw [hnext, hcalls]
    exact fun b hb ↦ (h.call_lt b hb).trans (Nat.lt_succ_self _)
  · rw [hcalls]
    exact h.previous

/-- The line of a room after `withBarrier`. -/
theorem line_withBarrier (q : HistoryQueueRun) (r : String) :
    (q.withBarrier r).1.line r =
      { writer := (q.line r).writer.map fun w ↦ ⟨w.active, none⟩
        barrier := some q.next
        blocked := true
        blockedPending := ((q.line r).writer.bind (·.pending)).or (q.line r).blockedPending
        failure := (q.line r).failure
        call := Function.update (q.line r).call q.next
          (some ⟨r, (q.line r).barrier, .chained⟩) } := by
  have hcall := call_set_self (q := q) (r := r) q.next
    { roomId := r, previous := q.barriers.get r } rfl
  unfold HistoryQueueRun.withBarrier retainPending
  cases hw : q.writers.get r with
  | none => simp [line, hw, hcall]
  | some w =>
    obtain ⟨active, pending⟩ := w
    cases pending with
    | none => simp [line, hw, hcall]
    | some n => simp [line, hw, hcall]

theorem line_withBarrier_of_ne (h : Sound q log) (hne : r' ≠ r) :
    (q.withBarrier r).1.line r' = q.line r' := by
  have hcall := call_set_of_ne (q := q) (r := r) (b := q.next)
    (c := { roomId := r, previous := q.barriers.get r }) rfl hne fun c' hc' ↦ by
      have hlt := h.call_lt q.next (by rw [hc']; rfl)
      omega
  unfold HistoryQueueRun.withBarrier retainPending
  split
  · simp [line, InsertionMap.get_set_of_ne _ _ hne, hne, hcall]
  · simp [line, InsertionMap.get_set_of_ne _ _ hne, hne, hcall]

theorem withBarrier_rest (q : HistoryQueueRun) (r : String) :
    (q.withBarrier r).1.promises = q.promises ∧ (q.withBarrier r).1.next = q.next + 1 ∧
      (q.withBarrier r).1.barrierCalls =
        q.barrierCalls.set q.next { roomId := r, previous := q.barriers.get r } := by
  unfold HistoryQueueRun.withBarrier retainPending
  split <;> exact ⟨rfl, rfl, rfl⟩

/-- A room's barrier calls have smaller numbers than the next one. -/
theorem Sound.line_call_lt (h : Sound q log) {b : ℕ} (hb : ((q.line r).call b).isSome) :
    b < q.next := by
  obtain ⟨c, hc⟩ := Option.isSome_iff_exists.mp hb
  exact h.call_lt b (by rw [(line_call_eq.mp hc).1]; rfl)

theorem Sound.withBarrier (h : Sound q log) (r : String) :
    Sound (q.withBarrier r).1 (log ++ (q.withBarrier r).2) := by
  have hroom := h.room r
  obtain ⟨hpromises, hnext, hcalls⟩ := withBarrier_rest q r
  have hevents : (q.withBarrier r).2 = [.barrierCalled r q.next] := rfl
  have hquiet : ∀ e ∈ [QueueEvent.barrierCalled r q.next], Quiet r e := by simp [Quiet]
  have hlt : ∀ b', ((q.line r).call b').isSome → b' < q.next := fun b' ↦ h.line_call_lt
  rw [hevents]
  refine h.act (r := r) ?_ (fun r' hr' ↦ line_withBarrier_of_ne h hr') (by simp [roomId])
    (fun n ↦ .inl (by rw [hpromises])) (by rw [hnext]; exact Nat.le_succ _) (by simp) ?_ ?_
  · have hline := line_withBarrier q r
    rw [hpromises, hnext]
    generalize (q.withBarrier r).1.line r = l' at hline
    have hactive : l'.active = (q.line r).active := by
      rw [hline]
      show ((q.line r).writer.map _).bind _ = (q.line r).writer.bind _
      cases (q.line r).writer <;> rfl
    have hheld : ∀ m, l'.Held m ↔ (q.line r).Held m := by
      intro m
      have hnone : l'.writer.bind (·.pending) = none := by
        rw [hline]
        show ((q.line r).writer.map _).bind _ = none
        cases (q.line r).writer <;> rfl
      rw [RoomLine.Held, hnone, or_iff_left (by simp), hline]
      cases hw : (q.line r).writer.bind (·.pending) with
      | none => simp [RoomLine.Held, hw]
      | some k =>
        have hopen : (q.line r).blocked = false := by
          by_contra hblocked
          rw [hroom.writing.pending (by simpa using hblocked)] at hw
          cases hw
        simp [RoomLine.Held, hw, hroom.writing.blockedPending hopen]
    have hfailure : l'.failure = (q.line r).failure := by rw [hline]
    have hcall : l'.call = Function.update (q.line r).call q.next
        (some ⟨r, (q.line r).barrier, .chained⟩) := by rw [hline]
    refine ⟨hroom.chained.called hlt (by rw [hline]) (by rw [hline]) hcall,
      hroom.writing.called (by rw [hline]) (by rw [hline]) hcall rfl, ?_, ?_,
      hroom.recorded.call hlt hcall⟩
    · refine hroom.logged.append hquiet (fun a ha ↦ hactive ▸ ha) (fun n hn ↦ hactive ▸ hn)
        (fun m hm ↦ ?_) (fun n hn ↦ hfailure ▸ hn)
      have hwaits := hroom.logged.held m ((hheld m).mp hm)
      exact hwaits.append hquiet hwaits.unsettled
    · exact hroom.kept.append (fun n hn ↦ ⟨n, le_rfl, hn.append (hheld n).mpr
        (fun ha ↦ hactive ▸ ha) fun hf ↦ .inl (hfailure ▸ hf)⟩) (by simp)
  · rw [hnext, hcalls]
    intro b hb
    by_cases hne : b = q.next
    · omega
    · rw [InsertionMap.get_set_of_ne _ _ hne] at hb
      exact (h.call_lt b hb).trans (Nat.lt_succ_self _)
  · rw [hcalls]
    intro b c p cp hb hp hcp
    have hplt : p < q.next := by
      by_cases hne : b = q.next
      · subst hne
        rw [InsertionMap.get_set_self] at hb
        obtain rfl := Option.some.inj hb
        exact hlt p (hroom.chained.latest p hp).1
      · rw [InsertionMap.get_set_of_ne _ _ hne] at hb
        have hbroom := (h.room c.roomId).chained
        exact (hbroom.previous_lt b c p (line_call_eq.mpr ⟨hb, rfl⟩) hp).trans
          (h.call_lt b (by rw [hb]; rfl))
    rw [InsertionMap.get_set_of_ne _ _ hplt.ne] at hcp
    by_cases hne : b = q.next
    · subst hne
      rw [InsertionMap.get_set_self] at hb
      obtain rfl := Option.some.inj hb
      obtain ⟨cp', hcp'⟩ := Option.isSome_iff_exists.mp (hroom.chained.latest p hp).1
      obtain ⟨hget, hroomId⟩ := line_call_eq.mp hcp'
      rw [Option.some.inj (hcp.symm.trans hget)]
      exact hroomId
    · rw [InsertionMap.get_set_of_ne _ _ hne] at hb
      exact h.previous b c p cp hb hp hcp

/-- What a save that settles makes of the line of its room. -/
theorem RoomSound.settled {l l' : RoomLine} {p : ℕ → Option Bool} {next n : ℕ}
    {pending : Option ℕ} {e : QueueEvent} (h : RoomSound r l p next log) (threw : Bool)
    (hw : l.writer = some ⟨some ⟨n, .saving⟩, pending⟩)
    (hline : ∃ failure, l' =
      { l with writer := some ⟨some ⟨n, .settled threw⟩, pending⟩, failure := failure })
    (he : e = .saved r n ∧ l'.failure = none ∨ e = .saveFailed r n ∧ l'.failure = some n) :
    RoomSound r l' p next (log ++ [e]) := by
  obtain ⟨failure, rfl⟩ := hline
  have hsaving : l.active = some ⟨n, .saving⟩ := by
    rw [RoomLine.active, hw]
    rfl
  have hheld : ∀ m, l.Held m ↔ RoomLine.Held
      { l with writer := some ⟨some ⟨n, .settled threw⟩, pending⟩, failure := failure } m := by
    intro m
    simp [RoomLine.Held, hw]
  have hnewest : ∀ m, .saveFailed r m ∈ log → m ≤ n := fun m hm ↦
    (h.logged.active _ hsaving).2 m (h.logged.ended m (.inr hm))
  have hn : Dealt r { l with
      writer := some ⟨some ⟨n, .settled threw⟩, pending⟩, failure := failure } (log ++ [e]) n := by
    rcases he with ⟨rfl, -⟩ | ⟨rfl, hfailure⟩
    · exact .saved (by simp)
    · exact .failed (by simp) (.inl hfailure)
  refine ⟨h.chained.congr rfl rfl rfl, ?_, ?_, ?_, ?_⟩
  · refine h.writing.rewritten hw rfl rfl rfl rfl (fun hblocked ↦ ?_) rfl
    have hnone := h.writing.pending hblocked
    rw [hw] at hnone
    exact hnone
  · exact h.logged.settled hsaving rfl (fun m ↦ (hheld m).mpr) he
  · refine h.kept.append (fun m hm ↦ ?_) fun m hm ↦ ?_
    · cases hm with
      | held hm => exact ⟨m, le_rfl, .held ((hheld m).mp hm)⟩
      | active hm =>
        obtain rfl : n = m := by simpa using hsaving.symm.trans hm
        exact ⟨n, le_rfl, hn⟩
      | saved hm => exact ⟨m, le_rfl, .saved (List.mem_append_left _ hm)⟩
      | failed hm => exact ⟨n, hnewest m hm, hn⟩
    · rcases he with ⟨rfl, -⟩ | ⟨rfl, -⟩ <;> cases List.mem_singleton.mp hm
  · refine h.recorded.append (fun e' he' ↦ ?_) rfl le_rfl
    obtain rfl := List.mem_singleton.mp he'
    rcases he with ⟨rfl, -⟩ | ⟨rfl, -⟩ <;> trivial

theorem Sound.saveSettles (h : Sound q log) {succeeded threw : Bool} {q' : HistoryQueueRun}
    {new : List QueueEvent} (hs : q.saveSettles r succeeded threw = some (q', new)) :
    Sound q' (log ++ new) := by
  unfold HistoryQueueRun.saveSettles at hs
  split at hs
  case h_2 => cases hs
  next n pending hw =>
  dsimp only at hs
  split at hs
  all_goals
    obtain ⟨rfl, rfl⟩ := Prod.mk.inj (Option.some.inj hs)
    refine h.act (r := r) ?_ (fun r' hr' ↦ ?_) (by simp [roomId]) (fun _ ↦ .inl rfl) le_rfl
      (by simp) h.call_lt h.previous
  · refine (h.room r).settled threw hw ⟨none, ?_⟩ (.inl ⟨rfl, ?_⟩)
    · simp [line]
    · simp [line]
  · simp [line, InsertionMap.get_set_of_ne _ _ hr', InsertionMap.get_delete_of_ne _ hr']
  · refine (h.room r).settled threw hw ⟨some n, ?_⟩ (.inr ⟨rfl, ?_⟩)
    · simp [line]
    · simp [line]
  · simp [line, InsertionMap.get_set_of_ne _ _ hr']

/-- A save comes to its end, and nothing waits for it. -/
theorem RoomSound.finished {l : RoomLine} {p p' : ℕ → Option Bool} {next n : ℕ} {threw : Bool}
    (h : RoomSound r l p next log) (hw : l.writer = some ⟨some ⟨n, .settled threw⟩, none⟩)
    (hpn : (p' n).isSome) (hp : ∀ m, m ≠ n → p' m = p m) :
    RoomSound r { l with writer := none } p' next log := by
  have hactive : l.active = some ⟨n, .settled threw⟩ := by
    rw [RoomLine.active, hw]
    rfl
  have hheld : ∀ m, RoomLine.Held { l with writer := none } m → l.Held m := by
    rintro m (hm | hm)
    · exact .inl hm
    · cases hm
  have hnil := List.append_nil log
  refine ⟨h.chained.congr rfl rfl rfl, h.writing.finished hw rfl rfl hpn rfl rfl rfl, ?_, ?_, ?_⟩
  · rw [← hnil]
    refine h.logged.append nofun nofun (fun m hm ↦ ?_) (fun m hm ↦ ?_) fun _ ↦ id
    · rw [hactive] at hm
      cases hm
    · have hwaits := h.logged.held m (hheld m hm)
      have hlt := hwaits.newer n (h.logged.active _ hactive).1
      exact hwaits.append nofun ((hp m hlt.ne').trans hwaits.unsettled)
  · rw [← hnil]
    refine h.kept.append (fun m hm ↦ ⟨m, le_rfl, hm.append ?_ (fun ha ↦ ?_) .inl⟩) nofun
    · rintro (hm | hm)
      · exact .inl hm
      · rw [hw] at hm
        cases hm
    · rw [hactive] at ha
      cases ha
  · rw [← hnil]
    exact h.recorded.append nofun rfl le_rfl

/-- A save comes to its end, and the next one starts. -/
theorem RoomSound.restarted {l : RoomLine} {p p' : ℕ → Option Bool} {next n m : ℕ}
    {threw : Bool} (h : RoomSound r l p next log) (hblocked : l.blocked = false)
    (hw : l.writer = some ⟨some ⟨n, .settled threw⟩, some m⟩) (hp : ∀ m, m ≠ n → p' m = p m) :
    RoomSound r { l with writer := some ⟨some ⟨m, .saving⟩, none⟩ } p' next
      (log ++ [.handed r m]) := by
  have hactive : l.active = some ⟨n, .settled threw⟩ := by
    rw [RoomLine.active, hw]
    rfl
  have hnone := h.writing.blockedPending hblocked
  have hwaits : Waits r p log m := h.logged.held m (.inr (by rw [hw]; rfl))
  have hpm : p' m = none :=
    (hp m (hwaits.newer n (h.logged.active _ hactive).1).ne').trans hwaits.unsettled
  have hempty : ∀ writer : Option RoomHistoryWriter, writer.bind (·.pending) = none →
      ∀ k, ¬RoomLine.Held { l with writer := writer } k := by
    rintro writer hwriter k (hk | hk)
    · rw [hnone] at hk
      cases hk
    · rw [hwriter] at hk
      cases hk
  refine ⟨h.chained.congr rfl rfl rfl, .started rfl hpm hnone fun b c hb ↦ ?_, ?_, ?_,
    h.recorded.append (by simp [Calm]) rfl le_rfl⟩
  · by_contra hunsettled
    rw [h.chained.blocked_of_unsettled hb hunsettled] at hblocked
    cases hblocked
  · have hidle : Logged r { l with writer := none } p' log := by
      rw [← List.append_nil log]
      refine h.logged.append (by simp) (by simp [RoomLine.active]) (fun k hk ↦ ?_)
        (fun k hk ↦ absurd hk (hempty none rfl k)) fun _ ↦ id
      rw [hactive] at hk
      cases hk
    exact hidle.started ⟨hwaits.queued, hpm, hwaits.newer⟩ (by simp [RoomLine.active]) rfl
      (hempty _ rfl) rfl
  · refine h.kept.append (fun k hk ↦ ?_) (by simp)
    cases hk with
    | held hk =>
      rcases hk with hk | hk
      · rw [hnone] at hk
        cases hk
      · rw [hw] at hk
        obtain rfl := Option.some.inj hk
        exact ⟨m, le_rfl, .active rfl⟩
    | active hk =>
      rw [hactive] at hk
      cases hk
    | saved hk => exact ⟨k, le_rfl, .saved (List.mem_append_left _ hk)⟩
    | failed hk hknown =>
      exact ⟨k, le_rfl, .failed (List.mem_append_left _ hk) (hknown.imp_right (·.append))⟩

theorem Sound.finishSave (h : Sound q log) {q' : HistoryQueueRun} {new : List QueueEvent}
    (hs : q.finishSave r = some (q', new)) : Sound q' (log ++ new) := by
  have hroom := h.room r
  unfold HistoryQueueRun.finishSave at hs
  split at hs
  case h_2 => cases hs
  next n threw pending hw =>
  have hactive : (q.line r).active = some ⟨n, .settled threw⟩ := by
    rw [RoomLine.active, show (q.line r).writer = _ from hw]
    rfl
  have hpn : (if n = n then some threw else q.promises n).isSome := by
    rw [if_pos rfl]
    rfl
  have hp : ∀ m, m ≠ n → (if m = n then some threw else q.promises m) = q.promises m :=
    fun m hm ↦ if_neg hm
  have hpromises : ∀ m, (if m = n then some threw else q.promises m) = q.promises m ∨
      .handed r m ∈ log ∧ (if m = n then some threw else q.promises m).isSome := by
    intro m
    by_cases hm : m = n
    · subst hm
      exact .inr ⟨(hroom.logged.active _ hactive).1, hpn⟩
    · exact .inl (hp m hm)
  dsimp only at hs
  cases pending with
  | none =>
    obtain ⟨rfl, rfl⟩ := Prod.mk.inj (Option.some.inj hs)
    refine h.act (r := r) ?_ (fun r' hr' ↦ ?_) nofun hpromises le_rfl nofun h.call_lt h.previous
    · rw [List.append_nil]
      have hline := hroom.finished hw hpn hp
      simpa [line] using hline
    · simp [line, InsertionMap.get_delete_of_ne _ hr']
  | some m =>
    have hblocked : (q.line r).blocked = false := by
      by_contra hblocked
      have hnone := hroom.writing.pending (by simpa using hblocked)
      rw [show (q.line r).writer = _ from hw] at hnone
      cases hnone
    have hopen : r ∉ q.blockedRooms := of_decide_eq_false hblocked
    dsimp only at hs
    rw [if_pos hopen] at hs
    obtain ⟨rfl, rfl⟩ := Prod.mk.inj (Option.some.inj hs)
    refine h.act (r := r) ?_ (fun r' hr' ↦ ?_) (by simp [roomId]) hpromises le_rfl (by simp)
      h.call_lt h.previous
    · have hline := hroom.restarted hblocked hw hp
      simpa [line] using hline
    · simp [line, InsertionMap.get_set_of_ne _ _ hr']

/-- What a barrier that moves on makes of the line of its room. -/
theorem RoomSound.moved {l l' : RoomLine} {p : ℕ → Option Bool} {next b : ℕ} {c : BarrierCall}
    {phase : BarrierPhase} {new : List QueueEvent} (h : RoomSound r l p next log)
    (hb : l.call b = some c) (hopen : c.phase ≠ .settled)
    (hbefore : ∀ b' c', l.call b' = some c' → b' < b → c'.phase = .settled)
    (hwriter : l'.writer = l.writer) (hbarrier : l'.barrier = l.barrier)
    (hblocked : l'.blocked = l.blocked)
    (hcall : l'.call = Function.update l.call b (some { c with phase }))
    (hpending : l'.blockedPending = l.blockedPending ∨ l'.blockedPending = none)
    (hfailure : ∀ n, l'.failure = some n → l.failure = some n)
    (hallows : PhaseAllows l p phase)
    (hquiet : ∀ e ∈ new, Quiet r e)
    (hnew : ∀ e ∈ new, Calm r e ∨ e = .operationStarted r b ∧ phase = .operating)
    (hend : c.phase = .operating → .barrierSucceeded r b ∈ new ∨ .barrierFailed r b ∈ new)
    (hkept : Kept r l' (log ++ new)) : RoomSound r l' p next (log ++ new) := by
  have hactive : l'.active = l.active := by rw [RoomLine.active, hwriter, RoomLine.active]
  have hheld : ∀ m, l'.Held m → l.Held m := by
    rintro m (hm | hm)
    · rcases hpending with heq | hnone
      · exact .inl (heq ▸ hm)
      · rw [hnone] at hm
        cases hm
    · exact .inr (hwriter ▸ hm)
  refine ⟨h.chained.moved hb hopen hbefore hbarrier hblocked hcall, ?_, ?_, hkept,
    h.recorded.moved hb hcall hnew hend⟩
  · refine h.writing.congr hwriter (fun hb ↦ hblocked ▸ hb) (fun hfree ↦ ?_) h.writing.unsettled
      fun b' c' hb' ↦ ?_
    · rcases hpending with heq | hnone
      · rw [heq]
        exact h.writing.blockedPending (hblocked ▸ hfree)
      · exact hnone
    · by_cases hne : b' = b
      · rw [hcall, hne, Function.update_self] at hb'
        rw [← Option.some.inj hb']
        exact hallows.mono hwriter fun _ ↦ id
      · rw [hcall, Function.update_of_ne hne] at hb'
        exact (h.writing.phases b' c' hb').mono hwriter fun _ ↦ id
  · refine h.logged.append hquiet (fun a ha ↦ hactive ▸ ha) (fun n hn ↦ hactive ▸ hn)
      (fun m hm ↦ ?_) hfailure
    have hwaits := h.logged.held m (hheld m hm)
    exact hwaits.append hquiet hwaits.unsettled

/-- **A barrier moves on.** -/
theorem Sound.moved {q' : HistoryQueueRun} {b : ℕ} {c : BarrierCall} {phase : BarrierPhase}
    {new : List QueueEvent} (h : Sound q log) (hb : q.barrierCalls.get b = some c)
    (hcalls : q'.barrierCalls = q.barrierCalls.set b { c with phase })
    (hpromises : q'.promises = q.promises) (hnext : q'.next = q.next)
    (hroom : RoomSound c.roomId (q'.line c.roomId) q.promises q.next (log ++ new))
    (hother : ∀ r' ≠ c.roomId, q'.line r' = q.line r')
    (hnew : ∀ e ∈ new, e.roomId = some c.roomId) (hqueued : ∀ n, .queued c.roomId n ∉ new) :
    Sound q' (log ++ new) := by
  have hold : ∀ {b' c'}, q'.barrierCalls.get b' = some c' →
      ∃ c₀, q.barrierCalls.get b' = some c₀ ∧ c₀.roomId = c'.roomId ∧
        c₀.previous = c'.previous := by
    intro b' c' hb'
    rw [hcalls] at hb'
    by_cases hne : b' = b
    · subst hne
      rw [InsertionMap.get_set_self] at hb'
      obtain rfl := Option.some.inj hb'
      exact ⟨c, hb, rfl, rfl⟩
    · rw [InsertionMap.get_set_of_ne _ _ hne] at hb'
      exact ⟨c', hb', rfl, rfl⟩
  refine h.act (r := c.roomId) ?_ hother hnew (fun n ↦ .inl (by rw [hpromises])) hnext.ge
    (fun n hn ↦ absurd hn (hqueued n)) (fun b' hb' ↦ ?_) fun b' c' p cp hb' hp hcp ↦ ?_
  · rw [hpromises, hnext]
    exact hroom
  · obtain ⟨c', hc'⟩ := Option.isSome_iff_exists.mp hb'
    obtain ⟨c₀, hc₀, -⟩ := hold hc'
    rw [hnext]
    exact h.call_lt b' (by rw [hc₀]; rfl)
  · obtain ⟨c₀, hc₀, hroom₀, hprevious₀⟩ := hold hb'
    obtain ⟨cp₀, hcp₀, hroomp, -⟩ := hold hcp
    rw [← hroom₀, ← hroomp]
    exact h.previous b' c₀ p cp₀ hc₀ (hprevious₀.trans hp) hcp₀

/-- The line of a room after a phase of one of its barriers. -/
theorem line_setPhase {b : ℕ} {c : BarrierCall} (hb : q.barrierCalls.get b = some c)
    (phase : BarrierPhase) :
    (q.setPhase b c phase).line c.roomId = { q.line c.roomId with
      call := Function.update (q.line c.roomId).call b (some { c with phase }) } ∧
    ∀ r' ≠ c.roomId, (q.setPhase b c phase).line r' = q.line r' := by
  constructor
  · rw [← call_set_self b { c with phase } rfl]
    rfl
  · intro r' hne
    have hcall := call_set_of_ne (q := q) (b := b) (c := { c with phase }) (r := c.roomId) rfl hne
      fun c' hc' ↦ by rw [← Option.some.inj (hb.symm.trans hc')]
    unfold HistoryQueueRun.setPhase line
    rw [hcall]
    rfl

/-- A barrier moves on without touching what its room holds. -/
theorem Sound.setPhase (h : Sound q log) {b : ℕ} {c : BarrierCall} {phase : BarrierPhase}
    {new : List QueueEvent} (hb : q.barrierCalls.get b = some c) (hopen : c.phase ≠ .settled)
    (hbefore : ∀ b' c', (q.line c.roomId).call b' = some c' → b' < b → c'.phase = .settled)
    (hallows : PhaseAllows (q.line c.roomId) q.promises phase)
    (hnew : new = [] ∧ c.phase ≠ .operating ∨ new = [.barrierFailed c.roomId b] ∨
      new = [.operationStarted c.roomId b] ∧ phase = .operating ∧ c.phase ≠ .operating) :
    Sound (q.setPhase b c phase) (log ++ new) := by
  obtain ⟨hline, hother⟩ := line_setPhase hb phase
  have hroom := h.room c.roomId
  have hcall : (q.line c.roomId).call b = some c := line_call_eq.mpr ⟨hb, rfl⟩
  have hforeign : ∀ e ∈ new, e.roomId = some c.roomId ∧ Quiet c.roomId e ∧
      (Calm c.roomId e ∨ e = .operationStarted c.roomId b ∧ phase = .operating) ∧
        ∀ n, e ≠ .queued c.roomId n := by
    rcases hnew with ⟨rfl, -⟩ | rfl | ⟨rfl, hphase, -⟩
    · nofun
    · simp [roomId, Quiet, Calm]
    · simp [roomId, Quiet, hphase]
  refine h.moved hb rfl rfl rfl ?_ hother (fun e he ↦ (hforeign e he).1)
    fun n hn ↦ (hforeign _ hn).2.2.2 n rfl
  rw [hline]
  refine hroom.moved hcall hopen hbefore rfl rfl rfl rfl (.inl rfl) (fun _ ↦ id) hallows
    (fun e he ↦ (hforeign e he).2.1) (fun e he ↦ (hforeign e he).2.2.1) (fun hoperating ↦ ?_) ?_
  · rcases hnew with ⟨-, hne⟩ | rfl | ⟨-, -, hne⟩
    · exact absurd hoperating hne
    · exact .inr List.mem_cons_self
    · exact absurd hoperating hne
  · exact hroom.kept.append (fun n hn ↦ ⟨n, le_rfl, hn.append id id .inl⟩)
      fun n hn ↦ absurd rfl ((hforeign _ hn).2.2.2 n)

theorem Sound.runBarrier (h : Sound q log) {b : ℕ} {q' : HistoryQueueRun}
    {new : List QueueEvent} (hs : q.runBarrier b = some (q', new)) : Sound q' (log ++ new) := by
  unfold HistoryQueueRun.runBarrier at hs
  split at hs
  case h_2 => cases hs
  next c hb =>
  split at hs
  case isFalse => cases hs
  next hready =>
  obtain ⟨hphase, hprevious⟩ := hready
  have hroom := h.room c.roomId
  have hopen : c.phase ≠ .settled := by
    rw [hphase]
    decide
  have hidle : c.phase ≠ .operating := by
    rw [hphase]
    decide
  have hbefore : ∀ b' c', (q.line c.roomId).call b' = some c' → b' < b → c'.phase = .settled := by
    refine fun b' c' ↦ hroom.chained.settled_before (line_call_eq.mpr ⟨hb, rfl⟩)
      fun p cp hp hcp ↦ ?_
    rw [hp] at hprevious
    rw [Option.all_some, isSettled, (line_call_eq.mp hcp).1] at hprevious
    simpa using hprevious
  split at hs
  · next save hactive =>
    obtain ⟨rfl, rfl⟩ := Prod.mk.inj (Option.some.inj hs)
    refine h.setPhase hb hopen hbefore (.inr ?_) (.inl ⟨rfl, hidle⟩)
    show ((q.active c.roomId).map _) = _
    rw [hactive]
    rfl
  · next hactive =>
    obtain ⟨rfl, rfl⟩ := Prod.mk.inj (Option.some.inj hs)
    exact h.setPhase hb hopen hbefore (hroom.writing.writer_eq_none hactive)
      (.inr (.inr ⟨rfl, rfl, hidle⟩))

theorem Sound.resumeBarrier (h : Sound q log) {b : ℕ} {q' : HistoryQueueRun}
    {new : List QueueEvent} (hs : q.resumeBarrier b = some (q', new)) : Sound q' (log ++ new) := by
  unfold HistoryQueueRun.resumeBarrier at hs
  split at hs
  case h_2 => cases hs
  next c hb =>
  split at hs
  case h_2 => cases hs
  next n hphase =>
  have hroom := h.room c.roomId
  have hcall : (q.line c.roomId).call b = some c := line_call_eq.mpr ⟨hb, rfl⟩
  have hopen : c.phase ≠ .settled := by
    rw [hphase]
    nofun
  have hidle : c.phase ≠ .operating := by
    rw [hphase]
    nofun
  have hbefore : ∀ b' c', (q.line c.roomId).call b' = some c' → b' < b → c'.phase = .settled :=
    fun b' c' hb' hlt ↦ hroom.chained.begun b b' c c' hcall hb' hlt (by rw [hphase]; nofun)
  have hwriter : ∀ {x}, q.promises n = some x → (q.line c.roomId).writer = none := by
    intro x hx
    have hallows := hroom.writing.phases b c hcall
    rw [hphase] at hallows
    rcases hallows with ⟨-, hnone⟩ | hactive
    · exact hnone
    · obtain ⟨a, ha, rfl⟩ := Option.map_eq_some_iff.mp hactive
      rw [hroom.writing.unsettled a ha] at hx
      cases hx
  split at hs
  · next hfulfilled =>
    obtain ⟨rfl, rfl⟩ := Prod.mk.inj (Option.some.inj hs)
    exact h.setPhase hb hopen hbefore (hwriter hfulfilled) (.inr (.inr ⟨rfl, rfl, hidle⟩))
  · obtain ⟨rfl, rfl⟩ := Prod.mk.inj (Option.some.inj hs)
    exact h.setPhase hb hopen hbefore trivial (.inr (.inl rfl))
  · cases hs

theorem Sound.operationSettles (h : Sound q log) {b : ℕ} {succeeded : Bool}
    {q' : HistoryQueueRun} {new : List QueueEvent}
    (hs : q.operationSettles b succeeded = some (q', new)) : Sound q' (log ++ new) := by
  unfold HistoryQueueRun.operationSettles at hs
  split at hs
  case h_2 => cases hs
  next c hb =>
  split at hs
  case isFalse => cases hs
  next hphase =>
  have hroom := h.room c.roomId
  have hcall : (q.line c.roomId).call b = some c := line_call_eq.mpr ⟨hb, rfl⟩
  have hopen : c.phase ≠ .settled := by
    rw [hphase]
    nofun
  have hbefore : ∀ b' c', (q.line c.roomId).call b' = some c' → b' < b → c'.phase = .settled :=
    fun b' c' hb' hlt ↦ hroom.chained.begun b b' c c' hcall hb' hlt (by rw [hphase]; nofun)
  split at hs
  · obtain ⟨rfl, rfl⟩ := Prod.mk.inj (Option.some.inj hs)
    obtain ⟨hline, hother⟩ := line_setPhase hb .settled
    refine h.moved hb rfl rfl rfl ?_ (fun r' hr' ↦ ?_) (by simp [roomId]) (by simp)
    · refine hroom.moved hcall hopen hbefore rfl rfl rfl (congrArg RoomLine.call hline) (.inr ?_)
        (fun n hn ↦ ?_) trivial (by simp [Quiet]) (by simp [Calm]) (fun _ ↦ .inl (by simp))
        fun n hn ↦ .inl ?_
      · simp [line]
      · simp [line] at hn
      · have hin : QueueEvent.queued c.roomId n ∈ log := by simpa using hn
        exact ⟨log, _, b, rfl, hin, List.mem_cons_self⟩
    · rw [← hother r' hr']
      simp [line, HistoryQueueRun.setPhase, InsertionMap.get_delete_of_ne _ hr']
  · obtain ⟨rfl, rfl⟩ := Prod.mk.inj (Option.some.inj hs)
    exact h.setPhase hb hopen hbefore trivial (.inr (.inl rfl))

/-- What the return of a barrier makes of the line of its room, before anything is queued again. -/
theorem RoomSound.returned {l : RoomLine} {p : ℕ → Option Bool} {next b : ℕ} {c : BarrierCall}
    (h : RoomSound r l p next log) (l' : RoomLine) (hb : l.call b = some c) (hsettled : c.phase = .settled)
    (hlt : b < next) (hwriter : l'.writer = l.writer)
    (hbarrier : l'.barrier = if l.barrier = some b then none else l.barrier)
    (hblocked : l'.blocked = if l.barrier = some b then false else l.blocked)
    (hpending : l'.blockedPending = if l.barrier = some b then none else l.blockedPending)
    (hfailure : l'.failure = l.failure) (hcall : l'.call = Function.update l.call b none) :
    Chained l' ∧ Writing l' p ∧ Logged r l' p (log ++ [.barrierReturned r b]) ∧
      Recorded r l' next (log ++ [.barrierReturned r b]) := by
  have hactive : l'.active = l.active := by rw [RoomLine.active, hwriter, RoomLine.active]
  have hquiet : ∀ e ∈ [QueueEvent.barrierReturned r b], Quiet r e := by simp [Quiet]
  refine ⟨h.chained.returned hb hsettled hbarrier hblocked hcall, ?_, ?_,
    h.recorded.returned hb hsettled hlt hcall⟩
  · refine h.writing.congr hwriter (fun hb' ↦ ?_) (fun hfree ↦ ?_) h.writing.unsettled
      fun b' c' hb' ↦ ?_
    · rw [hblocked] at hb'
      split at hb'
      · cases hb'
      · exact hb'
    · rw [hpending]
      split
      · rfl
      · next hne =>
        rw [hblocked, if_neg hne] at hfree
        exact h.writing.blockedPending hfree
    · by_cases hne : b' = b
      · rw [hcall, hne, Function.update_self] at hb'
        cases hb'
      · rw [hcall, Function.update_of_ne hne] at hb'
        exact (h.writing.phases b' c' hb').mono hwriter fun _ ↦ id
  · refine h.logged.append hquiet (fun a ha ↦ hactive ▸ ha) (fun n hn ↦ hactive ▸ hn)
      (fun m hm ↦ ?_) fun n hn ↦ hfailure ▸ hn
    have hwaits : Waits r p log m := by
      refine h.logged.held m ?_
      rcases hm with hm | hm
      · rw [hpending] at hm
        split at hm
        · cases hm
        · exact .inl hm
      · exact .inr (hwriter ▸ hm)
    exact hwaits.append hquiet hwaits.unsettled

/-- The room of a barrier that is not the last one goes on waiting. -/
theorem line_returned (q : HistoryQueueRun) {b : ℕ} {c : BarrierCall}
    (hb : q.barrierCalls.get b = some c) :
    line { q with barrierCalls := q.barrierCalls.delete b } c.roomId =
        { q.line c.roomId with call := Function.update (q.line c.roomId).call b none } ∧
      ∀ r' ≠ c.roomId, line { q with barrierCalls := q.barrierCalls.delete b } r' = q.line r' := by
  constructor
  · rw [← call_delete_self b]
    rfl
  · intro r' hne
    have hcall := call_delete_of_ne hb hne
    unfold line
    rw [hcall]
    rfl

theorem line_unblocked (q : HistoryQueueRun) (r : String) :
    line { q with
        barriers := q.barriers.delete r
        blockedRooms := q.blockedRooms.erase r
        blockedPending := q.blockedPending.delete r } r =
      { q.line r with barrier := none, blocked := false, blockedPending := none } ∧
    ∀ r' ≠ r, line { q with
        barriers := q.barriers.delete r
        blockedRooms := q.blockedRooms.erase r
        blockedPending := q.blockedPending.delete r } r' = q.line r' := by
  constructor
  · simp [line]
  · intro r' hne
    simp [line, InsertionMap.get_delete_of_ne _ hne, hne]

theorem Sound.returnBarrier (h : Sound q log) {b : ℕ} {q' : HistoryQueueRun}
    {new : List QueueEvent} (hs : q.returnBarrier b = some (q', new)) : Sound q' (log ++ new) := by
  unfold HistoryQueueRun.returnBarrier at hs
  split at hs
  case h_2 => cases hs
  next c hb =>
  split at hs
  case isFalse => cases hs
  next hphase =>
  have hroom := h.room c.roomId
  have hcall : (q.line c.roomId).call b = some c := line_call_eq.mpr ⟨hb, rfl⟩
  have hlt : b < q.next := h.call_lt b (by rw [hb]; rfl)
  obtain ⟨hreturned, hreturnedOther⟩ := line_returned q hb
  have hcallLt : ∀ b', ((q.barrierCalls.delete b).get b').isSome → b' < q.next := by
    intro b' hb'
    by_cases hne : b' = b
    · rw [hne, InsertionMap.get_delete_self] at hb'
      cases hb'
    · rw [InsertionMap.get_delete_of_ne _ hne] at hb'
      exact h.call_lt b' hb'
  have hof : ∀ {b' c'}, (q.barrierCalls.delete b).get b' = some c' →
      q.barrierCalls.get b' = some c' := by
    intro b' c' hb'
    by_cases hne : b' = b
    · rw [hne, InsertionMap.get_delete_self] at hb'
      cases hb'
    · rwa [InsertionMap.get_delete_of_ne _ hne] at hb'
  have hprevious : ∀ b' c' p cp, (q.barrierCalls.delete b).get b' = some c' →
      c'.previous = some p → (q.barrierCalls.delete b).get p = some cp → cp.roomId = c'.roomId :=
    fun b' c' p cp hb' hp hcp ↦ h.previous b' c' p cp (hof hb') hp (hof hcp)
  have hqueuedNot : ∀ n, QueueEvent.queued c.roomId n ∉ [QueueEvent.barrierReturned c.roomId b] :=
    by simp
  dsimp only at hs
  by_cases hlast : q.barriers.get c.roomId = some b
  · rw [if_pos hlast] at hs
    obtain ⟨rfl, rfl⟩ := Prod.mk.inj (Option.some.inj hs)
    obtain ⟨hunblocked, hunblockedOther⟩ := line_unblocked
      { q with barrierCalls := q.barrierCalls.delete b } c.roomId
    rw [hreturned] at hunblocked
    have hblocked : (q.line c.roomId).blocked = true := by
      rw [hroom.chained.blocked]
      show (q.barriers.get c.roomId).isSome = true
      rw [hlast]
      rfl
    have hidle := hroom.writing.pending hblocked
    have hparts := hroom.returned (line _ c.roomId) hcall hphase hlt
      (by rw [hunblocked]) (by rw [hunblocked]; exact (if_pos hlast).symm)
      (by rw [hunblocked]; exact (if_pos hlast).symm)
      (by rw [hunblocked]; exact (if_pos hlast).symm) (by rw [hunblocked]) (by rw [hunblocked])
    obtain ⟨hchained, hwriting, hlogged, hrecorded⟩ := hparts
    have hempty : ∀ m, ¬RoomLine.Held
        { q.line c.roomId with
          barrier := none, blocked := false, blockedPending := none
          call := Function.update (q.line c.roomId).call b none } m := by
      rintro m (hm | hm)
      · cases hm
      · rw [hidle] at hm
        cases hm
    unfold unblock
    dsimp only
    split
    · -- The snapshot that was held back is queued again.
      next n hn =>
      have hwaits := hroom.logged.held n (.inl hn)
      obtain ⟨hpromises, hnext, hcalls⟩ := enqueue_rest (r := c.roomId)
        { q with
          barrierCalls := q.barrierCalls.delete b
          barriers := q.barriers.delete c.roomId
          blockedRooms := q.blockedRooms.erase c.roomId
          blockedPending := q.blockedPending.delete c.roomId } n
      rw [← List.singleton_append]
      refine h.act (r := c.roomId) ?_ (fun r' hr' ↦ ?_) (fun e he ↦ ?_) (fun m ↦ .inl ?_) ?_
        (fun m hm ↦ ?_) ?_ ?_
      · rw [hpromises, hnext, ← List.append_assoc]
        refine RoomSound.enqueue hchained hwriting hlogged hrecorded
          (hwaits.append (by simp [Quiet]) hwaits.unsettled) (fun m hm ↦ ?_) fun k hk ↦ ?_
        · rw [hunblocked] at hm
          exact absurd hm (hempty m)
        · have hin := (List.mem_append.mp hk).resolve_right (hqueuedNot k)
          rcases hroom.kept k hin with hsucceeded | ⟨n', hle, hdealt⟩
          · exact .inl hsucceeded.append
          refine .inr ⟨n', hle, ?_⟩
          by_cases hheld : (q.line c.roomId).Held n'
          · rcases hheld with hheld | hheld
            · exact .inl (Option.some.inj (hheld.symm.trans hn))
            · rw [hidle] at hheld
              cases hheld
          · rw [hunblocked]
            exact .inr (hdealt.append (fun h ↦ absurd h hheld) id .inl)
      · rw [line_enqueue_of_ne _ _ hr', hunblockedOther r' hr']
        exact hreturnedOther r' hr'
      · rcases List.mem_append.mp he with hin | hin
        · rw [List.mem_singleton.mp hin]
          rfl
        · rw [mem_enqueue hin]
          rfl
      · rw [hpromises]
      · rw [hnext]
      · rcases List.mem_append.mp hm with hin | hin
        · exact absurd hin (hqueuedNot m)
        · cases mem_enqueue hin
      · rw [hnext, hcalls]
        exact hcallLt
      · rw [hcalls]
        exact hprevious
    · next hnone =>
      refine h.act (r := c.roomId) ⟨hchained, hwriting, hlogged, ?_, hrecorded⟩ (fun r' hr' ↦ ?_)
        (by simp [roomId]) (fun _ ↦ .inl rfl) le_rfl (by simp) hcallLt hprevious
      · rw [hunblocked]
        refine hroom.kept.append (fun n hn ↦ ⟨n, le_rfl, hn.append ?_ id .inl⟩) (by simp)
        rintro (hheld | hheld)
        · rw [show (q.line c.roomId).blockedPending = none from hnone] at hheld
          cases hheld
        · exact .inr hheld
      · rw [hunblockedOther r' hr']
        exact hreturnedOther r' hr'
  · rw [if_neg hlast] at hs
    obtain ⟨rfl, rfl⟩ := Prod.mk.inj (Option.some.inj hs)
    have hparts := hroom.returned (line _ c.roomId) hcall hphase hlt
      (by rw [hreturned]) (by rw [hreturned]; exact (if_neg hlast).symm)
      (by rw [hreturned]; exact (if_neg hlast).symm)
      (by rw [hreturned]; exact (if_neg hlast).symm) (by rw [hreturned]) (by rw [hreturned])
    obtain ⟨hchained, hwriting, hlogged, hrecorded⟩ := hparts
    refine h.act (r := c.roomId) ⟨hchained, hwriting, hlogged, ?_, hrecorded⟩ hreturnedOther
      (by simp [roomId]) (fun _ ↦ .inl rfl) le_rfl (by simp) hcallLt hprevious
    rw [hreturned]
    exact hroom.kept.append (fun n hn ↦ ⟨n, le_rfl, hn.append id id .inl⟩) (by simp)

/-! ### Flushes -/

/-- A room without writer and unreported failure is drained. -/
theorem RoomSound.drained {l : RoomLine} {p : ℕ → Option Bool} {next : ℕ}
    (h : RoomSound r l p next log) (hwriter : l.writer = none) (hfailure : l.failure = none) :
    Drained r log := by
  intro hreturned n hn
  have hbarrier : l.barrier = none := by
    cases hb : l.barrier with
    | none => rfl
    | some b =>
      obtain ⟨hcalled, hnot⟩ := h.recorded.opened b (h.chained.latest b hb).1
      exact absurd (hreturned b hcalled) hnot
  have hblocked : l.blocked = false := by
    rw [h.chained.blocked, hbarrier]
    rfl
  have hqueued : ∀ m, .saved r m ∈ log ∨ .saveFailed r m ∈ log → .queued r m ∈ log := fun m hm ↦
    (h.logged.handed m (h.logged.ended m hm)).1
  rcases h.kept n hn with hsucceeded | ⟨n', hle, hdealt⟩
  · exact .inl hsucceeded
  refine .inr ⟨n', hle, ?_⟩
  cases hdealt with
  | held hheld =>
    rcases hheld with hheld | hheld
    · rw [h.writing.blockedPending hblocked] at hheld
      cases hheld
    · rw [hwriter] at hheld
      cases hheld
  | active hactive =>
    rw [RoomLine.active, hwriter] at hactive
    cases hactive
  | saved hsaved => exact ⟨hqueued n' (.inl hsaved), .inl hsaved⟩
  | failed hfailed hknown =>
    refine ⟨hqueued n' (.inr hfailed), .inr ⟨hfailed, hknown.resolve_left fun hline ↦ ?_⟩⟩
    rw [hfailure] at hline
    cases hline

/-- **A step of a flush** takes failures away at most, and reports those. -/
theorem Sound.flushStep {q' : HistoryQueueRun} {new : List QueueEvent} (h : Sound q log)
    (hline : ∀ r, ∃ failure, q'.line r = { q.line r with failure } ∧
      (failure = (q.line r).failure ∨
        failure = none ∧ ∀ n, (q.line r).failure = some n → Reported new n))
    (hpromises : q'.promises = q.promises) (hnext : q.next ≤ q'.next)
    (hcalls : q'.barrierCalls = q.barrierCalls) (hnew : ∀ e ∈ new, e.roomId = none)
    (hflushed : Flushed (log ++ new)) : Sound q' (log ++ new) := by
  have hforeign : ∀ r, ∀ e ∈ new, e.roomId ≠ some r := by
    intro r e he heq
    rw [hnew e he] at heq
    cases heq
  have hqueued : ∀ r n, .queued r n ∈ log ++ new → .queued r n ∈ log := fun r n hn ↦
    (List.mem_append.mp hn).resolve_right fun hin ↦ hforeign r _ hin rfl
  refine ⟨fun r ↦ ?_, fun r r' n hn hn' ↦ h.owner r r' n (hqueued r n hn) (hqueued r' n hn'),
    fun r n hn ↦ (h.queued_lt r n (hqueued r n hn)).trans_le hnext, fun n hn ↦ ?_, ?_, ?_,
    hflushed⟩
  · have hroom := (h.room r).frame (hforeign r) (fun _ ↦ id) (fun _ _ ↦ rfl) hnext
    obtain ⟨failure, hline, hfailure⟩ := hline r
    have hfrom : ∀ n, failure = some n → (q.line r).failure = some n := by
      intro n hn
      rcases hfailure with heq | ⟨hnone, -⟩
      · exact heq ▸ hn
      · rw [hnone] at hn
        cases hn
    rw [hline, hpromises, ← List.append_nil (log ++ new)]
    refine ⟨hroom.chained.congr rfl rfl rfl, ?_, ?_, ?_, hroom.recorded.append nofun rfl le_rfl⟩
    · exact hroom.writing.congr rfl id hroom.writing.blockedPending hroom.writing.unsettled
        fun b c hb ↦ (hroom.writing.phases b c hb).mono rfl fun _ ↦ id
    · exact hroom.logged.append nofun (fun _ ↦ id) (fun _ ↦ id)
        (fun m hm ↦ (hroom.logged.held m hm).append nofun (hroom.logged.held m hm).unsettled) hfrom
    · refine hroom.kept.append (fun n hn ↦ ⟨n, le_rfl, hn.append id id fun hf ↦ ?_⟩) nofun
      rcases hfailure with heq | ⟨-, hreported⟩
      · exact .inl (heq.trans hf)
      · obtain ⟨f, ns, hin, hmem⟩ := hreported n hf
        exact .inr ⟨f, ns, by simp [hin], hmem⟩
  · rw [hpromises] at hn
    obtain ⟨r, hr⟩ := h.promised n hn
    exact ⟨r, List.mem_append_left _ hr⟩
  · rw [hcalls]
    exact fun b hb ↦ (h.call_lt b hb).trans_le hnext
  · rw [hcalls]
    exact h.previous

/-- A flush that resolves when the rooms that it covers are drained. -/
theorem Flushed.resolved {f : ℕ} {target : Option String} (h : Flushed log)
    (hdrained : ∀ r, Covers target r → Drained r log) :
    Flushed (log ++ [.flushResolved f target]) := by
  intro before f' target' after heq r hcovers
  rcases List.append_eq_append_iff.mp heq with ⟨mid, hbefore, hin⟩ | ⟨mid, hold, hrest⟩
  · cases mid with
    | nil =>
      rw [List.append_nil] at hbefore
      obtain ⟨hsame, -⟩ := List.cons.inj hin
      rw [hbefore]
      exact hdrained r ((QueueEvent.flushResolved.inj hsame).2 ▸ hcovers)
    | cons e mid =>
      obtain ⟨-, hnil⟩ := List.cons.inj hin
      simp at hnil
  · cases mid with
    | nil =>
      rw [List.append_nil] at hold
      obtain ⟨hsame, -⟩ := List.cons.inj hrest
      rw [← hold]
      exact hdrained r ((QueueEvent.flushResolved.inj hsame).2 ▸ hcovers)
    | cons e mid =>
      obtain ⟨rfl, -⟩ := List.cons.inj hrest
      exact h before f' target' mid hold r hcovers

/-- A room that a flush covers has no failure left when the flush has none to throw. -/
theorem failure_of_failuresOf {target : Option String} (hcovers : Covers target r) {n : ℕ}
    (hn : q.failures.get r = some n) : n ∈ q.failuresOf target := by
  cases target with
  | some r₀ =>
    obtain rfl := hcovers r₀ rfl
    show n ∈ (q.failures.get r₀).toList
    rw [hn]
    exact List.mem_cons_self
  | none => exact InsertionMap.mem_values_iff.mpr ⟨r, hn⟩

theorem get_failuresWithout (q : HistoryQueueRun) (target : Option String) (r : String) :
    (q.failuresWithout target).get r = q.failures.get r ∧ ¬Covers target r ∨
      (q.failuresWithout target).get r = none ∧ Covers target r := by
  cases target with
  | some r₀ =>
    by_cases hr : r = r₀
    · subst hr
      exact .inr ⟨InsertionMap.get_delete_self .., fun r' hr' ↦ (Option.some.inj hr').symm⟩
    · exact .inl ⟨InsertionMap.get_delete_of_ne _ hr, fun hcovers ↦ hr (hcovers r₀ rfl).symm⟩
  | none => exact .inr ⟨rfl, nofun⟩

theorem Sound.reportFailures (h : Sound q log) (f : ℕ) (target : Option String)
    (hwriters : ∀ r, Covers target r → q.writers.get r = none) :
    Sound (q.reportFailures f target).1 (log ++ (q.reportFailures f target).2) := by
  unfold HistoryQueueRun.reportFailures
  refine h.flushStep (fun r ↦ ⟨(q.failuresWithout target).get r, rfl, ?_⟩) rfl le_rfl rfl ?_ ?_
  · rcases get_failuresWithout q target r with ⟨hsame, -⟩ | ⟨hnone, hcovers⟩
    · exact .inl hsame
    refine .inr ⟨hnone, fun n hn ↦ ?_⟩
    have hin := failure_of_failuresOf hcovers hn
    have hne : q.failuresOf target ≠ [] := List.ne_nil_of_mem hin
    dsimp only
    rw [if_neg hne]
    exact ⟨f, _, List.mem_cons_self, hin⟩
  · intro e he
    rw [List.mem_singleton.mp he]
    split <;> rfl
  · dsimp only
    split
    · next hempty =>
      refine h.flushed.resolved fun r hcovers ↦ (h.room r).drained (hwriters r hcovers) ?_
      cases hfailure : (q.line r).failure with
      | none => rfl
      | some n =>
        have hin := failure_of_failuresOf hcovers hfailure
        rw [hempty] at hin
        cases hin
    · exact h.flushed.append (by simp)

/-- A flush that goes on awaiting. -/
theorem Sound.await (h : Sound q log) (flushCalls : InsertionMap ℕ FlushCall) {next : ℕ}
    (hnext : q.next ≤ next) : Sound { q with flushCalls, next } (log ++ []) :=
  h.flushStep (fun _ ↦ ⟨_, rfl, .inl rfl⟩) rfl hnext rfl nofun (h.flushed.append nofun)

theorem Sound.flushRound (h : Sound q log) (f : ℕ) (target : Option String) :
    Sound (q.flushRound f target).1 (log ++ (q.flushRound f target).2) := by
  unfold HistoryQueueRun.flushRound
  dsimp only
  split
  · split
    · exact h.await _ le_rfl
    · next r _ hactive =>
      refine h.reportFailures f _ fun r' hcovers ↦ ?_
      obtain rfl := hcovers _ rfl
      exact (h.room _).writing.writer_eq_none hactive
  · exact h.await _ le_rfl

theorem Sound.resumeFlush (h : Sound q log) {f : ℕ} {q' : HistoryQueueRun}
    {new : List QueueEvent} (hs : q.resumeFlush f = some (q', new)) : Sound q' (log ++ new) := by
  unfold HistoryQueueRun.resumeFlush at hs
  split at hs
  case h_2 => cases hs
  next call hf =>
  split at hs
  · obtain ⟨rfl, rfl⟩ := Prod.mk.inj (Option.some.inj hs)
    exact h.flushStep (fun _ ↦ ⟨_, rfl, .inl rfl⟩) rfl le_rfl rfl (by simp [roomId])
      (h.flushed.append (by simp))
  split at hs
  · split at hs
    · next hdrained =>
      obtain ⟨rfl, rfl⟩ := Prod.mk.inj (Option.some.inj hs)
      refine h.reportFailures f _ fun r hcovers ↦ ?_
      cases htarget : call.target with
      | some r₀ =>
        rw [htarget] at hdrained
        rw [← hcovers r₀ htarget]
        exact InsertionMap.get_eq_none_of_not_has (by simpa [isDrained] using hdrained)
      | none =>
        rw [htarget] at hdrained
        have hsize : q.writers.size = 0 := of_decide_eq_true hdrained
        rw [InsertionMap.eq_empty_of_size_eq_zero hsize]
        rfl
    · obtain ⟨rfl, rfl⟩ := Prod.mk.inj (Option.some.inj hs)
      exact h.flushRound f _
  · cases hs

/-! ### Steps and runs -/

/-- **The step lemma.** -/
theorem Sound.step (h : Sound q log) (a : QueueAction) :
    Sound (q.step a).1 (log ++ (q.step a).2) := by
  have hstay : Sound q (log ++ []) := by
    rw [List.append_nil]
    exact h
  have hattempt : ∀ {x : Option (HistoryQueueRun × List QueueEvent)},
      (∀ q' new, x = some (q', new) → Sound q' (log ++ new)) →
        Sound (x.getD (q, [])).1 (log ++ (x.getD (q, [])).2) := by
    intro x hx
    cases x with
    | none => exact hstay
    | some y => exact hx y.1 y.2 rfl
  cases a with
  | queue r => exact h.queue r
  | withBarrier r => exact h.withBarrier r
  | flush target =>
    have hnext := h.await q.flushCalls (Nat.le_succ q.next)
    rw [List.append_nil] at hnext
    exact hnext.flushRound q.next _
  | saveSettles r succeeded threw => exact hattempt fun _ _ ↦ h.saveSettles
  | finishSave r => exact hattempt fun _ _ ↦ h.finishSave
  | runBarrier b => exact hattempt fun _ _ ↦ h.runBarrier
  | resumeBarrier b => exact hattempt fun _ _ ↦ h.resumeBarrier
  | operationSettles b succeeded => exact hattempt fun _ _ ↦ h.operationSettles
  | returnBarrier b => exact hattempt fun _ _ ↦ h.returnBarrier
  | resumeFlush f => exact hattempt fun _ _ ↦ h.resumeFlush

theorem sound_nil : Sound {} [] where
  room := fun r ↦
    { chained := ⟨rfl, nofun, nofun, nofun, nofun, nofun⟩
      writing := ⟨nofun, nofun, fun _ ↦ rfl, fun _ ↦ rfl, nofun⟩
      logged := ⟨fun n hn ↦ by rcases hn with ⟨⟨⟩⟩ | ⟨⟨⟩⟩, nofun, nofun, by simp, nofun, .nil⟩
      kept := nofun
      recorded := ⟨nofun, nofun, nofun, nofun⟩ }
  owner := nofun
  queued_lt := nofun
  promised := nofun
  call_lt := nofun
  previous := nofun
  flushed := by simp [Flushed]

/-- **The run lemma.** -/
theorem sound_run (as : List QueueAction) :
    Sound (Machine.run HistoryQueueRun.step {} as).1 (Machine.run HistoryQueueRun.step {} as).2 := by
  have hstep : ∀ q log (a : QueueAction), Sound q log → True →
      Sound (HistoryQueueRun.step q a).1 (log ++ (HistoryQueueRun.step q a).2) :=
    fun q log a h _ ↦ h.step a
  exact Machine.run_invariant hstep sound_nil (Machine.along_true _ as)

end Actions

end MultAIplayer.Desktop
