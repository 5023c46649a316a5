import MultAIplayer.Desktop.HistoryWriteQueue

/-!
# The line of a room in the history write queue

What the maps of the queue say about one room is its `RoomLine`. Its barriers run one after the
other (`Chained`), nothing is written while one of them operates (`Writing`), snapshots are handed
over in the order of their calls (`Logged`), and each is held, written or obsolete (`Kept`).

Each invariant comes with one lemma for each thing that can happen to a line.
-/

namespace MultAIplayer.Desktop

open QueueEvent

/-! ### The line of a room -/

/-- What the queue keeps for a room. -/
structure RoomLine where
  writer : Option RoomHistoryWriter
  barrier : Option ℕ
  blocked : Bool
  blockedPending : Option ℕ
  failure : Option ℕ
  call : ℕ → Option BarrierCall

namespace RoomLine

variable (l : RoomLine)

@[grind =] def active : Option ActiveSave := l.writer.bind (·.active)

/-- A snapshot that waits. -/
@[grind =] def Held (n : ℕ) : Prop := l.blockedPending = some n ∨ l.writer.bind (·.pending) = some n

end RoomLine

namespace HistoryQueueRun

variable (q : HistoryQueueRun)

def line (r : String) : RoomLine where
  writer := q.writers.get r
  barrier := q.barriers.get r
  blocked := r ∈ q.blockedRooms
  blockedPending := q.blockedPending.get r
  failure := q.failures.get r
  call := fun b ↦ (q.barrierCalls.get b).filter (·.roomId = r)

end HistoryQueueRun

/-! ### Barriers run one after the other -/

/-- The barriers of a room are a chain: one runs when those before it have settled. -/
structure Chained (l : RoomLine) : Prop where
  blocked : l.blocked = l.barrier.isSome
  latest : ∀ b, l.barrier = some b → (l.call b).isSome ∧ ∀ b', (l.call b').isSome → b' ≤ b
  idle : l.barrier = none → ∀ b c, l.call b = some c → c.phase = .settled
  begun : ∀ b b' c c', l.call b = some c → l.call b' = some c' → b' < b → c.phase ≠ .chained →
    c'.phase = .settled
  previous : ∀ b b' c c', l.call b = some c → l.call b' = some c' → b' < b →
    c'.phase = .settled ∨ ∃ p, c.previous = some p ∧ b' ≤ p ∧ (l.call p).isSome
  previous_lt : ∀ b c p, l.call b = some c → c.previous = some p → p < b

namespace Chained

variable {l l' : RoomLine}

theorem congr (h : Chained l) (hbarrier : l'.barrier = l.barrier) (hblocked : l'.blocked = l.blocked)
    (hcall : l'.call = l.call) : Chained l' where
  blocked := by rw [hblocked, hbarrier, h.blocked]
  latest := by rw [hbarrier, hcall]; exact h.latest
  idle := by rw [hbarrier, hcall]; exact h.idle
  begun := by rw [hcall]; exact h.begun
  previous := by rw [hcall]; exact h.previous
  previous_lt := by rw [hcall]; exact h.previous_lt

/-- A barrier that has not settled blocks its room. -/
theorem blocked_of_unsettled (h : Chained l) {b : ℕ} {c : BarrierCall} (hb : l.call b = some c)
    (hc : c.phase ≠ .settled) : l.blocked = true := by
  rw [h.blocked]
  cases hbarrier : l.barrier with
  | none => exact absurd (h.idle hbarrier b c hb) hc
  | some _ => rfl

/-- Of two barriers that have begun and not settled there is only one. -/
theorem eq_of_begun (h : Chained l) {b b' : ℕ} {c c' : BarrierCall} (hb : l.call b = some c)
    (hb' : l.call b' = some c') (hc : c.phase ≠ .chained ∧ c.phase ≠ .settled)
    (hc' : c'.phase ≠ .chained ∧ c'.phase ≠ .settled) : b = b' := by
  rcases Nat.lt_trichotomy b b' with hlt | rfl | hlt
  · exact absurd (h.begun b' b c' c hb' hb hlt hc'.1) hc.2
  · rfl
  · exact absurd (h.begun b b' c c' hb hb' hlt hc.1) hc'.2

/-- A barrier begins when those before it have settled. -/
theorem settled_before (h : Chained l) {b : ℕ} {c : BarrierCall} (hb : l.call b = some c)
    (hprevious : ∀ p cp, c.previous = some p → l.call p = some cp → cp.phase = .settled)
    {b' : ℕ} {c' : BarrierCall} (hb' : l.call b' = some c') (hlt : b' < b) :
    c'.phase = .settled := by
  rcases h.previous b b' c c' hb hb' hlt with hsettled | ⟨p, hp, hle, hsome⟩
  · exact hsettled
  obtain ⟨cp, hcp⟩ := Option.isSome_iff_exists.mp hsome
  have hphase := hprevious p cp hp hcp
  rcases Nat.lt_or_eq_of_le hle with hless | rfl
  · exact h.begun p b' cp c' hcp hb' hless (by rw [hphase]; decide)
  · rw [hcp] at hb'
    exact Option.some.inj hb' ▸ hphase

/-- A new barrier. -/
theorem called (h : Chained l) {b : ℕ} {r : String} (hfresh : ∀ b', (l.call b').isSome → b' < b)
    (hbarrier : l'.barrier = some b) (hblocked : l'.blocked = true)
    (hcall : l'.call = Function.update l.call b (some ⟨r, l.barrier, .chained⟩)) :
    Chained l' := by
  have hnew : l'.call b = some ⟨r, l.barrier, .chained⟩ := by rw [hcall, Function.update_self]
  have hold : ∀ {b'}, b' ≠ b → l'.call b' = l.call b' := fun hne ↦ by
    rw [hcall, Function.update_of_ne hne]
  have hlt : ∀ {b' c'}, l'.call b' = some c' → b' ≠ b → b' < b := fun hb' hne ↦ by
    rw [hold hne] at hb'
    exact hfresh _ (by rw [hb']; rfl)
  have hsome : ∀ {p}, (l.call p).isSome → (l'.call p).isSome := fun {p} hp ↦ by
    rw [hold (Nat.ne_of_lt (hfresh p hp))]
    exact hp
  refine ⟨by rw [hblocked, hbarrier]; rfl, fun b₁ hb₁ ↦ ?_, fun hnone ↦ ?_, ?_, ?_, ?_⟩
  · obtain rfl : b = b₁ := Option.some.inj (hbarrier.symm.trans hb₁)
    refine ⟨by rw [hnew]; rfl, fun b' hb' ↦ ?_⟩
    obtain ⟨c', hc'⟩ := Option.isSome_iff_exists.mp hb'
    by_cases hne : b' = b
    · exact hne.le
    · exact (hlt hc' hne).le
  · rw [hbarrier] at hnone
    cases hnone
  · intro b₁ b' c c' hb₁ hb' hless hc
    by_cases hne : b₁ = b
    · subst hne
      rw [hnew] at hb₁
      exact absurd (Option.some.inj hb₁ ▸ rfl) hc
    · have hb'lt := hlt hb₁ hne
      rw [hold hne] at hb₁
      rw [hold (by omega)] at hb'
      exact h.begun b₁ b' c c' hb₁ hb' hless hc
  · intro b₁ b' c c' hb₁ hb' hless
    by_cases hne : b₁ = b
    · subst hne
      rw [hnew] at hb₁
      obtain rfl := Option.some.inj hb₁
      rw [hold (by omega)] at hb'
      cases hlast : l.barrier with
      | none => exact .inl (h.idle hlast b' c' hb')
      | some p =>
        obtain ⟨hp, hmax⟩ := h.latest p hlast
        exact .inr ⟨p, rfl, hmax b' (by rw [hb']; rfl), hsome hp⟩
    · have hb'lt := hlt hb₁ hne
      rw [hold hne] at hb₁
      rw [hold (by omega)] at hb'
      rcases h.previous b₁ b' c c' hb₁ hb' hless with hs | ⟨p, hp, hle, hpsome⟩
      · exact .inl hs
      · exact .inr ⟨p, hp, hle, hsome hpsome⟩
  · intro b₁ c p hb₁ hp
    by_cases hne : b₁ = b
    · subst hne
      rw [hnew] at hb₁
      obtain rfl := Option.some.inj hb₁
      exact hfresh p (h.latest p hp).1
    · rw [hold hne] at hb₁
      exact h.previous_lt b₁ c p hb₁ hp

/-- A barrier moves on. -/
theorem moved (h : Chained l) {b : ℕ} {c : BarrierCall} {phase : BarrierPhase}
    (hb : l.call b = some c) (hopen : c.phase ≠ .settled)
    (hbefore : ∀ b' c', l.call b' = some c' → b' < b → c'.phase = .settled)
    (hbarrier : l'.barrier = l.barrier) (hblocked : l'.blocked = l.blocked)
    (hcall : l'.call = Function.update l.call b (some { c with phase })) : Chained l' := by
  have hnew : l'.call b = some { c with phase } := by rw [hcall, Function.update_self]
  have hold : ∀ {b'}, b' ≠ b → l'.call b' = l.call b' := fun hne ↦ by
    rw [hcall, Function.update_of_ne hne]
  have hsome : ∀ b', (l'.call b').isSome = (l.call b').isSome := fun b' ↦ by
    by_cases hne : b' = b
    · rw [hne, hnew, hb]
      rfl
    · rw [hold hne]
  refine ⟨by rw [hblocked, hbarrier, h.blocked], ?_, fun hnone ↦ ?_, ?_, ?_, ?_⟩
  · simp only [hbarrier, hsome]
    exact h.latest
  · rw [hbarrier] at hnone
    exact absurd (h.idle hnone b c hb) hopen
  · intro b₁ b' c₁ c' hb₁ hb' hlt hc₁
    by_cases hne : b₁ = b
    · subst hne
      rw [hold (by omega)] at hb'
      exact hbefore b' c' hb' hlt
    · rw [hold hne] at hb₁
      by_cases hne' : b' = b
      · subst hne'
        exact absurd (h.begun b₁ b' c₁ c hb₁ hb hlt hc₁) hopen
      · rw [hold hne'] at hb'
        exact h.begun b₁ b' c₁ c' hb₁ hb' hlt hc₁
  · intro b₁ b' c₁ c' hb₁ hb' hlt
    simp only [hsome]
    by_cases hne : b₁ = b
    · subst hne
      rw [hold (by omega)] at hb'
      exact .inl (hbefore b' c' hb' hlt)
    · rw [hold hne] at hb₁
      by_cases hne' : b' = b
      · subst hne'
        exact .inr ((h.previous b₁ b' c₁ c hb₁ hb hlt).resolve_left hopen)
      · rw [hold hne'] at hb'
        exact h.previous b₁ b' c₁ c' hb₁ hb' hlt
  · intro b₁ c₁ p hb₁ hp
    by_cases hne : b₁ = b
    · subst hne
      rw [hnew] at hb₁
      obtain rfl := Option.some.inj hb₁
      exact h.previous_lt b₁ c p hb hp
    · rw [hold hne] at hb₁
      exact h.previous_lt b₁ c₁ p hb₁ hp

/-- A barrier that has settled returns; the room is unblocked if it is the last one. -/
theorem returned (h : Chained l) {b : ℕ} {c : BarrierCall} (hb : l.call b = some c)
    (hsettled : c.phase = .settled)
    (hbarrier : l'.barrier = if l.barrier = some b then none else l.barrier)
    (hblocked : l'.blocked = if l.barrier = some b then false else l.blocked)
    (hcall : l'.call = Function.update l.call b none) : Chained l' := by
  have hold : ∀ {b'}, b' ≠ b → l'.call b' = l.call b' := fun hne ↦ by
    rw [hcall, Function.update_of_ne hne]
  have hof : ∀ {b' c'}, l'.call b' = some c' → b' ≠ b ∧ l.call b' = some c' := fun {b' c'} hb' ↦ by
    by_cases hne : b' = b
    · rw [hcall, hne, Function.update_self] at hb'
      cases hb'
    · exact ⟨hne, hold hne ▸ hb'⟩
  have hbefore : ∀ {b' c'}, l.call b' = some c' → b' ≤ b → c'.phase = .settled := by
    intro b' c' hb' hle
    rcases Nat.lt_or_eq_of_le hle with hlt | rfl
    · exact h.begun b b' c c' hb hb' hlt (by rw [hsettled]; decide)
    · rw [hb] at hb'
      exact Option.some.inj hb' ▸ hsettled
  refine ⟨?_, fun b₁ hb₁ ↦ ?_, fun hnone ↦ ?_, ?_, ?_, ?_⟩
  · rw [hblocked, hbarrier]
    split
    · rfl
    · exact h.blocked
  · rw [hbarrier] at hb₁
    split at hb₁
    · cases hb₁
    · next hne =>
      obtain ⟨hsome, hmax⟩ := h.latest b₁ hb₁
      have hb₁b : b₁ ≠ b := fun heq ↦ hne (heq ▸ hb₁)
      refine ⟨by rw [hold hb₁b]; exact hsome, fun b' hb' ↦ hmax b' ?_⟩
      obtain ⟨c', hc'⟩ := Option.isSome_iff_exists.mp hb'
      rw [(hof hc').2]
      rfl
  · intro b' c' hb'
    obtain ⟨-, hb'⟩ := hof hb'
    rw [hbarrier] at hnone
    split at hnone
    · next hlast => exact hbefore hb' ((h.latest b hlast).2 b' (by rw [hb']; rfl))
    · exact h.idle hnone b' c' hb'
  · intro b₁ b' c₁ c' hb₁ hb'
    exact h.begun b₁ b' c₁ c' (hof hb₁).2 (hof hb').2
  · intro b₁ b' c₁ c' hb₁ hb' hlt
    rcases h.previous b₁ b' c₁ c' (hof hb₁).2 (hof hb').2 hlt with hs | ⟨p, hp, hle, hsome⟩
    · exact .inl hs
    · by_cases hpb : p = b
      · exact .inl (hbefore (hof hb').2 (hpb ▸ hle))
      · exact .inr ⟨p, hp, hle, by rw [hold hpb]; exact hsome⟩
  · intro b₁ c₁ p hb₁ hp
    exact h.previous_lt b₁ c₁ p (hof hb₁).2 hp

end Chained

/-! ### Nothing is written while a barrier operates -/

/-- What the phase of a barrier says about the writer of its room. -/
def PhaseAllows (l : RoomLine) (promises : ℕ → Option Bool) : BarrierPhase → Prop
  | .operating => l.writer = none
  | .waiting n => (promises n).isSome ∧ l.writer = none ∨ l.active.map (·.snapshot) = some n
  | _ => True

/-- A barrier's phase keeps its meaning while the writer stays and promises only settle. -/
theorem PhaseAllows.mono {l l' : RoomLine} {p p' : ℕ → Option Bool} {phase : BarrierPhase}
    (h : PhaseAllows l p phase) (hwriter : l'.writer = l.writer)
    (hp : ∀ n, (p n).isSome → (p' n).isSome) : PhaseAllows l' p' phase := by
  cases phase with
  | operating => exact hwriter.trans h
  | waiting n =>
    rcases h with ⟨hsome, hnone⟩ | hactive
    · exact .inl ⟨hp n hsome, hwriter.trans hnone⟩
    · refine .inr ?_
      rw [RoomLine.active, hwriter]
      exact hactive
  | chained => trivial
  | settled => trivial

/-- A room's writer exists while a save is active, and a blocked room holds its snapshots in the
one place, an open one in the other. -/
structure Writing (l : RoomLine) (promises : ℕ → Option Bool) : Prop where
  active : ∀ w, l.writer = some w → w.active.isSome
  unsettled : ∀ a, l.active = some a → promises a.snapshot = none
  pending : l.blocked = true → l.writer.bind (·.pending) = none
  blockedPending : l.blocked = false → l.blockedPending = none
  phases : ∀ b c, l.call b = some c → PhaseAllows l promises c.phase

namespace Writing

variable {l l' : RoomLine} {p p' : ℕ → Option Bool}

/-- A room without an active save has no writer. -/
theorem writer_eq_none (h : Writing l p) (hactive : l.active = none) : l.writer = none := by
  cases hw : l.writer with
  | none => rfl
  | some w =>
    have hsome := h.active w hw
    rw [RoomLine.active, hw] at hactive
    rw [show w.active = none from hactive] at hsome
    cases hsome

/-- The writer stays. -/
theorem congr (h : Writing l p) (hwriter : l'.writer = l.writer)
    (hblocked : l'.blocked = true → l.blocked = true)
    (hpending : l'.blocked = false → l'.blockedPending = none)
    (hunsettled : ∀ a, l.active = some a → p' a.snapshot = none)
    (hphases : ∀ b c, l'.call b = some c → PhaseAllows l' p' c.phase) : Writing l' p' where
  active := by rw [hwriter]; exact h.active
  unsettled := by rw [RoomLine.active, hwriter]; exact hunsettled
  pending := by rw [hwriter]; exact fun hb ↦ h.pending (hblocked hb)
  blockedPending := hpending
  phases := hphases

/-- The writer changes beside the snapshot that it writes. -/
theorem rewritten (h : Writing l p) {w w' : RoomHistoryWriter} (hw : l.writer = some w)
    (hw' : l'.writer = some w') (hactive : w'.active.map (·.snapshot) = w.active.map (·.snapshot))
    (hblocked : l'.blocked = l.blocked) (hheld : l'.blockedPending = l.blockedPending)
    (hpending : l.blocked = true → w'.pending = none) (hcall : l'.call = l.call) :
    Writing l' p where
  active := by
    intro w₁ hw₁
    obtain rfl := Option.some.inj (hw'.symm.trans hw₁)
    have hsome := h.active w hw
    rw [← Option.isSome_map (f := (·.snapshot)), hactive, Option.isSome_map]
    exact hsome
  unsettled := by
    intro a ha
    rw [RoomLine.active, hw'] at ha
    have hsnapshot : w.active.map (·.snapshot) = some a.snapshot := by
      rw [← hactive, show w'.active = some a from ha]
      rfl
    obtain ⟨a₀, ha₀, heq⟩ := Option.map_eq_some_iff.mp hsnapshot
    rw [← heq]
    exact h.unsettled a₀ (by rw [RoomLine.active, hw]; exact ha₀)
  pending := by
    rw [hblocked, hw']
    exact hpending
  blockedPending := by
    rw [hblocked, hheld]
    exact h.blockedPending
  phases := by
    rw [hcall]
    intro b c hb
    have hold := h.phases b c hb
    cases hphase : c.phase with
    | operating =>
      rw [hphase] at hold
      rw [show l.writer = none from hold] at hw
      cases hw
    | waiting n =>
      rw [hphase] at hold
      rcases hold with ⟨-, hnone⟩ | hsnapshot
      · rw [hnone] at hw
        cases hw
      · refine .inr ?_
        rw [RoomLine.active, hw'] 
        rw [RoomLine.active, hw] at hsnapshot
        exact hactive.trans hsnapshot
    | chained => trivial
    | settled => trivial

/-- A save starts in a room in which no barrier is. -/
theorem started {n : ℕ} (hwriter : l'.writer = some ⟨some ⟨n, .saving⟩, none⟩) (hn : p' n = none)
    (hheld : l'.blockedPending = none)
    (hcalls : ∀ b c, l'.call b = some c → c.phase = .settled) : Writing l' p' where
  active := by
    intro w hw
    obtain rfl := Option.some.inj (hwriter.symm.trans hw)
    rfl
  unsettled := by
    intro a ha
    rw [RoomLine.active, hwriter] at ha
    obtain rfl := Option.some.inj ha
    exact hn
  pending := by
    rw [hwriter]
    exact fun _ ↦ rfl
  blockedPending := fun _ ↦ hheld
  phases := by
    intro b c hb
    rw [hcalls b c hb]
    trivial

/-- The last reaction to a save drops the writer. -/
theorem finished (h : Writing l p) {w : RoomHistoryWriter} {n : ℕ} {phase : SavePhase}
    (hw : l.writer = some w) (hactive : w.active = some ⟨n, phase⟩) (hwriter : l'.writer = none)
    (hn : (p' n).isSome) (hblocked : l'.blocked = l.blocked)
    (hheld : l'.blockedPending = l.blockedPending) (hcall : l'.call = l.call) : Writing l' p' where
  active := by
    rw [hwriter]
    nofun
  unsettled := by
    rw [RoomLine.active, hwriter]
    nofun
  pending := by
    rw [hwriter]
    exact fun _ ↦ rfl
  blockedPending := by
    rw [hblocked, hheld]
    exact h.blockedPending
  phases := by
    rw [hcall]
    intro b c hb
    have hold := h.phases b c hb
    cases hphase : c.phase with
    | operating => exact hwriter
    | waiting m =>
      rw [hphase] at hold
      rcases hold with ⟨-, hnone⟩ | hsnapshot
      · rw [hnone] at hw
        cases hw
      · rw [RoomLine.active, hw, Option.bind_some, hactive] at hsnapshot
        obtain rfl : n = m := Option.some.inj hsnapshot
        exact .inl ⟨hn, hwriter⟩
    | chained => trivial
    | settled => trivial

/-- A new barrier takes the pending snapshot out of the writer. -/
theorem called (h : Writing l p) {b : ℕ} {c : BarrierCall}
    (hwriter : l'.writer = l.writer.map fun w ↦ ⟨w.active, none⟩) (hblocked : l'.blocked = true)
    (hcall : l'.call = Function.update l.call b (some c)) (hc : c.phase = .chained) :
    Writing l' p := by
  have hactive : l'.active = l.active := by
    rw [RoomLine.active, RoomLine.active, hwriter]
    cases l.writer <;> rfl
  refine ⟨fun w' hw' ↦ ?_, ?_, fun _ ↦ ?_, fun hopen ↦ ?_, fun b' c' hb' ↦ ?_⟩
  · rw [hwriter] at hw'
    obtain ⟨w, hw, rfl⟩ := Option.map_eq_some_iff.mp hw'
    exact h.active w hw
  · rw [hactive]
    exact h.unsettled
  · rw [hwriter]
    cases l.writer <;> rfl
  · rw [hblocked] at hopen
    cases hopen
  · by_cases hne : b' = b
    · rw [hcall, hne, Function.update_self] at hb'
      rw [← Option.some.inj hb', hc]
      trivial
    · rw [hcall, Function.update_of_ne hne] at hb'
      have hold := h.phases b' c' hb'
      cases hphase : c'.phase with
      | operating =>
        rw [hphase] at hold
        rw [PhaseAllows, hwriter, show l.writer = none from hold]
        rfl
      | waiting n =>
        rw [hphase] at hold
        rw [PhaseAllows, hactive, hwriter]
        refine Or.imp_left (fun ⟨hsome, hnone⟩ ↦ ⟨hsome, ?_⟩) hold
        rw [hnone]
        rfl
      | chained => trivial
      | settled => trivial

end Writing

/-! ### Every snapshot is held, written or obsolete -/

/-- A barrier of the room has succeeded since the snapshot was queued. -/
def SucceededAfter (log : List QueueEvent) (r : String) (n : ℕ) : Prop :=
  ∃ before after b, log = before ++ after ∧ .queued r n ∈ before ∧ .barrierSucceeded r b ∈ after

/-- A flush has thrown the error of a save. -/
def Reported (log : List QueueEvent) (n : ℕ) : Prop := ∃ f ns, .flushFailed f ns ∈ log ∧ n ∈ ns

/-- What became of a snapshot that no barrier made obsolete. -/
inductive Dealt (r : String) (l : RoomLine) (log : List QueueEvent) (n : ℕ) : Prop
  | held (h : l.Held n)
  | active (h : l.active = some ⟨n, .saving⟩)
  | saved (h : .saved r n ∈ log)
  | failed (h : .saveFailed r n ∈ log) (hknown : l.failure = some n ∨ Reported log n)

/-- The snapshots of a room in the order in which they are handed to `save`. -/
def handedSnapshots (r : String) (log : List QueueEvent) : List ℕ :=
  log.filterMap fun
    | .handed r' n => if r' = r then some n else none
    | _ => none

/-- A snapshot that can be handed over: it is newer than all that have been. -/
structure Waits (r : String) (promises : ℕ → Option Bool) (log : List QueueEvent) (n : ℕ) :
    Prop where
  queued : .queued r n ∈ log
  unsettled : promises n = none
  newer : ∀ m, .handed r m ∈ log → m < n

/-- What the log of a run knows of the saves of a room. -/
structure Logged (r : String) (l : RoomLine) (promises : ℕ → Option Bool)
    (log : List QueueEvent) : Prop where
  held : ∀ n, l.Held n → Waits r promises log n
  active : ∀ a, l.active = some a → .handed r a.snapshot ∈ log ∧
    ∀ m, .handed r m ∈ log → m ≤ a.snapshot
  handed : ∀ n, .handed r n ∈ log → .queued r n ∈ log ∧
    (.saved r n ∈ log ∨ .saveFailed r n ∈ log ∨ l.active = some ⟨n, .saving⟩)
  ended : ∀ n, .saved r n ∈ log ∨ .saveFailed r n ∈ log → .handed r n ∈ log
  failure : ∀ n, l.failure = some n → .saveFailed r n ∈ log
  order : (handedSnapshots r log).Pairwise (· < ·)

/-- Every snapshot is obsolete, or it or a newer one is dealt with. -/
def Kept (r : String) (l : RoomLine) (log : List QueueEvent) : Prop :=
  ∀ n, .queued r n ∈ log → SucceededAfter log r n ∨ ∃ n' ≥ n, Dealt r l log n'

/-- An event that says nothing about the saves of a room. -/
@[grind =] def Quiet (r : String) : QueueEvent → Prop
  | .handed r' _ | .saved r' _ | .saveFailed r' _ => r' ≠ r
  | _ => True

theorem mem_handedSnapshots {r : String} {log : List QueueEvent} {n : ℕ} :
    n ∈ handedSnapshots r log ↔ .handed r n ∈ log := by
  unfold handedSnapshots
  rw [List.mem_filterMap]
  constructor
  · rintro ⟨e, he, hn⟩
    cases e <;> simp only [Option.ite_none_right_eq_some, Option.some.injEq, reduceCtorEq] at hn
    obtain ⟨rfl, rfl⟩ := hn
    exact he
  · intro he
    exact ⟨_, he, if_pos rfl⟩

theorem handedSnapshots_append (r : String) (log new : List QueueEvent) :
    handedSnapshots r (log ++ new) = handedSnapshots r log ++ handedSnapshots r new :=
  List.filterMap_append

theorem handedSnapshots_quiet {r : String} {new : List QueueEvent} (h : ∀ e ∈ new, Quiet r e) :
    handedSnapshots r new = [] := by
  refine List.eq_nil_iff_forall_not_mem.mpr fun n hn ↦ ?_
  exact h _ (mem_handedSnapshots.mp hn) rfl

section Log

variable {r : String} {l l' : RoomLine} {p p' : ℕ → Option Bool} {log new : List QueueEvent}

theorem SucceededAfter.append {n : ℕ} (h : SucceededAfter log r n) :
    SucceededAfter (log ++ new) r n := by
  obtain ⟨before, after, b, rfl, hq, hb⟩ := h
  exact ⟨before, after ++ new, b, List.append_assoc .., hq, List.mem_append_left _ hb⟩

theorem Reported.append {n : ℕ} (h : Reported log n) : Reported (log ++ new) n := by
  obtain ⟨f, ns, hf, hn⟩ := h
  exact ⟨f, ns, List.mem_append_left _ hf, hn⟩

/-- A snapshot stays dealt with while the line stays the same to it. -/
theorem Dealt.append {n : ℕ} (h : Dealt r l log n) (hheld : l.Held n → l'.Held n)
    (hactive : l.active = some ⟨n, .saving⟩ → l'.active = some ⟨n, .saving⟩)
    (hfailure : l.failure = some n → l'.failure = some n ∨ Reported (log ++ new) n) :
    Dealt r l' (log ++ new) n := by
  cases h with
  | held h => exact .held (hheld h)
  | active h => exact .active (hactive h)
  | saved h => exact .saved (List.mem_append_left _ h)
  | failed h hknown =>
    refine .failed (List.mem_append_left _ h) ?_
    rcases hknown with hline | hreported
    · exact hfailure hline
    · exact .inr hreported.append

/-- **The step lemma** of `Kept`. -/
theorem Kept.append (h : Kept r l log)
    (hold : ∀ n, Dealt r l log n → ∃ n' ≥ n, Dealt r l' (log ++ new) n')
    (hnew : ∀ n, .queued r n ∈ new → ∃ n' ≥ n, Dealt r l' (log ++ new) n') :
    Kept r l' (log ++ new) := by
  intro n hn
  rcases List.mem_append.mp hn with hin | hin
  · rcases h n hin with hsucceeded | ⟨n', hle, hdealt⟩
    · exact .inl hsucceeded.append
    · obtain ⟨n'', hle', hdealt'⟩ := hold n' hdealt
      exact .inr ⟨n'', hle.trans hle', hdealt'⟩
  · exact .inr (hnew n hin)

theorem mem_append_quiet {e : QueueEvent} (hnew : ∀ e ∈ new, Quiet r e) (he : ¬Quiet r e) :
    e ∈ log ++ new ↔ e ∈ log := by
  rw [List.mem_append]
  exact or_iff_left fun hin ↦ he (hnew e hin)

theorem Waits.append {n : ℕ} (h : Waits r p log n) (hnew : ∀ e ∈ new, Quiet r e)
    (hp : p' n = none) : Waits r p' (log ++ new) n where
  queued := List.mem_append_left _ h.queued
  unsettled := hp
  newer := by
    intro m hm
    have hold : QueueEvent.handed r m ∈ log ++ new ↔ .handed r m ∈ log :=
      mem_append_quiet hnew (not_not_intro rfl)
    exact h.newer m (hold.mp hm)

/-- No save starts or settles. -/
theorem Logged.append (h : Logged r l p log) (hnew : ∀ e ∈ new, Quiet r e)
    (hactive : ∀ a, l'.active = some a → l.active = some a)
    (hsaving : ∀ n, l.active = some ⟨n, .saving⟩ → l'.active = some ⟨n, .saving⟩)
    (hheld : ∀ n, l'.Held n → Waits r p' (log ++ new) n)
    (hfailure : ∀ n, l'.failure = some n → l.failure = some n) : Logged r l' p' (log ++ new) := by
  have hhanded : ∀ n, .handed r n ∈ log ++ new ↔ .handed r n ∈ log := fun n ↦
    mem_append_quiet hnew (not_not_intro rfl)
  have hsaved : ∀ n, .saved r n ∈ log ++ new ↔ .saved r n ∈ log := fun n ↦
    mem_append_quiet hnew (not_not_intro rfl)
  have hfailed : ∀ n, .saveFailed r n ∈ log ++ new ↔ .saveFailed r n ∈ log := fun n ↦
    mem_append_quiet hnew (not_not_intro rfl)
  refine ⟨hheld, ?_, fun n hn ↦ ?_, ?_, fun n hn ↦ ?_, ?_⟩
  · simp only [hhanded]
    exact fun a ha ↦ h.active a (hactive a ha)
  · rw [hhanded] at hn
    obtain ⟨hq, hstate⟩ := h.handed n hn
    rw [hsaved, hfailed]
    exact ⟨List.mem_append_left _ hq, hstate.imp id (.imp id (hsaving n))⟩
  · simp only [hsaved, hfailed, hhanded]
    exact h.ended
  · rw [hfailed]
    exact h.failure n (hfailure n hn)
  · rw [handedSnapshots_append, handedSnapshots_quiet hnew, List.append_nil]
    exact h.order

/-- A snapshot is handed over. -/
theorem Logged.started (h : Logged r l p log) {n : ℕ} (hn : Waits r p log n)
    (hidle : ∀ m, l.active ≠ some ⟨m, .saving⟩) (hactive : l'.active = some ⟨n, .saving⟩)
    (hheld : ∀ m, ¬l'.Held m) (hfailure : l'.failure = l.failure) :
    Logged r l' p (log ++ [.handed r n]) := by
  have hhanded : ∀ m, .handed r m ∈ log ++ [.handed r n] ↔ .handed r m ∈ log ∨ m = n := by
    simp
  have hqueued : ∀ m, .queued r m ∈ log ++ [.handed r n] ↔ .queued r m ∈ log := by
    simp
  have hsaved : ∀ m, .saved r m ∈ log ++ [.handed r n] ↔ .saved r m ∈ log := by
    simp
  have hfailed : ∀ m, .saveFailed r m ∈ log ++ [.handed r n] ↔ .saveFailed r m ∈ log := by
    simp
  refine ⟨fun m hm ↦ absurd hm (hheld m), fun a ha ↦ ?_, fun m hm ↦ ?_, fun m hm ↦ ?_,
    fun m hm ↦ ?_, ?_⟩
  · obtain rfl := Option.some.inj (hactive.symm.trans ha)
    refine ⟨(hhanded n).mpr (.inr rfl), fun m hm ↦ ?_⟩
    rcases (hhanded m).mp hm with hm | rfl
    · exact (hn.newer m hm).le
    · exact le_rfl
  · rw [hqueued, hsaved, hfailed]
    rcases (hhanded m).mp hm with hm | rfl
    · obtain ⟨hq, hstate⟩ := h.handed m hm
      exact ⟨hq, hstate.imp id (.imp id fun hsaving ↦ absurd hsaving (hidle m))⟩
    · exact ⟨hn.queued, .inr (.inr hactive)⟩
  · rw [hsaved, hfailed] at hm
    exact (hhanded m).mpr (.inl (h.ended m hm))
  · rw [hfailed]
    exact h.failure m (hfailure ▸ hm)
  · rw [handedSnapshots_append, List.pairwise_append]
    refine ⟨h.order, ?_, fun m hm m' hm' ↦ ?_⟩
    · rw [show handedSnapshots r [.handed r n] = [n] by simp [handedSnapshots]]
      exact List.pairwise_singleton ..
    · obtain rfl : m' = n := by simpa using mem_handedSnapshots.mp hm'
      exact hn.newer m (mem_handedSnapshots.mp hm)

/-- A save settles. -/
theorem Logged.settled (h : Logged r l p log) {n : ℕ} {threw : Bool} {e : QueueEvent}
    (hsaving : l.active = some ⟨n, .saving⟩) (hactive : l'.active = some ⟨n, .settled threw⟩)
    (hheld : ∀ m, l'.Held m → l.Held m)
    (he : e = .saved r n ∧ l'.failure = none ∨ e = .saveFailed r n ∧ l'.failure = some n) :
    Logged r l' p (log ++ [e]) := by
  have hhanded : ∀ m, .handed r m ∈ log ++ [e] ↔ .handed r m ∈ log := by
    rcases he with ⟨rfl, -⟩ | ⟨rfl, -⟩ <;> simp
  have hended : .saved r n ∈ log ++ [e] ∨ .saveFailed r n ∈ log ++ [e] := by
    rcases he with ⟨rfl, -⟩ | ⟨rfl, -⟩ <;> simp
  refine ⟨fun m hm ↦ ?_, fun a ha ↦ ?_, fun m hm ↦ ?_, fun m hm ↦ ?_, fun m hm ↦ ?_, ?_⟩
  · obtain ⟨hq, hp, hlt⟩ := h.held m (hheld m hm)
    exact ⟨List.mem_append_left _ hq, hp, fun k hk ↦ hlt k ((hhanded k).mp hk)⟩
  · obtain rfl := Option.some.inj (hactive.symm.trans ha)
    simp only [hhanded]
    exact h.active _ hsaving
  · obtain ⟨hq, hstate⟩ := h.handed m ((hhanded m).mp hm)
    refine ⟨List.mem_append_left _ hq, ?_⟩
    rcases hstate with hs | hf | ha
    · exact .inl (List.mem_append_left _ hs)
    · exact .inr (.inl (List.mem_append_left _ hf))
    · obtain rfl : n = m := by simpa using hsaving.symm.trans ha
      exact hended.imp id .inl
  · rw [hhanded]
    rcases he with ⟨rfl, -⟩ | ⟨rfl, -⟩ <;>
      simp only [List.mem_append, List.mem_singleton, QueueEvent.saved.injEq,
        QueueEvent.saveFailed.injEq, reduceCtorEq, or_false, true_and] at hm
    · rcases hm with (hm | rfl) | hm
      · exact h.ended m (.inl hm)
      · exact (h.active _ hsaving).1
      · exact h.ended m (.inr hm)
    · rcases hm with hm | hm | rfl
      · exact h.ended m (.inl hm)
      · exact h.ended m (.inr hm)
      · exact (h.active _ hsaving).1
  · rcases he with ⟨-, hnone⟩ | ⟨rfl, hsome⟩
    · rw [hnone] at hm
      cases hm
    · obtain rfl := Option.some.inj (hsome.symm.trans hm)
      simp
  · have hnone : handedSnapshots r [e] = [] := by
      rcases he with ⟨rfl, -⟩ | ⟨rfl, -⟩ <;> rfl
    rw [handedSnapshots_append, hnone, List.append_nil]
    exact h.order

end Log

/-! ### The log of the barriers -/

/-- What the log of a run knows of the barriers of a room. -/
structure Recorded (r : String) (l : RoomLine) (next : ℕ) (log : List QueueEvent) : Prop where
  started : ∀ b, .operationStarted r b ∈ log → .barrierSucceeded r b ∈ log ∨
    .barrierFailed r b ∈ log ∨ ∃ c, l.call b = some c ∧ c.phase = .operating
  called : ∀ b, .barrierCalled r b ∈ log → .barrierReturned r b ∈ log ∨ (l.call b).isSome
  opened : ∀ b, (l.call b).isSome → .barrierCalled r b ∈ log ∧ .barrierReturned r b ∉ log
  returned_lt : ∀ b, .barrierReturned r b ∈ log → b < next

/-- An event that is no call, start or return of a barrier of a room. -/
@[grind =] def Calm (r : String) : QueueEvent → Prop
  | .barrierCalled r' _ | .operationStarted r' _ | .barrierReturned r' _ => r' ≠ r
  | _ => True

namespace Recorded

variable {r : String} {l l' : RoomLine} {next next' : ℕ} {log new : List QueueEvent}

theorem mem_append_calm {e : QueueEvent} (hnew : ∀ e ∈ new, Calm r e) (he : ¬Calm r e) :
    e ∈ log ++ new ↔ e ∈ log := by
  rw [List.mem_append]
  exact or_iff_left fun hin ↦ he (hnew e hin)

theorem append (h : Recorded r l next log) (hnew : ∀ e ∈ new, Calm r e) (hcall : l'.call = l.call)
    (hnext : next ≤ next') : Recorded r l' next' (log ++ new) := by
  have hstarted : ∀ b, .operationStarted r b ∈ log ++ new ↔ .operationStarted r b ∈ log :=
    fun b ↦ mem_append_calm hnew (not_not_intro rfl)
  have hcalled : ∀ b, .barrierCalled r b ∈ log ++ new ↔ .barrierCalled r b ∈ log :=
    fun b ↦ mem_append_calm hnew (not_not_intro rfl)
  have hreturned : ∀ b, .barrierReturned r b ∈ log ++ new ↔ .barrierReturned r b ∈ log :=
    fun b ↦ mem_append_calm hnew (not_not_intro rfl)
  refine ⟨fun b hb ↦ ?_, ?_, ?_, fun b hb ↦ ?_⟩
  · rw [hcall]
    exact (h.started b ((hstarted b).mp hb)).imp (List.mem_append_left _)
      (.imp (List.mem_append_left _) id)
  · simp only [hcalled, hreturned, hcall]
    exact h.called
  · simp only [hcalled, hreturned, hcall]
    exact h.opened
  · exact (h.returned_lt b ((hreturned b).mp hb)).trans_le hnext

/-- A new barrier. -/
theorem call (h : Recorded r l next log) (hfresh : ∀ b', (l.call b').isSome → b' < next)
    {c : BarrierCall} (hcall : l'.call = Function.update l.call next (some c)) :
    Recorded r l' (next + 1) (log ++ [.barrierCalled r next]) := by
  have hnew : l'.call next = some c := by rw [hcall, Function.update_self]
  have hold : ∀ {b}, b ≠ next → l'.call b = l.call b := fun hne ↦ by
    rw [hcall, Function.update_of_ne hne]
  refine ⟨fun b hb ↦ ?_, fun b hb ↦ ?_, fun b hb ↦ ?_, fun b hb ↦ ?_⟩
  · have hin : QueueEvent.operationStarted r b ∈ log := by simpa using hb
    refine (h.started b hin).imp (List.mem_append_left _) (.imp (List.mem_append_left _) ?_)
    rintro ⟨c', hc', hphase⟩
    exact ⟨c', (hold (hfresh b (by rw [hc']; rfl)).ne).trans hc', hphase⟩
  · by_cases hne : b = next
    · rw [hne, hnew]
      exact .inr rfl
    · have hin : QueueEvent.barrierCalled r b ∈ log := by simpa [hne] using hb
      rw [hold hne]
      exact (h.called b hin).imp_left (List.mem_append_left _)
  · by_cases hne : b = next
    · subst hne
      refine ⟨by simp, fun hin ↦ ?_⟩
      have hlt := h.returned_lt b (by simpa using hin)
      omega
    · rw [hold hne] at hb
      obtain ⟨hcalled, hreturned⟩ := h.opened b hb
      exact ⟨List.mem_append_left _ hcalled, by simpa using hreturned⟩
  · have hlt := h.returned_lt b (by simpa using hb)
    omega

/-- A barrier moves on. -/
theorem moved (h : Recorded r l next log) {b : ℕ} {c c' : BarrierCall} (hb : l.call b = some c)
    (hcall : l'.call = Function.update l.call b (some c'))
    (hnew : ∀ e ∈ new, Calm r e ∨ e = .operationStarted r b ∧ c'.phase = .operating)
    (hend : c.phase = .operating → .barrierSucceeded r b ∈ new ∨ .barrierFailed r b ∈ new) :
    Recorded r l' next (log ++ new) := by
  have hself : l'.call b = some c' := by rw [hcall, Function.update_self]
  have hold : ∀ {b'}, b' ≠ b → l'.call b' = l.call b' := fun hne ↦ by
    rw [hcall, Function.update_of_ne hne]
  have hsome : ∀ b', (l'.call b').isSome = (l.call b').isSome := fun b' ↦ by
    by_cases hne : b' = b
    · rw [hne, hself, hb]
      rfl
    · rw [hold hne]
  have hcalled : ∀ b', .barrierCalled r b' ∈ log ++ new ↔ .barrierCalled r b' ∈ log := by
    refine fun b' ↦ List.mem_append.trans (or_iff_left fun hin ↦ ?_)
    rcases hnew _ hin with hcalm | ⟨heq, -⟩
    · exact hcalm rfl
    · cases heq
  have hreturned : ∀ b', .barrierReturned r b' ∈ log ++ new ↔ .barrierReturned r b' ∈ log := by
    refine fun b' ↦ List.mem_append.trans (or_iff_left fun hin ↦ ?_)
    rcases hnew _ hin with hcalm | ⟨heq, -⟩
    · exact hcalm rfl
    · cases heq
  refine ⟨fun b' hb' ↦ ?_, ?_, ?_, ?_⟩
  · rcases List.mem_append.mp hb' with hin | hin
    · rcases h.started b' hin with hs | hf | ⟨c₁, hc₁, hphase⟩
      · exact .inl (List.mem_append_left _ hs)
      · exact .inr (.inl (List.mem_append_left _ hf))
      · by_cases hne : b' = b
        · subst hne
          obtain rfl := Option.some.inj (hb.symm.trans hc₁)
          rcases hend hphase with hs | hf
          · exact .inl (List.mem_append_right _ hs)
          · exact .inr (.inl (List.mem_append_right _ hf))
        · exact .inr (.inr ⟨c₁, (hold hne).trans hc₁, hphase⟩)
    · rcases hnew _ hin with hcalm | ⟨heq, hphase⟩
      · exact absurd rfl hcalm
      · obtain ⟨-, rfl⟩ := QueueEvent.operationStarted.inj heq
        exact .inr (.inr ⟨c', hself, hphase⟩)
  · simp only [hcalled, hreturned, hsome]
    exact h.called
  · simp only [hcalled, hreturned, hsome]
    exact h.opened
  · simp only [hreturned]
    exact h.returned_lt

/-- A barrier returns. -/
theorem returned (h : Recorded r l next log) {b : ℕ} {c : BarrierCall} (hb : l.call b = some c)
    (hsettled : c.phase = .settled) (hlt : b < next)
    (hcall : l'.call = Function.update l.call b none) :
    Recorded r l' next (log ++ [.barrierReturned r b]) := by
  have hold : ∀ {b'}, b' ≠ b → l'.call b' = l.call b' := fun hne ↦ by
    rw [hcall, Function.update_of_ne hne]
  refine ⟨fun b' hb' ↦ ?_, fun b' hb' ↦ ?_, fun b' hb' ↦ ?_, fun b' hb' ↦ ?_⟩
  · have hin : QueueEvent.operationStarted r b' ∈ log := by simpa using hb'
    refine (h.started b' hin).imp (List.mem_append_left _) (.imp (List.mem_append_left _) ?_)
    rintro ⟨c', hc', hphase⟩
    refine ⟨c', (hold fun heq ↦ ?_).trans hc', hphase⟩
    rw [heq, hb] at hc'
    rw [← Option.some.inj hc', hsettled] at hphase
    cases hphase
  · have hin : QueueEvent.barrierCalled r b' ∈ log := by simpa using hb'
    by_cases hne : b' = b
    · rw [hne]
      exact .inl (by simp)
    · rw [hold hne]
      exact (h.called b' hin).imp_left (List.mem_append_left _)
  · have hne : b' ≠ b := by
      rintro rfl
      rw [hcall, Function.update_self] at hb'
      cases hb'
    rw [hold hne] at hb'
    obtain ⟨hcalled, hreturned⟩ := h.opened b' hb'
    exact ⟨List.mem_append_left _ hcalled, by simpa [hne] using hreturned⟩
  · simp only [List.mem_append, List.mem_singleton, QueueEvent.barrierReturned.injEq] at hb'
    rcases hb' with hin | ⟨-, rfl⟩
    · exact h.returned_lt b' hin
    · exact hlt

end Recorded

end MultAIplayer.Desktop
