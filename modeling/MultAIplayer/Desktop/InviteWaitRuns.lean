import MultAIplayer.Desktop.InviteWaits

/-!
# One owner for each invite request that waits

`Consistent` says what the entry of a request has to do with those who hold it: how many observers
it counts, which ownership is its owner, and that an entry is there for a reason. Every action keeps
it (`Sound.step`), and with it that a settled entry belongs to a request whose newest ownership was
settled.

A settlement is forgotten only when nobody holds the request (`settled_step`). An observer that has
not been released has been holding its request since it was handed out, and the scan that handed it
out before that; so what came of a scan that was running at a settlement finds the settlement
(`held_of_watches`).
-/

namespace MultAIplayer.Desktop

namespace InviteWaits

variable (s : InviteWaits) (requestId : String)

/-! ### What the entries say -/

/-- What the entry of a request says of those who hold it, and of its settlement. -/
structure Consistent (log : List WaitEvent) : Prop where
  observers : (s.registry.entry requestId).observers = s.observing requestId
  owner : ∀ i, (s.registry.entry requestId).owner = some i ↔
    s.ownerships[i]? = some ⟨requestId, false⟩
  newest : ∀ i, (s.registry.entry requestId).owner = some i → s.IsNewest requestId i
  settled : (s.registry.entry requestId).settled = true →
    ∃ i, s.IsNewest requestId i ∧ .settled i ∈ log
  held : ∀ e, s.registry.entries.get requestId = some e → e.isHeld s.registry.scans = true

variable {s requestId} {s' : InviteWaits} {log log' : List WaitEvent}

theorem IsNewest.congr {i : ℕ} (h : s.IsNewest requestId i)
    (hownerships : ∀ (i : ℕ) b, s'.ownerships[i]? = some ⟨requestId, b⟩ ↔
      s.ownerships[i]? = some ⟨requestId, b⟩) : s'.IsNewest requestId i :=
  ⟨h.1.imp fun b hb ↦ (hownerships i b).mpr hb, fun j b hj ↦ h.2 j b ((hownerships j b).mp hj)⟩

namespace Consistent

/-- A step that changes neither the owner of a request nor its observers. -/
theorem congr (h : s.Consistent requestId log) (s' : InviteWaits) (log' : List WaitEvent)
    (howner : (s'.registry.entry requestId).owner = (s.registry.entry requestId).owner)
    (hobservers : (s'.registry.entry requestId).observers =
      (s.registry.entry requestId).observers)
    (hsettled : (s'.registry.entry requestId).settled = true →
      (s.registry.entry requestId).settled = true)
    (hheld : ∀ e, s'.registry.entries.get requestId = some e →
      e.isHeld s'.registry.scans = true)
    (hobserving : s'.observing requestId = s.observing requestId)
    (hownerships : ∀ (i : ℕ) b, s'.ownerships[i]? = some ⟨requestId, b⟩ ↔
      s.ownerships[i]? = some ⟨requestId, b⟩) :
    s'.Consistent requestId (log ++ log') where
  observers := by rw [hobservers, h.observers, hobserving]
  owner i := by rw [howner, h.owner, hownerships]
  newest i hi := (h.newest i (howner ▸ hi)).congr hownerships
  settled hs := by
    obtain ⟨i, hi, hlog⟩ := h.settled (hsettled hs)
    exact ⟨i, hi.congr hownerships, List.mem_append_left _ hlog⟩
  held := hheld

/-- A step that leaves the entry of a request alone. -/
theorem frame (h : s.Consistent requestId log) (s' : InviteWaits) (log' : List WaitEvent)
    (hget : s'.registry.entries.get requestId = s.registry.entries.get requestId)
    (hscans : s'.registry.scans = s.registry.scans)
    (hobserving : s'.observing requestId = s.observing requestId)
    (hownerships : ∀ (i : ℕ) b, s'.ownerships[i]? = some ⟨requestId, b⟩ ↔
      s.ownerships[i]? = some ⟨requestId, b⟩) :
    s'.Consistent requestId (log ++ log') := by
  have hentry : s'.registry.entry requestId = s.registry.entry requestId := by
    rw [PendingInviteWaitRegistry.entry, hget]
    rfl
  refine h.congr _ _ (congrArg _ hentry) (congrArg _ hentry) (fun hs ↦ hentry ▸ hs) (fun e he ↦ ?_)
    hobserving hownerships
  rw [hscans]
  exact h.held e (hget ▸ he)

/-- A step that writes the entry of a request, or cleans it up. -/
theorem put {registry : PendingInviteWaitRegistry} {e : PendingInviteWaitEntry}
    (hregistry : s.registry = (registry.setEntry requestId e).cleanup requestId e)
    (hobservers : e.observers = s.observing requestId)
    (howner : ∀ i, e.owner = some i ↔ s.ownerships[i]? = some ⟨requestId, false⟩)
    (hnewest : ∀ i, e.owner = some i → s.IsNewest requestId i)
    (hsettled : e.settled = true → ∃ i, s.IsNewest requestId i ∧ .settled i ∈ log) :
    s.Consistent requestId log := by
  have hget : s.registry.entries.get requestId =
      if e.isHeld registry.scans then some e else none := by
    rw [hregistry, PendingInviteWaitRegistry.get_setEntry_cleanup]
  have hscans : s.registry.scans = registry.scans := by
    rw [hregistry, PendingInviteWaitRegistry.scans_setEntry_cleanup]
  by_cases hheld : e.isHeld registry.scans = true
  · rw [if_pos hheld] at hget
    have hentry := PendingInviteWaitRegistry.entry_of_get hget
    refine ⟨hentry ▸ hobservers, hentry ▸ howner, hentry ▸ hnewest, hentry ▸ hsettled, ?_⟩
    intro e' he'
    obtain rfl := Option.some.inj (hget.symm.trans he')
    rw [hscans, hheld]
  · -- What is cleaned up has no owner and no observers, as the entry that stands for none.
    rw [if_neg hheld] at hget
    have hentry : s.registry.entry requestId = {} := by
      rw [PendingInviteWaitRegistry.entry, hget]
      rfl
    rw [PendingInviteWaitEntry.isHeld_iff] at hheld
    push Not at hheld
    obtain ⟨hnone, hzero, -⟩ := hheld
    have hno : ∀ i, e.owner ≠ some i := hnone
    refine ⟨?_, fun i ↦ ?_, fun i hi ↦ ?_, fun hs ↦ ?_, fun e' he' ↦ ?_⟩
    · rw [hentry, ← hobservers]
      show 0 = e.observers
      omega
    · rw [hentry, ← howner]
      exact ⟨(by simp), fun hi ↦ absurd hi (hno i)⟩
    · rw [hentry] at hi
      cases hi
    · rw [hentry] at hs
      cases hs
    · rw [hget] at he'
      cases he'

end Consistent

/-! ### Handles that come and go -/

theorem countP_set_add {α : Type} {p : α → Bool} {l : List α} {i : ℕ} {a : α} (b : α)
    (h : l[i]? = some a) :
    (l.set i b).countP p + (if p a then 1 else 0) = l.countP p + if p b then 1 else 0 := by
  obtain ⟨hi, rfl⟩ := List.getElem?_eq_some_iff.mp h
  have hpos : p l[i] = true → 0 < l.countP p :=
    fun hp ↦ List.countP_pos_iff.mpr ⟨_, List.getElem_mem hi, hp⟩
  rw [List.countP_set hi]
  split <;> rename_i hp
  · have := hpos hp
    omega
  · omega

/-- A handle that is released, seen from the others. -/
theorem getElem?_set_released {α : Type} {l : List α} {i j : ℕ} {a b c : α} (h : l[i]? = some a)
    (hab : c ≠ a) (hb : c ≠ b) : (l.set i b)[j]? = some c ↔ l[j]? = some c := by
  rw [List.getElem?_set]
  split
  · rename_i hij
    subst hij
    rw [h]
    split
    · exact ⟨fun hc ↦ absurd (Option.some.inj hc).symm hb,
        fun hc ↦ absurd (Option.some.inj hc).symm hab⟩
    · rename_i hlt
      exact absurd (List.getElem?_eq_some_iff.mp h).1 hlt
  · exact Iff.rfl

theorem observing_append (requestId other : String) (scan : Option ℕ) :
    ({ s with observers := s.observers ++ [⟨other, scan, false⟩] } : InviteWaits).observing
      requestId = s.observing requestId + if other = requestId then 1 else 0 := by
  simp [observing, List.countP_append, List.countP_singleton]

/-- A request loses the observer that is released. -/
theorem observing_set (requestId : String) {i : ℕ} {other : String} {scan : Option ℕ}
    (h : s.observers[i]? = some ⟨other, scan, false⟩) :
    ({ s with observers := s.observers.set i ⟨other, scan, true⟩ } : InviteWaits).observing
      requestId + (if other = requestId then 1 else 0) = s.observing requestId := by
  have := countP_set_add (p := fun o ↦ o.requestId = requestId && !o.released)
    (⟨other, scan, true⟩ : PendingInviteWaitObserver) h
  simpa [observing] using this

/-- What the registry, the handles and the settlements have to do with each other. -/
structure Sound (s : InviteWaits) (log : List WaitEvent) : Prop where
  scans : s.registry.scans = s.scans.count false
  consistent : ∀ requestId, s.Consistent requestId log

theorem sound_init : Sound {} [] where
  scans := rfl
  consistent _ := ⟨rfl, fun _ ↦ ⟨nofun, nofun⟩, nofun, nofun, nofun⟩

namespace Sound

/-- A step that writes the entry of one request, or cleans it up. -/
theorem put (h : s.Sound log) (s' : InviteWaits) (log' : List WaitEvent) {requestId : String} {e : PendingInviteWaitEntry}
    (hregistry : s'.registry = (s.registry.setEntry requestId e).cleanup requestId e)
    (hscans : s'.scans = s.scans)
    (hobserving : ∀ other ≠ requestId, s'.observing other = s.observing other)
    (hownerships : ∀ other ≠ requestId, ∀ (i : ℕ) b,
      s'.ownerships[i]? = some ⟨other, b⟩ ↔ s.ownerships[i]? = some ⟨other, b⟩)
    (hobservers : e.observers = s'.observing requestId)
    (howner : ∀ i, e.owner = some i ↔ s'.ownerships[i]? = some ⟨requestId, false⟩)
    (hnewest : ∀ i, e.owner = some i → s'.IsNewest requestId i)
    (hsettled : e.settled = true → ∃ i, s'.IsNewest requestId i ∧ .settled i ∈ log ++ log') :
    s'.Sound (log ++ log') where
  scans := by
    rw [hregistry, PendingInviteWaitRegistry.scans_setEntry_cleanup, h.scans, hscans]
  consistent other := by
    by_cases hother : other = requestId
    · subst hother
      exact .put hregistry hobservers howner hnewest hsettled
    · refine (h.consistent other).frame _ _ ?_ ?_ (hobserving other hother) (hownerships other hother)
      · rw [hregistry, PendingInviteWaitRegistry.get_setEntry_cleanup_of_ne hother]
      · rw [hregistry, PendingInviteWaitRegistry.scans_setEntry_cleanup]

theorem register (h : s.Sound log) (scan : Option ℕ) (requestId : String) :
    (InviteWaits.register scan s requestId).Sound log := by
  have hc := h.consistent requestId
  have hobserving (other : String) := observing_append (s := s) other requestId scan
  have hheld : PendingInviteWaitEntry.isHeld { s.registry.entry requestId with
      observers := (s.registry.entry requestId).observers + 1 } s.registry.scans = true :=
    PendingInviteWaitEntry.isHeld_iff.mpr (.inr (.inl (Nat.succ_pos _)))
  have := h.put (InviteWaits.register scan s requestId) []
    (PendingInviteWaitRegistry.setEntry_eq_cleanup hheld) rfl
    (fun other hother ↦ (hobserving other).trans (by rw [if_neg (Ne.symm hother), Nat.add_zero]))
    (fun _ _ _ _ ↦ Iff.rfl)
    (show (s.registry.entry requestId).observers + 1 = _ by
      rw [hc.observers, InviteWaits.register]
      exact ((hobserving requestId).trans (by rw [if_pos rfl])).symm)
    hc.owner hc.newest (by rw [List.append_nil]; exact hc.settled)
  simpa using this

theorem observe (h : s.Sound log) (scan : Option ℕ) (requestIds : List String) :
    (requestIds.foldl (InviteWaits.register scan) s).Sound log := by
  induction requestIds generalizing s with
  | nil => exact h
  | cons other rest ih => exact ih (h.register scan other)

theorem beginScan (h : s.Sound log) : (step s .beginScan).1.Sound log where
  scans := by
    show s.registry.scans + 1 = (s.scans ++ [false]).count false
    rw [h.scans, List.count_append, List.count_singleton_self]
  consistent requestId := by
    have hc := h.consistent requestId
    have hheld : ∀ e, s.registry.entries.get requestId = some e →
        e.isHeld (s.registry.scans + 1) = true := by
      intro e he
      have := hc.held e he
      rw [PendingInviteWaitEntry.isHeld_iff] at this ⊢
      exact this.imp_right (Or.imp_right fun hs ↦ ⟨hs.1, Nat.succ_pos _⟩)
    simpa using hc.congr (step s .beginScan).1 [] rfl rfl id hheld rfl
      fun _ _ ↦ Iff.rfl

theorem releaseScan (h : s.Sound log) (k : ℕ) : (step s (.releaseScan k)).1.Sound log := by
  show Sound (if s.scans[k]? = some false then _ else _ : InviteWaits × List WaitEvent).1 log
  split
  swap
  · exact h
  rename_i hk
  have hcount : (s.scans.set k true).count false + 1 = s.scans.count false := by
    simpa [List.count] using countP_set_add (p := (· == false)) true hk
  have hscans : s.registry.releaseScan.scans = s.registry.scans - 1 :=
    PendingInviteWaitRegistry.scans_releaseScan
  have hne : s.registry.scans ≠ 0 := by
    rw [h.scans]
    omega
  refine ⟨?_, fun requestId ↦ ?_⟩
  · show s.registry.releaseScan.scans = (s.scans.set k true).count false
    rw [hscans, h.scans]
    omega
  have hc := h.consistent requestId
  have hget := PendingInviteWaitRegistry.get_releaseScan requestId hne
  by_cases hkept : s.registry.releaseScan.entries.get requestId =
      s.registry.entries.get requestId
  · have hentry : s.registry.releaseScan.entry requestId = s.registry.entry requestId :=
      congrArg (·.getD {}) hkept
    have hheld : ∀ e, s.registry.releaseScan.entries.get requestId = some e →
        e.isHeld s.registry.releaseScan.scans = true := by
      intro e he
      rw [hscans]
      have hbefore := hc.held e (hkept ▸ he)
      rw [hget] at he
      split at he
      · rw [PendingInviteWaitEntry.isHeld_iff] at hbefore ⊢
        exact hbefore.imp_right (Or.imp_right fun hs ↦ ⟨hs.1, by omega⟩)
      · rw [show s.registry.scans - 1 = 0 by omega]
        exact (Option.filter_eq_some_iff.mp he).2
    have := hc.congr ({ s with
      registry := s.registry.releaseScan
      scans := s.scans.set k true }) [] (congrArg _ hentry) (congrArg _ hentry)
      (fun hs ↦ hentry ▸ hs) hheld rfl fun _ _ ↦ Iff.rfl
    simpa using this
  · -- An entry that goes with the last scan was a settlement and nothing else.
    have hgone : ∃ e, s.registry.entries.get requestId = some e ∧ e.isHeld 0 = false ∧
        s.registry.releaseScan.entries.get requestId = none := by
      rw [hget] at hkept ⊢
      split at hkept
      · exact absurd rfl hkept
      · rename_i hlast
        rw [if_neg hlast]
        cases hbefore : s.registry.entries.get requestId with
        | none => exact absurd (by rw [hbefore]; rfl) hkept
        | some e =>
          rw [hbefore, Option.filter_some] at hkept
          split at hkept
          · exact absurd rfl hkept
          · rename_i hfree
            exact ⟨e, rfl, by simpa using hfree, by rw [Option.filter_some, if_neg hfree]⟩
    obtain ⟨e, hbefore, hfree, hafter⟩ := hgone
    have hentry := PendingInviteWaitRegistry.entry_of_get hbefore
    have hentry' : s.registry.releaseScan.entry requestId = {} := congrArg (·.getD {}) hafter
    have hempty : e.owner = none ∧ e.observers = 0 := by
      have hnot := mt PendingInviteWaitEntry.isHeld_iff.mpr (Bool.eq_false_iff.mp hfree)
      exact ⟨Option.eq_none_iff_forall_ne_some.mpr fun i hi ↦ hnot (.inl ⟨i, hi⟩),
        Nat.eq_zero_of_not_pos fun hpos ↦ hnot (.inr (.inl hpos))⟩
    have := hc.congr ({ s with
      registry := s.registry.releaseScan
      scans := s.scans.set k true }) [] (by rw [hentry, hentry', hempty.1])
      (by rw [hentry, hentry', hempty.2]) (by rw [hentry']; simp) (by rw [hafter]; simp) rfl
      fun _ _ ↦ Iff.rfl
    simpa using this

/-- A request that has no owner and is not settled gets one. -/
theorem claimed (h : s.Sound log) {requestId : String} {e : PendingInviteWaitEntry}
    (hregistry : s'.registry = s.registry.setEntry requestId
      { e with owner := some s.ownerships.length })
    (hscans : s'.scans = s.scans)
    (hobserving : ∀ other ≠ requestId, s'.observing other = s.observing other)
    (hownerships : s'.ownerships = s.ownerships ++ [⟨requestId, false⟩])
    (hobservers : e.observers = s'.observing requestId)
    (howner : (s.registry.entry requestId).owner = none) (hsettled : e.settled = false) :
    s'.Sound (log ++ [.claimed requestId]) := by
  have hheld : PendingInviteWaitEntry.isHeld { e with owner := some s.ownerships.length }
      s.registry.scans = true :=
    PendingInviteWaitEntry.isHeld_iff.mpr (.inl ⟨_, rfl⟩)
  have hlast : s'.ownerships[s.ownerships.length]? = some ⟨requestId, false⟩ := by
    rw [hownerships, List.getElem?_concat_length]
  have hbound (j : ℕ) {o} (hj : s'.ownerships[j]? = some o) : j ≤ s.ownerships.length := by
    have := (List.getElem?_eq_some_iff.mp hj).1
    rw [hownerships, List.length_append, List.length_singleton] at this
    omega
  refine h.put _ _ (hregistry.trans (PendingInviteWaitRegistry.setEntry_eq_cleanup hheld)) hscans
    hobserving (fun other hother i b ↦ ?_) hobservers (fun i ↦ ?_) (fun i hi ↦ ?_) fun hs ↦ ?_
  · rw [hownerships, List.getElem?_append]
    split
    · exact Iff.rfl
    · rename_i hi
      rw [List.getElem?_eq_none (Nat.not_lt.mp hi)]
      refine ⟨fun hlast ↦ ?_, nofun⟩
      obtain heq := List.mem_singleton.mp (List.mem_of_getElem? hlast)
      exact absurd (congrArg PendingInviteWaitOwnership.requestId heq) hother
  · constructor
    · intro hi
      obtain rfl := Option.some.inj hi
      exact hlast
    · intro hi
      -- The ownerships that the request had before have all been released.
      have hnot : ¬i < s.ownerships.length := by
        intro hlt
        rw [hownerships, List.getElem?_append_left hlt] at hi
        rw [((h.consistent requestId).owner i).mpr hi] at howner
        cases howner
      rw [Nat.le_antisymm (hbound i hi) (Nat.not_lt.mp hnot)]
  · obtain rfl := Option.some.inj hi
    exact ⟨⟨false, hlast⟩, fun j b hj ↦ hbound j hj⟩
  · rw [show e.settled = true from hs] at hsettled
    cases hsettled

theorem claim (h : s.Sound log) (requestId : String) :
    (step s (.claim requestId)).1.Sound (log ++ (step s (.claim requestId)).2) := by
  show Sound (s.answer requestId (s.registry.claim requestId s.ownerships.length)).1
    (log ++ (s.answer requestId _).2)
  unfold PendingInviteWaitRegistry.claim answer
  dsimp only
  split
  · rename_i hrefused
    have hget : s.registry.entries.get requestId = some (s.registry.entry requestId) := by
      cases hget : s.registry.entries.get requestId with
      | none =>
        rw [PendingInviteWaitRegistry.entry, hget] at hrefused
        cases hrefused
      | some e => rw [PendingInviteWaitRegistry.entry_of_get hget]
    have hself : s.registry.setEntry requestId (s.registry.entry requestId) = s.registry := by
      rw [PendingInviteWaitRegistry.setEntry, InsertionMap.set_eq_self hget]
    simpa [hself] using h
  · rename_i hfree
    have hfree : (s.registry.entry requestId).owner = none ∧
        (s.registry.entry requestId).settled = false := by
      simpa [Bool.or_eq_true, not_or] using hfree
    exact h.claimed (e := s.registry.entry requestId) rfl rfl (fun _ _ ↦ rfl) rfl
      (h.consistent requestId).observers hfree.1 hfree.2

/-- What the release of an observer leaves for the entry of its request. -/
theorem observer_released (h : s.Sound log) {i : ℕ} {requestId : String} {scan : Option ℕ}
    (hi : s.observers[i]? = some ⟨requestId, scan, false⟩) :
    ∃ e, s.registry.entries.get requestId = some e ∧ e.observers ≠ 0 ∧
      e.observers - 1 = ({ s with observers := s.observers.set i ⟨requestId, scan, true⟩ } :
        InviteWaits).observing requestId := by
  have hcount := observing_set requestId hi
  rw [if_pos rfl] at hcount
  have hobservers := (h.consistent requestId).observers
  cases hget : s.registry.entries.get requestId with
  | none =>
    rw [PendingInviteWaitRegistry.entry, hget] at hobservers
    have : (0 : ℕ) = s.observing requestId := hobservers
    omega
  | some e =>
    rw [PendingInviteWaitRegistry.entry_of_get hget] at hobservers
    exact ⟨e, rfl, by omega, by omega⟩

/-- An observer that goes, whether it has asked for its request or not. -/
theorem observer_gone (h : s.Sound log) {i : ℕ} {requestId : String} {scan : Option ℕ}
    (hi : s.observers[i]? = some ⟨requestId, scan, false⟩) {e : PendingInviteWaitEntry}
    (hget : s.registry.entries.get requestId = some e) :
    ({ s with
      registry := (s.registry.setEntry requestId { e with observers := e.observers - 1 }).cleanup
        requestId { e with observers := e.observers - 1 }
      observers := s.observers.set i ⟨requestId, scan, true⟩ } : InviteWaits).Sound log := by
  have hc := h.consistent requestId
  have hentry := PendingInviteWaitRegistry.entry_of_get hget
  obtain ⟨e', hget', -, hcount⟩ := h.observer_released hi
  obtain rfl := Option.some.inj (hget.symm.trans hget')
  have := h.put ({ s with
      registry := (s.registry.setEntry requestId { e with observers := e.observers - 1 }).cleanup
        requestId { e with observers := e.observers - 1 }
      observers := s.observers.set i ⟨requestId, scan, true⟩ }) [] rfl rfl
    (fun other hother ↦ ?_) (fun _ _ _ _ ↦ Iff.rfl) hcount (hentry ▸ hc.owner)
    (hentry ▸ hc.newest) (by rw [List.append_nil]; exact hentry ▸ hc.settled)
  · simpa using this
  · have := observing_set other hi
    rw [if_neg (Ne.symm hother)] at this
    exact this

theorem releaseObserver (h : s.Sound log) (i : ℕ) :
    (step s (.releaseObserver i)).1.Sound log := by
  unfold step
  dsimp only
  split
  · rename_i requestId scan hi
    obtain ⟨e, hget, hne, -⟩ := h.observer_released hi
    have := h.observer_gone hi hget
    unfold PendingInviteWaitRegistry.releaseObserver
    rw [hget]
    dsimp only
    rw [if_neg hne]
    exact this
  · exact h

theorem claimObserver (h : s.Sound log) (i : ℕ) :
    (step s (.claimObserver i)).1.Sound (log ++ (step s (.claimObserver i)).2) := by
  unfold step
  dsimp only
  split
  swap
  · simpa using h
  rename_i requestId scan hi
  obtain ⟨e, hget, hne, hcount⟩ := h.observer_released hi
  have hentry := PendingInviteWaitRegistry.entry_of_get hget
  by_cases hbusy : (e.owner.isSome || e.settled) = true
  · rw [show s.registry.claimObserver requestId s.ownerships.length = (false, _) by
      rw [PendingInviteWaitRegistry.claimObserver, hget]
      dsimp only
      rw [if_neg hne, if_pos hbusy]]
    simpa [answer] using h.observer_gone hi hget
  · rw [show s.registry.claimObserver requestId s.ownerships.length = (true, _) by
      rw [PendingInviteWaitRegistry.claimObserver, hget]
      dsimp only
      rw [if_neg hne, if_neg hbusy]]
    have hfree : e.owner = none ∧ e.settled = false := by
      simpa [Bool.or_eq_true, not_or] using hbusy
    refine h.claimed (e := { e with observers := e.observers - 1 }) rfl rfl
      (fun other hother ↦ ?_) rfl hcount (by rw [hentry, hfree.1]) hfree.2
    have := observing_set other hi
    rw [if_neg (Ne.symm hother)] at this
    exact this

/-- The owner of a request is the ownership that has not been released. -/
theorem owner_of_live (h : s.Sound log) {i : ℕ} {requestId : String}
    (hi : s.ownerships[i]? = some ⟨requestId, false⟩) :
    ∃ e, s.registry.entries.get requestId = some e ∧ e.owner = some i := by
  have howner := ((h.consistent requestId).owner i).mpr hi
  cases hget : s.registry.entries.get requestId with
  | none =>
    rw [PendingInviteWaitRegistry.entry, hget] at howner
    cases howner
  | some e => exact ⟨e, rfl, PendingInviteWaitRegistry.entry_of_get hget ▸ howner⟩

theorem settle (h : s.Sound log) (i : ℕ) :
    (step s (.settle i)).1.Sound (log ++ (step s (.settle i)).2) := by
  unfold step
  dsimp only
  split
  swap
  · simpa using h
  rename_i requestId hi
  obtain ⟨e, hget, howner⟩ := h.owner_of_live hi
  have hc := h.consistent requestId
  have hentry := PendingInviteWaitRegistry.entry_of_get hget
  have hheld : PendingInviteWaitEntry.isHeld { e with settled := true } s.registry.scans = true :=
    PendingInviteWaitEntry.isHeld_iff.mpr (.inl ⟨i, howner⟩)
  unfold PendingInviteWaitRegistry.settle
  rw [hget]
  dsimp only
  rw [if_pos howner]
  exact h.put _ _ (PendingInviteWaitRegistry.setEntry_eq_cleanup hheld) rfl (fun _ _ ↦ rfl)
    (fun _ _ _ _ ↦ Iff.rfl) (hentry ▸ hc.observers) (hentry ▸ hc.owner) (hentry ▸ hc.newest)
    fun _ ↦ ⟨i, hc.newest i (hentry.symm ▸ howner), List.mem_append_right _ (List.mem_singleton_self _)⟩

theorem release (h : s.Sound log) (i : ℕ) : (step s (.release i)).1.Sound log := by
  unfold step
  dsimp only
  split
  swap
  · exact h
  rename_i requestId hi
  obtain ⟨e, hget, howner⟩ := h.owner_of_live hi
  have hc := h.consistent requestId
  have hentry := PendingInviteWaitRegistry.entry_of_get hget
  unfold PendingInviteWaitRegistry.releaseOwner
  rw [hget]
  dsimp only
  rw [if_pos howner]
  have hself (j : ℕ) : (∃ b, (s.ownerships.set i ⟨requestId, true⟩)[j]? = some ⟨requestId, b⟩) ↔
      ∃ b, s.ownerships[j]? = some ⟨requestId, b⟩ := by
    by_cases hj : i = j
    · subst hj
      rw [List.getElem?_set_self (List.getElem?_eq_some_iff.mp hi).1, hi]
      exact ⟨fun _ ↦ ⟨false, rfl⟩, fun _ ↦ ⟨true, rfl⟩⟩
    · rw [List.getElem?_set_ne hj]
  have hothers (other : String) (hother : other ≠ requestId) (j : ℕ) (b : Bool) :
      (s.ownerships.set i ⟨requestId, true⟩)[j]? = some ⟨other, b⟩ ↔
        s.ownerships[j]? = some ⟨other, b⟩ :=
    getElem?_set_released hi (fun heq ↦ hother (congrArg PendingInviteWaitOwnership.requestId heq))
      fun heq ↦ hother (congrArg PendingInviteWaitOwnership.requestId heq)
  have hgone (j : ℕ) :
      (s.ownerships.set i ⟨requestId, true⟩)[j]? ≠ some ⟨requestId, false⟩ := by
    intro hj
    by_cases hij : i = j
    · subst hij
      rw [List.getElem?_set_self (List.getElem?_eq_some_iff.mp hi).1] at hj
      cases hj
    · rw [List.getElem?_set_ne hij, ← hc.owner, hentry, howner] at hj
      exact hij (Option.some.inj hj)
  have := h.put ({ s with
      registry := (s.registry.setEntry requestId { e with owner := none }).cleanup requestId
        { e with owner := none }
      ownerships := s.ownerships.set i ⟨requestId, true⟩ }) [] rfl rfl (fun _ _ ↦ rfl)
    hothers (hentry ▸ hc.observers) (fun j ↦ ⟨nofun, fun hj ↦ absurd hj (hgone j)⟩) nofun
    fun hs ↦ ?_
  · simpa using this
  · obtain ⟨k, ⟨howned, hlast⟩, hlog⟩ := hc.settled (hentry.symm ▸ hs)
    refine ⟨k, ⟨(hself k).mpr howned, fun j b hj ↦ ?_⟩, List.mem_append_left _ hlog⟩
    obtain ⟨b', hj'⟩ := (hself j).mp ⟨b, hj⟩
    exact hlast j b' hj'

/-- An action that says nothing. -/
theorem silent (h : (InviteWaits.step s a).1.Sound log) (hsilent : (InviteWaits.step s a).2 = []) :
    (InviteWaits.step s a).1.Sound (log ++ (InviteWaits.step s a).2) := by
  rw [hsilent, List.append_nil]
  exact h

theorem step (h : s.Sound log) (a : WaitAction) :
    (InviteWaits.step s a).1.Sound (log ++ (InviteWaits.step s a).2) := by
  cases a with
  | beginScan => exact h.beginScan.silent rfl
  | observe scan requestIds =>
    unfold InviteWaits.step
    dsimp only
    split
    · simpa using h.observe scan _
    · simpa using h
  | releaseScan k =>
    refine (h.releaseScan k).silent ?_
    unfold InviteWaits.step
    dsimp only
    split <;> rfl
  | claim requestId => exact h.claim requestId
  | claimObserver i => exact h.claimObserver i
  | releaseObserver i =>
    refine (h.releaseObserver i).silent ?_
    unfold InviteWaits.step
    dsimp only
    split <;> rfl
  | settle i => exact h.settle i
  | release i =>
    refine (h.release i).silent ?_
    unfold InviteWaits.step
    dsimp only
    split <;> rfl

theorem run (actions : List WaitAction) :
    (Machine.run InviteWaits.step {} actions).1.Sound (Machine.run InviteWaits.step {} actions).2 := by
  have hstep : ∀ (s : InviteWaits) (log : List WaitEvent) (a : WaitAction), s.Sound log → True →
      (InviteWaits.step s a).1.Sound (log ++ (InviteWaits.step s a).2) := fun s log a h _ ↦ h.step a
  simpa using Machine.run_invariant hstep sound_init (Machine.along_true _ actions)

/-- A request whose entry is gone, while no scan runs, is held by nobody. -/
theorem not_held (h : s.Sound log) (hget : s.registry.entries.get requestId = none)
    (hscans : s.registry.scans = 0) : ¬s.Held requestId := by
  have hc := h.consistent requestId
  have hentry : s.registry.entry requestId = {} := by
    rw [PendingInviteWaitRegistry.entry, hget]
    rfl
  rintro (⟨i, hi⟩ | ⟨i, scan, hi⟩ | hscan)
  · rw [← hc.owner, hentry] at hi
    cases hi
  · have hzero : s.observing requestId = 0 := by rw [← hc.observers, hentry]
    have := List.countP_eq_zero.mp hzero _ (List.mem_of_getElem? hi)
    simp at this
  · have := List.count_pos_iff.mpr hscan
    rw [← h.scans, hscans] at this
    omega

end Sound

/-! ### Settlements -/

theorem settled_foldl_register (scan : Option ℕ) (requestIds : List String)
    (hs : (s.registry.entry requestId).settled = true) :
    ((requestIds.foldl (register scan) s).registry.entry requestId).settled = true := by
  induction requestIds generalizing s with
  | nil => exact hs
  | cons other rest ih => exact ih (PendingInviteWaitRegistry.settled_setEntry id hs)

theorem remembers_step (a : WaitAction) :
    PendingInviteWaitRegistry.Remembers s.registry (step s a).1.registry requestId := by
  cases a with
  | beginScan => exact .inl
  | observe scan requestIds =>
    unfold step
    dsimp only
    split
    swap
    · exact .refl
    exact fun hs ↦ .inl (settled_foldl_register scan _ hs)
  | releaseScan k =>
    unfold step
    dsimp only
    split
    · exact PendingInviteWaitRegistry.remembers_releaseScan
    · exact .refl
  | claim other =>
    unfold step answer
    dsimp only
    split <;> exact PendingInviteWaitRegistry.remembers_claim _
  | claimObserver i =>
    unfold step answer
    dsimp only
    split
    · split <;> exact PendingInviteWaitRegistry.remembers_claimObserver _
    · exact .refl
  | releaseObserver i =>
    unfold step
    dsimp only
    split
    · exact PendingInviteWaitRegistry.remembers_releaseObserver
    · exact .refl
  | settle i =>
    unfold step
    dsimp only
    split
    · exact PendingInviteWaitRegistry.remembers_settle _
    · exact .refl
  | release i =>
    unfold step
    dsimp only
    split
    · exact PendingInviteWaitRegistry.remembers_releaseOwner _
    · exact .refl

/-- A settlement is remembered while anybody holds the request. -/
theorem settled_step (h : s.Sound log) (a : WaitAction)
    (hs : (s.registry.entry requestId).settled = true) (hheld : (step s a).1.Held requestId) :
    ((step s a).1.registry.entry requestId).settled = true := by
  rcases remembers_step a hs with hs' | ⟨hgone, hscans⟩
  · exact hs'
  · exact absurd hheld ((h.step a).not_held hgone hscans)

/-- A settled request is not claimed. -/
theorem refused (hs : (s.registry.entry requestId).settled = true) (a : WaitAction) :
    .claimed requestId ∉ (step s a).2 := by
  have hanswer (other : String) (t : InviteWaits) (claim : Bool × PendingInviteWaitRegistry)
      (hclaim : other = requestId → claim.1 = false) :
      .claimed requestId ∉ (t.answer other claim).2 := by
    unfold answer
    split
    · rename_i hsuccess
      intro hmem
      have heq := WaitEvent.claimed.inj (List.mem_singleton.mp hmem)
      rw [hclaim heq.symm] at hsuccess
      cases hsuccess
    · exact List.not_mem_nil
  cases a with
  | beginScan => exact List.not_mem_nil
  | observe scan requestIds =>
    unfold step
    dsimp only
    split <;> exact List.not_mem_nil
  | releaseScan k =>
    unfold step
    dsimp only
    split <;> exact List.not_mem_nil
  | claim other =>
    refine hanswer other s _ ?_
    rintro rfl
    unfold PendingInviteWaitRegistry.claim
    dsimp only
    rw [if_pos (by rw [hs, Bool.or_true])]
  | claimObserver i =>
    unfold step
    dsimp only
    split
    swap
    · exact List.not_mem_nil
    rename_i other scan hi
    refine hanswer other _ _ ?_
    rintro rfl
    unfold PendingInviteWaitRegistry.claimObserver
    split
    · rfl
    rename_i e hget
    rw [PendingInviteWaitRegistry.entry_of_get hget] at hs
    dsimp only
    split
    · rfl
    · rw [if_pos (by rw [hs, Bool.or_true])]
  | releaseObserver i =>
    unfold step
    dsimp only
    split <;> exact List.not_mem_nil
  | settle i =>
    unfold step
    dsimp only
    split
    · simp
    · exact List.not_mem_nil
  | release i =>
    unfold step
    dsimp only
    split <;> exact List.not_mem_nil

theorem settled_run (h : s.Sound log) (hs : (s.registry.entry requestId).settled = true)
    {actions : List WaitAction}
    (hheld : Machine.Along step (fun t a ↦ (step t a).1.Held requestId) s actions) :
    ((Machine.run step s actions).1.registry.entry requestId).settled = true := by
  induction actions generalizing s log with
  | nil => exact hs
  | cons a actions ih => exact ih (h.step a) (settled_step h a hs hheld.1) hheld.2

/-! ### Scans that began before a settlement -/

/-- A scan is running, or has handed out the observer. -/
def Watches (s : InviteWaits) (k i : ℕ) (requestId : String) : Prop :=
  s.scans[k]? = some false ∨ s.observers[i]? = some ⟨requestId, some k, false⟩

theorem Watches.held {k i : ℕ} (h : s.Watches k i requestId) : s.Held requestId := by
  rcases h with h | h
  · exact .inr (.inr (List.mem_of_getElem? h))
  · exact .inr (.inl ⟨i, some k, h⟩)

theorem scans_foldl_register (scan : Option ℕ) (requestIds : List String) :
    (requestIds.foldl (register scan) s).scans = s.scans := by
  induction requestIds generalizing s with
  | nil => rfl
  | cons other rest ih => exact ih

theorem observers_foldl_register (scan : Option ℕ) (requestIds : List String) :
    (requestIds.foldl (register scan) s).observers =
      s.observers ++ requestIds.map (⟨·, scan, false⟩) := by
  induction requestIds generalizing s with
  | nil => rw [List.foldl_nil, List.map_nil, List.append_nil]
  | cons other rest ih =>
    rw [List.foldl_cons, ih, List.map_cons]
    exact List.append_assoc s.observers [_] _

/-- What a step makes of the scans: one begins, one ends, or they stay. -/
theorem scans_step (a : WaitAction) :
    (step s a).1.scans = s.scans ++ [false] ∨ (∃ k, (step s a).1.scans = s.scans.set k true) ∨
      (step s a).1.scans = s.scans := by
  cases a with
  | beginScan => exact .inl rfl
  | observe scan requestIds =>
    unfold step
    dsimp only
    split
    · exact .inr (.inr (scans_foldl_register scan _))
    · exact .inr (.inr rfl)
  | releaseScan k =>
    unfold step
    dsimp only
    split
    · exact .inr (.inl ⟨k, rfl⟩)
    · exact .inr (.inr rfl)
  | claim other =>
    unfold step answer
    dsimp only
    split <;> exact .inr (.inr rfl)
  | claimObserver i =>
    unfold step answer
    dsimp only
    split
    · split <;> exact .inr (.inr rfl)
    · exact .inr (.inr rfl)
  | releaseObserver i =>
    unfold step
    dsimp only
    split <;> exact .inr (.inr rfl)
  | settle i =>
    unfold step
    dsimp only
    split <;> exact .inr (.inr rfl)
  | release i =>
    unfold step
    dsimp only
    split <;> exact .inr (.inr rfl)

/-- What a step makes of the observers: running scans hand out new ones, one goes, or they stay. -/
theorem observers_step (a : WaitAction) :
    (∃ (scan : Option ℕ) (requestIds : List String), (step s a).1.observers =
        s.observers ++ requestIds.map (⟨·, scan, false⟩) ∧
      ∀ k, scan = some k → s.scans[k]? = some false) ∨
    (∃ i other scan, (step s a).1.observers = s.observers.set i ⟨other, scan, true⟩) ∨
      (step s a).1.observers = s.observers := by
  cases a with
  | beginScan => exact .inr (.inr rfl)
  | observe scan requestIds =>
    unfold step
    dsimp only
    split
    · rename_i hscan
      refine .inl ⟨scan, _, observers_foldl_register scan _, ?_⟩
      rintro k rfl
      simpa using hscan
    · exact .inr (.inr rfl)
  | releaseScan k =>
    unfold step
    dsimp only
    split <;> exact .inr (.inr rfl)
  | claim other =>
    unfold step answer
    dsimp only
    split <;> exact .inr (.inr rfl)
  | claimObserver i =>
    unfold step answer
    dsimp only
    split
    · split <;> exact .inr (.inl ⟨_, _, _, rfl⟩)
    · exact .inr (.inr rfl)
  | releaseObserver i =>
    unfold step
    dsimp only
    split
    · exact .inr (.inl ⟨_, _, _, rfl⟩)
    · exact .inr (.inr rfl)
  | settle i =>
    unfold step
    dsimp only
    split <;> exact .inr (.inr rfl)
  | release i =>
    unfold step
    dsimp only
    split <;> exact .inr (.inr rfl)

/-- What a scan watches after a step, it has watched before. -/
theorem watches_of_step {k i : ℕ} (a : WaitAction) (hk : k < s.scans.length)
    (h : (step s a).1.Watches k i requestId) : s.Watches k i requestId := by
  rcases h with h | h
  · left
    rcases scans_step (s := s) a with hscans | ⟨k', hscans⟩ | hscans <;> rw [hscans] at h
    · rwa [List.getElem?_append_left hk] at h
    · rw [List.getElem?_set] at h
      split at h
      · split at h <;> cases h
      · exact h
    · exact h
  · rcases observers_step (s := s) a with ⟨scan, ids, hobs, hscan⟩ | ⟨i', other, scan, hobs⟩ | hobs <;>
      rw [hobs] at h
    · rw [List.getElem?_append] at h
      split at h
      · exact .inr h
      · obtain ⟨other, -, heq⟩ := List.mem_map.mp (List.mem_of_getElem? h)
        exact .inl (hscan k (congrArg PendingInviteWaitObserver.scan heq))
    · rw [List.getElem?_set] at h
      split at h
      · split at h <;> cases h
      · exact .inr h
    · exact .inr h

theorem length_scans_step (a : WaitAction) : s.scans.length ≤ (step s a).1.scans.length := by
  rcases scans_step (s := s) a with hscans | ⟨k', hscans⟩ | hscans
  · rw [hscans, List.length_append]
    omega
  · exact Nat.le_of_eq ((congrArg List.length hscans).trans (List.length_set ..)).symm
  · exact Nat.le_of_eq (congrArg List.length hscans).symm

/-- What a scan watches after a run, it has watched all along. -/
theorem held_of_watches {k i : ℕ} (hk : k < s.scans.length) {actions : List WaitAction}
    (hwatches : (Machine.run step s actions).1.Watches k i requestId) :
    Machine.Along step (fun t a ↦ (step t a).1.Held requestId) s actions ∧
      s.Watches k i requestId := by
  induction actions generalizing s with
  | nil => exact ⟨trivial, hwatches⟩
  | cons a actions ih =>
    obtain ⟨halong, hnext⟩ := ih (Nat.lt_of_lt_of_le hk (length_scans_step a)) hwatches
    exact ⟨⟨hnext.held, halong⟩, watches_of_step a hk hnext⟩

/-! ### One owner -/

theorem settled_of_settle (h : s.Sound log) {i : ℕ}
    (hi : s.ownerships[i]? = some ⟨requestId, false⟩) :
    ((step s (.settle i)).1.registry.entry requestId).settled = true := by
  obtain ⟨e, hget, howner⟩ := h.owner_of_live hi
  unfold step
  dsimp only
  rw [hi]
  show ((s.registry.settle requestId i).entry requestId).settled = true
  unfold PendingInviteWaitRegistry.settle
  rw [hget]
  dsimp only
  rw [if_pos howner, PendingInviteWaitRegistry.entry_of_get (InsertionMap.get_set_self _ _ _)]

/-- A request without an owner, whose last owner has not settled it, is free. -/
theorem free_of_released (h : s.Sound log) {i : ℕ} (hnewest : s.IsNewest requestId i)
    (hreleased : s.ownerships[i]? = some ⟨requestId, true⟩) (hsettled : .settled i ∉ log) :
    (s.registry.entry requestId).owner = none ∧
      (s.registry.entry requestId).settled = false := by
  have hc := h.consistent requestId
  have hunique (j : ℕ) (hj : s.IsNewest requestId j) : j = i := by
    obtain ⟨⟨b, hb⟩, hlast⟩ := hj
    exact Nat.le_antisymm (hnewest.2 j b hb) (hlast i true hreleased)
  constructor
  · rw [Option.eq_none_iff_forall_ne_some]
    intro j hj
    have hlive := (hc.owner j).mp hj
    rw [hunique j (hc.newest j hj), hreleased] at hlive
    cases hlive
  · rw [Bool.eq_false_iff]
    intro hs
    obtain ⟨j, hj, hlog⟩ := hc.settled hs
    exact hsettled (hunique j hj ▸ hlog)

theorem claimed_mem_answer {claim : Bool × PendingInviteWaitRegistry} (h : claim.1 = true) :
    .claimed requestId ∈ (s.answer requestId claim).2 := by
  rw [answer, if_pos h]
  exact List.mem_singleton_self _

theorem claimed_of_free (howner : (s.registry.entry requestId).owner = none)
    (hsettled : (s.registry.entry requestId).settled = false) :
    .claimed requestId ∈ (step s (.claim requestId)).2 := by
  refine claimed_mem_answer ?_
  unfold PendingInviteWaitRegistry.claim
  dsimp only
  rw [if_neg (by rw [howner, hsettled]; nofun)]

theorem claimed_observer_of_free (h : s.Sound log) {j : ℕ} {scan : Option ℕ}
    (hj : s.observers[j]? = some ⟨requestId, scan, false⟩)
    (howner : (s.registry.entry requestId).owner = none)
    (hsettled : (s.registry.entry requestId).settled = false) :
    .claimed requestId ∈ (step s (.claimObserver j)).2 := by
  obtain ⟨e, hget, hne, -⟩ := h.observer_released hj
  rw [PendingInviteWaitRegistry.entry_of_get hget] at howner hsettled
  have hclaim : (s.registry.claimObserver requestId s.ownerships.length).1 = true := by
    unfold PendingInviteWaitRegistry.claimObserver
    rw [hget]
    dsimp only
    rw [if_neg hne, if_neg (by rw [howner, hsettled]; nofun)]
  unfold step
  dsimp only
  rw [hj]
  exact claimed_mem_answer hclaim

/-- **A request that is waiting has one owner.** After every sequence of actions no request has two
owners; a request that was settled is claimed neither by what came of a scan that was running at its
settlement nor by anybody as long as someone has held it since; a request whose last owner has gone
without settling it can be claimed, by its observers too; and a request that nobody holds has no
entry. -/
theorem waits_have_one_owner (actions : List WaitAction) :
    (∀ requestId (i j : ℕ),
      (Machine.run step {} actions).1.ownerships[i]? = some ⟨requestId, false⟩ →
      (Machine.run step {} actions).1.ownerships[j]? = some ⟨requestId, false⟩ → i = j) ∧
    (∀ (earlier later : List WaitAction) (i : ℕ) requestId,
      actions = earlier ++ .settle i :: later →
      (Machine.run step {} earlier).1.ownerships[i]? = some ⟨requestId, false⟩ →
      (∀ k j : ℕ, (Machine.run step {} earlier).1.scans[k]? = some false →
        (Machine.run step {} actions).1.observers[j]? = some ⟨requestId, some k, false⟩ →
          .claimed requestId ∉ (step (Machine.run step {} actions).1 (.claimObserver j)).2) ∧
      (Machine.Along step (fun t a ↦ (step t a).1.Held requestId)
          (Machine.run step {} (earlier ++ [.settle i])).1 later →
        ∀ a, .claimed requestId ∉ (step (Machine.run step {} actions).1 a).2)) ∧
    (∀ requestId i, (Machine.run step {} actions).1.IsNewest requestId i →
      (Machine.run step {} actions).1.ownerships[i]? = some ⟨requestId, true⟩ →
      .settled i ∉ (Machine.run step {} actions).2 →
      .claimed requestId ∈ (step (Machine.run step {} actions).1 (.claim requestId)).2 ∧
      ∀ j scan, (Machine.run step {} actions).1.observers[j]? = some ⟨requestId, scan, false⟩ →
        .claimed requestId ∈ (step (Machine.run step {} actions).1 (.claimObserver j)).2) ∧
    ∀ requestId, ¬(Machine.run step {} actions).1.Held requestId →
      (Machine.run step {} actions).1.registry.entries.get requestId = none := by
  have h := Sound.run actions
  refine ⟨fun requestId i j hi hj ↦ ?_, fun earlier later i requestId hactions hi ↦ ?_,
    fun requestId i hnewest hreleased hsettled ↦ ?_, fun requestId hfree ↦ ?_⟩
  · have hc := h.consistent requestId
    exact Option.some.inj (((hc.owner i).mpr hi).symm.trans ((hc.owner j).mpr hj))
  · have hearlier := Sound.run earlier
    have hsettled := settled_of_settle hearlier hi
    have hsound := hearlier.step (.settle i)
    have hrun : (Machine.run step {} actions).1 =
        (Machine.run step (step (Machine.run step {} earlier).1 (.settle i)).1 later).1 := by
      rw [hactions, Machine.run_append, Machine.run_cons]
    have hscans : (step (Machine.run step {} earlier).1 (.settle i)).1.scans =
        (Machine.run step {} earlier).1.scans := by
      unfold step
      dsimp only
      split <;> rfl
    rw [hrun]
    refine ⟨fun k j hk hj ↦ ?_, fun hheld ↦ ?_⟩
    · have hlt := (List.getElem?_eq_some_iff.mp hk).1
      rw [← hscans] at hlt
      exact refused (settled_run hsound hsettled (held_of_watches hlt (.inr hj)).1) _
    · rw [Machine.run_append, Machine.run_singleton] at hheld
      exact refused (settled_run hsound hsettled hheld)
  · obtain ⟨howner, hunsettled⟩ := free_of_released h hnewest hreleased hsettled
    exact ⟨claimed_of_free howner hunsettled,
      fun j scan hj ↦ claimed_observer_of_free h hj howner hunsettled⟩
  · have hc := h.consistent requestId
    rw [Option.eq_none_iff_forall_ne_some]
    intro e hget
    have hentry := PendingInviteWaitRegistry.entry_of_get hget
    rcases PendingInviteWaitEntry.isHeld_iff.mp (hc.held e hget) with
      ⟨i, howner⟩ | hobservers | ⟨-, hscans⟩
    · rw [← hentry, hc.owner] at howner
      exact hfree (.inl ⟨i, howner⟩)
    · rw [← hentry, hc.observers, observing, List.countP_pos_iff] at hobservers
      obtain ⟨⟨other, scan, released⟩, hmem, hlive⟩ := hobservers
      obtain ⟨i, hi⟩ := List.getElem?_of_mem hmem
      obtain ⟨rfl, rfl⟩ : other = requestId ∧ released = false := by simpa using hlive
      exact hfree (.inr (.inl ⟨i, scan, hi⟩))
    · rw [h.scans] at hscans
      exact hfree (.inr (.inr (List.count_pos_iff.mp hscans)))

/-- An observer of a scan that began before the settlement comes too late, and its going frees the
entry. -/
example : Machine.run step {} [.beginScan, .claim "r", .settle 0, .release 0,
      .observe (some 0) ["r"], .releaseScan 0, .claimObserver 0] =
    ({ scans := [true], observers := [⟨"r", some 0, true⟩], ownerships := [⟨"r", true⟩] },
      [.claimed "r", .settled 0]) := by
  rfl

end InviteWaits

end MultAIplayer.Desktop
