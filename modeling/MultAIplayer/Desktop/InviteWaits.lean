import MultAIplayer.Lib.InsertionMap
import MultAIplayer.Lib.Machine

/-!
# Who waits for the answer to an invite request

`PendingInviteWaitRegistry` (`lib/invite/pendingInviteWaitRegistry.ts`): a request that is waiting
for its answer has one owner, and recoveries that find the request in the stored list ask the
registry before they take it up. A recovery begins a scan, reads the list, registers an observer for
each request that it found, and ends the scan; later each observer claims its request or goes.

A request that has been answered is settled. Its entry stays as a mark for those who read the list
before: while a scan runs, or an observer holds the request (`InviteWaits.Held`). Once nobody does,
the entry goes, and the request may be claimed as if it had never been there.

## Handles

Scans, observers and ownerships are objects with a flag that they have been released. Here they are
the entries of three lists that only grow, and the symbol of an ownership is its number. An observer
also remembers which scan handed it out, which the code does not.
-/

namespace MultAIplayer.Desktop

/-! ### The registry -/

structure PendingInviteWaitEntry where
  owner : Option ℕ := none
  observers : ℕ := 0
  settled : Bool := false
  deriving DecidableEq

structure PendingInviteWaitRegistry where
  entries : InsertionMap String PendingInviteWaitEntry := .empty
  scans : ℕ := 0

/-- What keeps an entry from being cleaned up. -/
def PendingInviteWaitEntry.isHeld (entry : PendingInviteWaitEntry) (scans : ℕ) : Bool :=
  entry.owner.isSome || 0 < entry.observers || (entry.settled && 0 < scans)

namespace PendingInviteWaitRegistry

variable (registry : PendingInviteWaitRegistry)

/-- The entry of a request, a new one if it has none. -/
def entry (requestId : String) : PendingInviteWaitEntry :=
  (registry.entries.get requestId).getD {}

@[grind =]
def setEntry (requestId : String) (entry : PendingInviteWaitEntry) : PendingInviteWaitRegistry :=
  { registry with entries := registry.entries.set requestId entry }

@[grind =]
def cleanup (requestId : String) (entry : PendingInviteWaitEntry) : PendingInviteWaitRegistry :=
  if entry.isHeld registry.scans then registry
  else { registry with entries := registry.entries.delete requestId }

/-- `claim`, under the symbol that the owner is to have, and whether it becomes the owner. -/
def claim (requestId : String) (token : ℕ) : Bool × PendingInviteWaitRegistry :=
  let entry := registry.entry requestId
  if entry.owner.isSome || entry.settled then (false, registry.setEntry requestId entry)
  else (true, registry.setEntry requestId { entry with owner := some token })

/-- One turn of the loop of `observe`. -/
@[grind =] def observe (requestId : String) : PendingInviteWaitRegistry :=
  let entry := registry.entry requestId
  registry.setEntry requestId { entry with observers := entry.observers + 1 }

def claimObserver (requestId : String) (token : ℕ) : Bool × PendingInviteWaitRegistry :=
  match registry.entries.get requestId with
  | none => (false, registry)
  | some entry =>
    if entry.observers = 0 then (false, registry)
    else
      let entry := { entry with observers := entry.observers - 1 }
      if entry.owner.isSome || entry.settled then
        (false, (registry.setEntry requestId entry).cleanup requestId entry)
      else (true, registry.setEntry requestId { entry with owner := some token })

def releaseObserver (requestId : String) : PendingInviteWaitRegistry :=
  match registry.entries.get requestId with
  | none => registry
  | some entry =>
    if entry.observers = 0 then registry
    else
      let entry := { entry with observers := entry.observers - 1 }
      (registry.setEntry requestId entry).cleanup requestId entry

def settle (requestId : String) (token : ℕ) : PendingInviteWaitRegistry :=
  match registry.entries.get requestId with
  | none => registry
  | some entry =>
    if entry.owner = some token then registry.setEntry requestId { entry with settled := true }
    else registry

def releaseOwner (requestId : String) (token : ℕ) : PendingInviteWaitRegistry :=
  match registry.entries.get requestId with
  | none => registry
  | some entry =>
    if entry.owner = some token then
      let entry := { entry with owner := none }
      (registry.setEntry requestId entry).cleanup requestId entry
    else registry

@[grind =] def releaseScan : PendingInviteWaitRegistry :=
  if registry.scans = 0 then registry
  else
    let scans := registry.scans - 1
    if 0 < scans then { registry with scans := scans }
    else { entries := registry.entries.filter fun _ entry ↦ entry.isHeld scans, scans := scans }

/-! ### What the operations leave -/

variable {registry} {requestId other : String} {e : PendingInviteWaitEntry}

theorem entry_of_get (h : registry.entries.get requestId = some e) :
    registry.entry requestId = e := by
  rw [entry, h, Option.getD_some]

theorem get_setEntry_cleanup :
    ((registry.setEntry requestId e).cleanup requestId e).entries.get requestId =
      if e.isHeld registry.scans then some e else none := by
  unfold cleanup setEntry
  split <;> simp

theorem get_setEntry_cleanup_of_ne (h : other ≠ requestId) :
    ((registry.setEntry requestId e).cleanup requestId e).entries.get other =
      registry.entries.get other := by
  unfold cleanup setEntry
  split
  · exact InsertionMap.get_set_of_ne _ _ h
  · exact (InsertionMap.get_delete_of_ne _ h).trans (InsertionMap.get_set_of_ne _ _ h)

@[simp] theorem scans_setEntry_cleanup :
    ((registry.setEntry requestId e).cleanup requestId e).scans = registry.scans := by
  unfold cleanup setEntry
  split <;> rfl

/-- An entry that is held is not cleaned up. -/
theorem setEntry_eq_cleanup (h : e.isHeld registry.scans = true) :
    registry.setEntry requestId e = (registry.setEntry requestId e).cleanup requestId e :=
  (if_pos h).symm

theorem get_releaseScan (requestId : String) (h : registry.scans ≠ 0) :
    registry.releaseScan.entries.get requestId =
      if 1 < registry.scans then registry.entries.get requestId
      else (registry.entries.get requestId).filter (·.isHeld 0) := by
  unfold releaseScan
  rw [if_neg h]
  dsimp only
  by_cases hone : 1 < registry.scans
  · rw [if_pos (by omega), if_pos hone]
  · rw [if_neg (by omega), if_neg hone, InsertionMap.get_filter,
      show registry.scans - 1 = 0 by omega]

theorem scans_releaseScan : registry.releaseScan.scans = registry.scans - 1 := by
  unfold releaseScan
  dsimp only
  split
  · omega
  · split <;> rfl

end PendingInviteWaitRegistry

theorem PendingInviteWaitEntry.isHeld_iff {e : PendingInviteWaitEntry} {scans : ℕ} :
    e.isHeld scans = true ↔
      (∃ i, e.owner = some i) ∨ 0 < e.observers ∨ e.settled = true ∧ 0 < scans := by
  simp [isHeld, Option.isSome_iff_exists, or_assoc]

/-! ### How long a settlement is remembered -/

namespace PendingInviteWaitRegistry

variable {registry registry' : PendingInviteWaitRegistry} {requestId other : String}
  {e : PendingInviteWaitEntry}

/-- A settlement is forgotten with its entry only, and not while a scan runs. -/
def Remembers (registry registry' : PendingInviteWaitRegistry) (requestId : String) : Prop :=
  (registry.entry requestId).settled = true →
    (registry'.entry requestId).settled = true ∨
      registry'.entries.get requestId = none ∧ registry'.scans = 0

theorem Remembers.refl : Remembers registry registry requestId := .inl

theorem settled_setEntry (he : (registry.entry other).settled = true → e.settled = true)
    (hs : (registry.entry requestId).settled = true) :
    ((registry.setEntry other e).entry requestId).settled = true := by
  by_cases hother : requestId = other
  · subst hother
    rw [entry_of_get (InsertionMap.get_set_self _ _ _)]
    exact he hs
  · rw [entry, setEntry, InsertionMap.get_set_of_ne _ _ hother]
    exact hs

theorem remembers_setEntry (he : (registry.entry other).settled = true → e.settled = true) :
    Remembers registry (registry.setEntry other e) requestId :=
  fun hs ↦ .inl (settled_setEntry he hs)

theorem remembers_cleanup (he : (registry.entry other).settled = true → e.settled = true) :
    Remembers registry ((registry.setEntry other e).cleanup other e) requestId := by
  intro hs
  by_cases hheld : e.isHeld registry.scans = true
  · rw [← setEntry_eq_cleanup hheld]
    exact .inl (settled_setEntry he hs)
  · by_cases hother : requestId = other
    · subst hother
      have hnot : ¬0 < registry.scans := fun hpos ↦
        hheld (PendingInviteWaitEntry.isHeld_iff.mpr (.inr (.inr ⟨he hs, hpos⟩)))
      refine .inr ⟨?_, ?_⟩
      · rw [get_setEntry_cleanup, if_neg hheld]
      · rw [scans_setEntry_cleanup]
        omega
    · left
      rw [entry, get_setEntry_cleanup_of_ne hother]
      exact hs

theorem remembers_claim (token : ℕ) :
    Remembers registry (registry.claim other token).2 requestId := by
  unfold claim
  dsimp only
  split <;> exact remembers_setEntry id

theorem remembers_claimObserver (token : ℕ) :
    Remembers registry (registry.claimObserver other token).2 requestId := by
  unfold claimObserver
  split
  · exact .refl
  rename_i e hget
  have hentry := entry_of_get hget
  split
  · exact .refl
  dsimp only
  split
  · exact remembers_cleanup fun hs ↦ hentry ▸ hs
  · exact remembers_setEntry fun hs ↦ hentry ▸ hs

theorem remembers_releaseObserver :
    Remembers registry (registry.releaseObserver other) requestId := by
  unfold releaseObserver
  split
  · exact .refl
  rename_i e hget
  split
  · exact .refl
  · exact remembers_cleanup fun hs ↦ entry_of_get hget ▸ hs

theorem remembers_settle (token : ℕ) :
    Remembers registry (registry.settle other token) requestId := by
  unfold settle
  split
  · exact .refl
  split
  · exact remembers_setEntry fun _ ↦ rfl
  · exact .refl

theorem remembers_releaseOwner (token : ℕ) :
    Remembers registry (registry.releaseOwner other token) requestId := by
  unfold releaseOwner
  split
  · exact .refl
  rename_i e hget
  split
  · exact remembers_cleanup fun hs ↦ entry_of_get hget ▸ hs
  · exact .refl

theorem remembers_releaseScan : Remembers registry registry.releaseScan requestId := by
  intro hs
  by_cases hzero : registry.scans = 0
  · left
    rwa [releaseScan, if_pos hzero]
  have hget := get_releaseScan requestId hzero
  by_cases hone : 1 < registry.scans
  · left
    rw [entry, hget, if_pos hone]
    exact hs
  rw [if_neg hone] at hget
  cases hbefore : registry.entries.get requestId with
  | none =>
    rw [entry, hbefore] at hs
    cases hs
  | some e =>
    rw [hbefore, Option.filter_some] at hget
    by_cases hheld : e.isHeld 0 = true
    · left
      rw [if_pos hheld] at hget
      rw [entry_of_get hget, ← entry_of_get hbefore]
      exact hs
    · rw [if_neg hheld] at hget
      exact .inr ⟨hget, by rw [scans_releaseScan]; omega⟩

end PendingInviteWaitRegistry

/-! ### Those who hold requests -/

structure PendingInviteWaitOwnership where
  requestId : String
  released : Bool := false
  deriving DecidableEq

structure PendingInviteWaitObserver where
  requestId : String
  /-- The scan that handed the observer out, unless the registry did so itself. -/
  scan : Option ℕ
  released : Bool := false
  deriving DecidableEq

/-- The registry, with every handle that it has given away. Of a scan there is nothing but whether it
has been released. -/
structure InviteWaits where
  registry : PendingInviteWaitRegistry := {}
  scans : List Bool := []
  observers : List PendingInviteWaitObserver := []
  ownerships : List PendingInviteWaitOwnership := []

inductive WaitAction where
  | beginScan
  | observe (scan : Option ℕ) (requestIds : List String)
  | releaseScan (scan : ℕ)
  | claim (requestId : String)
  | claimObserver (observer : ℕ)
  | releaseObserver (observer : ℕ)
  | settle (ownership : ℕ)
  | release (ownership : ℕ)
  deriving DecidableEq

inductive WaitEvent where
  /-- A claim was answered with an ownership. -/
  | claimed (requestId : String)
  /-- An ownership that had not been released was settled. -/
  | settled (ownership : ℕ)
  deriving DecidableEq

namespace InviteWaits

/-- What the answer to a claim does: a claim that succeeds hands out the next ownership. -/
@[grind =]
def answer (s : InviteWaits) (requestId : String) (claimed : Bool × PendingInviteWaitRegistry) :
    InviteWaits × List WaitEvent :=
  if claimed.1 then
    ({ s with registry := claimed.2, ownerships := s.ownerships ++ [⟨requestId, false⟩] },
      [.claimed requestId])
  else ({ s with registry := claimed.2 }, [])

def register (scan : Option ℕ) (s : InviteWaits) (requestId : String) : InviteWaits :=
  { s with
    registry := s.registry.observe requestId
    observers := s.observers ++ [⟨requestId, scan, false⟩] }

@[grind =] def step (s : InviteWaits) : WaitAction → InviteWaits × List WaitEvent
  | .beginScan =>
    ({ s with
      registry := { s.registry with scans := s.registry.scans + 1 }
      scans := s.scans ++ [false] }, [])
  | .observe scan requestIds =>
    -- A scan that has been released throws.
    if scan.all fun k ↦ s.scans[k]? = some false then
      (requestIds.eraseDups.foldl (register scan) s, [])
    else (s, [])
  | .releaseScan k =>
    if s.scans[k]? = some false then
      ({ s with registry := s.registry.releaseScan, scans := s.scans.set k true }, [])
    else (s, [])
  | .claim requestId => s.answer requestId (s.registry.claim requestId s.ownerships.length)
  | .claimObserver i =>
    match s.observers[i]? with
    | some ⟨requestId, scan, false⟩ =>
      answer { s with observers := s.observers.set i ⟨requestId, scan, true⟩ } requestId
        (s.registry.claimObserver requestId s.ownerships.length)
    | _ => (s, [])
  | .releaseObserver i =>
    match s.observers[i]? with
    | some ⟨requestId, scan, false⟩ =>
      ({ s with
        registry := s.registry.releaseObserver requestId
        observers := s.observers.set i ⟨requestId, scan, true⟩ }, [])
    | _ => (s, [])
  | .settle i =>
    match s.ownerships[i]? with
    | some ⟨requestId, false⟩ =>
      ({ s with registry := s.registry.settle requestId i }, [.settled i])
    | _ => (s, [])
  | .release i =>
    match s.ownerships[i]? with
    | some ⟨requestId, false⟩ =>
      ({ s with
        registry := s.registry.releaseOwner requestId i
        ownerships := s.ownerships.set i ⟨requestId, true⟩ }, [])
    | _ => (s, [])

variable (s : InviteWaits) (requestId : String)

def Owned : Prop := ∃ i : ℕ, s.ownerships[i]? = some ⟨requestId, false⟩

def Observed : Prop := ∃ (i : ℕ) (scan : Option ℕ), s.observers[i]? = some ⟨requestId, scan, false⟩

/-- Somebody owns the request, observes it or scans the list in which it may be. -/
@[grind =] def Held : Prop := s.Owned requestId ∨ s.Observed requestId ∨ false ∈ s.scans

/-- An ownership of the request, and the request has no later one. -/
def IsNewest (i : ℕ) : Prop :=
  (∃ released, s.ownerships[i]? = some ⟨requestId, released⟩) ∧
    ∀ (j : ℕ) (released : Bool), s.ownerships[j]? = some ⟨requestId, released⟩ → j ≤ i

/-- The number of observers of a request that have not been released. -/
@[grind =] def observing : ℕ := s.observers.countP fun o ↦ o.requestId = requestId && !o.released

end InviteWaits

end MultAIplayer.Desktop
