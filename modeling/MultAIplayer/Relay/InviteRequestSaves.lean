import MultAIplayer.Relay.BoundedWrites
import MultAIplayer.Relay.Persistence
import MultAIplayer.Relay.Http

/-!
# Saving an invite request

`saveInviteRequestAtomically` of `http/invite-delivery.ts` sets the request, calls the save function
and takes the request away again when the promise that it returned is rejected. The handlers are
attached to that promise, so a save function that throws escapes before anything is taken away.

The coordinator's `saveRelayStore` throws; it never returns a promise that is rejected.

While a promise is awaited other tasks run: their operations on the store are an argument.
-/

namespace MultAIplayer

/-- How a call of the save function goes. -/
inductive SaveCall
  | throws (error : SaveError)
  | resolves
  | rejects
  deriving DecidableEq

/-- How the coordinator's `saveRelayStore` goes. -/
def Coordinator.saveCall (c : RelayConfig) (now : Instant) (fault : WriteFault) (b : Coordinator) :
    SaveCall :=
  match (b.savePendingChanges c now fault).2 with
  | none => .resolves
  | some error => .throws error

/-- How `saveInviteRequestAtomically` ends: it returns whether the request was persisted, or it
throws. -/
inductive RequestSave
  | returned (persisted : Bool)
  | refused (error : CapacityError)
  | threw (error : SaveError)
  deriving DecidableEq

/-- The status of the route's answer: its own, or that of the middleware that answers for errors. -/
def RequestSave.status : RequestSave → ℕ
  | .returned true => 201
  | .returned false => 503
  | .refused _ => 507
  | .threw _ => 500

namespace BoundedStore

/-- The store after the operations of other tasks. -/
def interrupted (others : List StoreOp) (s : BoundedStore) : BoundedStore :=
  (Machine.run step s others).1

/-- `saveInviteRequestAtomically`. -/
def saveInviteRequestAtomically (record : InviteJoinRequestRecord) (call : SaveCall)
    (others : List StoreOp) (s : BoundedStore) : BoundedStore × RequestSave :=
  match s.setTracked .inviteRequests record.requestId record with
  | (s, some error) => (s, .refused error)
  | (s, none) =>
    match call with
    | .throws error => (s, .threw error)
    | .resolves => (s.interrupted others, .returned true)
    | .rejects =>
      ((s.interrupted others).deleteTracked .inviteRequests record.requestId, .returned false)

/-- A store after a request that was to be saved as a whole or not at all. -/
structure SavesRequestAtomically (s : BoundedStore) (record : InviteJoinRequestRecord)
    (others : List StoreOp) (ended : BoundedStore × RequestSave) : Prop where
  /-- Unless it was persisted, the request is not there, and all that is there is counted. -/
  gone : ended.2 ≠ .returned true → 400 ≤ ended.2.status ∧ ended.1.Accounted ∧
    ended.1.store.inviteRequests.get record.requestId = none
  /-- Undisturbed, a request that was not persisted has changed nothing. -/
  unchanged : ended.2 ≠ .returned true → others = [] →
    ended.1.store.toRecords = s.store.toRecords ∧ ended.1.capacity.used = s.capacity.used ∧
      (∀ teamId, teamId ≠ "" →
        ended.1.capacity.usedByTeam.count teamId = s.capacity.usedByTeam.count teamId) ∧
      ∀ a, ended.1.byteCapacity.balance a = s.byteCapacity.balance a
  /-- Undisturbed, a request that was persisted is the one addition. -/
  added : ended.2 = .returned true → others = [] → ended.2.status = 201 ∧ ended.1.Accounted ∧
    ended.1.store.inviteRequests.entries =
      s.store.inviteRequests.entries ++ [(record.requestId, record)] ∧
    (∀ e, e ≠ .inviteRequests → ended.1.store.collection e = s.store.collection e) ∧
    ended.1.capacity.used = s.capacity.used + 1

/-! ### When the request is saved as a whole or not at all -/

section Atomicity

variable {s : BoundedStore} {record : InviteJoinRequestRecord} {call : SaveCall}
  {others : List StoreOp}

theorem Accounted.interrupted (h : s.Accounted) (others : List StoreOp) :
    (s.interrupted others).Accounted := by
  have hstep : ∀ (s : BoundedStore) (op : StoreOp), s.Accounted → True → (step s op).1.Accounted :=
    fun _ op hs _ ↦ (apply_accounted hs op).1
  exact Machine.run_state_invariant hstep h (Machine.along_true _ others)

theorem SavesRequestAtomically.of_unchanged {s' : BoundedStore} (h : s.Accounted)
    (hfresh : s.store.inviteRequests.get record.requestId = none) (hs : s.Unchanged s')
    (error : CapacityError) :
    s.SavesRequestAtomically record others (s', .refused error) := by
  have haccounted := h.unchanged hs
  have hrecords : s'.store.toRecords = s.store.toRecords := congrArg RelayStore.toRecords hs.1
  refine ⟨fun _ ↦ ⟨by simp [RequestSave.status], haccounted, ?_⟩, fun _ _ ↦ ?_, nofun⟩
  · show s'.store.toRecords.inviteRequests.get record.requestId = none
    rw [hrecords, hfresh]
  · exact ⟨hrecords, h.counters haccounted hrecords⟩

/-- A request that is persisted is the one addition. -/
theorem SavesRequestAtomically.of_written {s' : BoundedStore} (h : s.Accounted)
    (hfresh : s.store.inviteRequests.get record.requestId = none)
    (hs : s.Written (s.store.set .inviteRequests record.requestId record).toRecords
      (s', none)) :
    s.SavesRequestAtomically record others (s'.interrupted others, .returned true) := by
  refine ⟨fun hfailed ↦ absurd rfl hfailed, fun hfailed ↦ absurd rfl hfailed, ?_⟩
  rintro - rfl
  have hrecords : s'.store.toRecords = (s.store.set .inviteRequests record.requestId
    record).toRecords := hs.records
  refine ⟨rfl, hs.accounted, ?_, fun e he ↦ ?_, ?_⟩
  · show s'.store.toRecords.inviteRequests.entries = _
    rw [hrecords]
    exact InsertionMap.entries_set_of_get_eq_none record hfresh
  · show s'.store.toRecords.collection e = _
    rw [hrecords, toRecords_set, Records.collection_withCollection_of_ne _ _ he]
  · show s'.capacity.used = _
    have hused : s'.capacity.used = s'.store.durableEntries := hs.accounted.used
    have hweight : (s.store.collection .inviteRequests).weightAt
        (fun _ v ↦ Entity.units .inviteRequests v) record.requestId = 0 := by
      unfold InsertionMap.weightAt
      rw [show (s.store.collection .inviteRequests).get record.requestId = none from hfresh]
      rfl
    rw [hused, hrecords, h.used, toRecords_set, Records.durableEntries, Records.total_set, hweight,
      sub_zero]
    rfl

/-- A promise that is rejected takes the request away, whatever others have done meanwhile. -/
theorem SavesRequestAtomically.of_rejected {s' : BoundedStore} (h : s.Accounted)
    (hfresh : s.store.inviteRequests.get record.requestId = none)
    (hs : s.Written (s.store.set .inviteRequests record.requestId record).toRecords (s', none)) :
    s.SavesRequestAtomically record others
      ((s'.interrupted others).deleteTracked .inviteRequests record.requestId, .returned false) := by
  have haccounted : s'.Accounted := hs.accounted
  have hdeleted := written_deleteTracked (haccounted.interrupted others) (e := .inviteRequests)
    (by simp) record.requestId
  have hget : ((s'.interrupted others).deleteTracked .inviteRequests
      record.requestId).store.toRecords.inviteRequests.get record.requestId = none := by
    rw [hdeleted.records]
    exact InsertionMap.get_delete_self _ _
  refine ⟨fun _ ↦ ⟨by simp [RequestSave.status], hdeleted.accounted, hget⟩, ?_, nofun⟩
  · rintro - rfl
    have hrecords : (s'.deleteTracked .inviteRequests record.requestId).store.toRecords =
        s.store.toRecords := by
      have hset : s'.store.toRecords = (s.store.set .inviteRequests record.requestId
        record).toRecords := hs.records
      refine hdeleted.records.trans ?_
      show s'.store.toRecords.withCollection .inviteRequests (s'.store.toRecords.inviteRequests.delete _) = _
      rw [hset, toRecords_set, Records.withCollection_withCollection]
      show s.store.toRecords.withCollection .inviteRequests
        ((s.store.inviteRequests.set _ record).delete _) = _
      rw [InsertionMap.delete_set_of_get_eq_none record hfresh]
      exact Records.withCollection_collection _ .inviteRequests
    exact ⟨hrecords, h.counters hdeleted.accounted hrecords⟩

/-- **When a request is saved as a whole or not at all**: unless the save function throws after the
request has found room. -/
theorem savesRequestAtomically_iff (h : s.Accounted)
    (hfresh : s.store.inviteRequests.get record.requestId = none) :
    s.SavesRequestAtomically record others (s.saveInviteRequestAtomically record call others) ↔
      ∀ error, call = .throws error →
        ¬s.Holds (s.store.set .inviteRequests record.requestId record).toRecords := by
  constructor
  · rintro hatomic error rfl hholds
    have hwritten := written_of_holds h (e := .inviteRequests) (by simp) hholds
    have hended : s.saveInviteRequestAtomically record (.throws error) others =
        ((s.setTracked .inviteRequests record.requestId record).1, .threw error) := by
      unfold saveInviteRequestAtomically
      rw [show s.setTracked .inviteRequests record.requestId record = (_, none) from
        Prod.ext rfl hwritten.none]
    rw [hended] at hatomic
    have hgone := (hatomic.gone (by simp)).2.2
    have hstored : (s.setTracked .inviteRequests record.requestId
        record).1.store.toRecords.inviteRequests.get record.requestId = some record := by
      rw [hwritten.records]
      exact InsertionMap.get_set_self _ _ _
    rw [hstored] at hgone
    cases hgone
  · intro hcall
    unfold saveInviteRequestAtomically
    have hsettles := setTracked_settles h (e := .inviteRequests) (by simp) record.requestId record
    generalize s.setTracked .inviteRequests record.requestId record = ended at hsettles
    rcases ended with ⟨s', refused⟩
    rcases hsettles with ⟨hnone, hstore, haccounted, hceilings⟩ | ⟨⟨error, herror⟩, hunchanged⟩
    · obtain rfl : refused = none := hnone
      have hrecords : s'.store.toRecords = (s.store.set .inviteRequests record.requestId
        record).toRecords := congrArg RelayStore.toRecords hstore
      have hwritten : s.Written (s.store.set .inviteRequests record.requestId record).toRecords
          (s', none) := ⟨rfl, hrecords, haccounted, hceilings⟩
      cases call with
      | throws error =>
        have hholds := haccounted.holds.of_sameCeilings hceilings.symm
        exact absurd (hrecords ▸ hholds) (hcall error rfl)
      | resolves => exact .of_written h hfresh hwritten
      | rejects => exact .of_rejected h hfresh hwritten
    · obtain rfl : refused = some error := herror
      exact .of_unchanged h hfresh hunchanged error

end Atomicity

/-! ### A disk that fails -/

def sampleJoinRequest : InviteJoinRequestRecord where
  requestId := "request"
  inviteId := "invite"
  requesterUserId := "github:1"
  requesterDeviceId := "device"
  keyPackageId := "package"
  keyPackageHash := "hash"
  sealedRequest := "sealed"
  createdAt := 0

theorem savesRequestAtomically_iff_sample :
    (empty 1 1 {}).SavesRequestAtomically sampleJoinRequest []
      ((empty 1 1 {}).saveInviteRequestAtomically sampleJoinRequest .rejects []) :=
  (savesRequestAtomically_iff (accounted_empty 1 1 {}) rfl).mpr nofun

/-- The coordinator throws when its database fails, and the request stays. -/
theorem failed_save_keeps_request :
    ¬∀ (c : RelayConfig) (now : Instant) (fault : WriteFault) (b : Coordinator) (s : BoundedStore)
      (record : InviteJoinRequestRecord), s.Accounted →
      s.store.inviteRequests.get record.requestId = none →
      b.store = s.store.set .inviteRequests record.requestId record →
      s.SavesRequestAtomically record []
        (s.saveInviteRequestAtomically record (b.saveCall c now fault) []) := by
  intro h
  have hatomic := h {} 0 .failure
    { store := (empty 1 1 {}).store.set .inviteRequests "request" sampleJoinRequest } (empty 1 1 {})
    sampleJoinRequest (accounted_empty 1 1 {}) rfl rfl
  exact absurd (hatomic.gone (by decide)).2.2 (by decide)

end BoundedStore

end MultAIplayer
