import MultAIplayer.Lib.Machine
import MultAIplayer.Relay.AccountRoutes

/-!
# The cap on the sessions of a user

Two routes of the relay evict sessions: a sign-in and the load of the store. Both go by the same
rule, `KeepsLast`, but a sign-in reserves a slot for the session that it adds. So on one store it
evicts a session more than a load when the user is at the cap (`evictions_differ`), and a load right
after it finds nothing left to evict.

Whatever happens to the sessions after a load, no user holds more of them than the cap, live or not:
a sign-in makes room first, one that cannot be saved puts back what it has taken, and everything else
only removes sessions.
-/

namespace MultAIplayer

/-- What is left of the sessions of a user when there are some slots for them: live ones, those that
expire last, and all of them while there are slots. -/
structure KeepsLast (slots : ℕ) (now : Instant) (userId : String)
    (before after : InsertionMap String AuthSession) : Prop where
  few : (sessionsOf after userId).length ≤ slots
  kept : ∀ p ∈ sessionsOf after userId, p ∈ sessionsOf before userId ∧ now < p.2.expiresAt
  evicted : ∀ p ∈ sessionsOf before userId, p ∉ sessionsOf after userId → now < p.2.expiresAt →
    slots < (liveSessions now (sessionsOf before userId)).length ∧
      ∀ q ∈ sessionsOf after userId, p.2.expiresAt ≤ q.2.expiresAt

section KeepsLast

variable {slots : ℕ} {now : Instant} {userId : String}
  {before after : InsertionMap String AuthSession}

theorem keepsLast_of_retained
    (h : sessionsOf after userId = retained slots now (sessionsOf before userId)) :
    KeepsLast slots now userId before after := by
  refine ⟨?_, fun p hp ↦ ?_, fun p hp hout hlive ↦ ?_⟩
  · rw [h, length_retained nodup_sessionsOf]
    exact min_le_right _ _
  · rw [h] at hp
    exact mem_liveSessions.mp (List.mem_filter.mp hp).1
  · have hmem : p ∈ liveSessions now (sessionsOf before userId) :=
      mem_liveSessions.mpr ⟨hp, hlive⟩
    have hbeyond : p ∈ (liveSessions now (sessionsOf before userId)).beyondLast
        ExpiresFirst slots := by
      by_contra hkept
      exact hout (h ▸ List.mem_filter.mpr ⟨hmem, decide_eq_true hkept⟩)
    refine ⟨?_, fun q hq ↦ ?_⟩
    · by_contra hroom
      rw [List.beyondLast_eq_nil (not_lt.mp hroom)] at hbeyond
      cases hbeyond
    · rw [h] at hq
      obtain ⟨hq, hkept⟩ := List.mem_filter.mp hq
      exact (List.rel_of_mem_beyondLast hbeyond hq (of_decide_eq_true hkept)).le

end KeepsLast

/-! ### A sign-in -/

/-- What a sign-in does to the sessions, and what it puts back when it cannot be saved. -/
structure SignsIn (x : HttpContext) (sessionIdHash : String) (user : AuthUser) (c : Commit) :
    Prop where
  /-- The rule of a load, with one slot fewer. -/
  selects : x.selectAuthSessionsToEvict user.id =
    selectAuthSessionsToEvict x.records.authSessions user.id
      (x.config.retainedAuthSessionCapPerUser - 1) 0 x.now
  new : (x.records.editAll c.transaction.stage).authSessions.get sessionIdHash =
    some ⟨sessionIdHash, user, x.now + HttpContext.authSessionMaxAgeMs⟩
  capped : (sessionsOf (x.records.editAll c.transaction.stage).authSessions user.id).length ≤
    x.config.retainedAuthSessionCapPerUser
  last : KeepsLast (x.config.retainedAuthSessionCapPerUser - 1) x.now user.id
    x.records.authSessions
    ((x.records.editAll c.transaction.stage).authSessions.delete sessionIdHash)
  others : ∀ other ≠ user.id,
    sessionsOf (x.records.editAll c.transaction.stage).authSessions other =
      sessionsOf x.records.authSessions other
  /-- A load after the sign-in finds nothing to evict. -/
  settled : sessionsOf (pruneRetainedAuthSessions
      (x.records.editAll c.transaction.stage).authSessions
      x.config.retainedAuthSessionCapPerUser x.now).1 user.id =
    sessionsOf (x.records.editAll c.transaction.stage).authSessions user.id
  unsaved : ∀ k, ((x.records.editAll c.transaction.stage).editAll
      c.transaction.rollback).authSessions.get k = x.records.authSessions.get k

section SignIn

variable {x : HttpContext} {sessionIdHash : String} {user : AuthUser} {c : Commit}

theorem sessionsOf_set_of_get_eq_none {m : InsertionMap String AuthSession} {k : String}
    {session : AuthSession} (h : m.get k = none) (userId : String) :
    sessionsOf (m.set k session) userId =
      sessionsOf m userId ++ if session.user.id = userId then [(k, session)] else [] := by
  rw [sessionsOf, InsertionMap.entries_set_of_get_eq_none _ h, List.filter_append]
  congr 1
  split_ifs with hown
  · exact List.filter_cons_of_pos (decide_eq_true hown)
  · exact List.filter_cons_of_neg (by simpa using hown)

/-- **A sign-in**, with the cap at one at least. -/
theorem signsIn_of_commit (hcap : 0 < x.config.retainedAuthSessionCapPerUser)
    (h : x.issueVerifiedSession sessionIdHash user = .commit c) :
    SignsIn x sessionIdHash user c := by
  obtain ⟨hfresh, -, htransaction⟩ := HttpContext.issueVerifiedSession_eq_commit h
  let before := x.records.authSessions
  let evicted := x.selectAuthSessionsToEvict user.id
  let room := before.deleteAll (evicted.map Prod.fst)
  let new : AuthSession := ⟨sessionIdHash, user, x.now + HttpContext.authSessionMaxAgeMs⟩
  have hroom : room.get sessionIdHash = none := by
    rw [InsertionMap.get_deleteAll, hfresh, ite_self]
  have hafter : (x.records.editAll c.transaction.stage).authSessions =
      room.set sessionIdHash new := by
    have hdeletes : (x.records.editAll
        (evicted.map fun p ↦ .delete .authSessions p.1)).authSessions = room := by
      have := Records.collection_editAll_deletes (r := x.records) (e := .authSessions)
        (evicted.map Prod.fst)
      rwa [List.map_map] at this
    rw [htransaction, Records.editAll_append]
    show (x.records.editAll (evicted.map fun p ↦ .delete .authSessions p.1)).authSessions.set
      sessionIdHash new = _
    rw [hdeletes]
  have hkept : sessionsOf room user.id =
      retained (x.config.retainedAuthSessionCapPerUser - 1) x.now (sessionsOf before user.id) :=
    sessionsOf_evict_self
  have howned : sessionsOf (room.set sessionIdHash new) user.id =
      sessionsOf room user.id ++ [(sessionIdHash, new)] := by
    rw [sessionsOf_set_of_get_eq_none hroom]
    exact congrArg _ (if_pos rfl)
  have hlast : KeepsLast (x.config.retainedAuthSessionCapPerUser - 1) x.now user.id before room :=
    keepsLast_of_retained hkept
  have hcapped : (sessionsOf (room.set sessionIdHash new) user.id).length ≤
      x.config.retainedAuthSessionCapPerUser := by
    rw [howned, List.length_append, List.length_singleton]
    have := hlast.few
    omega
  have hlive : ∀ p ∈ sessionsOf (room.set sessionIdHash new) user.id, x.now < p.2.expiresAt := by
    intro p hp
    rw [howned, List.mem_append, List.mem_singleton] at hp
    rcases hp with hp | rfl
    · exact (hlast.kept p hp).2
    · exact Int.lt_add_of_pos_right x.now (by decide)
  refine ⟨rfl, ?_, ?_, ?_, fun other hne ↦ ?_, ?_, fun k ↦ ?_⟩
  · rw [hafter, InsertionMap.get_set_self]
  · rw [hafter]
    exact hcapped
  · rw [hafter, InsertionMap.delete_set_of_get_eq_none _ hroom]
    exact hlast
  · rw [hafter, sessionsOf_set_of_get_eq_none hroom, if_neg (Ne.symm hne), List.append_nil]
    exact sessionsOf_evict_of_ne hne
  · rw [sessionsOf_pruneRetainedAuthSessions, hafter]
    exact retained_eq_self hlive hcapped
  · have hevicted : ∀ p ∈ evicted, before.get p.1 = some p.2 := fun p hp ↦
      (HttpContext.mem_selectAuthSessionsToEvict hp).1
    have hback : ((x.records.editAll c.transaction.stage).editAll
        c.transaction.rollback).authSessions = room.setAll evicted := by
      rw [show c.transaction.rollback = .delete .authSessions sessionIdHash ::
        evicted.map fun p ↦ .set .authSessions p.1 p.2 from congrArg _ htransaction]
      refine (Records.collection_editAll_sets (e := .authSessions) evicted).trans ?_
      show ((x.records.editAll c.transaction.stage).authSessions.delete _).setAll evicted = _
      rw [hafter, InsertionMap.delete_set_of_get_eq_none _ hroom]
    rw [hback, InsertionMap.get_setAll_of_forall room hevicted, InsertionMap.get_deleteAll]
    split_ifs <;> rfl

end SignIn

/-! ### Sessions over time -/

/-- What happens to the sessions of a relay that runs. -/
inductive SessionEvent
  | signIn (now : Instant) (sessionIdHash : String) (user : AuthUser) (saved : Bool)
  /-- Logging out, a dead session that is found, a restricted or deleted account. -/
  | remove (gone : String → AuthSession → Bool)

/-- A step of the relay, with nothing to show. -/
def sessionStep (x : HttpContext) (r : Records) : SessionEvent → Records × List Unit
  | .signIn now sessionIdHash user saved =>
    match { x with records := r, now := now }.issueVerifiedSession sessionIdHash user with
    | .answer _ => (r, [])
    | .commit c =>
      (if saved then r.editAll c.transaction.stage
        else (r.editAll c.transaction.stage).editAll c.transaction.rollback, [])
  | .remove gone => (r.edit (.deleteWhere .authSessions gone), [])

/-- No user holds more sessions than the cap. -/
def Capped (cap : ℕ) (r : Records) : Prop :=
  ∀ userId, (sessionsOf r.authSessions userId).length ≤ cap

section Runs

variable {x : HttpContext} {r : Records}

/-- Sessions are the same as long as lookups are. -/
theorem length_sessionsOf_le {m m' : InsertionMap String AuthSession} {userId : String}
    (h : ∀ k session, m'.get k = some session → m.get k = some session) :
    (sessionsOf m' userId).length ≤ (sessionsOf m userId).length := by
  refine (List.subperm_of_subset nodup_sessionsOf fun p hp ↦ ?_).length_le
  obtain ⟨hget, hown⟩ := mem_sessionsOf.mp hp
  exact mem_sessionsOf.mpr ⟨h p.1 p.2 hget, hown⟩

theorem Capped.step (hcap : 0 < x.config.retainedAuthSessionCapPerUser)
    (h : Capped x.config.retainedAuthSessionCapPerUser r) (event : SessionEvent) :
    Capped x.config.retainedAuthSessionCapPerUser (sessionStep x r event).1 := by
  intro userId
  cases event with
  | signIn now sessionIdHash user saved =>
    unfold sessionStep
    dsimp only
    split
    · exact h userId
    rename_i c hcommit
    have hsigned : SignsIn { x with records := r, now := now } sessionIdHash user c :=
      signsIn_of_commit hcap hcommit
    cases saved with
    | true =>
      rcases eq_or_ne userId user.id with rfl | hne
      · exact hsigned.capped
      · exact (congrArg List.length (hsigned.others userId hne)).trans_le (h userId)
    | false =>
      refine (length_sessionsOf_le fun k session hget ↦ ?_).trans (h userId)
      exact (hsigned.unsaved k).symm.trans hget
  | remove gone =>
    refine (length_sessionsOf_le fun k session hget ↦ ?_).trans (h userId)
    have hfiltered : (r.authSessions.filter fun k session ↦ !gone k session).get k =
        some session := hget
    rw [InsertionMap.get_filter, Option.filter_eq_some_iff] at hfiltered
    exact hfiltered.1

end Runs

/-- **Eviction respects the cap**: at a load, at a sign-in and over every run of sign-ins and
removals that begins with a load. -/
theorem eviction_respects_cap {x : HttpContext}
    (hcap : 0 < x.config.retainedAuthSessionCapPerUser) :
    (∀ loaded now userId, KeepsLast x.config.retainedAuthSessionCapPerUser now userId loaded
      (pruneRetainedAuthSessions loaded x.config.retainedAuthSessionCapPerUser now).1) ∧
    (∀ sessionIdHash user c, x.issueVerifiedSession sessionIdHash user = .commit c →
      SignsIn x sessionIdHash user c) ∧
    ∀ (r : Records) (now : Instant) (events : List SessionEvent),
      Capped x.config.retainedAuthSessionCapPerUser
        (Machine.run (sessionStep x)
          { r with authSessions := (pruneRetainedAuthSessions r.authSessions
              x.config.retainedAuthSessionCapPerUser now).1 } events).1 := by
  have hload : ∀ loaded now userId, KeepsLast x.config.retainedAuthSessionCapPerUser now userId
      loaded (pruneRetainedAuthSessions loaded x.config.retainedAuthSessionCapPerUser now).1 :=
    fun loaded now userId ↦ keepsLast_of_retained sessionsOf_pruneRetainedAuthSessions
  refine ⟨hload, fun _ _ _ h ↦ signsIn_of_commit hcap h, fun r now events ↦ ?_⟩
  have hstep : ∀ r event, Capped x.config.retainedAuthSessionCapPerUser r → True →
      Capped x.config.retainedAuthSessionCapPerUser (sessionStep x r event).1 :=
    fun r event h _ ↦ h.step hcap event
  exact Machine.run_state_invariant hstep (fun userId ↦ (hload r.authSessions now userId).few)
    (Machine.along_true _ _)

/-! ### A user at the cap -/

/-- A relay that keeps one session for each user, with a session of two users. -/
def cappedContext : HttpContext where
  platform :=
    { config := { retainedAuthSessionCapPerUser := 1 }
      sha256 := id, sha256OfBase64 := id, verifyHostTransfer := fun _ _ _ ↦ true }
  now := 0
  records :=
    { authSessions := (InsertionMap.empty.set "session-1"
        ⟨"session-1", ⟨"user-1", "one", none, none⟩, 10⟩).set "session-2"
          ⟨"session-2", ⟨"user-2", "two", none, none⟩, 20⟩ }
  session := none
  deviceSessions := .empty
  deviceSessionToken := none

theorem eviction_respects_cap_one :
    0 < cappedContext.config.retainedAuthSessionCapPerUser ∧
      Capped 1 (Machine.run (sessionStep cappedContext)
        { cappedContext.records with authSessions := (pruneRetainedAuthSessions
            cappedContext.records.authSessions 1 0).1 }
        [.signIn 0 "session-3" ⟨"user-1", "one", none, none⟩ true]).1 :=
  ⟨by decide, (eviction_respects_cap (by decide)).2.2 cappedContext.records 0 _⟩

/-- The user at the cap loses the session to a sign-in, and keeps it at a load. -/
theorem evictions_differ :
    ¬∀ (x : HttpContext) (userId : String),
      x.selectAuthSessionsToEvict userId = selectAuthSessionsToEvict x.records.authSessions userId
        x.config.retainedAuthSessionCapPerUser 0 x.now := by
  intro hsame
  have hone := congrArg List.length (hsame cappedContext "user-1")
  revert hone
  decide

end MultAIplayer
