import MultAIplayer.Lib.Board
import MultAIplayer.Relay.Sockets

/-!
# Leaving rooms

What `leaveRoom` and everything that is built on it does to the rosters: the sockets of a list leave
their rooms, and of each room the entries under the devices that their sessions hold **now** go.
Whose entries these are is not asked; that is the subject of the presence roster.

`Leaves` says all of it once, and composes. The rest of the sessions is not touched, so what a later
socket looks up does not depend on the sockets that left before it.
-/

namespace MultAIplayer

/-- The room of a presence. -/
def PresenceRecord.room (presence : PresenceRecord) : RoomKey :=
  roomKey presence.teamId presence.roomId

/-- What an event does to the presences that are announced: publishing announces one, and leaving a
room withdraws those of the socket in that room. -/
@[grind =] def observe (announced : List (Post Socket PresenceRecord)) :
    SocketEvent → List (Post Socket PresenceRecord)
  | .sent _ _ | .joined _ _ => announced
  | .left socket key => announced.filter fun q ↦ !(q.author = socket && q.value.room = key)
  | .published socket _ presence => announced ++ [⟨socket, presence⟩]

/-- Nothing but messages. -/
@[grind =]
def Quiet (events : List SocketEvent) : Prop := ∀ e ∈ events, ∃ socket message, e = .sent socket message

theorem Quiet.nil : Quiet [] := fun _ h ↦ by cases h

theorem Quiet.append {events events' : List SocketEvent} (h : Quiet events) (h' : Quiet events') :
    Quiet (events ++ events') :=
  fun e he ↦ (List.mem_append.mp he).elim (h e) (h' e)

theorem Quiet.flatMap {α : Type} {l : List α} {f : α → List SocketEvent} (h : ∀ a, Quiet (f a)) :
    Quiet (l.flatMap f) := by
  intro e he
  obtain ⟨a, _, ha⟩ := List.mem_flatMap.mp he
  exact h a e ha

theorem Quiet.foldl_observe {events : List SocketEvent} (h : Quiet events)
    (announced : List (Post Socket PresenceRecord)) :
    events.foldl observe announced = announced := by
  induction events generalizing announced with
  | nil => rfl
  | cons e events ih =>
    obtain ⟨socket, message, rfl⟩ := h e List.mem_cons_self
    exact ih (fun e he ↦ h e (List.mem_cons_of_mem _ he)) announced

namespace SocketContext

variable (x : SocketContext) (s : Sockets)

theorem quiet_sendRaw (socket : Socket) (message : ServerMessage) :
    Quiet (sendRaw s socket message) := by
  unfold sendRaw
  split_ifs
  · intro e he
    exact ⟨socket, message, List.mem_singleton.mp he⟩
  · exact Quiet.nil

theorem quiet_send (socket : Socket) (message : ServerMessage) : Quiet (x.send s socket message) := by
  unfold send
  split_ifs
  · exact quiet_sendRaw s socket message
  · exact Quiet.nil

theorem quiet_broadcast (key : RoomKey) (message : ServerMessage) :
    Quiet (x.broadcast s key message) :=
  Quiet.flatMap fun socket ↦ x.quiet_send s socket message

theorem quiet_broadcastWorkspaceUpdated (team : TeamRecord) :
    Quiet (x.broadcastWorkspaceUpdated s team) := by
  refine Quiet.flatMap fun socket ↦ ?_
  dsimp only
  split_ifs
  · exact Quiet.nil
  · exact x.quiet_send s socket _

end SocketContext

/-! ### What the rosters depend on -/

/-- The entry that leaving deletes: the session's room and its device. -/
def ClientSession.lookup (session : ClientSession) : Option (RoomKey × String) :=
  session.room.bind fun key ↦ session.device.map fun deviceId ↦ (key, deviceId)

namespace Sockets

variable (s : Sockets)

@[grind =] def roomOf (socket : Socket) : Option RoomKey := (s.clients.get socket).bind (·.room)

@[grind =] def lookupOf (socket : Socket) : Option (RoomKey × String) :=
  (s.clients.get socket).bind (·.lookup)

def isOpenAt (socket : Socket) : Bool := (s.clients.get socket).any (·.isOpen)

/-- The sockets that are joined to a room. -/
def members (key : RoomKey) : List Socket := (s.roomSockets.get key).getD []

/-- The entry of a device in the roster of a room. -/
def presenceAt (c : RoomKey × String) : Option PresenceRecord := (s.roster c.1).get c.2

theorem get_clients_updateClient (socket : Socket) (f : ClientSession → ClientSession)
    (y : Socket) : (s.updateClient socket f).clients.get y =
      (s.clients.get y).map fun session ↦ if y = socket then f session else session := by
  rw [updateClient]
  exact InsertionMap.get_mapValues ..

theorem get_clients_updateClient_of_ne {socket y : Socket} (f : ClientSession → ClientSession)
    (h : y ≠ socket) : (s.updateClient socket f).clients.get y = s.clients.get y := by
  simp [get_clients_updateClient, h]

theorem get_clients_updateClient_self (socket : Socket) (f : ClientSession → ClientSession) :
    (s.updateClient socket f).clients.get socket = (s.clients.get socket).map f := by
  simp [get_clients_updateClient]

theorem presenceAt_setRoster (key : RoomKey) (roster : InsertionMap String PresenceRecord)
    (c : RoomKey × String) : (s.setRoster key roster).presenceAt c =
      if c.1 = key then roster.get c.2 else s.presenceAt c := by
  rw [presenceAt, presenceAt, setRoster, Sockets.roster]
  dsimp only
  split_ifs with hsize hkey hkey
  · simp [hkey, InsertionMap.eq_empty_of_size_eq_zero hsize]
  · simp [Sockets.roster, InsertionMap.get_delete, hkey]
  · simp [hkey]
  · simp [Sockets.roster, InsertionMap.get_set, hkey]

end Sockets

theorem mem_removeSocket {m : InsertionMap String (List Socket)} {k j : String}
    {socket y : Socket} : y ∈ ((removeSocket m k socket).get j).getD [] ↔
      y ∈ (m.get j).getD [] ∧ ¬(y = socket ∧ j = k) := by
  unfold removeSocket
  cases hk : m.get k with
  | none =>
    dsimp only
    refine ⟨fun h ↦ ⟨h, ?_⟩, And.left⟩
    rintro ⟨-, rfl⟩
    simp [hk] at h
  | some sockets =>
    dsimp only
    by_cases hj : j = k
    · subst hj
      split_ifs with hempty
      · rw [InsertionMap.get_delete_self]
        have hall := List.filter_eq_nil_iff.mp hempty
        constructor
        · intro h
          cases h
        · rintro ⟨hy, hne⟩
          rw [hk] at hy
          have := hall y hy
          simp at this
          exact absurd ⟨this, rfl⟩ hne
      · rw [InsertionMap.get_set_self]
        simp [hk, List.mem_filter]
    · split_ifs
      · simp [InsertionMap.get_delete_of_ne _ hj, hj]
      · simp [InsertionMap.get_set_of_ne _ _ hj, hj]

theorem mem_insertSocket {socket y : Socket} {sockets : List Socket} :
    y ∈ insertSocket socket sockets ↔ y = socket ∨ y ∈ sockets := by
  unfold insertSocket
  split_ifs with h
  · exact ⟨Or.inr, fun hy ↦ hy.elim (fun he ↦ he ▸ h) id⟩
  · simp [or_comm]

theorem mem_addSocket {m : InsertionMap String (List Socket)} {k j : String} {socket y : Socket} :
    y ∈ ((addSocket m k socket).get j).getD [] ↔
      y = socket ∧ j = k ∨ y ∈ (m.get j).getD [] := by
  rw [addSocket, InsertionMap.get_set]
  split_ifs with hj
  · simp [mem_insertSocket, hj]
  · simp [hj]

/-! ### The effect of leaving -/

/-- No presence and no socket moves. -/
structure Stays (s s' : Sockets) : Prop where
  presenceAt : ∀ c, s'.presenceAt c = s.presenceAt c
  roomOf : ∀ y, s'.roomOf y = s.roomOf y
  isOpenAt : ∀ y, s'.isOpenAt y = true → s.isOpenAt y = true
  mem_members : ∀ key y, y ∈ s'.members key ↔ y ∈ s.members key

namespace Stays

theorem refl (s : Sockets) : Stays s s := ⟨fun _ ↦ rfl, fun _ ↦ rfl, fun _ ↦ id, fun _ _ ↦ Iff.rfl⟩

theorem trans {s s' s'' : Sockets} (h : Stays s s') (h' : Stays s' s'') : Stays s s'' where
  presenceAt := fun c ↦ (h'.presenceAt c).trans (h.presenceAt c)
  roomOf := fun y ↦ (h'.roomOf y).trans (h.roomOf y)
  isOpenAt := fun y hy ↦ h.isOpenAt y (h'.isOpenAt y hy)
  mem_members := fun key y ↦ (h'.mem_members key y).trans (h.mem_members key y)

/-- Rewriting a session, but not its room. -/
theorem updateClient (s : Sockets) (socket : Socket) {f : ClientSession → ClientSession}
    (hroom : ∀ session, (f session).room = session.room)
    (hopen : ∀ session, (f session).isOpen = true → session.isOpen = true) :
    Stays s (s.updateClient socket f) where
  presenceAt := fun _ ↦ rfl
  roomOf := fun y ↦ by
    rw [Sockets.roomOf, Sockets.get_clients_updateClient, Sockets.roomOf, Option.bind_map]
    congr 1
    funext session
    rw [Function.comp_apply]
    split_ifs
    · exact hroom session
    · rfl
  isOpenAt := fun y ↦ by
    rw [Sockets.isOpenAt, Sockets.get_clients_updateClient, Sockets.isOpenAt, Option.any_map]
    cases s.clients.get y with
    | none => simp
    | some session =>
      simp only [Option.any_some]
      split_ifs
      · exact hopen session
      · exact id
  mem_members := fun _ _ ↦ Iff.rfl

theorem close (s : Sockets) (socket : Socket) : Stays s (s.close socket) :=
  updateClient s socket (fun _ ↦ rfl) fun _ h ↦ by cases h

end Stays

/-- The sockets of a list leave their rooms. -/
structure Leaves (leaving : List Socket) (s s' : Sockets) (events : List SocketEvent) : Prop where
  presenceAt : ∀ c, s'.presenceAt c =
    if ∃ y ∈ leaving, s.lookupOf y = some c then none else s.presenceAt c
  roomOf : ∀ y, s'.roomOf y = s.roomOf y
  lookupOf : ∀ y, s'.lookupOf y = s.lookupOf y
  isOpenAt : ∀ y, s'.isOpenAt y = true → s.isOpenAt y = true
  mem_members : ∀ key y, y ∈ s'.members key ↔
    y ∈ s.members key ∧ ¬(y ∈ leaving ∧ s.roomOf y = some key)
  observe : ∀ announced, events.foldl observe announced =
    announced.filter fun q ↦ !(q.author ∈ leaving && s.roomOf q.author = some q.value.room)

namespace Leaves

variable {leaving leaving' : List Socket} {s s' s'' : Sockets} {events events' : List SocketEvent}

theorem refl (s : Sockets) (h : Quiet events) : Leaves [] s s events where
  presenceAt := fun c ↦ by simp
  roomOf := fun _ ↦ rfl
  lookupOf := fun _ ↦ rfl
  isOpenAt := fun _ ↦ id
  mem_members := fun key y ↦ by simp
  observe := fun announced ↦ by simp [h.foldl_observe]

theorem trans (h : Leaves leaving s s' events) (h' : Leaves leaving' s' s'' events') :
    Leaves (leaving ++ leaving') s s'' (events ++ events') where
  presenceAt := fun c ↦ by
    rw [h'.presenceAt, h.presenceAt]
    simp only [h.lookupOf, List.mem_append, or_and_right, exists_or]
    by_cases hleaving : ∃ y ∈ leaving, s.lookupOf y = some c <;> simp [hleaving]
  roomOf := fun y ↦ (h'.roomOf y).trans (h.roomOf y)
  lookupOf := fun y ↦ (h'.lookupOf y).trans (h.lookupOf y)
  isOpenAt := fun y hy ↦ h.isOpenAt y (h'.isOpenAt y hy)
  mem_members := fun key y ↦ by
    rw [h'.mem_members, h.mem_members, h.roomOf]
    simp only [List.mem_append]
    tauto
  observe := fun announced ↦ by
    rw [List.foldl_append, h.observe, h'.observe, List.filter_filter]
    refine List.filter_congr fun q _ ↦ ?_
    rw [h.roomOf, Bool.and_comm, ← Bool.not_or, ← Bool.and_or_distrib_right, ← Bool.decide_or]
    simp only [List.mem_append]

theorem congr (h : Leaves leaving s s' events) (hmem : ∀ y, y ∈ leaving ↔ y ∈ leaving') :
    Leaves leaving' s s' events where
  presenceAt := fun c ↦ by simp only [h.presenceAt, hmem]
  roomOf := h.roomOf
  lookupOf := h.lookupOf
  isOpenAt := h.isOpenAt
  mem_members := fun key y ↦ by rw [h.mem_members, hmem]
  observe := fun announced ↦ by simp only [h.observe, hmem]

end Leaves

namespace SocketContext

variable (x : SocketContext) (s : Sockets) (socket : Socket)

theorem leaves_updateClient {f : ClientSession → ClientSession}
    (hroom : ∀ session, (f session).room = session.room)
    (hdevice : ∀ session, (f session).device = session.device)
    (hopen : ∀ session, (f session).isOpen = true → session.isOpen = true) :
    Leaves [] s (s.updateClient socket f) [] where
  presenceAt := fun c ↦ by simp; rfl
  roomOf := (Stays.updateClient s socket hroom hopen).roomOf
  lookupOf := fun y ↦ by
    rw [Sockets.lookupOf, Sockets.get_clients_updateClient, Sockets.lookupOf, Option.bind_map]
    congr 1
    funext session
    rw [Function.comp_apply]
    split_ifs
    · rw [ClientSession.lookup, ClientSession.lookup, hroom, hdevice]
    · rfl
  isOpenAt := (Stays.updateClient s socket hroom hopen).isOpenAt
  mem_members := fun key y ↦ by simp; rfl
  observe := fun announced ↦ by simp

theorem quiet_dropPresence (key : RoomKey) (device : Option String) :
    Quiet (x.dropPresence s key device).2 := by
  unfold dropPresence
  split
  · exact Quiet.nil
  · exact x.quiet_broadcast _ _ _

@[simp] theorem clients_dropPresence (key : RoomKey) (device : Option String) :
    (x.dropPresence s key device).1.clients = s.clients := by
  unfold dropPresence
  split <;> rfl

@[simp] theorem roomSockets_dropPresence (key : RoomKey) (device : Option String) :
    (x.dropPresence s key device).1.roomSockets = s.roomSockets := by
  unfold dropPresence
  split <;> rfl

theorem presenceAt_dropPresence (key : RoomKey) (device : Option String) (c : RoomKey × String) :
    (x.dropPresence s key device).1.presenceAt c =
      if device.map (fun deviceId ↦ (key, deviceId)) = some c then none else s.presenceAt c := by
  obtain ⟨key', deviceId'⟩ := c
  unfold dropPresence
  cases device with
  | none => simp
  | some deviceId =>
    cases hget : (s.roster key).get deviceId with
    | none =>
      simp only [Option.bind_some, hget, Option.map_some, Option.some.injEq, Prod.mk.injEq]
      split_ifs with h
      · rw [← h.1, ← h.2]
        exact hget
      · rfl
    | some presence =>
      simp only [Option.bind_some, hget, Option.map_some, Option.some.injEq, Prod.mk.injEq]
      rw [Sockets.presenceAt_setRoster]
      by_cases hkey : key' = key
      · rw [if_pos hkey, InsertionMap.get_filter, Sockets.presenceAt, hkey]
        by_cases hdevice : deviceId' = deviceId
        · cases (s.roster key).get deviceId' <;> simp [hdevice]
        · cases (s.roster key).get deviceId' <;> simp [hdevice, Ne.symm hdevice]
      · rw [if_neg hkey, if_neg fun h ↦ hkey h.1.symm]

theorem leaves_of_outside {s : Sockets} {socket : Socket} (h : s.roomOf socket = none) :
    Leaves [socket] s s [] where
  presenceAt := fun c ↦ by
    have hlookup : s.lookupOf socket = none := by
      rw [Sockets.lookupOf, Option.bind_eq_none_iff]
      intro session hclient
      have hroom := Option.bind_eq_none_iff.mp h session hclient
      rw [ClientSession.lookup, hroom, Option.bind_none]
    simp [hlookup]
  roomOf := fun _ ↦ rfl
  lookupOf := fun _ ↦ rfl
  isOpenAt := fun _ ↦ id
  mem_members := fun key y ↦ by
    refine ⟨fun hy ↦ ⟨hy, ?_⟩, And.left⟩
    rintro ⟨hmem, hroom⟩
    rw [List.mem_singleton.mp hmem, h] at hroom
    cases hroom
  observe := fun announced ↦ by
    refine (List.filter_eq_self.mpr fun q _ ↦ ?_).symm
    rw [Bool.not_eq_true', Bool.and_eq_false_iff]
    by_cases hq : q.author = socket
    · exact .inr (by simp [hq, h])
    · exact .inl (by simpa using hq)

theorem leaveRoom_eq {session : ClientSession} {key : RoomKey}
    (hclient : s.clients.get socket = some session) (hroom : session.room = some key) :
    x.leaveRoom s socket =
      ({ (x.dropPresence s key session.device).1 with
          roomSockets := removeSocket s.roomSockets key socket },
        (x.dropPresence s key session.device).2 ++ [.left socket key]) := by
  simp [leaveRoom, hclient, hroom]

theorem leaveRoom_of_outside (h : s.roomOf socket = none) : x.leaveRoom s socket = (s, []) := by
  unfold leaveRoom
  cases hclient : s.clients.get socket with
  | none => rfl
  | some session =>
    have hroom : session.room = none := by simpa [Sockets.roomOf, hclient] using h
    simp [hroom]

/-- **Leaving a room.** -/
theorem leaves_leaveRoom : Leaves [socket] s (x.leaveRoom s socket).1 (x.leaveRoom s socket).2 := by
  cases hroomOf : s.roomOf socket with
  | none =>
    rw [leaveRoom_of_outside x s socket hroomOf]
    exact leaves_of_outside hroomOf
  | some key =>
    obtain ⟨session, hclient, hroom⟩ := Option.bind_eq_some_iff.mp hroomOf
    have hlookup : s.lookupOf socket = session.device.map fun deviceId ↦ (key, deviceId) := by
      simp [Sockets.lookupOf, hclient, ClientSession.lookup, hroom]
    have hquiet := x.quiet_dropPresence s key session.device
    rw [leaveRoom_eq x s socket hclient hroom]
    exact
      { presenceAt := fun c ↦ by
          have hdrop := x.presenceAt_dropPresence s key session.device c
          rw [← hlookup] at hdrop
          simp only [List.mem_singleton, exists_eq_left]
          exact hdrop
        roomOf := fun y ↦ by simp [Sockets.roomOf]
        lookupOf := fun y ↦ by simp [Sockets.lookupOf]
        isOpenAt := fun y ↦ by simp [Sockets.isOpenAt]
        mem_members := fun key' y ↦ by
          simp only [Sockets.members, mem_removeSocket, List.mem_singleton]
          refine and_congr_right fun _ ↦ not_congr (and_congr_right fun hy ↦ ?_)
          rw [hy, hroomOf, Option.some.injEq, eq_comm]
        observe := fun announced ↦ by
          rw [List.foldl_append, hquiet.foldl_observe]
          refine List.filter_congr fun q _ ↦ ?_
          by_cases hq : q.author = socket
          · simp [hq, hroomOf, eq_comm]
          · simp [hq] }

/-! ### Closing and revoking -/

theorem leaves_leaveTeams : Leaves [] s (leaveTeams s socket) [] := by
  unfold leaveTeams
  cases s.clients.get socket with
  | none => exact Leaves.refl s Quiet.nil
  | some session =>
    have h := leaves_updateClient s socket
      (f := fun session ↦ { session with subscribedTeamIds := [] }) (fun _ ↦ rfl) (fun _ ↦ rfl)
      fun _ ↦ id
    exact ⟨h.presenceAt, h.roomOf, h.lookupOf, h.isOpenAt, h.mem_members, h.observe⟩

theorem leaves_leaveWorkspace : Leaves [] s (leaveWorkspace s socket) [] := by
  unfold leaveWorkspace
  split_ifs
  · have h := leaves_updateClient s socket
      (f := fun session ↦ { session with workspaceSubscribed := false }) (fun _ ↦ rfl) (fun _ ↦ rfl)
      fun _ ↦ id
    exact ⟨h.presenceAt, h.roomOf, h.lookupOf, h.isOpenAt, h.mem_members, h.observe⟩
  · exact Leaves.refl s Quiet.nil

theorem leaves_leaveAll : Leaves [socket] s (x.leaveAll s socket).1 (x.leaveAll s socket).2 := by
  have hroom := x.leaves_leaveRoom s socket
  have hteams := leaves_leaveTeams (x.leaveRoom s socket).1 socket
  have hworkspace := leaves_leaveWorkspace (leaveTeams (x.leaveRoom s socket).1 socket) socket
  have h := (hroom.trans hteams).trans hworkspace
  simp only [List.append_nil] at h
  exact h

end SocketContext

/-- The sockets of a list leave their rooms and are closed. -/
structure Revokes (leaving : List Socket) (s s' : Sockets) (events : List SocketEvent) : Prop
    extends Leaves leaving s s' events where
  closed : ∀ y ∈ leaving, s'.isOpenAt y = false

namespace Revokes

variable {leaving leaving' : List Socket} {s s' s'' : Sockets} {events events' : List SocketEvent}

theorem refl (s : Sockets) (h : Quiet events) : Revokes [] s s events where
  toLeaves := .refl s h
  closed := fun y hy ↦ by cases hy

theorem trans (h : Revokes leaving s s' events) (h' : Revokes leaving' s' s'' events') :
    Revokes (leaving ++ leaving') s s'' (events ++ events') where
  toLeaves := h.toLeaves.trans h'.toLeaves
  closed := fun y hy ↦ by
    rcases List.mem_append.mp hy with hy | hy
    · by_contra hopen
      rw [Bool.not_eq_false] at hopen
      have hopen := h'.isOpenAt y hopen
      rw [h.closed y hy] at hopen
      cases hopen
    · exact h'.closed y hy

theorem congr (h : Revokes leaving s s' events) (hmem : ∀ y, y ∈ leaving ↔ y ∈ leaving') :
    Revokes leaving' s s' events where
  toLeaves := h.toLeaves.congr hmem
  closed := fun y hy ↦ h.closed y ((hmem y).mpr hy)

end Revokes

/-- What `leaveTeams` and `leaveWorkspace` leave of a session. -/
def ClientSession.unsubscribed (session : ClientSession) : ClientSession :=
  { session with subscribedTeamIds := [], workspaceSubscribed := false }

namespace Sockets

/-- A session that `revokeTeamMemberSessions` revokes. -/
@[grind =] def isRevoked (s : Sockets) (teamId userId : String) (socket : Socket) : Bool :=
  (s.clients.get socket).any fun session ↦
    session.isRegistered && session.isOf userId && (session.teamId = some teamId ||
      teamId ∈ session.subscribedTeamIds || session.workspaceSubscribed)

/-- A session that `revokeUserSessions` revokes. -/
def isOfUser (s : Sockets) (userId : String) (socket : Socket) : Bool :=
  (s.clients.get socket).any fun session ↦ session.isRegistered && session.isOf userId

end Sockets

namespace SocketContext

variable (x : SocketContext) (s : Sockets) (socket : Socket)

@[simp] theorem clients_leaveRoom : (x.leaveRoom s socket).1.clients = s.clients := by
  cases hroomOf : s.roomOf socket with
  | none => rw [leaveRoom_of_outside x s socket hroomOf]
  | some key =>
    obtain ⟨session, hclient, hroom⟩ := Option.bind_eq_some_iff.mp hroomOf
    rw [leaveRoom_eq x s socket hclient hroom]
    exact clients_dropPresence ..


theorem get_clients_leaveTeams (y : Socket) : (leaveTeams s socket).clients.get y =
    (s.clients.get y).map fun session ↦
      if y = socket then { session with subscribedTeamIds := [] } else session := by
  unfold leaveTeams
  cases hclient : s.clients.get socket with
  | some session => exact s.get_clients_updateClient socket _ y
  | none =>
    by_cases hy : y = socket
    · simp [hy, hclient]
    · simp [hy]

theorem get_clients_leaveWorkspace (y : Socket) : (leaveWorkspace s socket).clients.get y =
    (s.clients.get y).map fun session ↦
      if y = socket then { session with workspaceSubscribed := false } else session := by
  unfold leaveWorkspace
  by_cases hsubscribed : (s.clients.get socket).any (·.workspaceSubscribed) = true
  · rw [if_pos hsubscribed]
    exact s.get_clients_updateClient socket _ y
  · rw [if_neg hsubscribed]
    by_cases hy : y = socket
    · subst hy
      cases hclient : s.clients.get y with
      | none => rfl
      | some session =>
        have hworkspace : session.workspaceSubscribed = false := by simpa [hclient] using hsubscribed
        simp [← hworkspace]
    · simp [hy]

theorem get_clients_leaveAll (y : Socket) : (x.leaveAll s socket).1.clients.get y =
    (s.clients.get y).map fun session ↦ if y = socket then session.unsubscribed else session := by
  have h := get_clients_leaveWorkspace (leaveTeams (x.leaveRoom s socket).1 socket) socket y
  rw [get_clients_leaveTeams, clients_leaveRoom, Option.map_map] at h
  refine h.trans (congrArg (Option.map · _) (funext fun session ↦ ?_))
  by_cases hy : y = socket <;> simp [hy, ClientSession.unsubscribed]

theorem revokes_of_leaveAll {notice : List SocketEvent} (hnotice : Quiet notice)
    {f : ClientSession → ClientSession} (hroom : ∀ session, (f session).room = session.room)
    (hdevice : ∀ session, (f session).device = session.device)
    (hopen : ∀ session, (f session).isOpen = false) :
    Revokes [socket] s ((x.leaveAll s socket).1.updateClient socket f)
      (notice ++ (x.leaveAll s socket).2) where
  toLeaves := by
    have hclose := leaves_updateClient (x.leaveAll s socket).1 socket hroom hdevice
      fun session h ↦ by rw [hopen] at h; cases h
    have h := (Leaves.refl s hnotice).trans ((x.leaves_leaveAll s socket).trans hclose)
    simp only [List.nil_append, List.append_nil] at h
    exact h
  closed := fun y hy ↦ by
    rw [List.mem_singleton.mp hy, Sockets.isOpenAt, Sockets.get_clients_updateClient_self,
      Option.any_map]
    cases (x.leaveAll s socket).1.clients.get socket with
    | none => rfl
    | some session => exact hopen session

/-- The notice of `revokeTeamMemberSessions`. -/
abbrev membershipRemoved (teamId : String) : ServerMessage :=
  .error "Your team membership was removed. Rejoin with a fresh invite before continuing."
    (some "membership_removed") (some teamId)

/-- A loop body of `revokeTeamMemberSessions` as a test and its effect. -/
theorem revokeTeamMemberSession_eq (teamId userId : String) :
    x.revokeTeamMemberSession s teamId userId socket =
      if s.isRevoked teamId userId socket then
        ((x.leaveAll s socket).1.close socket,
          x.send s socket (membershipRemoved teamId) ++ (x.leaveAll s socket).2)
      else (s, []) := by
  unfold revokeTeamMemberSession Sockets.isRevoked
  cases s.clients.get socket with
  | none => rfl
  | some session =>
    cases hregistered : session.isRegistered with
    | false => simp [Option.filter, hregistered]
    | true =>
      cases hof : session.isOf userId with
      | false => simp [Option.filter, hregistered, hof]
      | true =>
        simp only [Option.filter, hregistered, hof, Option.any_some, Bool.true_and, if_true]
        by_cases hteam : session.teamId = some teamId
        · simp [hteam]
        · by_cases hsubscribed : teamId ∈ session.subscribedTeamIds
          · simp [hsubscribed]
          · cases hworkspace : session.workspaceSubscribed <;> simp [hteam, hsubscribed]

end SocketContext

/-- A loop body that revokes the sessions that satisfy a test, one socket at a time. -/
structure Revoker (test : Sockets → Socket → Bool) (f : ClientSession → ClientSession)
    (body : Sockets → Socket → Sockets × List SocketEvent) : Prop where
  test_congr : ∀ s s' y, s'.clients.get y = s.clients.get y → test s' y = test s y
  revokes : ∀ s socket, Revokes ([socket].filter (test s)) s (body s socket).1 (body s socket).2
  get_clients : ∀ s socket y, (body s socket).1.clients.get y =
    (s.clients.get y).map fun session ↦
      if y = socket ∧ test s y = true then f session else session

namespace Revoker

variable {test : Sockets → Socket → Bool} {f : ClientSession → ClientSession}
  {body : Sockets → Socket → Sockets × List SocketEvent}

/-- A loop body that does nothing for a session that fails the test, and for the others sends a
notice, leaves everything and rewrites the session. -/
theorem of_eq (x : SocketContext) {notice : Sockets → Socket → List SocketEvent}
    (hcongr : ∀ s s' y, s'.clients.get y = s.clients.get y → test s' y = test s y)
    (hnotice : ∀ s socket, Quiet (notice s socket))
    (hroom : ∀ session, (f session).room = session.room)
    (hdevice : ∀ session, (f session).device = session.device)
    (hopen : ∀ session, (f session).isOpen = false)
    (hbody : ∀ s socket, body s socket =
      if test s socket then
        ((x.leaveAll s socket).1.updateClient socket f,
          notice s socket ++ (x.leaveAll s socket).2)
      else (s, [])) :
    Revoker test (fun session ↦ f session.unsubscribed) body where
  test_congr := hcongr
  revokes := fun s socket ↦ by
    rw [hbody]
    by_cases h : test s socket = true
    · rw [if_pos h, List.filter_cons_of_pos h, List.filter_nil]
      exact x.revokes_of_leaveAll s socket (hnotice s socket) hroom hdevice hopen
    · rw [if_neg h, List.filter_cons_of_neg h, List.filter_nil]
      exact Revokes.refl s Quiet.nil
  get_clients := fun s socket y ↦ by
    rw [hbody]
    by_cases h : test s socket = true
    · rw [if_pos h, Sockets.get_clients_updateClient, SocketContext.get_clients_leaveAll,
        Option.map_map]
      refine congrArg (Option.map · _) (funext fun session ↦ ?_)
      by_cases hy : y = socket <;> simp [hy, h]
    · rw [if_neg h]
      have hne : ¬(y = socket ∧ test s y = true) := by
        rintro ⟨rfl, hy⟩
        exact h hy
      simp [hne]

/-- **The loop.** What one socket looks up does not depend on the sockets before it, so all of them
are tested in the state in which the loop starts. -/
theorem run (h : Revoker test f body) {sockets : List Socket} (hnodup : sockets.Nodup)
    (s : Sockets) :
    Revokes (sockets.filter (test s)) s (Machine.run body s sockets).1
        (Machine.run body s sockets).2 ∧
      ∀ y, (Machine.run body s sockets).1.clients.get y = (s.clients.get y).map fun session ↦
        if y ∈ sockets ∧ test s y = true then f session else session := by
  induction sockets generalizing s with
  | nil => exact ⟨Revokes.refl s Quiet.nil, fun y ↦ by simp⟩
  | cons socket sockets ih =>
    obtain ⟨hfresh, hnodup⟩ := List.nodup_cons.mp hnodup
    obtain ⟨hrevokes, hclients⟩ := ih hnodup (body s socket).1
    have hsame : ∀ y, y ≠ socket → test (body s socket).1 y = test s y := fun y hy ↦
      h.test_congr _ _ y (by rw [h.get_clients]; simp [hy])
    have hfilter : sockets.filter (test (body s socket).1) = sockets.filter (test s) :=
      List.filter_congr fun y hy ↦ hsame y fun he ↦ hfresh (he ▸ hy)
    rw [Machine.run_cons]
    constructor
    · have hall := (h.revokes s socket).trans hrevokes
      rw [hfilter, ← List.filter_append] at hall
      exact hall
    · intro y
      rw [hclients, h.get_clients, Option.map_map]
      refine congrArg (Option.map · _) (funext fun session ↦ ?_)
      by_cases hy : y = socket
      · subst hy
        simp [hfresh]
      · simp [hy, hsame y hy]

/-- The loop over all sessions. -/
theorem run_keys (h : Revoker test f body) (s : Sockets) :
    Revokes (s.clients.keys.filter (test s)) s (Machine.run body s s.clients.keys).1
        (Machine.run body s s.clients.keys).2 ∧
      ∀ y, (Machine.run body s s.clients.keys).1.clients.get y =
        (s.clients.get y).map fun session ↦ if test s y = true then f session else session := by
  have hnodup : s.clients.keys.Nodup := s.clients.nodup_keys
  have hrun := h.run hnodup s
  refine ⟨hrun.1, fun y ↦ ?_⟩
  rw [hrun.2]
  cases hclient : s.clients.get y with
  | none => rfl
  | some session =>
    have hmem : y ∈ s.clients.keys := InsertionMap.mem_keys_iff.mpr ⟨session, hclient⟩
    simp [hmem]

end Revoker

namespace SocketContext

variable (x : SocketContext) (s : Sockets)

theorem revoker_revokeTeamMemberSession (teamId userId : String) :
    Revoker (fun s ↦ s.isRevoked teamId userId)
      (fun session ↦ { session.unsubscribed with isOpen := false })
      fun s ↦ x.revokeTeamMemberSession s teamId userId :=
  Revoker.of_eq x (f := fun session ↦ { session with isOpen := false })
    (fun s s' y h ↦ by simp only [Sockets.isRevoked, h])
    (fun s socket ↦ x.quiet_send s socket _) (fun _ ↦ rfl) (fun _ ↦ rfl) (fun _ ↦ rfl)
    fun s socket ↦ x.revokeTeamMemberSession_eq s socket teamId userId

theorem revoker_revokeUserSession (userId message : String) :
    Revoker (fun s ↦ s.isOfUser userId)
      (fun session ↦ { session.unsubscribed with isOpen := false, isRegistered := false })
      fun s ↦ x.revokeUserSession s userId message := by
  refine Revoker.of_eq x (f := fun session ↦ { session with isOpen := false, isRegistered := false })
    (fun s s' y h ↦ by simp only [Sockets.isOfUser, h])
    (fun s socket ↦ x.quiet_send s socket (.plainError message)) (fun _ ↦ rfl) (fun _ ↦ rfl)
    (fun _ ↦ rfl) ?_
  intro s socket
  unfold revokeUserSession Sockets.isOfUser
  cases s.clients.get socket with
  | none => rfl
  | some session =>
    cases hregistered : session.isRegistered with
    | false => simp [Option.filter, hregistered]
    | true => cases hof : session.isOf userId <;> simp [Option.filter, hregistered, hof]

/-- The sessions that an account deletion revokes, one team after another. -/
theorem revokes_run_revokeTeamMemberSessions (userId : String) (teamIds : List String)
    (s : Sockets) :
    Revokes (s.clients.keys.filter fun y ↦ teamIds.any fun teamId ↦ s.isRevoked teamId userId y) s
        (Machine.run (fun s teamId ↦ x.revokeTeamMemberSessions s teamId userId) s teamIds).1
        (Machine.run (fun s teamId ↦ x.revokeTeamMemberSessions s teamId userId) s teamIds).2 := by
  induction teamIds generalizing s with
  | nil => simpa using Revokes.refl s Quiet.nil
  | cons teamId teamIds ih =>
    obtain ⟨hone, hclients⟩ := (x.revoker_revokeTeamMemberSession teamId userId).run_keys s
    have hrest := ih (x.revokeTeamMemberSessions s teamId userId).1
    rw [Machine.run_cons]
    refine (hone.trans hrest).congr fun y ↦ ?_
    change ∀ y, (x.revokeTeamMemberSessions s teamId userId).1.clients.get y = _ at hclients
    have hkeys : y ∈ (x.revokeTeamMemberSessions s teamId userId).1.clients.keys ↔
        y ∈ s.clients.keys := by
      cases hclient : s.clients.get y <;> simp [InsertionMap.mem_keys_iff, hclients, hclient]
    by_cases hy : s.isRevoked teamId userId y = true
    · simp only [List.mem_append, List.mem_filter, hkeys, hy, List.any_cons, Bool.true_or, and_true]
      exact or_iff_left_of_imp And.left
    · have hsame : (x.revokeTeamMemberSessions s teamId userId).1.clients.get y =
          s.clients.get y := by
        rw [hclients]
        simp [hy]
      have hrevoked : ∀ t, (x.revokeTeamMemberSessions s teamId userId).1.isRevoked t userId y =
          s.isRevoked t userId y := fun t ↦ by simp only [Sockets.isRevoked, hsame]
      simp [hy, hkeys, hrevoked]

end SocketContext

end MultAIplayer
