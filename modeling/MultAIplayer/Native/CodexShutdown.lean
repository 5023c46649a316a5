import MultAIplayer.Lib.History
import MultAIplayer.Native.CodexTurns

/-!
# What a shutdown of a Codex room leaves

`ShutdownFinal` is what holds once a shutdown has returned, together with the exclusiveness of turns
and sessions. It holds along every run in which no project confirmation reaches across a shutdown
(`FreshlyConfirmed`): `authorizeProjectRoot` does not look at the cancellation of its turn, so the
answer to a dialog that was open during a shutdown gives the room its root back.

Order in the log is told by `Before`; what a table holds has the events that brought it there in the
log, and none of a shutdown after them.
-/

namespace MultAIplayer.Native

open History

/-- A shutdown of the room has revoked its root and not returned. -/
def PastRevoke (log : List TurnEvent) (roomId : String) : Prop :=
  ∃ call, Since (.revoked call roomId) (fun back ↦ .shutdownReturned call roomId ∉ back) log

/-- No shutdown of the room has returned since something happened. -/
def SinceShutdown (e : TurnEvent) (roomId : String) (log : List TurnEvent) : Prop :=
  Since e (fun back ↦ ∀ call, .shutdownReturned call roomId ∉ back) log

/-- A project root is authorized only by a dialog that opened after the last shutdown, and not while
another one is past its revocation. -/
def FreshlyConfirmed (before : List TurnEvent) (e : TurnEvent) : Prop :=
  ∀ lease roomId, e = .authorized lease roomId →
    SinceShutdown (.asked lease roomId) roomId before ∧ ¬PastRevoke before roomId

/-- The session that a turn has. -/
def TurnPhase.session : TurnPhase → Option CodexServerSession
  | starting _ session | running _ session | checkingIn _ session => some session
  | _ => none

/-- The key of the sessions of a turn. -/
def TurnPhase.key : TurnPhase → Option CodexServerKey
  | pruning key | checkingOut key | launching key => some key
  | starting key _ | running key _ | checkingIn key _ => some key
  | _ => none

/-- A turn that has no authority yet, or none any more. -/
def TurnPhase.early : TurnPhase → Bool
  | classifying | confirming _ _ | asking _ _ | authorizing _ _ | leaving => true
  | _ => false

/-- What a shutdown leaves, and what it does not need. -/
structure ShutdownFinal (s : CodexTurns) (log : List TurnEvent) : Prop where
  /-- Turns that began before are cancelled. -/
  cancelled : ∀ front call roomId middle back,
    log = front ++ .shutdownBegan call roomId :: middle ++ .shutdownReturned call roomId :: back →
      ∀ lease turn, .began lease roomId ∈ front → s.turns.get lease = some turn →
        turn.cancelled = true
  /-- Their sessions do not come back. -/
  notCheckedIn : ∀ front call roomId middle back,
    log = front ++ .shutdownBegan call roomId :: middle ++ .shutdownReturned call roomId :: back →
      ∀ lease session, .began lease roomId ∈ front → .checkedIn lease session ∉ back
  /-- No session of before is in the cache. -/
  cache : ∀ before call roomId after, log = before ++ .shutdownReturned call roomId :: after →
    ∀ key session, s.sessions.get key = some session → key.roomId = roomId →
      ∀ lease, .started lease session.sessionId ∉ before
  /-- A root was authorized by a dialog that opened later. -/
  root : ∀ before call roomId after, log = before ++ .shutdownReturned call roomId :: after →
    s.authorization.projectRoots.has roomId = true →
      ∃ lease, Before (.asked lease roomId) (.authorized lease roomId) after
  /-- A room has one turn that is not cancelled. -/
  oneTurn : ∀ lease lease' turn turn', s.turns.get lease = some turn →
    s.turns.get lease' = some turn' → turn.request.roomId = turn'.request.roomId →
      turn.cancelled = false → turn'.cancelled = false → lease = lease'
  /-- A session has one turn. -/
  oneUser : ∀ lease lease' turn turn' session session', s.turns.get lease = some turn →
    s.turns.get lease' = some turn' → turn.at_.session = some session →
      turn'.at_.session = some session' → session.sessionId = session'.sessionId → lease = lease'
  /-- And is then not in the cache. -/
  notShared : ∀ lease turn session key session', s.turns.get lease = some turn →
    turn.at_.session = some session → s.sessions.get key = some session' →
      session.sessionId ≠ session'.sessionId

/-! ### The invariant -/

/-- The leases: what is not cancelled began after each cancellation of its room. -/
structure LeaseInv (s : CodexTurns) (log : List TurnEvent) : Prop where
  fresh : ∀ lease roomId, .began lease roomId ∈ log → lease < s.nextTurnLeaseId
  known : ∀ lease turn, s.turns.get lease = some turn → lease < s.nextTurnLeaseId
  room : ∀ lease turn roomId, s.turns.get lease = some turn → .began lease roomId ∈ log →
    roomId = turn.request.roomId
  uncancelled : ∀ lease turn roomId, s.turns.get lease = some turn → turn.cancelled = false →
    ¬Before (.began lease roomId) (.turnsCancelled roomId) log
  oneTurn : ∀ lease lease' turn turn', s.turns.get lease = some turn →
    s.turns.get lease' = some turn' → turn.request.roomId = turn'.request.roomId →
      turn.cancelled = false → turn'.cancelled = false → lease = lease'
  checkedIn : Justified (fun before e ↦ ∀ lease session roomId, e = .checkedIn lease session →
    ¬Before (.began lease roomId) (.turnsCancelled roomId) before) log

/-- The sessions: each is in one place, and those that may be used again were started after each
shutdown of their room. -/
structure SessionInv (s : CodexTurns) (log : List TurnEvent) : Prop where
  fresh : ∀ lease session, .started lease session ∈ log → session < s.nextRpcSessionId
  cached : ∀ key session, s.sessions.get key = some session →
    session.sessionId < s.nextRpcSessionId
  held : ∀ lease turn session, s.turns.get lease = some turn → turn.at_.session = some session →
    session.sessionId < s.nextRpcSessionId
  key : ∀ lease turn key, s.turns.get lease = some turn → turn.at_.key = some key →
    key.roomId = turn.request.roomId
  oneKey : ∀ key key' session session', s.sessions.get key = some session →
    s.sessions.get key' = some session' → session.sessionId = session'.sessionId → key = key'
  oneUser : ∀ lease lease' turn turn' session session', s.turns.get lease = some turn →
    s.turns.get lease' = some turn' → turn.at_.session = some session →
      turn'.at_.session = some session' → session.sessionId = session'.sessionId → lease = lease'
  notShared : ∀ lease turn session key session', s.turns.get lease = some turn →
    turn.at_.session = some session → s.sessions.get key = some session' →
      session.sessionId ≠ session'.sessionId
  cachedLate : ∀ key session lease call, s.sessions.get key = some session →
    ¬Before (.started lease session.sessionId) (.shutdownReturned call key.roomId) log
  heldLate : ∀ lease turn session lease' call, s.turns.get lease = some turn →
    turn.at_.session = some session → turn.cancelled = false →
      ¬Before (.started lease' session.sessionId) (.shutdownReturned call turn.request.roomId) log

/-- The roots, and the shutdowns that are under way. -/
structure RootInv (s : CodexTurns) (log : List TurnEvent) : Prop where
  authorized : ∀ roomId root, s.authorization.projectRoots.get roomId = some root →
    ∃ lease, Since (.asked lease roomId) (fun back ↦ .authorized lease roomId ∈ back ∧
      ∀ call, .shutdownReturned call roomId ∉ back) log
  revoked : ∀ call roomId phase, s.shutdowns.get call = some (roomId, phase) → phase ≠ .revoking →
    s.authorization.projectRoots.get roomId = none ∧
      Since (.revoked call roomId) (fun back ↦ .shutdownReturned call roomId ∉ back) log
  cancelled : ∀ call roomId, s.shutdowns.get call = some (roomId, .closing) →
    FollowedBy (.shutdownBegan call roomId) (.turnsCancelled roomId) log
  returned : Justified (fun before e ↦ ∀ call roomId, e = .shutdownReturned call roomId →
    FollowedBy (.shutdownBegan call roomId) (.turnsCancelled roomId) before) log
  early : ∀ call roomId lease turn, s.shutdowns.get call = some (roomId, .closing) →
    s.turns.get lease = some turn → turn.request.roomId = roomId → turn.cancelled = false →
      turn.at_.early = true

structure TurnsInv (s : CodexTurns) (log : List TurnEvent) : Prop where
  leases : LeaseInv s log
  sessions : SessionInv s log
  roots : RootInv s log

/-! ### What the invariant says -/

theorem TurnsInv.final {s : CodexTurns} {log : List TurnEvent} (h : TurnsInv s log) :
    ShutdownFinal s log where
  cancelled front call roomId middle back hlog lease turn hbegan hget := by
    have hcancelled : .turnsCancelled roomId ∈ middle :=
      h.roots.returned (front ++ .shutdownBegan call roomId :: middle) _ back (by simp [hlog])
        call roomId rfl front middle rfl
    by_contra hnot
    refine h.leases.uncancelled lease turn roomId hget (by simpa using hnot) ?_
    rw [hlog, List.append_assoc]
    exact before_append hbegan (by simp [hcancelled])
  notCheckedIn front call roomId middle back hlog lease session hbegan hchecked := by
    have hcancelled : .turnsCancelled roomId ∈ middle :=
      h.roots.returned (front ++ .shutdownBegan call roomId :: middle) _ back (by simp [hlog])
        call roomId rfl front middle rfl
    obtain ⟨earlier, later, rfl⟩ := List.append_of_mem hchecked
    refine h.leases.checkedIn (front ++ .shutdownBegan call roomId :: middle ++
      .shutdownReturned call roomId :: earlier) _ later (by simp [hlog]) lease session roomId rfl ?_
    rw [List.append_assoc]
    exact before_append hbegan (by simp [hcancelled])
  cache before call roomId after hlog key session hget hroom lease hstarted := by
    refine h.sessions.cachedLate key session lease call hget ?_
    rw [hlog, hroom]
    exact before_append hstarted (by simp)
  root before call roomId after hlog hhas := by
    obtain ⟨root, hget⟩ := InsertionMap.has_iff.mp hhas
    obtain ⟨lease, hsince⟩ := h.roots.authorized roomId root hget
    rw [hlog] at hsince
    obtain ⟨front, back, rfl, hback⟩ := hsince.after (fun back hback ↦ hback.2 call) nofun
    refine ⟨lease, ?_⟩
    rw [List.append_cons]
    exact before_append (by simp) hback.1
  oneTurn := h.leases.oneTurn
  oneUser := h.sessions.oneUser
  notShared := h.sessions.notShared

/-! ### What a step leaves alone -/

/-- An event that is not about leases, the cache or shutdowns. -/
def TurnEvent.plain : TurnEvent → Bool
  | asked _ _ | authorized _ _ | checkedOut _ _ | left _ | failed _ => true
  | _ => false

/-- A phase that has what the one before had. -/
structure TurnPhase.Keeps (roomId : String) (old new : TurnPhase) : Prop where
  session : ∀ session', new.session = some session' →
    ∃ session, old.session = some session ∧ session.sessionId = session'.sessionId
  key : ∀ key, new.key = some key → old.key = some key ∨ key.roomId = roomId

theorem TurnPhase.Keeps.refl (roomId : String) (at_ : TurnPhase) : Keeps roomId at_ at_ :=
  ⟨fun session' h ↦ ⟨session', h, rfl⟩, fun _ h ↦ .inl h⟩

/-- A phase without a session. -/
theorem TurnPhase.Keeps.of_none {roomId : String} {old new : TurnPhase} (hsession : new.session = none)
    (hkey : new.key = none) : Keeps roomId old new where
  session session' h := by
    rw [hsession] at h
    cases h
  key key h := by
    rw [hkey] at h
    cases h

section Keep

variable {s s' : CodexTurns} {log : List TurnEvent} {e : TurnEvent}

theorem LeaseInv.keep (h : LeaseInv s log)
    (hturns : ∀ lease turn', s'.turns.get lease = some turn' → ∃ turn,
      s.turns.get lease = some turn ∧ turn'.request = turn.request ∧
        (turn'.cancelled = false → turn.cancelled = false))
    (hnext : s'.nextTurnLeaseId = s.nextTurnLeaseId) : LeaseInv s' log where
  fresh lease roomId hbegan := hnext ▸ h.fresh lease roomId hbegan
  known lease turn' hget := by
    obtain ⟨turn, hold, -⟩ := hturns lease turn' hget
    exact hnext ▸ h.known lease turn hold
  room lease turn' roomId hget hbegan := by
    obtain ⟨turn, hold, hrequest, -⟩ := hturns lease turn' hget
    rw [hrequest]
    exact h.room lease turn roomId hold hbegan
  uncancelled lease turn' roomId hget hnot := by
    obtain ⟨turn, hold, -, hcancelled⟩ := hturns lease turn' hget
    exact h.uncancelled lease turn roomId hold (hcancelled hnot)
  oneTurn lease lease' turn' turn'' hget hget' hroom hnot hnot' := by
    obtain ⟨turn, hold, hrequest, hcancelled⟩ := hturns lease turn' hget
    obtain ⟨turn₂, hold₂, hrequest₂, hcancelled₂⟩ := hturns lease' turn'' hget'
    refine h.oneTurn lease lease' turn turn₂ hold hold₂ ?_ (hcancelled hnot) (hcancelled₂ hnot')
    rw [← hrequest, ← hrequest₂, hroom]
  checkedIn := h.checkedIn

theorem LeaseInv.snoc (h : LeaseInv s log) (hbegan : ∀ lease roomId, e ≠ .began lease roomId)
    (hcancelled : ∀ roomId, e ≠ .turnsCancelled roomId)
    (hcheckedIn : ∀ lease session roomId, e = .checkedIn lease session →
      ¬Before (.began lease roomId) (.turnsCancelled roomId) log) : LeaseInv s (log ++ [e]) where
  fresh lease roomId hmem := by
    rcases List.mem_append.mp hmem with hmem | hmem
    · exact h.fresh lease roomId hmem
    · exact (hbegan lease roomId (List.mem_singleton.mp hmem).symm).elim
  known := h.known
  room lease turn roomId hget hmem := by
    rcases List.mem_append.mp hmem with hmem | hmem
    · exact h.room lease turn roomId hget hmem
    · exact (hbegan lease roomId (List.mem_singleton.mp hmem).symm).elim
  uncancelled lease turn roomId hget hnot hbefore := by
    rcases before_snoc_iff.mp hbefore with hbefore | ⟨-, he⟩
    · exact h.uncancelled lease turn roomId hget hnot hbefore
    · exact hcancelled roomId he.symm
  oneTurn := h.oneTurn
  checkedIn := justified_snoc h.checkedIn hcheckedIn

/-- The turns of a room are cancelled with it. -/
theorem LeaseInv.turnsCancelled {roomId : String} (h : LeaseInv s log)
    (hall : ∀ lease turn, s.turns.get lease = some turn → turn.request.roomId = roomId →
      turn.cancelled = true) : LeaseInv s (log ++ [.turnsCancelled roomId]) where
  fresh lease room hmem := by
    rcases List.mem_append.mp hmem with hmem | hmem
    · exact h.fresh lease room hmem
    · cases List.mem_singleton.mp hmem
  known := h.known
  room lease turn room hget hmem := by
    rcases List.mem_append.mp hmem with hmem | hmem
    · exact h.room lease turn room hget hmem
    · cases List.mem_singleton.mp hmem
  uncancelled lease turn room hget hnot hbefore := by
    rcases before_snoc_iff.mp hbefore with hbefore | ⟨hmem, he⟩
    · exact h.uncancelled lease turn room hget hnot hbefore
    · cases he
      rw [hall lease turn hget (h.room lease turn roomId hget hmem).symm] at hnot
      cases hnot
  oneTurn := h.oneTurn
  checkedIn := justified_snoc h.checkedIn nofun

theorem SessionInv.keep (h : SessionInv s log)
    (hturns : ∀ lease turn', s'.turns.get lease = some turn' →
      turn'.at_.session = none ∧ turn'.at_.key = none ∨
        ∃ turn, s.turns.get lease = some turn ∧ turn'.request = turn.request ∧
          (turn'.cancelled = false → turn.cancelled = false) ∧
            TurnPhase.Keeps turn.request.roomId turn.at_ turn'.at_)
    (hsessions : ∀ key session, s'.sessions.get key = some session →
      s.sessions.get key = some session)
    (hnext : s'.nextRpcSessionId = s.nextRpcSessionId) : SessionInv s' log := by
  have hholds : ∀ lease turn' session', s'.turns.get lease = some turn' →
      turn'.at_.session = some session' → ∃ turn session, s.turns.get lease = some turn ∧
        turn'.request = turn.request ∧ (turn'.cancelled = false → turn.cancelled = false) ∧
          turn.at_.session = some session ∧ session.sessionId = session'.sessionId := by
    intro lease turn' session' hget hsession
    rcases hturns lease turn' hget with ⟨hnone, -⟩ | ⟨turn, hold, hrequest, hcancelled, hphase⟩
    · rw [hnone] at hsession
      cases hsession
    · obtain ⟨session, hhas, hid⟩ := hphase.session session' hsession
      exact ⟨turn, session, hold, hrequest, hcancelled, hhas, hid⟩
  refine ⟨fun lease session hstarted ↦ hnext ▸ h.fresh lease session hstarted,
    fun key session hget ↦ hnext ▸ h.cached key session (hsessions key session hget), ?_, ?_,
    fun key key' session session' hget hget' ↦
      h.oneKey key key' session session' (hsessions _ _ hget) (hsessions _ _ hget'), ?_, ?_,
    fun key session lease call hget ↦ h.cachedLate key session lease call (hsessions _ _ hget), ?_⟩
  · intro lease turn' session' hget hsession
    obtain ⟨turn, session, hold, -, -, hhas, hid⟩ := hholds lease turn' session' hget hsession
    rw [← hid, hnext]
    exact h.held lease turn session hold hhas
  · intro lease turn' key hget hkey
    rcases hturns lease turn' hget with ⟨-, hnone⟩ | ⟨turn, hold, hrequest, -, hphase⟩
    · rw [hnone] at hkey
      cases hkey
    · rw [hrequest]
      exact (hphase.key key hkey).elim (h.key lease turn key hold) id
  · intro lease lease' turn' turn'' session' session'' hget hget' hhas hhas' hid
    obtain ⟨turn, session, hold, -, -, hsession, heq⟩ := hholds lease turn' session' hget hhas
    obtain ⟨turn₂, session₂, hold₂, -, -, hsession₂, heq₂⟩ :=
      hholds lease' turn'' session'' hget' hhas'
    exact h.oneUser lease lease' turn turn₂ session session₂ hold hold₂ hsession hsession₂
      (heq.trans (hid.trans heq₂.symm))
  · intro lease turn' session' key cached hget hhas hcached
    obtain ⟨turn, session, hold, -, -, hsession, heq⟩ := hholds lease turn' session' hget hhas
    rw [← heq]
    exact h.notShared lease turn session key cached hold hsession (hsessions _ _ hcached)
  · intro lease turn' session' lease' call hget hhas hnot
    obtain ⟨turn, session, hold, hrequest, hcancelled, hsession, heq⟩ :=
      hholds lease turn' session' hget hhas
    rw [← heq, hrequest]
    exact h.heldLate lease turn session lease' call hold hsession (hcancelled hnot)

theorem SessionInv.snoc (h : SessionInv s log)
    (hstarted : ∀ lease session, e ≠ .started lease session)
    (hreturned : ∀ call roomId, e ≠ .shutdownReturned call roomId) :
    SessionInv s (log ++ [e]) :=
  { h with
    fresh := fun lease session hmem ↦ by
      rcases List.mem_append.mp hmem with hmem | hmem
      · exact h.fresh lease session hmem
      · exact (hstarted lease session (List.mem_singleton.mp hmem).symm).elim
    cachedLate := fun key session lease call hget hbefore ↦ by
      rcases before_snoc_iff.mp hbefore with hbefore | ⟨-, he⟩
      · exact h.cachedLate key session lease call hget hbefore
      · exact hreturned _ _ he.symm
    heldLate := fun lease turn session lease' call hget hhas hnot hbefore ↦ by
      rcases before_snoc_iff.mp hbefore with hbefore | ⟨-, he⟩
      · exact h.heldLate lease turn session lease' call hget hhas hnot hbefore
      · exact hreturned _ _ he.symm }

theorem RootInv.keep (h : RootInv s log)
    (hroots : s'.authorization.projectRoots = s.authorization.projectRoots)
    (hshutdowns : s'.shutdowns = s.shutdowns)
    (hturns : ∀ lease turn', s'.turns.get lease = some turn' → turn'.cancelled = false →
      turn'.at_.early = true ∨
        s.authorization.projectRoots.get turn'.request.roomId ≠ none ∨
          ∃ turn, s.turns.get lease = some turn ∧ turn'.request = turn.request ∧
            turn.cancelled = false ∧ turn.at_.early = false) :
    RootInv s' log where
  authorized roomId root hget := h.authorized roomId root (hroots ▸ hget)
  revoked call roomId phase hget hphase := by
    rw [hroots]
    exact h.revoked call roomId phase (hshutdowns ▸ hget) hphase
  cancelled call roomId hget := h.cancelled call roomId (hshutdowns ▸ hget)
  returned := h.returned
  early call roomId lease turn' hclosing hget hroom hnot := by
    rw [hshutdowns] at hclosing
    rcases hturns lease turn' hget hnot with
      hearly | hroot | ⟨turn, hold, hrequest, hcancelled, hlate⟩
    · exact hearly
    · rw [hroom] at hroot
      exact (hroot (h.revoked call roomId _ hclosing nofun).1).elim
    · have hearly := h.early call roomId lease turn hclosing hold (hrequest ▸ hroom) hcancelled
      rw [hlate] at hearly
      cases hearly

/-- What is said of a room lasts until one of its shutdowns returns. -/
theorem since_noReturn_snoc {e' : TurnEvent} {roomId : String} {P : List TurnEvent → Prop}
    (h : Since e' (fun back ↦ P back ∧ ∀ call, .shutdownReturned call roomId ∉ back) log)
    (hP : ∀ back, P back → P (back ++ [e])) (he : ∀ call, e ≠ .shutdownReturned call roomId) :
    Since e' (fun back ↦ P back ∧ ∀ call, .shutdownReturned call roomId ∉ back) (log ++ [e]) := by
  refine h.snoc fun back hback ↦ ⟨hP back hback.1, fun call hmem ↦ ?_⟩
  rcases List.mem_append.mp hmem with hmem | hmem
  · exact hback.2 call hmem
  · exact he call (List.mem_singleton.mp hmem).symm

theorem since_revoked_snoc {call : ℕ} {roomId : String}
    (h : Since (.revoked call roomId) (fun back ↦ .shutdownReturned call roomId ∉ back) log)
    (he : e ≠ .shutdownReturned call roomId) :
    Since (.revoked call roomId) (fun back ↦ .shutdownReturned call roomId ∉ back) (log ++ [e]) := by
  refine h.snoc fun back hback hmem ↦ ?_
  rcases List.mem_append.mp hmem with hmem | hmem
  · exact hback hmem
  · exact he (List.mem_singleton.mp hmem).symm

theorem RootInv.snoc (h : RootInv s log) (hbegan : ∀ call roomId, e ≠ .shutdownBegan call roomId)
    (hreturned : ∀ call roomId, e ≠ .shutdownReturned call roomId) : RootInv s (log ++ [e]) where
  authorized roomId root hget := by
    obtain ⟨lease, hsince⟩ := h.authorized roomId root hget
    exact ⟨lease, since_noReturn_snoc hsince (fun _ hmem ↦ List.mem_append_left _ hmem)
      fun call ↦ hreturned call roomId⟩
  revoked call roomId phase hget hphase := by
    obtain ⟨hnone, hsince⟩ := h.revoked call roomId phase hget hphase
    exact ⟨hnone, since_revoked_snoc hsince (hreturned call roomId)⟩
  cancelled call roomId hget := (h.cancelled call roomId hget).snoc (hbegan call roomId)
  returned := justified_snoc h.returned fun call roomId he ↦ (hreturned call roomId he).elim
  early := h.early

theorem TurnsInv.snoc (h : TurnsInv s log) (he : e.plain = true) : TurnsInv s (log ++ [e]) := by
  have hne : ∀ e' : TurnEvent, e'.plain = false → e ≠ e' := by
    rintro e' he' rfl
    rw [he] at he'
    cases he'
  exact ⟨h.leases.snoc (fun _ _ ↦ hne _ rfl) (fun _ ↦ hne _ rfl)
      fun _ _ _ heq ↦ (hne _ rfl heq).elim,
    h.sessions.snoc (fun _ _ ↦ hne _ rfl) fun _ _ ↦ hne _ rfl,
    h.roots.snoc (fun _ _ ↦ hne _ rfl) fun _ _ ↦ hne _ rfl⟩

end Keep

/-! ### A turn that moves -/

section Moved

variable {s t : CodexTurns} {log : List TurnEvent} {lease : ℕ} {turn : Turn} {at_ : TurnPhase}

theorem turnAt_eq_some (h : s.turnAt lease = some (turn, at_)) :
    s.turns.get lease = some turn ∧ turn.at_ = at_ := by
  obtain ⟨turn', hget, heq⟩ := Option.map_eq_some_iff.mp h
  cases heq
  exact ⟨hget, rfl⟩

theorem get_moved {other : ℕ} {turn' : Turn}
    (h : (t.moved lease turn at_).turns.get other = some turn') :
    other = lease ∧ turn' = { turn with at_ } ∨ other ≠ lease ∧ t.turns.get other = some turn' := by
  change (t.turns.set lease { turn with at_ }).get other = some turn' at h
  rw [InsertionMap.get_set] at h
  split at h
  · rename_i hother
    exact .inl ⟨hother, (Option.some.inj h).symm⟩
  · rename_i hother
    exact .inr ⟨hother, h⟩

theorem LeaseInv.moved (h : LeaseInv s log) (hturns : t.turns = s.turns)
    (hnext : t.nextTurnLeaseId = s.nextTurnLeaseId) (hget : s.turns.get lease = some turn) :
    LeaseInv (t.moved lease turn at_) log := by
  refine h.keep (fun other turn' hother ↦ ?_) hnext
  rcases get_moved hother with ⟨rfl, rfl⟩ | ⟨-, hold⟩
  · exact ⟨turn, hget, rfl, id⟩
  · exact ⟨turn', hturns ▸ hold, rfl, id⟩

theorem SessionInv.moved (h : SessionInv s log) (hturns : t.turns = s.turns)
    (hsessions : ∀ key session, t.sessions.get key = some session →
      s.sessions.get key = some session)
    (hnext : t.nextRpcSessionId = s.nextRpcSessionId) (hget : s.turns.get lease = some turn)
    (hphase : TurnPhase.Keeps turn.request.roomId turn.at_ at_) :
    SessionInv (t.moved lease turn at_) log := by
  refine h.keep (fun other turn' hother ↦ .inr ?_) hsessions hnext
  rcases get_moved hother with ⟨rfl, rfl⟩ | ⟨-, hold⟩
  · exact ⟨turn, hget, rfl, id, hphase⟩
  · exact ⟨turn', hturns ▸ hold, rfl, id, .refl _ _⟩

theorem RootInv.moved (h : RootInv s log) (hturns : t.turns = s.turns)
    (hroots : t.authorization.projectRoots = s.authorization.projectRoots)
    (hshutdowns : t.shutdowns = s.shutdowns) (hget : s.turns.get lease = some turn)
    (hearly : at_.early = true ∨ turn.at_.early = false ∨
      s.authorization.projectRoots.get turn.request.roomId ≠ none) :
    RootInv (t.moved lease turn at_) log := by
  refine h.keep hroots hshutdowns fun other turn' hother hnot ↦ ?_
  rcases get_moved hother with ⟨rfl, rfl⟩ | ⟨-, hold⟩
  · rcases hearly with hearly | hlate | hroot
    · exact .inl hearly
    · exact .inr (.inr ⟨turn, hget, rfl, hnot, hlate⟩)
    · exact .inr (.inl hroot)
  · cases hlate : turn'.at_.early with
    | true => exact .inl rfl
    | false => exact .inr (.inr ⟨turn', hturns ▸ hold, rfl, hnot, hlate⟩)

/-- A turn fails, with the confirmation open or closed. -/
theorem TurnsInv.fail {authorization : CodexAuthorizationState} (h : TurnsInv s log)
    (hroots : authorization.projectRoots = s.authorization.projectRoots)
    (hget : s.turns.get lease = some turn) (message : String) :
    TurnsInv ({ s with authorization }.fail lease turn message).1
      (log ++ ({ s with authorization }.fail lease turn message).2) :=
  TurnsInv.snoc ⟨h.leases.moved rfl rfl hget,
    h.sessions.moved rfl (fun _ _ h ↦ h) rfl hget (.of_none rfl rfl),
    h.roots.moved rfl hroots rfl hget (.inl rfl)⟩ rfl

end Moved

/-! ### What each step keeps -/

namespace TurnsInv

variable {s : CodexTurns} {log : List TurnEvent} {lease call : ℕ}

theorem begin {request : CodexTurnRequest} (h : TurnsInv s log) :
    TurnsInv (s.begin request).1 (log ++ (s.begin request).2) := by
  unfold CodexTurns.begin
  split
  · exact h.snoc rfl
  split
  · have hleases : LeaseInv { s with nextTurnLeaseId := s.nextTurnLeaseId + 1 } log :=
      { h.leases with
        fresh := fun lease roomId hbegan ↦ Nat.lt_succ_of_lt (h.leases.fresh lease roomId hbegan)
        known := fun lease turn hget ↦ Nat.lt_succ_of_lt (h.leases.known lease turn hget) }
    exact TurnsInv.snoc ⟨hleases, { h.sessions with }, { h.roots with }⟩ rfl
  rename_i hfree
  have hnew : ∀ roomId, .began s.nextTurnLeaseId roomId ∉ log := fun roomId hmem ↦
    Nat.lt_irrefl _ (h.leases.fresh _ roomId hmem)
  have hidle : ∀ lease turn, s.turns.get lease = some turn → turn.cancelled = false →
      turn.request.roomId ≠ request.roomId := by
    intro lease turn hget hnot hroom
    refine hfree (List.any_eq_true.mpr ⟨turn, InsertionMap.mem_values_iff.mpr ⟨lease, hget⟩, ?_⟩)
    simp [hnot, hroom]
  have hturns : ∀ lease turn, (s.turns.set s.nextTurnLeaseId { request }).get lease = some turn →
      lease = s.nextTurnLeaseId ∧ turn = { request } ∨
        lease ≠ s.nextTurnLeaseId ∧ s.turns.get lease = some turn := by
    intro lease turn hget
    rw [InsertionMap.get_set] at hget
    split at hget
    · rename_i hlease
      exact .inl ⟨hlease, (Option.some.inj hget).symm⟩
    · rename_i hlease
      exact .inr ⟨hlease, hget⟩
  have hbegan : ∀ lease roomId, .began lease roomId ∈ log ++ [.began s.nextTurnLeaseId
      request.roomId] → .began lease roomId ∈ log ∨
        lease = s.nextTurnLeaseId ∧ roomId = request.roomId := by
    intro lease roomId hmem
    rcases List.mem_append.mp hmem with hmem | hmem
    · exact .inl hmem
    · cases List.mem_singleton.mp hmem
      exact .inr ⟨rfl, rfl⟩
  refine ⟨⟨?_, ?_, ?_, ?_, ?_, ?_⟩, ?_, ?_⟩
  · intro lease roomId hmem
    rcases hbegan lease roomId hmem with hmem | ⟨rfl, -⟩
    · exact Nat.lt_succ_of_lt (h.leases.fresh lease roomId hmem)
    · exact Nat.lt_succ_self _
  · intro lease turn hget
    rcases hturns lease turn hget with ⟨rfl, -⟩ | ⟨-, hold⟩
    · exact Nat.lt_succ_self _
    · exact Nat.lt_succ_of_lt (h.leases.known lease turn hold)
  · intro lease turn roomId hget hmem
    rcases hturns lease turn hget with ⟨rfl, rfl⟩ | ⟨hne, hold⟩
    · exact (hbegan _ roomId hmem).elim (fun hmem ↦ (hnew roomId hmem).elim) And.right
    · exact (hbegan lease roomId hmem).elim (h.leases.room lease turn roomId hold)
        fun heq ↦ (hne heq.1).elim
  · intro lease turn roomId hget hnot hbefore
    rcases before_snoc_iff.mp hbefore with hbefore | ⟨-, he⟩
    · rcases hturns lease turn hget with ⟨rfl, -⟩ | ⟨-, hold⟩
      · exact hnew roomId hbefore.mem_left
      · exact h.leases.uncancelled lease turn roomId hold hnot hbefore
    · cases he
  · intro lease lease' turn turn' hget hget' hroom hnot hnot'
    rcases hturns lease turn hget with ⟨rfl, rfl⟩ | ⟨-, hold⟩
    · rcases hturns lease' turn' hget' with ⟨rfl, -⟩ | ⟨-, hold'⟩
      · rfl
      · exact (hidle lease' turn' hold' hnot' hroom.symm).elim
    · rcases hturns lease' turn' hget' with ⟨rfl, rfl⟩ | ⟨-, hold'⟩
      · exact (hidle lease turn hold hnot hroom).elim
      · exact h.leases.oneTurn lease lease' turn turn' hold hold' hroom hnot hnot'
  · exact justified_snoc h.leases.checkedIn (by simp)
  · refine SessionInv.snoc (h.sessions.keep (fun lease turn hget ↦ ?_) (fun _ _ h ↦ h) rfl)
        (by simp) (by simp)
    rcases hturns lease turn hget with ⟨-, rfl⟩ | ⟨-, hold⟩
    · exact .inl ⟨rfl, rfl⟩
    · exact .inr ⟨turn, hold, rfl, id, .refl _ _⟩
  · refine RootInv.snoc (h.roots.keep rfl rfl fun lease turn hget hnot ↦ ?_) (by simp) (by simp)
    rcases hturns lease turn hget with ⟨-, rfl⟩ | ⟨-, hold⟩
    · exact .inl rfl
    · cases hlate : turn.at_.early with
      | true => exact .inl rfl
      | false => exact .inr (.inr ⟨turn, hold, rfl, hnot, hlate⟩)

/-- A turn goes on by itself when the room has its root. -/
theorem classify {fs : FileSystem} (h : TurnsInv s log) :
    TurnsInv (s.classify lease fs).1 (log ++ (s.classify lease fs).2) := by
  unfold CodexTurns.classify
  split
  · rename_i turn hat
    obtain ⟨hget, -⟩ := turnAt_eq_some hat
    split
    · exact h.fail rfl hget _
    · exact h.fail rfl hget _
    rename_i profile _ _
    split
    · exact h.fail rfl hget _
    · rename_i root hclassify
      rw [List.append_nil]
      refine ⟨h.leases.moved rfl rfl hget, h.sessions.moved rfl (fun _ _ h ↦ h) rfl hget
        (.of_none rfl rfl), h.roots.moved rfl rfl rfl hget (.inr (.inr ?_))⟩
      unfold CodexAuthorizationState.classifyProjectRoot at hclassify
      split at hclassify
      · cases hclassify
      · cases hclassify
      split at hclassify
      · rename_i hroot
        rw [hroot]
        simp
      · cases hclassify
    · rw [List.append_nil]
      exact ⟨h.leases.moved rfl rfl hget, h.sessions.moved rfl (fun _ _ h ↦ h) rfl hget
        (.of_none rfl rfl), h.roots.moved rfl rfl rfl hget (.inl rfl)⟩
  · simpa using h

theorem openDialog (h : TurnsInv s log) :
    TurnsInv (s.openDialog lease).1 (log ++ (s.openDialog lease).2) := by
  unfold CodexTurns.openDialog
  split
  · rename_i turn root profile hat
    obtain ⟨hget, -⟩ := turnAt_eq_some hat
    split
    · exact h.fail rfl hget _
    rename_i authorization hbegin
    obtain ⟨-, rfl⟩ := CodexAuthorizationState.beginConfirmation_eq_ok hbegin
    exact TurnsInv.snoc ⟨h.leases.moved rfl rfl hget, h.sessions.moved rfl (fun _ _ h ↦ h) rfl hget
      (.of_none rfl rfl), h.roots.moved rfl rfl rfl hget (.inl rfl)⟩ rfl
  · simpa using h

theorem closeDialog {result : Except String Bool} (h : TurnsInv s log) :
    TurnsInv (s.closeDialog lease result).1 (log ++ (s.closeDialog lease result).2) := by
  unfold CodexTurns.closeDialog
  split
  · rename_i turn root profile hat
    obtain ⟨hget, -⟩ := turnAt_eq_some hat
    split
    · exact h.fail rfl hget _
    · rename_i authorization error hfinish
      exact h.fail (CodexAuthorizationState.finishConfirmation_roots hfinish) hget _
    · rename_i authorization hfinish
      exact h.fail (CodexAuthorizationState.finishConfirmation_roots hfinish) hget _
    · rename_i authorization hfinish
      rw [List.append_nil]
      exact ⟨h.leases.moved rfl rfl hget, h.sessions.moved rfl (fun _ _ h ↦ h) rfl hget
        (.of_none rfl rfl), h.roots.moved rfl
          (CodexAuthorizationState.finishConfirmation_roots hfinish) rfl hget (.inl rfl)⟩
  · simpa using h

/-- **An authorization** is of a dialog that no shutdown has come after. -/
theorem authorize {fs : FileSystem} (h : TurnsInv s log)
    (hfresh : Justified FreshlyConfirmed (log ++ (s.authorize lease fs).2)) :
    TurnsInv (s.authorize lease fs).1 (log ++ (s.authorize lease fs).2) := by
  unfold CodexTurns.authorize at hfresh ⊢
  split
  · rename_i turn root profile hat
    obtain ⟨hget, -⟩ := turnAt_eq_some hat
    split
    · exact h.fail rfl hget _
    rename_i canonical authorization hauthorize
    simp only [hat, hauthorize] at hfresh
    obtain ⟨hasked, hnone⟩ := hfresh log _ [] rfl lease turn.request.roomId rfl
    obtain ⟨given, hroots⟩ := CodexAuthorizationState.authorizeProjectRoot_eq_ok hauthorize
    refine ⟨LeaseInv.snoc (h.leases.moved rfl rfl hget) nofun nofun nofun,
      SessionInv.snoc (h.sessions.moved rfl (fun _ _ h ↦ h) rfl hget (.of_none rfl rfl)) nofun nofun,
      ⟨fun roomId root' hroot ↦ ?_, fun call roomId phase hshutdown hphase ↦ ?_,
        fun call roomId hclosing ↦ (h.roots.cancelled call roomId hclosing).snoc nofun,
        justified_snoc h.roots.returned nofun,
        fun call roomId other turn' hclosing hother hroom hnot ↦ ?_⟩⟩
    · change authorization.projectRoots.get roomId = some root' at hroot
      by_cases hroom : roomId = turn.request.roomId
      · subst hroom
        exact ⟨lease, Since.snoc hasked fun back hback ↦ ⟨by simp, by simpa using hback⟩⟩
      · rw [hroots, InsertionMap.get_set_of_ne _ _ hroom] at hroot
        obtain ⟨other, hsince⟩ := h.roots.authorized roomId root' hroot
        exact ⟨other, since_noReturn_snoc hsince (fun _ hmem ↦ List.mem_append_left _ hmem) nofun⟩
    · obtain ⟨hold, hsince⟩ := h.roots.revoked call roomId phase hshutdown hphase
      have hroom : roomId ≠ turn.request.roomId := by
        rintro rfl
        exact hnone ⟨call, hsince⟩
      refine ⟨?_, since_revoked_snoc hsince nofun⟩
      change authorization.projectRoots.get roomId = none
      rw [hroots, InsertionMap.get_set_of_ne _ _ hroom, hold]
    · rcases get_moved hother with ⟨rfl, rfl⟩ | ⟨-, hold⟩
      · obtain ⟨-, hsince⟩ := h.roots.revoked call roomId _ hclosing nofun
        exact (hnone ⟨call, hroom ▸ hsince⟩).elim
      · exact h.roots.early call roomId other turn' hclosing hold hroom hnot
  · simpa using h

/-- The sessions of a room are closed. -/
theorem get_closeRoomSessions {roomId : String} {key : CodexServerKey}
    {session : CodexServerSession}
    (hget : (s.closeRoomSessions roomId).sessions.get key = some session) :
    key.roomId ≠ roomId ∧ s.sessions.get key = some session := by
  change (s.sessions.filter fun key _ ↦ key.roomId != roomId).get key = some session at hget
  rw [InsertionMap.get_filter, Option.filter_eq_some_iff] at hget
  exact ⟨by simpa using hget.2, hget.1⟩

theorem close (h : TurnsInv s log) :
    TurnsInv (s.close lease).1 (log ++ (s.close lease).2) := by
  unfold CodexTurns.close
  split
  · rename_i turn root profile hat
    obtain ⟨hget, hphase⟩ := turnAt_eq_some hat
    rw [List.append_nil]
    exact ⟨h.leases.moved rfl rfl hget, h.sessions.moved rfl
      (fun _ _ hsession ↦ (get_closeRoomSessions hsession).2) rfl hget (.of_none rfl rfl),
      h.roots.moved rfl rfl rfl hget (.inr (.inl (by rw [hphase]; rfl)))⟩
  · simpa using h

theorem check (h : TurnsInv s log) :
    TurnsInv (s.check lease).1 (log ++ (s.check lease).2) := by
  unfold CodexTurns.check
  split
  · rename_i turn root profile hat
    obtain ⟨hget, hphase⟩ := turnAt_eq_some hat
    split
    · exact h.fail rfl hget _
    · rw [List.append_nil]
      refine ⟨h.leases.moved rfl rfl hget, h.sessions.moved rfl (fun _ _ h ↦ h) rfl hget
        ⟨nofun, fun key hkey ↦ .inr ?_⟩,
        h.roots.moved rfl rfl rfl hget (.inr (.inl (by rw [hphase]; rfl)))⟩
      cases hkey
      rfl
  · simpa using h

/-- A turn goes on with the key and the session that it has. -/
theorem goesOn {turn : Turn} {at_ : TurnPhase} {t : CodexTurns} (h : TurnsInv s log)
    (hget : s.turns.get lease = some turn) (hlate : turn.at_.early = false)
    (hturns : t.turns = s.turns) (hlease : t.nextTurnLeaseId = s.nextTurnLeaseId)
    (hsessions : ∀ key session, t.sessions.get key = some session →
      s.sessions.get key = some session)
    (hnext : t.nextRpcSessionId = s.nextRpcSessionId) (hroots : t.authorization = s.authorization)
    (hshutdowns : t.shutdowns = s.shutdowns)
    (hphase : TurnPhase.Keeps turn.request.roomId turn.at_ at_) :
    TurnsInv (t.moved lease turn at_) log :=
  ⟨h.leases.moved hturns hlease hget, h.sessions.moved hturns hsessions hnext hget hphase,
    h.roots.moved hturns (by rw [hroots]) hshutdowns hget (.inr (.inl hlate))⟩

theorem prune {now : ℕ} (h : TurnsInv s log) :
    TurnsInv (s.prune lease now).1 (log ++ (s.prune lease now).2) := by
  unfold CodexTurns.prune
  split
  · rename_i turn key hat
    obtain ⟨hget, hphase⟩ := turnAt_eq_some hat
    rw [List.append_nil]
    refine h.goesOn hget (by rw [hphase]; rfl) rfl rfl (fun key session hsession ↦ ?_) rfl rfl rfl
      ⟨nofun, fun key hkey ↦ .inl (by rw [hphase]; exact hkey)⟩
    change (s.sessions.filter _).get key = some session at hsession
    rw [InsertionMap.get_filter, Option.filter_eq_some_iff] at hsession
    exact hsession.1
  · simpa using h

/-- **A cached session** goes to one turn, and leaves the cache. -/
theorem checkout {alive : Bool} (h : TurnsInv s log) :
    TurnsInv (s.checkout lease alive).1 (log ++ (s.checkout lease alive).2) := by
  unfold CodexTurns.checkout
  split
  · rename_i turn key hat
    obtain ⟨hget, hphase⟩ := turnAt_eq_some hat
    have hlate : turn.at_.early = false := by rw [hphase]; rfl
    have hkey : key.roomId = turn.request.roomId :=
      h.sessions.key lease turn key hget (by rw [hphase]; rfl)
    have hrest : ∀ key' session, (s.sessions.delete key).get key' = some session →
        key' ≠ key ∧ s.sessions.get key' = some session := by
      intro key' session hsession
      rw [InsertionMap.get_delete] at hsession
      split at hsession
      · cases hsession
      · rename_i hne
        exact ⟨hne, hsession⟩
    dsimp only
    split
    · rename_i session hsession
      refine TurnsInv.snoc ⟨h.leases.moved rfl rfl hget, ⟨h.sessions.fresh, ?_, ?_, ?_, ?_, ?_, ?_,
        ?_, ?_⟩, h.roots.moved rfl rfl rfl hget (.inr (.inl hlate))⟩ rfl
      · exact fun key' session' hget' ↦ h.sessions.cached key' session' (hrest _ _ hget').2
      · intro other turn' session' hother hhas
        rcases get_moved hother with ⟨rfl, rfl⟩ | ⟨-, hold⟩
        · cases hhas
          exact h.sessions.cached key session hsession
        · exact h.sessions.held other turn' session' hold hhas
      · intro other turn' key' hother hhas
        rcases get_moved hother with ⟨rfl, rfl⟩ | ⟨-, hold⟩
        · cases hhas
          exact hkey
        · exact h.sessions.key other turn' key' hold hhas
      · exact fun key' key'' _ _ hget' hget'' ↦
          h.sessions.oneKey key' key'' _ _ (hrest _ _ hget').2 (hrest _ _ hget'').2
      · intro other other' turn' turn'' session' session'' hother hother' hhas hhas' hid
        rcases get_moved hother with ⟨rfl, rfl⟩ | ⟨-, hold⟩
        · rcases get_moved hother' with ⟨rfl, rfl⟩ | ⟨-, hold'⟩
          · rfl
          · cases hhas
            exact (h.sessions.notShared other' turn'' session'' key session hold' hhas' hsession
              hid.symm).elim
        · rcases get_moved hother' with ⟨rfl, rfl⟩ | ⟨-, hold'⟩
          · cases hhas'
            exact (h.sessions.notShared other turn' session' key session hold hhas hsession hid).elim
          · exact h.sessions.oneUser other other' turn' turn'' session' session'' hold hold' hhas
              hhas' hid
      · intro other turn' session' key' cached hother hhas hcached hid
        obtain ⟨hne, hkept⟩ := hrest key' cached hcached
        rcases get_moved hother with ⟨rfl, rfl⟩ | ⟨-, hold⟩
        · cases hhas
          exact hne (h.sessions.oneKey key' key cached session hkept hsession hid.symm)
        · exact h.sessions.notShared other turn' session' key' cached hold hhas hkept hid
      · exact fun key' session' lease call hget' ↦
          h.sessions.cachedLate key' session' lease call (hrest _ _ hget').2
      · intro other turn' session' lease' call hother hhas hnot
        rcases get_moved hother with ⟨rfl, rfl⟩ | ⟨-, hold⟩
        · cases hhas
          rw [← hkey]
          exact h.sessions.cachedLate key session lease' call hsession
        · exact h.sessions.heldLate other turn' session' lease' call hold hhas hnot
    · rw [List.append_nil]
      exact h.goesOn hget hlate rfl rfl (fun _ _ hsession ↦ (hrest _ _ hsession).2) rfl rfl rfl
        ⟨fun _ hhas ↦ (by cases hhas), fun key hkey ↦ .inl (by rw [hphase]; exact hkey)⟩
  · simpa using h

/-- A session that is started is new. -/
theorem launch {now : ℕ} (h : TurnsInv s log) :
    TurnsInv (s.launch lease now).1 (log ++ (s.launch lease now).2) := by
  unfold CodexTurns.launch
  split
  · rename_i turn key hat
    obtain ⟨hget, hphase⟩ := turnAt_eq_some hat
    have hkey : key.roomId = turn.request.roomId :=
      h.sessions.key lease turn key hget (by rw [hphase]; rfl)
    have hnew : ∀ lease, .started lease s.nextRpcSessionId ∉ log := fun lease hmem ↦
      Nat.lt_irrefl _ (h.sessions.fresh lease _ hmem)
    refine ⟨LeaseInv.snoc (h.leases.moved rfl rfl hget) nofun nofun nofun,
      ⟨?_, ?_, ?_, ?_, h.sessions.oneKey, ?_, ?_, ?_, ?_⟩,
      RootInv.snoc (h.roots.moved rfl rfl rfl hget (.inr (.inl (by rw [hphase]; rfl)))) nofun nofun⟩
    · intro other session hmem
      rcases List.mem_append.mp hmem with hmem | hmem
      · exact Nat.lt_succ_of_lt (h.sessions.fresh other session hmem)
      · cases List.mem_singleton.mp hmem
        exact Nat.lt_succ_self _
    · exact fun key session hget ↦ Nat.lt_succ_of_lt (h.sessions.cached key session hget)
    · intro other turn' session hother hhas
      rcases get_moved hother with ⟨rfl, rfl⟩ | ⟨-, hold⟩
      · cases hhas
        exact Nat.lt_succ_self _
      · exact Nat.lt_succ_of_lt (h.sessions.held other turn' session hold hhas)
    · intro other turn' key' hother hhas
      rcases get_moved hother with ⟨rfl, rfl⟩ | ⟨-, hold⟩
      · cases hhas
        exact hkey
      · exact h.sessions.key other turn' key' hold hhas
    · intro other other' turn' turn'' session' session'' hother hother' hhas hhas' hid
      rcases get_moved hother with ⟨rfl, rfl⟩ | ⟨-, hold⟩
      · rcases get_moved hother' with ⟨rfl, rfl⟩ | ⟨-, hold'⟩
        · rfl
        · cases hhas
          exact (Nat.ne_of_lt (h.sessions.held other' turn'' session'' hold' hhas') hid.symm).elim
      · rcases get_moved hother' with ⟨rfl, rfl⟩ | ⟨-, hold'⟩
        · cases hhas'
          exact (Nat.ne_of_lt (h.sessions.held other turn' session' hold hhas) hid).elim
        · exact h.sessions.oneUser other other' turn' turn'' session' session'' hold hold' hhas
            hhas' hid
    · intro other turn' session' key' cached hother hhas hcached hid
      rcases get_moved hother with ⟨rfl, rfl⟩ | ⟨-, hold⟩
      · cases hhas
        exact Nat.ne_of_lt (h.sessions.cached key' cached hcached) hid.symm
      · exact h.sessions.notShared other turn' session' key' cached hold hhas hcached hid
    · intro key' session other call hget' hbefore
      rcases before_snoc_iff.mp hbefore with hbefore | ⟨-, he⟩
      · exact h.sessions.cachedLate key' session other call hget' hbefore
      · cases he
    · intro other turn' session lease' call hother hhas hnot hbefore
      rcases before_snoc_iff.mp hbefore with hearlier | ⟨-, he⟩
      · rcases get_moved hother with ⟨rfl, rfl⟩ | ⟨-, hold⟩
        · cases hhas
          exact hnew lease' hearlier.mem_left
        · exact h.sessions.heldLate other turn' session lease' call hold hhas hnot hearlier
      · cases he
  · simpa using h

theorem initialized {result : Except String Unit} (h : TurnsInv s log) :
    TurnsInv (s.initialized lease result).1 (log ++ (s.initialized lease result).2) := by
  unfold CodexTurns.initialized
  split
  · rename_i turn _ _ _ hat
    exact h.fail rfl (turnAt_eq_some hat).1 _
  · rename_i turn key session _ hat
    obtain ⟨hget, hphase⟩ := turnAt_eq_some hat
    rw [List.append_nil]
    exact h.goesOn hget (by rw [hphase]; rfl) rfl rfl (fun _ _ h ↦ h) rfl rfl rfl
      ⟨fun session' hhas ↦ ⟨session', by rw [hphase]; exact hhas, rfl⟩,
        fun key hkey ↦ .inl (by rw [hphase]; exact hkey)⟩
  · simpa using h

theorem finish {reusable : Bool} {now : ℕ} (h : TurnsInv s log) :
    TurnsInv (s.finish lease reusable now).1 (log ++ (s.finish lease reusable now).2) := by
  unfold CodexTurns.finish
  split
  · rename_i turn key session hat
    obtain ⟨hget, hphase⟩ := turnAt_eq_some hat
    rw [List.append_nil]
    refine h.goesOn hget (by rw [hphase]; rfl) rfl rfl (fun _ _ h ↦ h) rfl rfl rfl ?_
    cases reusable with
    | false => exact .of_none rfl rfl
    | true =>
      refine ⟨fun session' hhas ↦ ⟨session, by rw [hphase]; rfl, ?_⟩,
        fun key hkey ↦ .inl (by rw [hphase]; exact hkey)⟩
      cases hhas
      rfl
  · simpa using h

/-- **A session goes back** only from a turn that began after the last cancellation. -/
theorem checkin (h : TurnsInv s log) :
    TurnsInv (s.checkin lease).1 (log ++ (s.checkin lease).2) := by
  unfold CodexTurns.checkin
  split
  · rename_i turn key session hat
    obtain ⟨hget, hphase⟩ := turnAt_eq_some hat
    have hlate : turn.at_.early = false := by rw [hphase]; rfl
    have hhas : turn.at_.session = some session := by rw [hphase]; rfl
    have hkey : key.roomId = turn.request.roomId :=
      h.sessions.key lease turn key hget (by rw [hphase]; rfl)
    split
    · rw [List.append_nil]
      exact h.goesOn hget hlate rfl rfl (fun _ _ h ↦ h) rfl rfl rfl (.of_none rfl rfl)
    rename_i hnot
    have hnot : turn.cancelled = false := by simpa using hnot
    have hcached : ∀ key' session', (s.sessions.set key session).get key' = some session' →
        key' = key ∧ session' = session ∨ key' ≠ key ∧ s.sessions.get key' = some session' := by
      intro key' session' hsession
      rw [InsertionMap.get_set] at hsession
      split at hsession
      · rename_i heq
        exact .inl ⟨heq, (Option.some.inj hsession).symm⟩
      · rename_i hne
        exact .inr ⟨hne, hsession⟩
    -- The other turns have what they had, and this one has nothing more.
    have hothers : ∀ other turn', ({ s with sessions := s.sessions.set key session }.moved lease turn
        .leaving).turns.get other = some turn' → turn'.at_ = .leaving ∨
          other ≠ lease ∧ s.turns.get other = some turn' := by
      intro other turn' hother
      rcases get_moved hother with ⟨-, rfl⟩ | hold
      · exact .inl rfl
      · exact .inr hold
    refine ⟨LeaseInv.snoc (h.leases.moved rfl rfl hget) (by simp) (by simp) ?_, SessionInv.snoc
      ⟨h.sessions.fresh, ?_, ?_, ?_, ?_, ?_, ?_, ?_, ?_⟩ (by simp) (by simp),
      RootInv.snoc (h.roots.moved rfl rfl rfl hget (.inl rfl)) (by simp) (by simp)⟩
    · rintro _ _ roomId heq
      cases heq
      exact h.leases.uncancelled lease turn roomId hget hnot
    · intro key' session' hget'
      rcases hcached key' session' hget' with ⟨-, rfl⟩ | ⟨-, hold⟩
      · exact h.sessions.held lease turn session' hget hhas
      · exact h.sessions.cached key' session' hold
    · intro other turn' session' hother hhas'
      rcases hothers other turn' hother with hleaving | ⟨-, hold⟩
      · rw [hleaving] at hhas'
        cases hhas'
      · exact h.sessions.held other turn' session' hold hhas'
    · intro other turn' key' hother hkey'
      rcases hothers other turn' hother with hleaving | ⟨-, hold⟩
      · rw [hleaving] at hkey'
        cases hkey'
      · exact h.sessions.key other turn' key' hold hkey'
    · intro key' key'' session' session'' hget' hget'' hid
      rcases hcached key' session' hget' with ⟨rfl, rfl⟩ | ⟨-, hold⟩
      · rcases hcached key'' session'' hget'' with ⟨rfl, -⟩ | ⟨-, hold'⟩
        · rfl
        · exact (h.sessions.notShared lease turn session' key'' session'' hget hhas hold' hid).elim
      · rcases hcached key'' session'' hget'' with ⟨rfl, rfl⟩ | ⟨-, hold'⟩
        · exact (h.sessions.notShared lease turn session'' key' session' hget hhas hold hid.symm).elim
        · exact h.sessions.oneKey key' key'' session' session'' hold hold' hid
    · intro other other' turn' turn'' session' session'' hother hother' hhas' hhas'' hid
      rcases hothers other turn' hother with hleaving | ⟨-, hold⟩
      · rw [hleaving] at hhas'
        cases hhas'
      · rcases hothers other' turn'' hother' with hleaving | ⟨-, hold'⟩
        · rw [hleaving] at hhas''
          cases hhas''
        · exact h.sessions.oneUser other other' turn' turn'' session' session'' hold hold' hhas'
            hhas'' hid
    · intro other turn' session' key' cached hother hhas' hget' hid
      rcases hothers other turn' hother with hleaving | ⟨hne, hold⟩
      · rw [hleaving] at hhas'
        cases hhas'
      · rcases hcached key' cached hget' with ⟨-, rfl⟩ | ⟨-, hold'⟩
        · exact hne (h.sessions.oneUser other lease turn' turn session' cached hold hget hhas' hhas hid)
        · exact h.sessions.notShared other turn' session' key' cached hold hhas' hold' hid
    · intro key' session' other call hget'
      rcases hcached key' session' hget' with ⟨rfl, rfl⟩ | ⟨-, hold⟩
      · rw [hkey]
        exact h.sessions.heldLate lease turn session' other call hget hhas hnot
      · exact h.sessions.cachedLate key' session' other call hold
    · intro other turn' session' lease' call hother hhas' hnot'
      rcases hothers other turn' hother with hleaving | ⟨-, hold⟩
      · rw [hleaving] at hhas'
        cases hhas'
      · exact h.sessions.heldLate other turn' session' lease' call hold hhas' hnot'
  · simpa using h

theorem leave (h : TurnsInv s log) :
    TurnsInv (s.leave lease).1 (log ++ (s.leave lease).2) := by
  unfold CodexTurns.leave
  split
  · have hturns : ∀ other turn, (s.turns.delete lease).get other = some turn →
        s.turns.get other = some turn := by
      intro other turn hget
      rw [InsertionMap.get_delete] at hget
      split at hget
      · cases hget
      · exact hget
    refine TurnsInv.snoc ⟨h.leases.keep (fun other turn hget ↦ ⟨turn, hturns _ _ hget, rfl, id⟩) rfl,
      h.sessions.keep (fun other turn hget ↦ .inr ⟨turn, hturns _ _ hget, rfl, id, .refl _ _⟩)
        (fun _ _ h ↦ h) rfl, h.roots.keep rfl rfl fun other turn hget hnot ↦ ?_⟩ rfl
    cases hlate : turn.at_.early with
    | true => exact .inl rfl
    | false => exact .inr (.inr ⟨turn, hturns _ _ hget, rfl, hnot, hlate⟩)
  · simpa using h

theorem shutdown {roomId : String} (h : TurnsInv s log) :
    TurnsInv (s.shutdown call roomId).1 (log ++ (s.shutdown call roomId).2) := by
  unfold CodexTurns.shutdown
  split
  · exact h.snoc rfl
  have hothers : ∀ other at_, (s.shutdowns.set call (roomId, .revoking)).get other = some at_ →
      at_ = (roomId, .revoking) ∨ other ≠ call ∧ s.shutdowns.get other = some at_ := by
    intro other at_ hget
    rw [InsertionMap.get_set] at hget
    split at hget
    · exact .inl (Option.some.inj hget).symm
    · rename_i hne
      exact .inr ⟨hne, hget⟩
  refine ⟨LeaseInv.snoc { h.leases with } (by simp) (by simp) (by simp),
    SessionInv.snoc { h.sessions with } (by simp) (by simp),
    ⟨fun room root hget ↦ ?_, fun other room phase hget hphase ↦ ?_, fun other room hget ↦ ?_,
      justified_snoc h.roots.returned (by simp), fun other room lease turn hget ↦ ?_⟩⟩
  · obtain ⟨lease, hsince⟩ := h.roots.authorized room root hget
    exact ⟨lease, since_noReturn_snoc hsince (fun _ hmem ↦ List.mem_append_left _ hmem) (by simp)⟩
  · rcases hothers other _ hget with heq | ⟨-, hold⟩
    · cases heq
      exact (hphase rfl).elim
    · obtain ⟨hnone, hsince⟩ := h.roots.revoked other room phase hold hphase
      exact ⟨hnone, since_revoked_snoc hsince (by simp)⟩
  · rcases hothers other _ hget with heq | ⟨hne, hold⟩
    · cases heq
    · refine (h.roots.cancelled other room hold).snoc fun he ↦ ?_
      cases he
      exact hne rfl
  · rcases hothers other _ hget with heq | ⟨-, hold⟩
    · cases heq
    · exact h.roots.early other room lease turn hold

theorem revoke (h : TurnsInv s log) :
    TurnsInv (s.revoke call).1 (log ++ (s.revoke call).2) := by
  unfold CodexTurns.revoke
  split
  · rename_i roomId hcall
    split
    · -- Only a text that is no room id fails, and then nothing was begun.
      refine TurnsInv.snoc ⟨{ h.leases with }, { h.sessions with }, ?_⟩ rfl
      have hothers : ∀ other at_, (s.shutdowns.delete call).get other = some at_ →
          s.shutdowns.get other = some at_ := by
        intro other at_ hget
        rw [InsertionMap.get_delete] at hget
        split at hget
        · cases hget
        · exact hget
      exact ⟨h.roots.authorized, fun other room phase hget ↦ h.roots.revoked other room phase
        (hothers _ _ hget), fun other room hget ↦ h.roots.cancelled other room (hothers _ _ hget),
        h.roots.returned, fun other room lease turn hget ↦ h.roots.early other room lease turn
        (hothers _ _ hget)⟩
    rename_i had authorization hrevoke
    have hroots := CodexAuthorizationState.revokeProjectRoot_eq_ok hrevoke
    have hothers : ∀ other at_, (s.shutdowns.set call (roomId, .cancelling)).get other = some at_ →
        other = call ∧ at_ = (roomId, .cancelling) ∨
          other ≠ call ∧ s.shutdowns.get other = some at_ := by
      intro other at_ hget
      rw [InsertionMap.get_set] at hget
      split at hget
      · rename_i heq
        exact .inl ⟨heq, (Option.some.inj hget).symm⟩
      · rename_i hne
        exact .inr ⟨hne, hget⟩
    refine ⟨LeaseInv.snoc { h.leases with } (by simp) (by simp) (by simp),
      SessionInv.snoc { h.sessions with } (by simp) (by simp),
      ⟨fun room root hget ↦ ?_, fun other room phase hget hphase ↦ ?_, fun other room hget ↦ ?_,
        justified_snoc h.roots.returned (by simp), fun other room lease turn hget ↦ ?_⟩⟩
    · change authorization.projectRoots.get room = some root at hget
      rw [hroots, InsertionMap.get_delete] at hget
      split at hget
      · cases hget
      · obtain ⟨lease, hsince⟩ := h.roots.authorized room root hget
        exact ⟨lease, since_noReturn_snoc hsince (fun _ hmem ↦ List.mem_append_left _ hmem) (by simp)⟩
    · change authorization.projectRoots.get room = none ∧ _
      rw [hroots]
      rcases hothers other _ hget with ⟨rfl, heq⟩ | ⟨-, hold⟩
      · cases heq
        exact ⟨InsertionMap.get_delete_self _ _, since_snoc_self (by simp)⟩
      · obtain ⟨hnone, hsince⟩ := h.roots.revoked other room phase hold hphase
        refine ⟨?_, since_revoked_snoc hsince (by simp)⟩
        rw [InsertionMap.get_delete, hnone]
        split <;> rfl
    · rcases hothers other _ hget with ⟨-, heq⟩ | ⟨-, hold⟩
      · cases heq
      · exact (h.roots.cancelled other room hold).snoc (by simp)
    · rcases hothers other _ hget with ⟨-, heq⟩ | ⟨-, hold⟩
      · cases heq
      · exact h.roots.early other room lease turn hold
  · simpa using h

/-- **Every turn of the room is cancelled**, whatever it is at. -/
theorem cancelTurns (h : TurnsInv s log) :
    TurnsInv (s.cancelTurns call).1 (log ++ (s.cancelTurns call).2) := by
  unfold CodexTurns.cancelTurns
  split
  · rename_i roomId hcall
    have hturns : ∀ lease turn', (s.turns.mapValues fun _ turn ↦ if turn.request.roomId = roomId then
        { turn with cancelled := true } else turn).get lease = some turn' →
          ∃ turn, s.turns.get lease = some turn ∧ turn'.request = turn.request ∧
            (turn'.cancelled = false → turn.cancelled = false) ∧ turn'.at_ = turn.at_ ∧
              (turn.request.roomId = roomId → turn'.cancelled = true) := by
      intro lease turn' hget
      rw [InsertionMap.get_mapValues] at hget
      obtain ⟨turn, hold, heq⟩ := Option.map_eq_some_iff.mp hget
      refine ⟨turn, hold, ?_⟩
      by_cases hroom : turn.request.roomId = roomId
      · rw [if_pos hroom] at heq
        subst heq
        exact ⟨rfl, (by simp), rfl, fun _ ↦ rfl⟩
      · rw [if_neg hroom] at heq
        subst heq
        exact ⟨rfl, id, rfl, fun h ↦ (hroom h).elim⟩
    have hothers : ∀ other at_, (s.shutdowns.set call (roomId, .closing)).get other = some at_ →
        other = call ∧ at_ = (roomId, .closing) ∨
          other ≠ call ∧ s.shutdowns.get other = some at_ := by
      intro other at_ hget
      rw [InsertionMap.get_set] at hget
      split at hget
      · rename_i heq
        exact .inl ⟨heq, (Option.some.inj hget).symm⟩
      · rename_i hne
        exact .inr ⟨hne, hget⟩
    refine ⟨LeaseInv.turnsCancelled (h.leases.keep (fun lease turn' hget ↦ ?_) rfl)
      fun lease turn' hget hroom ↦ ?_,
      SessionInv.snoc (h.sessions.keep (fun lease turn' hget ↦ ?_) (fun _ _ h ↦ h) rfl)
        (by simp) (by simp), ⟨fun room root hget ↦ ?_, fun other room phase hget hphase ↦ ?_,
      fun other room hget ↦ ?_, justified_snoc h.roots.returned (by simp),
      fun other room lease turn' hget hget' hroom hnot ↦ ?_⟩⟩
    · obtain ⟨turn, hold, hrequest, hcancelled, -⟩ := hturns lease turn' hget
      exact ⟨turn, hold, hrequest, hcancelled⟩
    · obtain ⟨turn, -, hrequest, -, -, hall⟩ := hturns lease turn' hget
      exact hall (hrequest ▸ hroom)
    · obtain ⟨turn, hold, hrequest, hcancelled, hat, -⟩ := hturns lease turn' hget
      exact .inr ⟨turn, hold, hrequest, hcancelled, hat ▸ .refl _ _⟩
    · obtain ⟨lease, hsince⟩ := h.roots.authorized room root hget
      exact ⟨lease, since_noReturn_snoc hsince (fun _ hmem ↦ List.mem_append_left _ hmem) (by simp)⟩
    · rcases hothers other _ hget with ⟨rfl, heq⟩ | ⟨-, hold⟩
      · cases heq
        obtain ⟨hnone, hsince⟩ := h.roots.revoked other roomId _ hcall (by simp)
        exact ⟨hnone, since_revoked_snoc hsince (by simp)⟩
      · obtain ⟨hnone, hsince⟩ := h.roots.revoked other room phase hold hphase
        exact ⟨hnone, since_revoked_snoc hsince (by simp)⟩
    · rcases hothers other _ hget with ⟨rfl, heq⟩ | ⟨-, hold⟩
      · cases heq
        refine followedBy_snoc_self ?_
        rintro heq
        cases heq
      · exact (h.roots.cancelled other room hold).snoc (by simp)
    · obtain ⟨turn, hold, hrequest, hcancelled, hat, hall⟩ := hturns lease turn' hget'
      rcases hothers other _ hget with ⟨-, heq⟩ | ⟨-, hclosing⟩
      · cases heq
        rw [hall (hrequest ▸ hroom)] at hnot
        cases hnot
      · rw [hat]
        exact h.roots.early other room lease turn hclosing hold (hrequest ▸ hroom) (hcancelled hnot)
  · simpa using h

/-- **When a shutdown returns**, no turn of the room that may go on has a session, and the cache has
none. -/
theorem closeSessions (h : TurnsInv s log) :
    TurnsInv (s.closeSessions call).1 (log ++ (s.closeSessions call).2) := by
  unfold CodexTurns.closeSessions
  split
  · rename_i roomId hcall
    obtain ⟨hnone, -⟩ := h.roots.revoked call roomId _ hcall (by simp)
    have hothers : ∀ other at_, (s.shutdowns.delete call).get other = some at_ →
        other ≠ call ∧ s.shutdowns.get other = some at_ := by
      intro other at_ hget
      rw [InsertionMap.get_delete] at hget
      split at hget
      · cases hget
      · rename_i hne
        exact ⟨hne, hget⟩
    have hsessions : SessionInv { s.closeRoomSessions roomId with
        shutdowns := s.shutdowns.delete call } log :=
      h.sessions.keep (fun lease turn hget ↦ .inr ⟨turn, hget, rfl, id, .refl _ _⟩)
        (fun _ _ hget ↦ (get_closeRoomSessions hget).2) rfl
    refine ⟨LeaseInv.snoc { h.leases with } (by simp) (by simp) (by simp), { hsessions with
        fresh := fun lease session hmem ↦ ?_
        cachedLate := fun key session lease other hget hbefore ↦ ?_
        heldLate := fun lease turn session lease' other hget hhas hnot hbefore ↦ ?_ },
      ⟨fun room root hget ↦ ?_, fun other room phase hget hphase ↦ ?_, fun other room hget ↦ ?_,
        justified_snoc h.roots.returned ?_, fun other room lease turn hget ↦
          h.roots.early other room lease turn (hothers _ _ hget).2⟩⟩
    · rcases List.mem_append.mp hmem with hmem | hmem
      · exact h.sessions.fresh lease session hmem
      · cases List.mem_singleton.mp hmem
    · obtain ⟨hroom, hold⟩ := get_closeRoomSessions hget
      rcases before_snoc_iff.mp hbefore with hbefore | ⟨-, he⟩
      · exact h.sessions.cachedLate key session lease other hold hbefore
      · cases he
        exact hroom rfl
    · rcases before_snoc_iff.mp hbefore with hbefore | ⟨-, he⟩
      · exact h.sessions.heldLate lease turn session lease' other hget hhas hnot hbefore
      · have hroom : turn.request.roomId = roomId := by
          cases he
          rfl
        have hearly := h.roots.early call roomId lease turn hcall hget hroom hnot
        cases hphase : turn.at_ <;> simp_all [TurnPhase.session, TurnPhase.early]
    · have hroom : room ≠ roomId := by
        rintro rfl
        change s.authorization.projectRoots.get room = some root at hget
        rw [hnone] at hget
        cases hget
      obtain ⟨lease, hsince⟩ := h.roots.authorized room root hget
      refine ⟨lease, since_noReturn_snoc hsince (fun _ hmem ↦ List.mem_append_left _ hmem)
        fun other he ↦ ?_⟩
      cases he
      exact hroom rfl
    · obtain ⟨hne, hold⟩ := hothers other _ hget
      obtain ⟨hnone', hsince⟩ := h.roots.revoked other room phase hold hphase
      refine ⟨hnone', since_revoked_snoc hsince fun he ↦ ?_⟩
      cases he
      exact hne rfl
    · exact (h.roots.cancelled other room (hothers _ _ hget).2).snoc (by simp)
    · intro other room he
      cases he
      exact h.roots.cancelled call roomId hcall
  · simpa using h

/-- Other confirmations come and go. -/
theorem confirmationInFlight {authorization : CodexAuthorizationState} (h : TurnsInv s log)
    (hroots : authorization.projectRoots = s.authorization.projectRoots) :
    TurnsInv { s with authorization } log :=
  ⟨{ h.leases with }, { h.sessions with }, h.roots.keep hroots rfl fun lease turn hget hnot ↦ by
    cases hlate : turn.at_.early with
    | true => exact .inl rfl
    | false => exact .inr (.inr ⟨turn, hget, rfl, hnot, hlate⟩)⟩

theorem confirmRequest {requestKey roomId method : String} (h : TurnsInv s log) :
    TurnsInv (s.confirmRequest requestKey roomId method).1
      (log ++ (s.confirmRequest requestKey roomId method).2) := by
  unfold CodexTurns.confirmRequest
  split
  · exact h.snoc rfl
  · rename_i authorization hbegin
    rw [List.append_nil]
    exact h.confirmationInFlight (CodexAuthorizationState.beginConfirmation_roots hbegin)

theorem closeRequest {requestKey roomId method : String} (h : TurnsInv s log) :
    TurnsInv (s.closeRequest requestKey roomId method).1
      (log ++ (s.closeRequest requestKey roomId method).2) := by
  unfold CodexTurns.closeRequest
  split
  · exact h.snoc rfl
  · rename_i authorization hfinish
    rw [List.append_nil]
    exact h.confirmationInFlight (CodexAuthorizationState.finishConfirmation_roots hfinish)

theorem step (h : TurnsInv s log) (action : TurnAction)
    (hfresh : Justified FreshlyConfirmed (log ++ (s.step action).2)) :
    TurnsInv (s.step action).1 (log ++ (s.step action).2) := by
  cases action with
  | begin request => exact h.begin
  | classify lease fs => exact h.classify
  | openDialog lease => exact h.openDialog
  | closeDialog lease result => exact h.closeDialog
  | authorize lease fs => exact h.authorize hfresh
  | close lease => exact h.close
  | check lease => exact h.check
  | prune lease now => exact h.prune
  | checkout lease alive => exact h.checkout
  | launch lease now => exact h.launch
  | initialized lease result => exact h.initialized
  | finish lease reusable now => exact h.finish
  | checkin lease => exact h.checkin
  | leave lease => exact h.leave
  | shutdown call roomId =>
    simp only [CodexTurns.step]
    split
    · simpa using h
    · exact h.shutdown
  | revoke call => exact h.revoke
  | cancelTurns call => exact h.cancelTurns
  | closeSessions call => exact h.closeSessions
  | confirmRequest requestKey roomId method => exact h.confirmRequest
  | closeRequest requestKey roomId method => exact h.closeRequest

end TurnsInv

theorem turnsInv_initial : TurnsInv {} [] := by
  refine ⟨⟨?_, ?_, ?_, ?_, ?_, justified_nil⟩, ⟨?_, ?_, ?_, ?_, ?_, ?_, ?_, ?_, ?_⟩,
    ⟨?_, ?_, ?_, justified_nil, ?_⟩⟩ <;> intros <;> simp_all

/-- The state and the log after a run from the start. -/
def codexTurns (actions : List TurnAction) : CodexTurns × List TurnEvent :=
  Machine.run CodexTurns.step {} actions

/-- The invariant, as long as every authorization has been fresh. -/
def FreshTurnsInv (s : CodexTurns) (log : List TurnEvent) : Prop :=
  Justified FreshlyConfirmed log → TurnsInv s log

theorem FreshTurnsInv.step {s : CodexTurns} {log : List TurnEvent} (h : FreshTurnsInv s log)
    (action : TurnAction) : FreshTurnsInv (s.step action).1 (log ++ (s.step action).2) :=
  fun hfresh ↦ TurnsInv.step (h hfresh.of_append) action hfresh

/-- **A shutdown is final** in every run without a project confirmation that reaches across one. -/
theorem shutdown_final (actions : List TurnAction)
    (hfresh : Justified FreshlyConfirmed (codexTurns actions).2) :
    ShutdownFinal (codexTurns actions).1 (codexTurns actions).2 := by
  have hstep : ∀ s log action, FreshTurnsInv s log → True →
      FreshTurnsInv (s.step action).1 (log ++ (s.step action).2) :=
    fun s log action h _ ↦ h.step action
  have hinitial : FreshTurnsInv {} [] := fun _ ↦ turnsInv_initial
  exact (Machine.run_invariant hstep hinitial (Machine.along_true _ actions) hfresh).final

/-- A file system in which every path is a directory. -/
def plainFileSystem : FileSystem := { isDir := fun _ ↦ true, canonicalize := .ok }

/-- A turn of a room, as it is asked for. -/
def plainTurn : CodexTurnRequest :=
  { roomId := "room", cwd := "/w",
    profile := .ok ⟨"gpt", "medium", "auto", ⟨"workspace-write", "on-request", false⟩⟩ }

/-- A turn is confirmed, has its session and puts it back; then the room is shut down. -/
theorem shutdown_final_plainTurn :
    ShutdownFinal
      (codexTurns [.begin plainTurn, .classify 1 plainFileSystem, .openDialog 1,
        .closeDialog 1 (.ok true), .authorize 1 plainFileSystem, .close 1, .check 1, .prune 1 0,
        .checkout 1 true, .launch 1 0, .initialized 1 (.ok ()), .finish 1 true 1, .checkin 1,
        .leave 1, .shutdown 0 "room", .revoke 0, .cancelTurns 0, .closeSessions 0]).1
      (codexTurns [.begin plainTurn, .classify 1 plainFileSystem, .openDialog 1,
        .closeDialog 1 (.ok true), .authorize 1 plainFileSystem, .close 1, .check 1, .prune 1 0,
        .checkout 1 true, .launch 1 0, .initialized 1 (.ok ()), .finish 1 true 1, .checkin 1,
        .leave 1, .shutdown 0 "room", .revoke 0, .cancelTurns 0, .closeSessions 0]).2 := by
  refine shutdown_final _ ?_
  have hlog : (codexTurns [.begin plainTurn, .classify 1 plainFileSystem, .openDialog 1,
        .closeDialog 1 (.ok true), .authorize 1 plainFileSystem, .close 1, .check 1, .prune 1 0,
        .checkout 1 true, .launch 1 0, .initialized 1 (.ok ()), .finish 1 true 1, .checkin 1,
        .leave 1, .shutdown 0 "room", .revoke 0, .cancelTurns 0, .closeSessions 0]).2 =
      [.began 1 "room", .asked 1 "room"] ++ [.authorized 1 "room"] ++
        [.started 1 1, .checkedIn 1 1, .left 1, .shutdownBegan 0 "room", .revoked 0 "room",
          .turnsCancelled "room", .shutdownReturned 0 "room"] := by
    decide
  rw [hlog]
  have hstart : Justified FreshlyConfirmed [.began 1 "room", .asked 1 "room"] :=
    justified_nil.append_of_forall (by simp [FreshlyConfirmed])
  refine (justified_snoc hstart fun lease roomId he ↦ ?_).append_of_forall
    (by simp [FreshlyConfirmed])
  cases he
  exact ⟨⟨[.began 1 "room"], [], rfl, by simp⟩, fun ⟨call, hrevoked⟩ ↦ by simpa using hrevoked.mem⟩

/-- A dialog that is open during a shutdown and approved after it gives the room its root back. -/
theorem root_after_shutdown :
    ¬∀ actions, ShutdownFinal (codexTurns actions).1 (codexTurns actions).2 := by
  intro h
  have hfinal := h [.begin plainTurn, .classify 1 plainFileSystem, .openDialog 1,
    .shutdown 0 "room", .revoke 0, .cancelTurns 0, .closeSessions 0, .closeDialog 1 (.ok true),
    .authorize 1 plainFileSystem]
  have hlog : (codexTurns [.begin plainTurn, .classify 1 plainFileSystem, .openDialog 1,
        .shutdown 0 "room", .revoke 0, .cancelTurns 0, .closeSessions 0, .closeDialog 1 (.ok true),
        .authorize 1 plainFileSystem]).2 =
      [.began 1 "room", .asked 1 "room", .shutdownBegan 0 "room", .revoked 0 "room",
        .turnsCancelled "room"] ++ .shutdownReturned 0 "room" :: [.authorized 1 "room"] := by
    decide
  obtain ⟨lease, hbefore⟩ := hfinal.root _ 0 "room" _ hlog (by decide)
  simpa using hbefore.mem_left

end MultAIplayer.Native
