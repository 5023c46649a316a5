import Mathlib.Data.List.Nodup
import MultAIplayer.Cli.Handoff
import MultAIplayer.Desktop.HostHandoffs
import MultAIplayer.Lib.Machine

/-!
# Handoffs: do the clients agree?

A client of each kind goes through one log of handoff events. They agree as long as every step
meets `SameOutcome`, and from the first step that does not they differ (`agree_iff`): the orders of
two candidates must not depend on how the candidates are compared, an acceptance must come from the
device that has sent the offer and the CLI must not run out of room.

Both lists are read through `core`, what the two kinds of record have in common; a step of either
client that finds its offer is `setCore` on the list of cores.
-/

namespace MultAIplayer.Handoff

open Cli Desktop

/-- What both clients process. `committed` comes with the group after the Commit. -/
inductive HandoffEvent where
  | offer (offer : HostHandoffPlaintextPayload) (senderDeviceId : String)
  | request (request : HostHandoffRequestPlaintextPayload)
  | accepted (accepted : HostHandoffAcceptedPlaintextPayload)
      (senderUserId senderDeviceId createdAt : String)
  | committed (envelope : MlsRelayMessage) (group : HostGroupState)

structure Clients where
  cli : HandoffState := {}
  desktop : HostHandoffs := []

namespace Clients

variable (c : Clients)

def next : HandoffEvent → Clients
  | .offer offer senderDeviceId =>
    ⟨c.cli.rememberOffer offer, c.desktop.appendHostHandoff offer senderDeviceId⟩
  | .request request =>
    ⟨(c.cli.requestCandidate request).2, c.desktop.markHostHandoffRequested request⟩
  | .accepted accepted senderUserId senderDeviceId createdAt =>
    ⟨(c.cli.acceptInformational accepted senderUserId createdAt).2,
      c.desktop.routeAccepted accepted senderUserId senderDeviceId createdAt⟩
  | .committed envelope group =>
    ⟨(c.cli.recoverHostTransfer envelope group).2,
      c.desktop.recoverAuthenticatedHostTransfer envelope group⟩

/-- A step shows the clients that it leaves. -/
@[grind =] def step (c : Clients) (event : HandoffEvent) : Clients × List Clients :=
  (c.next event, [c.next event])

end Clients

/-! ### What the clients have in common -/

/-- An offer in what both clients know of it. -/
structure Core where
  id : String
  fromUserId : String
  status : HostHandoffStatus
  candidateUserId : Option MemberId
  candidateDeviceId : Option MemberId
  candidateLeaf : Option ℕ
  deriving DecidableEq

@[grind =] def core (offer : HostHandoffPlaintextPayload) : Core :=
  { id := offer.id, fromUserId := offer.fromUserId, status := offer.status
    candidateUserId := offer.candidateUserId, candidateDeviceId := offer.candidateDeviceId
    candidateLeaf := offer.candidateLeaf }

/-- The candidate and the status of an offer. -/
def shown (offer : HostHandoffPlaintextPayload) :
    HostHandoffStatus × Option MemberId × Option MemberId × Option ℕ :=
  (offer.status, offer.candidateUserId, offer.candidateDeviceId, offer.candidateLeaf)

def cliCores (s : HandoffState) : List Core := s.offers.map core

@[grind =] def desktopCores (handoffs : HostHandoffs) : List Core :=
  handoffs.map fun handoff ↦ core handoff.toHostHandoffPlaintextPayload

/-- The clients hold the same candidate and the same status for every offer. -/
def Agree (c : Clients) : Prop :=
  ∀ id, (c.cli.offer id).map shown =
    (c.desktop.findHandoff id).map fun handoff ↦ shown handoff.toHostHandoffPlaintextPayload

/-- The clients start from the same state: the same offers in the same order, each once. -/
structure SameState (c : Clients) : Prop where
  cores : cliCores c.cli = desktopCores c.desktop
  nodup : ((cliCores c.cli).map Core.id).Nodup

/-- The clients agree after every event of a log. -/
def AgreeThroughout (c : Clients) (events : List HandoffEvent) : Prop :=
  ∀ reached ∈ (Machine.run Clients.step c events).2, Agree reached

/-- A step of both clients comes to the same. -/
@[grind =] def SameOutcome (c : Clients) : HandoffEvent → Prop
  | .offer offer _ => (c.cli.offer offer.id).isSome ∨ c.cli.offers.length < maxHandoffs
  | .request request =>
    ∀ offer ∈ c.cli.offer request.offerId, offer.status ≠ .accepted →
      ∀ current ∈ candidateOf offer.candidateUserId offer.candidateDeviceId offer.candidateLeaf,
        keyLe current request.candidate = textLe current request.candidate
  | .accepted accepted senderUserId senderDeviceId _ =>
    ∀ offer ∈ c.desktop.findHandoff accepted.offerId, offer.status = .requested →
      offer.fromUserId = senderUserId →
      Desktop.names offer accepted.host.userId.1 accepted.host.deviceId.1 accepted.host.leaf →
      offer.fromDeviceId = some senderDeviceId
  | .committed envelope group =>
    ∀ auth ∈ envelope.hostTransferAuthorization,
      ∀ offer ∈ c.desktop.findHandoff auth.transferId, offer.status = .requested →
        HandoffState.groupTransferred group envelope auth →
        HandoffState.commits offer.toHostHandoffPlaintextPayload envelope auth →
        offer.fromDeviceId = some auth.outgoingHostDeviceId ∧ rosterNames group auth

/-! ### Lists of cores -/

section Cores

variable {cores : List Core} {d : Core}

def lookup (id : String) (cores : List Core) : Option Core := cores.find? fun c ↦ c.id = id

/-- The core of an id is replaced. -/
@[grind =] def setCore (d : Core) (cores : List Core) : List Core :=
  cores.map fun c ↦ if c.id = d.id then d else c

theorem lookup_setCore_self (h : (lookup d.id cores).isSome) :
    lookup d.id (setCore d cores) = some d := by
  induction cores with
  | nil => simp [lookup] at h
  | cons c rest ih =>
    by_cases hc : c.id = d.id
    · simp [lookup, setCore, hc]
    · have hrest : (lookup d.id rest).isSome := by simpa [lookup, hc] using h
      simpa [lookup, setCore, hc] using ih hrest

theorem lookup_setCore_of_ne {id : String} (hid : id ≠ d.id) :
    lookup id (setCore d cores) = lookup id cores := by
  induction cores with
  | nil => rfl
  | cons c rest ih =>
    by_cases hc : c.id = d.id
    · have hd : d.id ≠ id := hid.symm
      simpa [lookup, setCore, hc, hd] using ih
    · by_cases hcid : c.id = id
      · subst hcid
        simp [lookup, setCore, hid]
      · simpa [lookup, setCore, hc, hcid] using ih

@[simp] theorem map_id_setCore : (setCore d cores).map Core.id = cores.map Core.id := by
  rw [setCore, List.map_map]
  refine List.map_congr_left fun c _ ↦ ?_
  by_cases hc : c.id = d.id
  · simp [hc]
  · simp [hc]

theorem lookup_cliCores (s : HandoffState) (id : String) :
    lookup id (cliCores s) = (s.offer id).map core := by
  rw [lookup, cliCores, List.find?_map]
  rfl

theorem lookup_desktopCores (handoffs : HostHandoffs) (id : String) :
    lookup id (desktopCores handoffs) =
      (handoffs.findHandoff id).map fun handoff ↦ core handoff.toHostHandoffPlaintextPayload := by
  rw [lookup, desktopCores, List.find?_map]
  rfl

theorem cliCores_put {s : HandoffState} (hnodup : ((cliCores s).map Core.id).Nodup)
    (offer : HostHandoffPlaintextPayload) :
    cliCores (s.put offer) = setCore (core offer) (cliCores s) := by
  obtain ⟨offers⟩ := s
  show (putOffer offer offers).map core = setCore (core offer) (offers.map core)
  induction offers with
  | nil => rfl
  | cons first rest ih =>
    obtain ⟨hfirst, hrest⟩ := List.nodup_cons.mp hnodup
    rw [putOffer]
    by_cases hid : first.id = offer.id
    · have hothers : ∀ c ∈ rest.map core, c.id ≠ offer.id := by
        intro c hc heq
        refine hfirst (List.mem_map.mpr ⟨c, hc, ?_⟩)
        rw [heq, ← hid]
        rfl
      have hkept : setCore (core offer) (rest.map core) = rest.map core := by
        rw [setCore]
        refine (List.map_congr_left fun c hc ↦ if_neg (hothers c hc)).trans (List.map_id _)
      rw [if_pos hid, List.map_cons, List.map_cons]
      show _ = (if first.id = offer.id then core offer else core first) ::
        setCore (core offer) (rest.map core)
      rw [if_pos hid, hkept]
    · rw [if_neg hid, List.map_cons, List.map_cons]
      show _ = (if first.id = offer.id then core offer else core first) ::
        setCore (core offer) (rest.map core)
      rw [if_neg hid, ih hrest]

theorem desktopCores_put (handoffs : HostHandoffs) (handoff : HostHandoffRecord) :
    desktopCores (handoffs.put handoff) =
      setCore (core handoff.toHostHandoffPlaintextPayload) (desktopCores handoffs) := by
  rw [desktopCores, HostHandoffs.put, List.map_map, desktopCores, setCore, List.map_map]
  refine List.map_congr_left fun existing _ ↦ ?_
  show core (if existing.id = handoff.id then handoff else existing).toHostHandoffPlaintextPayload =
    if existing.id = handoff.id then _ else _
  split <;> rfl

/-- A core is replaced by itself. -/
theorem setCore_self (hnodup : (cores.map Core.id).Nodup) (h : lookup d.id cores = some d) :
    setCore d cores = cores := by
  have hmem : d ∈ cores := List.mem_of_find?_eq_some h
  rw [setCore]
  refine (List.map_congr_left fun c hc ↦ ?_).trans (List.map_id _)
  by_cases hid : c.id = d.id
  · rw [if_pos hid, List.inj_on_of_nodup_map hnodup hc hmem hid]
    rfl
  · rw [if_neg hid]
    rfl

end Cores

/-! ### The same state -/

section SameState

variable {c : Clients} {s : HandoffState} {t : HostHandoffs}

/-- The candidate and the status, of a core. -/
def Core.shown (c : Core) : HostHandoffStatus × Option MemberId × Option MemberId × Option ℕ :=
  (c.status, c.candidateUserId, c.candidateDeviceId, c.candidateLeaf)

theorem agree_iff_cores : Agree c ↔ ∀ id,
    (lookup id (cliCores c.cli)).map Core.shown =
      (lookup id (desktopCores c.desktop)).map Core.shown := by
  refine forall_congr' fun id ↦ ?_
  rw [lookup_cliCores, lookup_desktopCores, Option.map_map, Option.map_map]
  rfl

theorem SameState.agree (h : SameState c) : Agree c :=
  agree_iff_cores.mpr fun id ↦ by rw [h.cores]

/-- Both clients have an offer, or neither. -/
theorem SameState.found (h : SameState c) (id : String) :
    (c.cli.offer id = none ∧ c.desktop.findHandoff id = none) ∨
      ∃ offer handoff, c.cli.offer id = some offer ∧ c.desktop.findHandoff id = some handoff ∧
        core offer = core handoff.toHostHandoffPlaintextPayload ∧ offer.id = id ∧
        lookup id (cliCores c.cli) = some (core offer) := by
  have hlookup : (c.cli.offer id).map core =
      (c.desktop.findHandoff id).map fun handoff ↦ core handoff.toHostHandoffPlaintextPayload := by
    rw [← lookup_cliCores, h.cores, lookup_desktopCores]
  rcases hoffer : c.cli.offer id with _ | offer
  · rw [hoffer, Option.map_none, eq_comm, Option.map_eq_none_iff] at hlookup
    exact .inl ⟨rfl, hlookup⟩
  · rw [hoffer, Option.map_some, eq_comm, Option.map_eq_some_iff] at hlookup
    obtain ⟨handoff, hhandoff, hcore⟩ := hlookup
    have hid : offer.id = id := by simpa using List.find?_some hoffer
    refine .inr ⟨offer, handoff, rfl, hhandoff, hcore.symm, hid, ?_⟩
    rw [lookup_cliCores, hoffer]
    rfl

/-- A step of a client changes the core of an offer, or nothing. -/
@[grind =] def stepCores (changes : Bool) (d : Core) (cores : List Core) : List Core :=
  if changes then setCore d cores else cores

/-- Both clients come to the same core. -/
theorem SameState.of_steps (h : SameState c) {a b : Bool} {d : Core}
    (hcli : cliCores s = stepCores a d (cliCores c.cli))
    (hdesktop : desktopCores t = stepCores b d (desktopCores c.desktop))
    (hsame : a = b ∨ lookup d.id (cliCores c.cli) = some d) : SameState ⟨s, t⟩ := by
  have hkept : lookup d.id (cliCores c.cli) = some d →
      ∀ changes, stepCores changes d (cliCores c.cli) = cliCores c.cli := by
    intro hlookup changes
    unfold stepCores
    rw [setCore_self h.nodup hlookup, ite_self]
  constructor
  · show cliCores s = desktopCores t
    rw [hcli, hdesktop, ← h.cores]
    rcases hsame with rfl | hlookup
    · rfl
    · rw [hkept hlookup, hkept hlookup]
  · show ((cliCores s).map Core.id).Nodup
    rw [hcli, stepCores]
    split
    · rw [map_id_setCore]
      exact h.nodup
    · exact h.nodup

/-- Only one of the clients changes what an offer shows. -/
theorem SameState.not_agree_of_steps (h : SameState c) {a b : Bool} {d old : Core}
    (hcli : cliCores s = stepCores a d (cliCores c.cli))
    (hdesktop : desktopCores t = stepCores b d (desktopCores c.desktop)) (hdiffers : a ≠ b)
    (hlookup : lookup d.id (cliCores c.cli) = some old) (hshown : d.shown ≠ old.shown) :
    ¬Agree ⟨s, t⟩ := by
  intro hagree
  have hid := agree_iff_cores.mp hagree d.id
  have hset : lookup d.id (setCore d (cliCores c.cli)) = some d :=
    lookup_setCore_self (by rw [hlookup]; rfl)
  dsimp only at hid
  rw [hcli, hdesktop, ← h.cores, stepCores, stepCores] at hid
  cases a <;> cases b <;> simp only [Bool.false_eq_true, if_false, if_true, hset, hlookup] at hid
  · exact hdiffers rfl
  · exact hshown (Option.some.inj hid).symm
  · exact hshown (Option.some.inj hid)
  · exact hdiffers rfl

/-! ### Requests of candidates -/

/-- A client takes the candidate of a request. -/
@[grind =] def takesCandidate (le : CandidateBinding → CandidateBinding → Bool)
    (offer : HostHandoffPlaintextPayload) (candidate : CandidateBinding) : Bool :=
  offer.status ≠ .accepted &&
    !(candidateOf offer.candidateUserId offer.candidateDeviceId offer.candidateLeaf).any
      fun current ↦ le current candidate

/-- An offer with the candidate of a request. -/
@[grind =]
def requestedCore (offer : HostHandoffPlaintextPayload) (candidate : CandidateBinding) : Core :=
  { core offer with
    candidateUserId := some candidate.userId
    candidateDeviceId := some candidate.deviceId
    candidateLeaf := some candidate.leaf
    status := .requested }

theorem status_cases (status : HostHandoffStatus) :
    (status ∉ [HostHandoffStatus.available, .requested] ↔ status = .accepted) ∧
      (status ≠ .available ∧ status ≠ .requested ↔ status = .accepted) := by
  cases status <;> decide

theorem cliCores_requestCandidate (hnodup : ((cliCores c.cli).map Core.id).Nodup)
    {request : HostHandoffRequestPlaintextPayload} {offer : HostHandoffPlaintextPayload}
    (hoffer : c.cli.offer request.offerId = some offer) :
    cliCores (c.cli.requestCandidate request).2 =
      stepCores (takesCandidate keyLe offer request.candidate)
        (requestedCore offer request.candidate) (cliCores c.cli) := by
  unfold HandoffState.requestCandidate takesCandidate stepCores
  rw [hoffer]
  dsimp only
  split
  · rename_i hstatus
    have haccepted := (status_cases offer.status).1.mp hstatus
    simp [haccepted]
  · rename_i hstatus
    have hopen : offer.status ≠ .accepted := fun h ↦ hstatus ((status_cases _).1.mpr h)
    split
    · rename_i hle
      simp [hle]
    · rename_i hle
      simp only [hopen, hle, ne_eq, not_false_eq_true, decide_true, Bool.not_false, Bool.and_self,
        if_true]
      exact cliCores_put hnodup _

theorem desktopCores_requested (h : SameState c)
    {request : HostHandoffRequestPlaintextPayload} {handoff : HostHandoffRecord}
    (hhandoff : c.desktop.findHandoff request.offerId = some handoff) :
    desktopCores (c.desktop.markHostHandoffRequested request) =
      stepCores (takesCandidate textLe handoff.toHostHandoffPlaintextPayload request.candidate)
        (requestedCore handoff.toHostHandoffPlaintextPayload request.candidate)
        (desktopCores c.desktop) := by
  have hid : handoff.id = request.offerId := by simpa using List.find?_some hhandoff
  have hkept : setCore (core handoff.toHostHandoffPlaintextPayload) (desktopCores c.desktop) =
      desktopCores c.desktop := by
    refine setCore_self (h.cores ▸ h.nodup) ?_
    show lookup handoff.id _ = _
    rw [lookup_desktopCores, hid, hhandoff]
    rfl
  unfold HostHandoffs.markHostHandoffRequested takesCandidate stepCores
  rw [hhandoff]
  dsimp only
  rw [desktopCores_put]
  unfold transitionHostHandoffRecord
  dsimp only
  split
  · rename_i hstatus
    have haccepted := (status_cases handoff.status).2.mp hstatus
    rw [hkept]
    simp [haccepted]
  · rename_i hstatus
    have hopen : handoff.status ≠ .accepted := fun h ↦ hstatus ((status_cases _).2.mpr h)
    rcases hcurrent : candidateOf handoff.candidateUserId handoff.candidateDeviceId
      handoff.candidateLeaf with _ | current
    · simp [hopen, requestedCore, core]
    · by_cases hle : textLe current request.candidate = true
      · rw [if_pos (by simp [preferredHostCandidate, hle]), hkept]
        simp [hle]
      · have hne : current ≠ request.candidate := by
          rintro rfl
          exact hle (by simp [textLe])
        rw [if_neg (by simp [preferredHostCandidate, hle, hne])]
        simp [hopen, hle, requestedCore, core]

theorem keyLe_self (candidate : CandidateBinding) : keyLe candidate candidate = true := by
  simp [keyLe]

theorem textLe_self (candidate : CandidateBinding) : textLe candidate candidate = true := by
  simp [textLe]

/-- A client comes to the same for offers with the same core. -/
theorem takesCandidate_congr {offer offer' : HostHandoffPlaintextPayload}
    (hcore : core offer = core offer') (le : CandidateBinding → CandidateBinding → Bool)
    (candidate : CandidateBinding) :
    takesCandidate le offer candidate = takesCandidate le offer' candidate ∧
      requestedCore offer candidate = requestedCore offer' candidate := by
  have hstatus : offer.status = offer'.status := congrArg Core.status hcore
  have huser : offer.candidateUserId = offer'.candidateUserId := congrArg Core.candidateUserId hcore
  have hdevice : offer.candidateDeviceId = offer'.candidateDeviceId :=
    congrArg Core.candidateDeviceId hcore
  have hleaf : offer.candidateLeaf = offer'.candidateLeaf := congrArg Core.candidateLeaf hcore
  exact ⟨by rw [takesCandidate, takesCandidate, hstatus, huser, hdevice, hleaf],
    by rw [requestedCore, requestedCore, hcore]⟩

/-- A request: the clients part where the two orders do. -/
theorem SameState.request (h : SameState c) (request : HostHandoffRequestPlaintextPayload) :
    (SameOutcome c (.request request) → SameState (c.next (.request request))) ∧
      (¬SameOutcome c (.request request) → ¬Agree (c.next (.request request))) := by
  rcases h.found request.offerId with ⟨hnone, hnone'⟩ |
      ⟨offer, handoff, hoffer, hhandoff, hcore, hid, hlookup⟩
  · have hnext : c.next (.request request) = c := by
      simp only [Clients.next, HandoffState.requestCandidate, hnone,
        HostHandoffs.markHostHandoffRequested, hnone']
    rw [hnext]
    exact ⟨fun _ ↦ h, fun hnot ↦ (hnot (by simp [SameOutcome, hnone])).elim⟩
  · have hcli := cliCores_requestCandidate h.nodup hoffer
    have hdesktop := desktopCores_requested h hhandoff
    rw [← (takesCandidate_congr hcore textLe request.candidate).1,
      ← (takesCandidate_congr hcore textLe request.candidate).2] at hdesktop
    have hlookup' : lookup (requestedCore offer request.candidate).id (cliCores c.cli) =
        some (core offer) := by
      show lookup offer.id _ = _
      rw [hid, hlookup]
    have houtcome : SameOutcome c (.request request) ↔
        takesCandidate keyLe offer request.candidate =
          takesCandidate textLe offer request.candidate := by
      unfold takesCandidate
      dsimp only [SameOutcome]
      rw [hoffer]
      simp only [Option.mem_some_iff, forall_eq']
      by_cases hopen : offer.status = .accepted
      · simp [hopen]
      · rcases candidateOf offer.candidateUserId offer.candidateDeviceId offer.candidateLeaf with
          _ | current
        · simp
        · simp [hopen]
    refine ⟨fun hsame ↦ h.of_steps hcli hdesktop (.inl (houtcome.mp hsame)), fun hnot ↦ ?_⟩
    have hdiffers := mt houtcome.mpr hnot
    refine h.not_agree_of_steps hcli hdesktop hdiffers hlookup' fun hshown ↦ hdiffers ?_
    -- An offer that already shows the candidate of the request: no client takes it.
    have hfields : some request.candidate.userId = offer.candidateUserId ∧
        some request.candidate.deviceId = offer.candidateDeviceId ∧
        some request.candidate.leaf = offer.candidateLeaf := by
      simpa [Core.shown, requestedCore, core] using (Prod.mk.inj hshown).2
    have hcurrent : candidateOf offer.candidateUserId offer.candidateDeviceId
        offer.candidateLeaf = some request.candidate := by
      rw [← hfields.1, ← hfields.2.1, ← hfields.2.2]
      rfl
    simp [takesCandidate, hcurrent, keyLe_self, textLe_self]

/-! ### Acceptances -/

@[grind =] def acceptedCore (offer : HostHandoffPlaintextPayload) : Core :=
  { core offer with status := .accepted }

/-- An acceptance that the CLI makes of `a` and the desktop of `b`: the clients part where the
desktop asks for more of an offer that is requested. -/
theorem SameState.accept (h : SameState c) {offer : HostHandoffPlaintextPayload} {a b : Bool}
    {More : Prop} (hlookup : lookup offer.id (cliCores c.cli) = some (core offer))
    (hcli : cliCores s = stepCores a (acceptedCore offer) (cliCores c.cli))
    (hdesktop : desktopCores t = stepCores b (acceptedCore offer) (desktopCores c.desktop))
    (ha : a = true → offer.status ≠ .available)
    (hb : b = true ↔ offer.status = .requested ∧ a = true ∧ More) :
    ((offer.status = .requested → a = true → More) → SameState ⟨s, t⟩) ∧
      (¬(offer.status = .requested → a = true → More) → ¬Agree ⟨s, t⟩) := by
  constructor
  · intro hmore
    refine h.of_steps hcli hdesktop ?_
    rcases hstatus : offer.status with _ | _ | _
    · left
      rw [Bool.eq_iff_iff, hb]
      exact ⟨fun h ↦ (ha h hstatus).elim, fun h ↦ by simp [hstatus] at h⟩
    · left
      rw [Bool.eq_iff_iff, hb]
      exact ⟨fun h ↦ ⟨hstatus, h, hmore hstatus h⟩, fun h ↦ h.2.1⟩
    · right
      have hself : acceptedCore offer = core offer := by
        rw [acceptedCore, ← hstatus]
        rfl
      rw [hself]
      exact hlookup
  · intro hnot
    rw [not_forall] at hnot
    obtain ⟨hstatus, hnot⟩ := hnot
    rw [not_forall] at hnot
    obtain ⟨htrue, hmore⟩ := hnot
    have hfalse : ¬b = true := fun hbtrue ↦ hmore (hb.mp hbtrue).2.2
    refine h.not_agree_of_steps hcli hdesktop ?_ hlookup ?_
    · rw [htrue]
      exact fun heq ↦ hfalse heq.symm
    · intro hshown
      have hsame : HostHandoffStatus.accepted = offer.status := (Prod.mk.inj hshown).1
      rw [hstatus] at hsame
      exact nomatch hsame

theorem names_congr {offer : HostHandoffPlaintextPayload} {handoff : HostHandoffRecord}
    (hcore : core offer = core handoff.toHostHandoffPlaintextPayload)
    (userId deviceId : String) (leaf : ℕ) :
    HandoffState.names offer userId deviceId leaf = Desktop.names handoff userId deviceId leaf := by
  have huser : offer.candidateUserId = handoff.candidateUserId :=
    congrArg Core.candidateUserId hcore
  have hdevice : offer.candidateDeviceId = handoff.candidateDeviceId :=
    congrArg Core.candidateDeviceId hcore
  have hleaf : offer.candidateLeaf = handoff.candidateLeaf := congrArg Core.candidateLeaf hcore
  rw [HandoffState.names, Desktop.names, huser, hdevice, hleaf]

/-- What the desktop's list comes to when it accepts a handoff. -/
theorem desktopCores_applyAccepted {offer : HostHandoffPlaintextPayload}
    {handoff : HostHandoffRecord} (hcore : core offer = core handoff.toHostHandoffPlaintextPayload)
    (handoffs : HostHandoffs) (userId createdAt : String) :
    desktopCores (handoffs.applyAccepted handoff userId createdAt) =
      setCore (acceptedCore offer) (desktopCores handoffs) := by
  rw [HostHandoffs.applyAccepted, desktopCores_put, acceptedCore, hcore]
  rfl

/-- What `accept_informational` asks of an offer. -/
def informs (offer : HostHandoffPlaintextPayload) (accepted : HostHandoffAcceptedPlaintextPayload)
    (senderUserId : String) : Bool :=
  !(offer.fromUserId ≠ senderUserId || offer.status ∉ [.requested, .accepted] ||
    !HandoffState.names offer accepted.host.userId.1 accepted.host.deviceId.1 accepted.host.leaf)

/-- An informational acceptance: the CLI does not look at the device. -/
theorem SameState.accepted (h : SameState c) (accepted : HostHandoffAcceptedPlaintextPayload)
    (senderUserId senderDeviceId createdAt : String) :
    (SameOutcome c (.accepted accepted senderUserId senderDeviceId createdAt) →
        SameState (c.next (.accepted accepted senderUserId senderDeviceId createdAt))) ∧
      (¬SameOutcome c (.accepted accepted senderUserId senderDeviceId createdAt) →
        ¬Agree (c.next (.accepted accepted senderUserId senderDeviceId createdAt))) := by
  rcases h.found accepted.offerId with ⟨hnone, hnone'⟩ |
      ⟨offer, handoff, hoffer, hhandoff, hcore, hid, hlookup⟩
  · have hnext : c.next (.accepted accepted senderUserId senderDeviceId createdAt) = c := by
      simp only [Clients.next, HandoffState.acceptInformational, hnone,
        HostHandoffs.routeAccepted, hnone']
    rw [hnext]
    exact ⟨fun _ ↦ h, fun hnot ↦ (hnot (by simp [SameOutcome, hnone'])).elim⟩
  · have hstatus : offer.status = handoff.status := congrArg Core.status hcore
    have hfrom : offer.fromUserId = handoff.fromUserId := congrArg Core.fromUserId hcore
    have hnames := names_congr hcore accepted.host.userId.1 accepted.host.deviceId.1
      accepted.host.leaf
    have hcli : cliCores (c.cli.acceptInformational accepted senderUserId createdAt).2 =
        stepCores (informs offer accepted senderUserId) (acceptedCore offer) (cliCores c.cli) := by
      unfold HandoffState.acceptInformational stepCores informs
      rw [hoffer]
      dsimp only
      split
      · rename_i hrejects
        rw [hrejects]
        rfl
      · rename_i haccepts
        rw [Bool.eq_false_iff.mpr haccepts]
        exact cliCores_put h.nodup _
    have hdesktop : desktopCores
        (c.desktop.routeAccepted accepted senderUserId senderDeviceId createdAt) =
        stepCores (acceptedHandoffMatchesOffer senderUserId senderDeviceId accepted handoff)
          (acceptedCore offer) (desktopCores c.desktop) := by
      unfold HostHandoffs.routeAccepted stepCores
      rw [hhandoff]
      dsimp only
      split
      · exact desktopCores_applyAccepted hcore _ _ _
      · rfl
    have hmore : SameOutcome c (.accepted accepted senderUserId senderDeviceId createdAt) ↔
        (offer.status = .requested → informs offer accepted senderUserId = true →
          handoff.fromDeviceId = some senderDeviceId) := by
      dsimp only [SameOutcome]
      rw [informs, hhandoff, hnames, hstatus, hfrom]
      simp only [Option.mem_some_iff, forall_eq']
      refine imp_congr_right fun hrequested ↦ ?_
      simp [hrequested]
    rw [hmore]
    refine h.accept (by rw [hid, hlookup]) hcli hdesktop ?_ ?_
    · intro haccepts havailable
      simp [informs, havailable] at haccepts
    · rw [informs, hnames, hstatus, hfrom]
      simp only [acceptedHandoffMatchesOffer, Bool.and_eq_true, decide_eq_true_eq]
      constructor
      · rintro ⟨⟨⟨hrequested, hsender⟩, hdevice⟩, hcandidate⟩
        refine ⟨hrequested, ?_, hdevice⟩
        simp [hrequested, hsender, hcandidate]
      · rintro ⟨hrequested, haccepts, hdevice⟩
        simp only [hrequested, ne_eq, Bool.not_eq_true', Bool.or_eq_false_iff, decide_eq_false_iff_not,
          not_not, Bool.not_eq_false'] at haccepts
        exact ⟨⟨⟨hrequested, haccepts.1.1⟩, hdevice⟩, haccepts.2⟩

/-- A transfer Commit: the CLI looks neither at the device of the offer nor at the roster. -/
theorem SameState.committed (h : SameState c) (envelope : MlsRelayMessage)
    (group : HostGroupState) :
    (SameOutcome c (.committed envelope group) → SameState (c.next (.committed envelope group))) ∧
      (¬SameOutcome c (.committed envelope group) →
        ¬Agree (c.next (.committed envelope group))) := by
  rcases hauth : envelope.hostTransferAuthorization with _ | auth
  · have hnext : c.next (.committed envelope group) = c := by
      simp only [Clients.next, HandoffState.recoverHostTransfer, hauth,
        HostHandoffs.recoverAuthenticatedHostTransfer]
    rw [hnext]
    exact ⟨fun _ ↦ h, fun hnot ↦ (hnot (by simp [SameOutcome, hauth])).elim⟩
  rcases h.found auth.transferId with ⟨hnone, hnone'⟩ |
      ⟨offer, handoff, hoffer, hhandoff, hcore, hid, hlookup⟩
  · have hnext : c.next (.committed envelope group) = c := by
      simp only [Clients.next, HandoffState.recoverHostTransfer, HandoffState.acceptCommitted, hauth,
        hnone, HostHandoffs.recoverAuthenticatedHostTransfer, hnone', ite_self]
    rw [hnext]
    exact ⟨fun _ ↦ h, fun hnot ↦ (hnot (by simp [SameOutcome, hauth, hnone'])).elim⟩
  · have hstatus : offer.status = handoff.status := congrArg Core.status hcore
    have hfrom : offer.fromUserId = handoff.fromUserId := congrArg Core.fromUserId hcore
    have hid' : handoff.id = auth.transferId := by simpa using List.find?_some hhandoff
    have hnames := names_congr hcore auth.nextHostUserId auth.nextHostDeviceId auth.nextHostLeaf
    have hcommits : HandoffState.commits offer envelope auth =
        HandoffState.commits handoff.toHostHandoffPlaintextPayload envelope auth := by
      have hnames' : HandoffState.names offer auth.nextHostUserId auth.nextHostDeviceId
          auth.nextHostLeaf = HandoffState.names handoff.toHostHandoffPlaintextPayload
            auth.nextHostUserId auth.nextHostDeviceId auth.nextHostLeaf := hnames
      rw [HandoffState.commits, HandoffState.commits, hstatus, hfrom, hnames']
    have hcli : cliCores (c.cli.recoverHostTransfer envelope group).2 =
        stepCores (HandoffState.groupTransferred group envelope auth &&
          HandoffState.commits offer envelope auth) (acceptedCore offer) (cliCores c.cli) := by
      unfold HandoffState.recoverHostTransfer HandoffState.acceptCommitted stepCores
      simp only [hauth, hoffer]
      rcases HandoffState.groupTransferred group envelope auth with _ | _
      · rfl
      · rcases HandoffState.commits offer envelope auth with _ | _
        · rfl
        · exact cliCores_put h.nodup _
    have hdesktop : desktopCores (c.desktop.recoverAuthenticatedHostTransfer envelope group) =
        stepCores (committedTransferMatchesOffer envelope group auth handoff)
          (acceptedCore offer) (desktopCores c.desktop) := by
      unfold HostHandoffs.recoverAuthenticatedHostTransfer stepCores
      simp only [hauth, hhandoff]
      split
      · exact desktopCores_applyAccepted hcore _ _ _
      · rfl
    have hmore : SameOutcome c (.committed envelope group) ↔ (offer.status = .requested →
        (HandoffState.groupTransferred group envelope auth &&
          HandoffState.commits offer envelope auth) = true →
        handoff.fromDeviceId = some auth.outgoingHostDeviceId ∧ rosterNames group auth) := by
      dsimp only [SameOutcome]
      rw [hauth, hcommits, hstatus]
      simp only [Option.mem_some_iff, forall_eq', hhandoff, Bool.and_eq_true, and_imp]
    rw [hmore]
    refine h.accept (by rw [hid, hlookup]) hcli hdesktop ?_ ?_
    · intro haccepts havailable
      simp [HandoffState.commits, havailable] at haccepts
    · rw [hcommits, hstatus]
      simp only [committedTransferMatchesOffer, commitEnvelopeMatchesAuthorization,
        committedGroupMatchesAuthorization, requestedOfferMatchesAuthorization,
        HandoffState.groupTransferred, HandoffState.commits, Bool.and_eq_true, decide_eq_true_eq]
      have hnames'' : HandoffState.names handoff.toHostHandoffPlaintextPayload auth.nextHostUserId
          auth.nextHostDeviceId auth.nextHostLeaf =
          Desktop.names handoff auth.nextHostUserId auth.nextHostDeviceId auth.nextHostLeaf := rfl
      rw [hnames'']
      grind

/-- An offer: the CLI keeps the newest. -/
theorem SameState.offer (h : SameState c) (offer : HostHandoffPlaintextPayload)
    (senderDeviceId : String) :
    (SameOutcome c (.offer offer senderDeviceId) → SameState (c.next (.offer offer senderDeviceId))) ∧
      (¬SameOutcome c (.offer offer senderDeviceId) →
        ¬Agree (c.next (.offer offer senderDeviceId))) := by
  rcases h.found offer.id with ⟨hnone, hnone'⟩ | ⟨known, handoff, hknown, hhandoff, -⟩
  · have hnew : ¬c.desktop.any fun existing ↦ existing.id = offer.id := by
      simpa [HostHandoffs.findHandoff] using hnone'
    have hdesktop : desktopCores (c.desktop.appendHostHandoff offer senderDeviceId) =
        desktopCores c.desktop ++ [{ core offer with status := .available }] := by
      rw [HostHandoffs.appendHostHandoff, if_neg hnew, desktopCores, List.map_append]
      rfl
    have hfresh : offer.id ∉ (cliCores c.cli).map Core.id := by
      intro hmem
      obtain ⟨d, hd, hid⟩ := List.mem_map.mp hmem
      have hlookup : lookup offer.id (cliCores c.cli) = none := by
        rw [lookup_cliCores, hnone]
        rfl
      exact List.find?_eq_none.mp hlookup d hd (by simpa using hid)
    have hoffers : cliCores (c.cli.rememberOffer offer) =
        if c.cli.offers.length < maxHandoffs then
          cliCores c.cli ++ [{ core offer with status := .available }]
        else (cliCores c.cli ++ [{ core offer with status := .available }]).drop 1 := by
      unfold HandoffState.rememberOffer
      rw [hnone]
      by_cases hroom : c.cli.offers.length < maxHandoffs
      · have hfits : ¬maxHandoffs < c.cli.offers.length + 1 := by omega
        rw [if_pos hroom]
        simp [hfits, cliCores, core]
      · have hfull : maxHandoffs < c.cli.offers.length + 1 := by omega
        rw [if_neg hroom]
        simp [hfull, cliCores, core, List.map_tail]
    constructor
    · intro hsame
      have hroom : c.cli.offers.length < maxHandoffs := by
        simpa [SameOutcome, hnone] using hsame
      rw [if_pos hroom] at hoffers
      constructor
      · show cliCores (c.cli.rememberOffer offer) =
          desktopCores (c.desktop.appendHostHandoff offer senderDeviceId)
        rw [hoffers, hdesktop, h.cores]
      · show ((cliCores (c.cli.rememberOffer offer)).map Core.id).Nodup
        rw [hoffers, List.map_append]
        refine List.nodup_append.mpr ⟨h.nodup, List.nodup_singleton _, ?_⟩
        rintro id hid id' hid' rfl
        obtain rfl := List.mem_singleton.mp hid'
        exact hfresh hid
    · intro hnot hagree
      have hfull : ¬c.cli.offers.length < maxHandoffs := fun hroom ↦ hnot (.inr hroom)
      rw [if_neg hfull] at hoffers
      -- The first offer is gone on the CLI alone.
      rcases hcores : cliCores c.cli with _ | ⟨first, rest⟩
      · have hempty : c.cli.offers = [] := List.map_eq_nil_iff.mp hcores
        rw [hempty] at hfull
        exact hfull (by decide)
      have hnodup := h.nodup
      rw [hcores] at hoffers hfresh hnodup
      have hfirst : first.id ≠ offer.id := fun heq ↦ hfresh (by simp [heq])
      have hgone : lookup first.id (cliCores (c.cli.rememberOffer offer)) = none := by
        rw [hoffers]
        refine List.find?_eq_none.mpr fun d hd ↦ ?_
        rcases List.mem_append.mp (show d ∈ rest ++ _ from hd) with hrest | hlast
        · have hne : d.id ≠ first.id := fun heq ↦
            (List.nodup_cons.mp hnodup).1 (heq ▸ List.mem_map_of_mem hrest)
          simpa using hne
        · rw [List.mem_singleton.mp hlast]
          have hne : offer.id ≠ first.id := hfirst.symm
          simp [core, hne]
      have hkept : lookup first.id
          (desktopCores (c.desktop.appendHostHandoff offer senderDeviceId)) = some first := by
        rw [hdesktop, ← h.cores, hcores]
        simp [lookup]
      have hid := agree_iff_cores.mp hagree first.id
      simp only [Clients.next, hgone, hkept, Option.map_none, Option.map_some] at hid
      exact nomatch hid
  · have hold : (c.desktop.any fun existing ↦ existing.id = offer.id) = true := by
      rw [List.any_eq_true]
      have hid : handoff.id = offer.id := by simpa using List.find?_some hhandoff
      exact ⟨handoff, List.mem_of_find?_eq_some hhandoff, by simpa using hid⟩
    have hnext : c.next (.offer offer senderDeviceId) = c := by
      simp only [Clients.next, HandoffState.rememberOffer, hknown, Option.isSome_some, if_true,
        HostHandoffs.appendHostHandoff, hold]
    rw [hnext]
    exact ⟨fun _ ↦ h, fun hnot ↦ (hnot (.inl (by rw [hknown]; rfl))).elim⟩

/-- **One event.** -/
theorem SameState.next (h : SameState c) (event : HandoffEvent) :
    (SameOutcome c event → SameState (c.next event)) ∧
      (¬SameOutcome c event → ¬Agree (c.next event)) := by
  cases event with
  | offer offer senderDeviceId => exact h.offer offer senderDeviceId
  | request request => exact h.request request
  | accepted accepted senderUserId senderDeviceId createdAt =>
    exact h.accepted accepted senderUserId senderDeviceId createdAt
  | committed envelope group => exact h.committed envelope group

end SameState

/-! ### Logs -/

/-- **Both clients, over a log.** From the same state they agree after every event exactly when
every step has the same outcome. -/
theorem agree_iff {c : Clients} (h : SameState c) (events : List HandoffEvent) :
    AgreeThroughout c events ↔ Machine.Along Clients.step SameOutcome c events := by
  induction events generalizing c with
  | nil => simp [AgreeThroughout, Machine.Along]
  | cons event events ih =>
    have hlog : (Machine.run Clients.step c (event :: events)).2 =
        c.next event :: (Machine.run Clients.step (c.next event) events).2 := rfl
    rw [AgreeThroughout, hlog, List.forall_mem_cons, ← AgreeThroughout]
    by_cases hsame : SameOutcome c event
    · have hnext := (h.next event).1 hsame
      rw [ih hnext]
      exact ⟨fun hrest ↦ ⟨hsame, hrest.2⟩, fun hrest ↦ ⟨hnext.agree, hrest.2⟩⟩
    · exact ⟨fun hall ↦ ((h.next event).2 hsame hall.1).elim, fun hall ↦ (hsame hall.1).elim⟩

theorem sameState_empty : SameState {} := ⟨rfl, List.nodup_nil⟩

instance (c : Clients) (event : HandoffEvent) : Decidable (SameOutcome c event) := by
  cases event <;> unfold SameOutcome <;> infer_instance

/-! ### One device at two leaves -/

/-- A device that asks at one leaf, and again after it has joined at another. -/
def candidateAt (leaf : ℕ) : CandidateBinding :=
  { userId := ⟨"user-next", by decide⟩, deviceId := ⟨"device-next", by decide⟩, leaf }

def transferTo (leaf : ℕ) : MlsRelayMessage :=
  { id := "commit", teamId := "team-1", roomId := "room-1", senderDeviceId := "device-host"
    senderUserId := "user-host", createdAt := "2026-07-20T00:01:00.000Z", messageType := .commit
    epochHint := 1, mlsMessage := "AA==", commitEffect := some .hostHandoff
    nextHostUserId := some "user-next", nextHostDeviceId := some "device-next"
    hostTransferAuthorization := some
      { version := 2, transferId := "offer-1", roomId := "room-1", commitMessageId := "commit"
        parentEpoch := 1, outgoingHostUserId := "user-host"
        outgoingHostDeviceId := "device-host", nextHostUserId := "user-next"
        nextHostDeviceId := "device-next", nextHostLeaf := leaf, signatureDer := "AA=="
        publicKeySpkiDer := "AA==" } }

/-- An offer, requests of one device at two leaves, and the transfer to the second. -/
def handoffTo (first second : ℕ) : List HandoffEvent :=
  [.offer { id := "offer-1", fromUserId := "user-host", status := .available } "device-host",
    .request ⟨"offer-1", candidateAt first⟩, .request ⟨"offer-1", candidateAt second⟩,
    .committed (transferTo second) { roster := [⟨second, "user-next", "device-next"⟩], epoch := 2
                                     hostLeaf := second, hostDeviceId := "device-next"
                                     hostTransferId := some "offer-1" }]

/-- Leaves with one digit are in the same order as numbers and as texts. -/
theorem agree_handoffTo_two_one : AgreeThroughout {} (handoffTo 2 1) :=
  (agree_iff sameState_empty (handoffTo 2 1)).mpr (by decide)

/-- Nine comes before ten as a number and after it as a text: the Commit that makes the device at
leaf nine the host is accepted by the CLI alone. -/
theorem not_agree_handoffTo_ten_nine : ¬AgreeThroughout {} (handoffTo 10 9) := by
  intro hall
  have hlast := hall (Machine.run Clients.step {} (handoffTo 10 9)).1 (by
    show _ ∈ [_, _, _, _]
    simp [Machine.run, handoffTo, Clients.step])
  have hshown := hlast "offer-1"
  revert hshown
  decide

end MultAIplayer.Handoff
