import MultAIplayer.Mls.Operations

/-!
# Host authority

A Commit that the rules accept comes from the host, and a room that has accepted it has a host who
is a member. The rules see the roster before the Commit, where a next host may still be a member
whom the same Commit removes; it is `process_incoming` that looks at the roster after it.
-/

namespace MultAIplayer.Mls

variable {K : Type} {lib : Libraries K} {call : Call} {e e' : Engine K} {roomId : String}

namespace Engine

/-! ### Processing a message -/

/-- A message that is processed without an error is an echo, or mls-rs has processed it. -/
theorem processIncoming_eq_ok {message : Bytes} {output : Option ApplicationOutput}
    (h : e.processIncoming lib call roomId message = (e', .ok output)) :
    e' = e ∨ ∃ g received g' hintedEpoch, e.groups.get roomId = some g ∧
      g.processIncomingMessage lib.toMlsRs message = some (received, g') ∧
      e.applyReceived lib call roomId hintedEpoch received g' = (e', .ok output) := by
  obtain ⟨error, -, hattempt⟩ | ⟨prepared, hprepared, hattempt⟩ :=
    attempt_cases (e := e) (e.prepareIncoming lib call roomId message)
      (e.finishIncoming lib call roomId)
  · cases hattempt.symm.trans h
  have hfinish : e.finishIncoming lib call roomId prepared = (e', .ok output) := hattempt.symm.trans h
  cases prepared with
  | none =>
    cases hfinish
    exact .inl rfl
  | some prepared =>
    obtain ⟨hintedEpoch, received, g'⟩ := prepared
    obtain ⟨g, hgroup, hprocess, -⟩ := prepareIncoming_eq_ok hprepared
    exact .inr ⟨g, received, g', hintedEpoch, hgroup, hprocess, hfinish⟩

theorem applyReceivedCommit_eq_ok {g : Group K} {output : Option ApplicationOutput}
    (h : e.applyReceivedCommit lib call roomId g = (e', .ok output)) :
    ∃ host, g.validateHost lib.toMlsRs = .ok host ∧ e'.groups.get roomId = some g.written ∧
      e'.hosts.get roomId = some host := by
  unfold applyReceivedCommit at h
  dsimp only at h
  split at h
  · cases h
  rename_i host hhost
  split at h
  · cases h
  split at h
  · cases h
  · rename_i hwrite
    obtain ⟨storage, s, -, -, rfl⟩ := stageThenWrite_eq_ok hwrite
    cases h
    exact ⟨host, hhost, by simp, by simp⟩

end Engine

namespace Group

variable {g g' : Group K} {message : Bytes}

/-- An application message changes nothing that the host depends on. -/
theorem validateHost_of_application {sender : ℕ} {authenticatedData data : Bytes}
    (h : g.processIncomingMessage lib.toMlsRs message =
      some (.applicationMessage sender authenticatedData data, g')) :
    g'.validateHost lib.toMlsRs = g.validateHost lib.toMlsRs := by
  have hreceive : g.receive lib.toMlsRs message =
      some (.applicationMessage sender authenticatedData data, g') := by
    unfold processIncomingMessage at h
    split at h
    · split at h
      · cases h
      · exact h
    · exact h
  unfold receive at hreceive
  split at hreceive
  · cases hreceive
  · cases hreceive
    rfl
  · split at hreceive
    · cases hreceive
    split at hreceive
    · cases hreceive
    split at hreceive <;> cases hreceive
  · cases hreceive

/-- What opens as a Commit is processed as one. -/
theorem received_of_commit {source : CommitSource} {proposals : ProposalBundle}
    {received : ReceivedMessage}
    (hopen : lib.openMessage g.toGroupState message = some (.commit source proposals))
    (h : g.processIncomingMessage lib.toMlsRs message = some (received, g')) :
    received = .commit := by
  have hreceive : ∀ r, g.receive lib.toMlsRs message = some (r, g') → r = .commit := by
    intro r hr
    unfold receive at hr
    rw [hopen] at hr
    dsimp only at hr
    split at hr
    · cases hr
    split at hr
    · cases hr
    split at hr
    · cases hr
    · cases hr
      rfl
    · cases hr
      rfl
  unfold processIncomingMessage at h
  split at h
  · split at h
    · cases h
      rfl
    · exact hreceive received h
  · exact hreceive received h

end Group

/-! ### The host of a room -/

namespace Engine

/-- The loaded group of a room has a host, who is a member of it. -/
def HasHost (lib : Libraries K) (e : Engine K) (roomId : String) (host : HostContext) : Prop :=
  ∃ g, e.groups.get roomId = some g ∧ g.validateHost lib.toMlsRs = .ok host ∧
    HostIsMember lib.serde g.epoch.roster host

theorem hasHost_of_validateHost {g : Group K} {host : HostContext}
    (hgroup : e.groups.get roomId = some g) (hvalid : g.validateHost lib.toMlsRs = .ok host) :
    e.HasHost lib roomId host := ⟨g, hgroup, hvalid, validateHost_eq_ok hvalid⟩

/-- **One message.** A message that is processed without an error leaves a room with a host. -/
theorem HasHost.processIncoming {host : HostContext} (h : e.HasHost lib roomId host)
    {message : Bytes} {output : Option ApplicationOutput}
    (hprocess : e.processIncoming lib call roomId message = (e', .ok output)) :
    ∃ next, e'.HasHost lib roomId next := by
  obtain ⟨g, hgroup, hvalid, -⟩ := h
  obtain rfl | ⟨g₀, received, g', hintedEpoch, hgroup', hreceived, happly⟩ :=
    processIncoming_eq_ok hprocess
  · exact ⟨host, hasHost_of_validateHost hgroup hvalid⟩
  obtain rfl : g = g₀ := Option.some.inj (hgroup.symm.trans hgroup')
  cases received with
  | applicationMessage sender authenticatedData data =>
    unfold applyReceived at happly
    dsimp only at happly
    split at happly
    · cases happly
    · rename_i hwrite
      cases happly
      obtain ⟨s, -, rfl⟩ := writeToStorage_eq_ok hwrite
      refine ⟨host, hasHost_of_validateHost (g := g'.written) (by simp) ?_⟩
      exact (Group.validateHost_of_application hreceived).trans hvalid
  | commit =>
    obtain ⟨next, hnext, hwritten, -⟩ := applyReceivedCommit_eq_ok happly
    exact ⟨next, hasHost_of_validateHost hwritten hnext⟩
  | other => cases happly

/-- Messages are processed one after the other as long as every one is accepted. -/
def processAll (lib : Libraries K) (roomId : String) :
    Engine K → List (Call × Bytes) → Option (Engine K)
  | e, [] => some e
  | e, (call, message) :: rest =>
    match e.processIncoming lib call roomId message with
    | (_, .error _) => none
    | (e', .ok _) => processAll lib roomId e' rest

theorem HasHost.processAll {messages : List (Call × Bytes)} {host : HostContext}
    (h : e.HasHost lib roomId host) (hall : Engine.processAll lib roomId e messages = some e') :
    ∃ next, e'.HasHost lib roomId next := by
  induction messages generalizing e host with
  | nil =>
    cases hall
    exact ⟨host, h⟩
  | cons first rest ih =>
    obtain ⟨call, message⟩ := first
    unfold Engine.processAll at hall
    split at hall
    · cases hall
    · rename_i hprocess
      obtain ⟨next, hnext⟩ := h.processIncoming hprocess
      exact ih hnext hall

/-- Bob's engine, in a room that Alice hosts. -/
def hostedByAlice : Group ℕ where
  groupId := "room-1"
  selfIndex := 1
  epoch := ⟨1, [some ⟨some (Plain.credentialJson Plain.alice)⟩,
    some ⟨some (Plain.credentialJson Plain.bob)⟩], hostExtension Plain.serde Plain.hostAlice, 0⟩
  pending := none

def bobEngine : Engine ℕ where
  groups := InsertionMap.empty.set "room-1" hostedByAlice
  hosts := InsertionMap.empty.set "room-1" Plain.hostAlice
  selfDeviceId := "mac-2"
  selfUserId := "2"

end Engine

end MultAIplayer.Mls
