import MultAIplayer.Desktop.HostHandoffs
import MultAIplayer.Lib.Machine

/-!
# The candidate of a handoff

Which candidate an offer ends up with, and what an accepted handoff can still become.

A request is taken when its key comes before that of the candidate so far, so the requests of a log
come to the least key whatever their order and however often each of them comes (`Selects`). That
takes keys that tell candidates apart: the ids are joined by the character `\0`, and a candidate
whose id has one in it can share its key with another (`candidateKey_inj`).

The transition of an acceptance checks nothing. What reaches it is matched against offers that are
requested, so that no event of a room changes an accepted handoff, its mark for the patch apart
(`frozen_of_accepted`).
-/

namespace MultAIplayer.Desktop

/-! ### Requests -/

/-- The requests of a log, in their order. -/
def requestAll (offer : HostHandoffRecord) (candidates : List CandidateBinding) :
    HostHandoffRecord :=
  candidates.foldl (fun offer candidate ↦
    transitionHostHandoffRecord offer (.candidateRequested candidate)) offer

namespace HostHandoffRecord

variable (offer : HostHandoffRecord)

/-- The candidate so far. -/
def candidate : Option CandidateBinding :=
  candidateOf offer.candidateUserId offer.candidateDeviceId offer.candidateLeaf

/-- The offer with a candidate. -/
def requestedBy (candidate : CandidateBinding) : HostHandoffRecord :=
  { offer with
    candidateUserId := some candidate.userId
    candidateDeviceId := some candidate.deviceId
    candidateLeaf := some candidate.leaf
    status := .requested }

/-- A candidate comes before the one so far. -/
@[grind =] def Prefers (candidate : CandidateBinding) : Prop :=
  ∀ current ∈ offer.candidate, candidateKey candidate < candidateKey current

end HostHandoffRecord

/-- What requests make of an offer: it has the candidate with the least key, if one of them comes
before its own. -/
def Selects (offer : HostHandoffRecord) (candidates : List CandidateBinding)
    (result : HostHandoffRecord) : Prop :=
  (result = offer ∧ ∀ candidate ∈ candidates, ¬offer.Prefers candidate) ∨
    ∃ candidate ∈ candidates, offer.Prefers candidate ∧
      (∀ other ∈ candidates, candidateKey candidate ≤ candidateKey other) ∧
      result = offer.requestedBy candidate

section Requests

variable {offer : HostHandoffRecord} {candidate : CandidateBinding}

theorem candidate_requestedBy : (offer.requestedBy candidate).candidate = some candidate := rfl

theorem requestedBy_requestedBy (other : CandidateBinding) :
    (offer.requestedBy candidate).requestedBy other = offer.requestedBy other := rfl

theorem textLe_iff {a b : CandidateBinding} :
    textLe a b = true ↔ candidateKey a ≤ candidateKey b :=
  decide_eq_true_iff

/-- A request to an offer that is open. -/
theorem transition_open (hopen : offer.status ≠ .accepted) :
    transitionHostHandoffRecord offer (.candidateRequested candidate) =
      if offer.candidate = some (preferredHostCandidate offer.candidate candidate) then offer
      else offer.requestedBy candidate := by
  have hstatus : ¬(offer.status ≠ .available ∧ offer.status ≠ .requested) := by
    intro h
    rcases hs : offer.status with _ | _ | _
    · exact h.1 hs
    · exact h.2 hs
    · exact hopen hs
  exact if_neg hstatus

/-- A request is taken when it is preferred. -/
theorem transition_candidateRequested (hopen : offer.status ≠ .accepted) :
    (offer.Prefers candidate ∧ transitionHostHandoffRecord offer (.candidateRequested candidate) =
      offer.requestedBy candidate) ∨
    (¬offer.Prefers candidate ∧
      transitionHostHandoffRecord offer (.candidateRequested candidate) = offer) := by
  rw [transition_open hopen]
  rcases hcurrent : offer.candidate with _ | current
  · refine .inl ⟨fun current h ↦ ?_, if_neg nofun⟩
    rw [hcurrent] at h
    cases h
  · have hprefers : offer.Prefers candidate ↔ candidateKey candidate < candidateKey current := by
      simp [HostHandoffRecord.Prefers, hcurrent]
    by_cases hle : candidateKey current ≤ candidateKey candidate
    · have hkeep : preferredHostCandidate (some current) candidate = current :=
        if_pos (textLe_iff.mpr hle)
      refine .inr ⟨fun h ↦ absurd (hprefers.mp h) (not_lt.mpr hle), ?_⟩
      rw [hkeep, if_pos rfl]
    · have hkeep : preferredHostCandidate (some current) candidate = candidate :=
        if_neg (mt textLe_iff.mp hle)
      refine .inl ⟨hprefers.mpr (not_le.mp hle), ?_⟩
      rw [hkeep]
      refine if_neg fun heq ↦ hle ?_
      rw [Option.some.inj heq]

theorem requestAll_of_accepted (h : offer.status = .accepted) (candidates : List CandidateBinding) :
    requestAll offer candidates = offer := by
  induction candidates with
  | nil => rfl
  | cons candidate candidates ih =>
    have hkept : transitionHostHandoffRecord offer (.candidateRequested candidate) = offer := by
      unfold transitionHostHandoffRecord
      exact if_pos (by rw [h]; decide)
    show requestAll (transitionHostHandoffRecord offer _) candidates = offer
    rw [hkept, ih]

/-- **The least key is selected**, over every log of requests. -/
theorem selects_requestAll (hopen : offer.status ≠ .accepted) (candidates : List CandidateBinding) :
    Selects offer candidates (requestAll offer candidates) := by
  induction candidates generalizing offer with
  | nil => exact .inl ⟨rfl, nofun⟩
  | cons first rest ih =>
    show Selects offer (first :: rest)
      (requestAll (transitionHostHandoffRecord offer (.candidateRequested first)) rest)
    rcases transition_candidateRequested hopen with ⟨hfirst, hstep⟩ | ⟨hfirst, hstep⟩
    · rw [hstep]
      have hlater : ∀ other, (offer.requestedBy first).Prefers other ↔
          candidateKey other < candidateKey first := by
        intro other
        simp [HostHandoffRecord.Prefers, candidate_requestedBy]
      have hopen' : (offer.requestedBy first).status ≠ .accepted := nofun
      rcases ih hopen' with ⟨hresult, hnone⟩ | ⟨best, hbest, hprefers, hleast, hresult⟩
      · refine .inr ⟨first, List.mem_cons_self, hfirst, ?_, hresult⟩
        refine List.forall_mem_cons.mpr ⟨le_rfl, fun other hother ↦ ?_⟩
        exact not_lt.mp (mt (hlater other).mpr (hnone other hother))
      · have hlt := (hlater best).mp hprefers
        refine .inr ⟨best, List.mem_cons_of_mem _ hbest, ?_, ?_, hresult⟩
        · exact fun current hcurrent ↦ hlt.trans (hfirst current hcurrent)
        · exact List.forall_mem_cons.mpr ⟨hlt.le, hleast⟩
    · rw [hstep]
      rcases ih hopen with ⟨hresult, hnone⟩ | ⟨best, hbest, hprefers, hleast, hresult⟩
      · exact .inl ⟨hresult, List.forall_mem_cons.mpr ⟨hfirst, hnone⟩⟩
      · refine .inr ⟨best, List.mem_cons_of_mem _ hbest, hprefers, ?_, hresult⟩
        refine List.forall_mem_cons.mpr ⟨le_of_not_gt fun hlt ↦ hfirst ?_, hleast⟩
        exact fun current hcurrent ↦ hlt.trans (hprefers current hcurrent)

/-- Different candidates have different keys. -/
def KeysTellApart (candidates : List CandidateBinding) : Prop :=
  ∀ a ∈ candidates, ∀ b ∈ candidates, candidateKey a = candidateKey b → a = b

/-- What is selected depends on which requests there are. -/
theorem Selects.unique {candidates candidates' : List CandidateBinding}
    {result result' : HostHandoffRecord} (hkeys : KeysTellApart candidates)
    (hsame : ∀ candidate, candidate ∈ candidates ↔ candidate ∈ candidates')
    (h : Selects offer candidates result) (h' : Selects offer candidates' result') :
    result = result' := by
  rcases h with ⟨rfl, hnone⟩ | ⟨best, hbest, hprefers, hleast, rfl⟩ <;>
    rcases h' with ⟨rfl, hnone'⟩ | ⟨best', hbest', hprefers', hleast', rfl⟩
  · rfl
  · exact absurd hprefers' (hnone best' ((hsame best').mpr hbest'))
  · exact absurd hprefers (hnone' best ((hsame best).mp hbest))
  · have hboth := le_antisymm (hleast best' ((hsame best').mpr hbest'))
      (hleast' best ((hsame best).mp hbest))
    rw [hkeys best hbest best' ((hsame best').mpr hbest') hboth]

theorem requestAll_eq {candidates candidates' : List CandidateBinding}
    (hkeys : KeysTellApart candidates)
    (hsame : ∀ candidate, candidate ∈ candidates ↔ candidate ∈ candidates') :
    requestAll offer candidates = requestAll offer candidates' := by
  by_cases haccepted : offer.status = .accepted
  · rw [requestAll_of_accepted haccepted, requestAll_of_accepted haccepted]
  · exact (selects_requestAll haccepted candidates).unique hkeys hsame
      (selects_requestAll haccepted candidates')

end Requests

/-! ### Keys -/

/-- What stands before the first separator, and what after it. -/
theorem append_zero_inj {l l' r r' : List ℕ} (h : 0 ∉ l) (h' : 0 ∉ l')
    (heq : l ++ 0 :: r = l' ++ 0 :: r') : l = l' ∧ r = r' := by
  induction l generalizing l' with
  | nil =>
    rcases l' with _ | ⟨n, l'⟩
    · exact ⟨rfl, List.cons_injective heq⟩
    · exact absurd (List.mem_cons.mpr (.inl (List.cons.inj heq).1)) h'
  | cons n l ih =>
    rcases l' with _ | ⟨n', l'⟩
    · exact absurd (List.mem_cons.mpr (.inl (List.cons.inj heq).1.symm)) h
    · obtain ⟨rfl, hrest⟩ := List.cons.inj heq
      obtain ⟨rfl, rfl⟩ := ih (mt (List.mem_cons_of_mem n) h) (mt (List.mem_cons_of_mem n) h') hrest
      exact ⟨rfl, rfl⟩

/-- Ids without the separator. -/
def CandidateBinding.IsPlain (candidate : CandidateBinding) : Prop :=
  '\x00' ∉ candidate.userId.1.toList ∧ '\x00' ∉ candidate.deviceId.1.toList

/-- **Keys of plain ids tell candidates apart.** -/
theorem candidateKey_inj {a b : CandidateBinding} (ha : CandidateBinding.IsPlain a)
    (hb : CandidateBinding.IsPlain b) (h : candidateKey a = candidateKey b) : a = b := by
  unfold candidateKey at h
  rw [List.append_assoc, List.append_assoc] at h
  obtain ⟨huser, hrest⟩ := append_zero_inj (Text.zero_not_mem_utf16Units ha.1)
    (Text.zero_not_mem_utf16Units hb.1) h
  obtain ⟨hdevice, hleaf⟩ := append_zero_inj (Text.zero_not_mem_utf16Units ha.2)
    (Text.zero_not_mem_utf16Units hb.2) hrest
  have hdigits : Nat.toDigits 10 a.leaf = Nat.toDigits 10 b.leaf := by
    have htext := congrArg String.toList (Text.utf16Units_injective hleaf)
    simpa using htext
  have hleaves : a.leaf = b.leaf := by
    rw [← Nat.ofDigitChars_ten_toDigits (n := a.leaf), hdigits, Nat.ofDigitChars_ten_toDigits]
  cases a
  cases b
  simp only [CandidateBinding.mk.injEq]
  exact ⟨Subtype.ext (Text.utf16Units_injective huser),
    Subtype.ext (Text.utf16Units_injective hdevice), hleaves⟩

theorem keysTellApart_of_isPlain {candidates : List CandidateBinding}
    (h : ∀ candidate ∈ candidates, CandidateBinding.IsPlain candidate) :
    KeysTellApart candidates :=
  fun a ha b hb ↦ candidateKey_inj (h a ha) (h b hb)

/-! ### Acceptances -/

/-- What an acceptance settles: the status, the candidate and the acceptor. -/
structure HostHandoffRecord.SameDecision (a b : HostHandoffRecord) : Prop where
  status : a.status = b.status
  candidateUserId : a.candidateUserId = b.candidateUserId
  candidateDeviceId : a.candidateDeviceId = b.candidateDeviceId
  candidateLeaf : a.candidateLeaf = b.candidateLeaf
  acceptedByUserId : a.acceptedByUserId = b.acceptedByUserId
  acceptedAt : a.acceptedAt = b.acceptedAt

theorem HostHandoffRecord.SameDecision.rfl {a : HostHandoffRecord} : a.SameDecision a :=
  ⟨Eq.refl _, Eq.refl _, Eq.refl _, Eq.refl _, Eq.refl _, Eq.refl _⟩

theorem HostHandoffRecord.SameDecision.trans {a b c : HostHandoffRecord} (h : a.SameDecision b)
    (h' : b.SameDecision c) : a.SameDecision c where
  status := h.status.trans h'.status
  candidateUserId := h.candidateUserId.trans h'.candidateUserId
  candidateDeviceId := h.candidateDeviceId.trans h'.candidateDeviceId
  candidateLeaf := h.candidateLeaf.trans h'.candidateLeaf
  acceptedByUserId := h.acceptedByUserId.trans h'.acceptedByUserId
  acceptedAt := h.acceptedAt.trans h'.acceptedAt

section Transitions

variable {offer : HostHandoffRecord}

theorem transition_id (transition : HostHandoffRecordTransition) :
    (transitionHostHandoffRecord offer transition).id = offer.id := by
  unfold transitionHostHandoffRecord
  split
  · split
    · rfl
    · dsimp only
      split <;> rfl
  · rfl
  · split <;> rfl

/-- Only an acceptance that names one changes the acceptor. -/
theorem sameDecision_transition (h : offer.status = .accepted)
    {transition : HostHandoffRecordTransition}
    (hunnamed : ∀ acceptedByUserId acceptedAt,
      transition = .transferCommitted acceptedByUserId acceptedAt →
        acceptedByUserId = none ∧ acceptedAt = none) :
    (transitionHostHandoffRecord offer transition).SameDecision offer := by
  rcases transition with candidate | ⟨acceptedByUserId, acceptedAt⟩ | _
  · have hkept := requestAll_of_accepted h [candidate]
    rw [show transitionHostHandoffRecord offer (.candidateRequested candidate) = offer from hkept]
    exact .rfl
  · obtain ⟨rfl, rfl⟩ := hunnamed _ _ rfl
    exact ⟨h.symm, rfl, rfl, rfl, rfl, rfl⟩
  · unfold transitionHostHandoffRecord
    dsimp only
    split
    · exact .rfl
    · exact ⟨rfl, rfl, rfl, rfl, rfl, rfl⟩

/-- The mark for the patch stands at an accepted handoff. -/
def HostHandoffRecord.MarkedWhenAccepted (offer : HostHandoffRecord) : Prop :=
  offer.patchAppliedLocally = true → offer.status = .accepted

theorem markedWhenAccepted_transition (h : offer.MarkedWhenAccepted)
    (transition : HostHandoffRecordTransition) :
    (transitionHostHandoffRecord offer transition).MarkedWhenAccepted := by
  rcases transition with candidate | ⟨acceptedByUserId, acceptedAt⟩ | _
  · by_cases haccepted : offer.status = .accepted
    · have hkept := requestAll_of_accepted haccepted [candidate]
      rw [show transitionHostHandoffRecord offer (.candidateRequested candidate) = offer from hkept]
      exact h
    · rcases @transition_candidateRequested offer candidate haccepted with
        ⟨-, hstep⟩ | ⟨-, hstep⟩
      · rw [hstep]
        exact fun hmark ↦ absurd (h hmark) haccepted
      · rw [hstep]
        exact h
  · exact fun _ ↦ rfl
  · unfold transitionHostHandoffRecord
    dsimp only
    split
    · exact h
    · next hopen =>
      have haccepted : offer.status = .accepted := by
        by_contra hne
        exact hopen (by simp [hne])
      exact fun _ ↦ haccepted

/-- Only the event of the patch sets its mark, and at an accepted handoff. -/
theorem accepted_of_marked {transition : HostHandoffRecordTransition}
    (hunmarked : offer.patchAppliedLocally = false)
    (hmarked : (transitionHostHandoffRecord offer transition).patchAppliedLocally = true) :
    offer.status = .accepted ∧ transition = .patchApplied := by
  rcases transition with candidate | ⟨acceptedByUserId, acceptedAt⟩ | _
  · by_cases haccepted : offer.status = .accepted
    · have hkept := requestAll_of_accepted haccepted [candidate]
      rw [show transitionHostHandoffRecord offer (.candidateRequested candidate) = offer from hkept,
        hunmarked] at hmarked
      cases hmarked
    · rcases @transition_candidateRequested offer candidate haccepted with
        ⟨-, hstep⟩ | ⟨-, hstep⟩
      all_goals
        rw [hstep] at hmarked
        exact absurd (hunmarked.symm.trans hmarked) (by decide)
  · exact absurd (hunmarked.symm.trans hmarked) (by decide)
  · refine ⟨?_, rfl⟩
    by_contra hne
    have hkept : transitionHostHandoffRecord offer .patchApplied = offer :=
      if_pos (by simp [hne])
    rw [hkept, hunmarked] at hmarked
    cases hmarked

end Transitions

/-! ### Events of a room -/

/-- What changes the handoffs of a room. -/
inductive HandoffEvent
  | offered (offer : HostHandoffPlaintextPayload) (senderDeviceId : String)
  | requested (request : HostHandoffRequestPlaintextPayload)
  | acceptanceRouted (accepted : HostHandoffAcceptedPlaintextPayload)
      (senderUserId senderDeviceId createdAt : String)
  | transferRecovered (envelope : MlsRelayMessage) (group : HostGroupState)
  | accepted (handoffId : String)
  | latestAccepted
  | patchApplied (handoffId : String)

namespace HostHandoffs

def handoffEvent (handoffs : HostHandoffs) : HandoffEvent → HostHandoffs
  | .offered offer senderDeviceId => handoffs.appendHostHandoff offer senderDeviceId
  | .requested request => handoffs.markHostHandoffRequested request
  | .acceptanceRouted accepted senderUserId senderDeviceId createdAt =>
    handoffs.routeAccepted accepted senderUserId senderDeviceId createdAt
  | .transferRecovered envelope group => handoffs.recoverAuthenticatedHostTransfer envelope group
  | .accepted handoffId => handoffs.markHostHandoffAccepted handoffId
  | .latestAccepted => handoffs.markLatestHostHandoffAccepted
  | .patchApplied handoffId => handoffs.markHostHandoffPatchApplied handoffId

/-- The events of a room, one after the other. -/
def handoffEvents (handoffs : HostHandoffs) (events : List HandoffEvent) : HostHandoffs :=
  events.foldl handoffEvent handoffs

variable {handoffs : HostHandoffs} {id : String} {offer : HostHandoffRecord}

theorem findHandoff_id (h : handoffs.findHandoff id = some offer) : offer.id = id := by
  have hfound := List.find?_some (p := fun handoff : HostHandoffRecord ↦ handoff.id = id) h
  exact of_decide_eq_true hfound

theorem mem_of_findHandoff (h : handoffs.findHandoff id = some offer) : offer ∈ handoffs :=
  List.mem_of_find?_eq_some h

theorem findHandoff_map {f : HostHandoffRecord → HostHandoffRecord} (hid : ∀ h, (f h).id = h.id) :
    findHandoff (handoffs.map f) id = (handoffs.findHandoff id).map f := by
  unfold findHandoff
  rw [List.find?_map]
  congr 2
  funext handoff
  simp [hid handoff]

theorem findHandoff_put {handoff : HostHandoffRecord} :
    (handoffs.put handoff).findHandoff id = (handoffs.findHandoff id).map fun existing ↦
      if existing.id = handoff.id then handoff else existing := by
  refine findHandoff_map fun existing ↦ ?_
  split
  · next h => exact h.symm
  · rfl

/-- Where a handoff is settled. -/
def SettledAs (handoffs : HostHandoffs) (id : String) (decision : HostHandoffRecord) : Prop :=
  ∃ offer, handoffs.findHandoff id = some offer ∧ offer.SameDecision decision

/-- A step that changes each handoff by itself. -/
theorem settledAs_map {decision : HostHandoffRecord} {f : HostHandoffRecord → HostHandoffRecord}
    (hid : ∀ h, (f h).id = h.id)
    (hf : ∀ offer, offer.status = .accepted → (f offer).SameDecision offer)
    (haccepted : decision.status = .accepted) (h : handoffs.SettledAs id decision) :
    SettledAs (handoffs.map f) id decision := by
  obtain ⟨offer, hfind, hsame⟩ := h
  refine ⟨f offer, ?_, (hf offer (hsame.status.trans haccepted)).trans hsame⟩
  rw [findHandoff_map hid, hfind]
  rfl

/-- A handoff is replaced by one that the same events have led to. -/
theorem settledAs_put {decision handoff found : HostHandoffRecord}
    (hfound : handoffs.findHandoff handoff.id = some found)
    (hput : found.status = .accepted → handoff.SameDecision found)
    (haccepted : decision.status = .accepted) (h : handoffs.SettledAs id decision) :
    (handoffs.put handoff).SettledAs id decision := by
  obtain ⟨offer, hfind, hsame⟩ := h
  unfold SettledAs
  rw [findHandoff_put, hfind, Option.map_some]
  by_cases hid : offer.id = handoff.id
  · have hoffer : offer = found := by
      rw [← hid, findHandoff_id hfind, hfind] at hfound
      exact Option.some.inj hfound
    rw [if_pos hid]
    refine ⟨handoff, rfl, ?_⟩
    exact (hput (hoffer ▸ hsame.status.trans haccepted)).trans (hoffer ▸ hsame)
  · rw [if_neg hid]
    exact ⟨offer, rfl, hsame⟩

/-- **No event of a room changes an accepted handoff**, its mark for the patch apart. -/
theorem settledAs_handoffEvent {decision : HostHandoffRecord}
    (haccepted : decision.status = .accepted) (event : HandoffEvent)
    (h : handoffs.SettledAs id decision) : (handoffs.handoffEvent event).SettledAs id decision := by
  rcases event with ⟨offered, senderDeviceId⟩ | request |
    ⟨accepted, senderUserId, senderDeviceId, createdAt⟩ | ⟨envelope, group⟩ | handoffId | _ |
    handoffId
  · obtain ⟨offer, hfind, hsame⟩ := h
    refine ⟨offer, ?_, hsame⟩
    show findHandoff (handoffs.appendHostHandoff offered senderDeviceId) id = some offer
    unfold appendHostHandoff
    split
    · exact hfind
    · unfold findHandoff
      rw [List.find?_append, show handoffs.find? _ = some offer from hfind]
      rfl
  · show (handoffs.markHostHandoffRequested request).SettledAs id decision
    unfold markHostHandoffRequested
    split
    · exact h
    · next found hfound =>
      refine settledAs_put ?_ (fun hstatus ↦ sameDecision_transition hstatus nofun) haccepted h
      rw [transition_id, findHandoff_id hfound, hfound]
  · show (handoffs.routeAccepted accepted senderUserId senderDeviceId createdAt).SettledAs id decision
    unfold routeAccepted
    split
    · exact h
    · next found hfound =>
      split
      · next hmatches =>
        have hrequested : found.status = .requested := by
          simp only [acceptedHandoffMatchesOffer, Bool.and_eq_true, decide_eq_true_eq] at hmatches
          exact hmatches.1.1.1
        refine settledAs_put (?_ : handoffs.findHandoff _ = some found) (fun hstatus ↦ ?_) haccepted h
        · rw [transition_id]
          exact (findHandoff_id hfound).symm ▸ hfound
        · exact absurd (hrequested.symm.trans hstatus) nofun
      · exact h
  · show (handoffs.recoverAuthenticatedHostTransfer envelope group).SettledAs id decision
    unfold recoverAuthenticatedHostTransfer
    split
    · exact h
    · next authorization _ =>
      split
      · exact h
      · next found hfound =>
        split
        · next hmatches =>
          have hrequested : found.status = .requested := by
            simp only [committedTransferMatchesOffer, requestedOfferMatchesAuthorization,
              Bool.and_eq_true, decide_eq_true_eq] at hmatches
            exact hmatches.2.1.1.1.1
          refine settledAs_put (?_ : handoffs.findHandoff _ = some found) (fun hstatus ↦ ?_) haccepted h
          · rw [transition_id]
            exact (findHandoff_id hfound).symm ▸ hfound
          · exact absurd (hrequested.symm.trans hstatus) nofun
        · exact h
  · refine settledAs_map (fun handoff ↦ ?_) (fun handoff hstatus ↦ ?_) haccepted h
    · split
      · exact transition_id _
      · rfl
    · split
      · refine sameDecision_transition hstatus fun _ _ heq ↦ ?_
        cases heq
        exact ⟨rfl, rfl⟩
      · exact .rfl
  · show (handoffs.markLatestHostHandoffAccepted).SettledAs id decision
    unfold markLatestHostHandoffAccepted
    split
    · exact h
    · refine settledAs_map (fun handoff ↦ ?_) (fun handoff hstatus ↦ ?_) haccepted h
      · split <;> rfl
      · split
        · exact ⟨hstatus.symm, rfl, rfl, rfl, rfl, rfl⟩
        · exact .rfl
  · refine settledAs_map (fun handoff ↦ ?_) (fun handoff hstatus ↦ ?_) haccepted h
    · split
      · exact transition_id _
      · rfl
    · split
      · exact sameDecision_transition hstatus nofun
      · exact .rfl

theorem settledAs_handoffEvents {decision : HostHandoffRecord}
    (haccepted : decision.status = .accepted) (events : List HandoffEvent)
    (h : handoffs.SettledAs id decision) :
    (handoffs.handoffEvents events).SettledAs id decision := by
  induction events generalizing handoffs with
  | nil => exact h
  | cons event events ih => exact ih (settledAs_handoffEvent haccepted event h)

/-- Every mark for a patch stands at an accepted handoff. -/
def MarkedWhenAccepted (handoffs : HostHandoffs) : Prop :=
  ∀ handoff ∈ handoffs, handoff.MarkedWhenAccepted

theorem markedWhenAccepted_map {f : HostHandoffRecord → HostHandoffRecord}
    (hf : ∀ handoff, handoff.MarkedWhenAccepted → (f handoff).MarkedWhenAccepted)
    (h : handoffs.MarkedWhenAccepted) : MarkedWhenAccepted (handoffs.map f) := by
  intro handoff hmem
  obtain ⟨before, hbefore, rfl⟩ := List.mem_map.mp hmem
  exact hf before (h before hbefore)

theorem markedWhenAccepted_put {handoff : HostHandoffRecord} (hput : handoff.MarkedWhenAccepted)
    (h : handoffs.MarkedWhenAccepted) : (handoffs.put handoff).MarkedWhenAccepted := by
  refine markedWhenAccepted_map (fun existing hexisting ↦ ?_) h
  split
  · exact hput
  · exact hexisting

theorem markedWhenAccepted_handoffEvent (event : HandoffEvent) (h : handoffs.MarkedWhenAccepted) :
    (handoffs.handoffEvent event).MarkedWhenAccepted := by
  rcases event with ⟨offered, senderDeviceId⟩ | request |
    ⟨accepted, senderUserId, senderDeviceId, createdAt⟩ | ⟨envelope, group⟩ | handoffId | _ |
    handoffId
  · show (handoffs.appendHostHandoff offered senderDeviceId).MarkedWhenAccepted
    unfold appendHostHandoff
    split
    · exact h
    · refine List.forall_mem_append.mpr ⟨h, List.forall_mem_singleton.mpr nofun⟩
  · show (handoffs.markHostHandoffRequested request).MarkedWhenAccepted
    unfold markHostHandoffRequested
    split
    · exact h
    · next found hfound =>
      have hbefore := h found (mem_of_findHandoff hfound)
      exact markedWhenAccepted_put (markedWhenAccepted_transition hbefore _) h
  · show (handoffs.routeAccepted accepted senderUserId senderDeviceId createdAt).MarkedWhenAccepted
    unfold routeAccepted
    split
    · exact h
    · split
      · exact markedWhenAccepted_put (fun _ ↦ rfl) h
      · exact h
  · show (handoffs.recoverAuthenticatedHostTransfer envelope group).MarkedWhenAccepted
    unfold recoverAuthenticatedHostTransfer
    split
    · exact h
    · split
      · exact h
      · split
        · exact markedWhenAccepted_put (fun _ ↦ rfl) h
        · exact h
  · refine markedWhenAccepted_map (fun handoff hhandoff ↦ ?_) h
    split
    · exact markedWhenAccepted_transition hhandoff _
    · exact hhandoff
  · show (handoffs.markLatestHostHandoffAccepted).MarkedWhenAccepted
    unfold markLatestHostHandoffAccepted
    split
    · exact h
    · refine markedWhenAccepted_map (fun handoff hhandoff ↦ ?_) h
      split
      · exact fun _ ↦ rfl
      · exact hhandoff
  · refine markedWhenAccepted_map (fun handoff hhandoff ↦ ?_) h
    split
    · exact markedWhenAccepted_transition hhandoff _
    · exact hhandoff

theorem markedWhenAccepted_handoffEvents (events : List HandoffEvent)
    (h : handoffs.MarkedWhenAccepted) : (handoffs.handoffEvents events).MarkedWhenAccepted := by
  induction events generalizing handoffs with
  | nil => exact h
  | cons event events ih => exact ih (markedWhenAccepted_handoffEvent event h)

end HostHandoffs

/-! ### The result -/

/-- **Candidates converge and acceptances last.** The requests come to the candidate with the least
key, whatever their order and however often they come, if different candidates have different keys.
No later event of a room changes what an acceptance has settled, and the mark for the patch stands
at accepted handoffs only. -/
theorem candidate_selection_converges :
    (∀ (offer : HostHandoffRecord) (candidates candidates' : List CandidateBinding),
      KeysTellApart candidates → (∀ candidate, candidate ∈ candidates ↔ candidate ∈ candidates') →
      requestAll offer candidates = requestAll offer candidates' ∧
        (offer.status ≠ .accepted → Selects offer candidates (requestAll offer candidates)) ∧
        (offer.status = .accepted → requestAll offer candidates = offer)) ∧
    (∀ candidates : List CandidateBinding,
      (∀ candidate ∈ candidates, CandidateBinding.IsPlain candidate) → KeysTellApart candidates) ∧
    (∀ (handoffs : HostHandoffs) (id : String) (offer : HostHandoffRecord)
      (events : List HandoffEvent),
      handoffs.findHandoff id = some offer → offer.status = .accepted →
      ∃ settled, (handoffs.handoffEvents events).findHandoff id = some settled ∧
        settled.SameDecision offer) ∧
    (∀ (offer : HostHandoffRecord) (transition : HostHandoffRecordTransition),
      offer.patchAppliedLocally = false →
      (transitionHostHandoffRecord offer transition).patchAppliedLocally = true →
      offer.status = .accepted ∧ transition = .patchApplied) ∧
    ∀ (handoffs : HostHandoffs) (events : List HandoffEvent),
      handoffs.MarkedWhenAccepted → (handoffs.handoffEvents events).MarkedWhenAccepted := by
  refine ⟨fun offer candidates candidates' hkeys hsame ↦ ⟨requestAll_eq hkeys hsame, ?_, ?_⟩,
    fun _ ↦ keysTellApart_of_isPlain, ?_, fun _ _ ↦ accepted_of_marked, ?_⟩
  · exact fun hopen ↦ selects_requestAll hopen candidates
  · exact fun haccepted ↦ requestAll_of_accepted haccepted candidates
  · intro handoffs id offer events hfind haccepted
    exact HostHandoffs.settledAs_handoffEvents haccepted events ⟨offer, hfind, .rfl⟩
  · exact fun _ events ↦ HostHandoffs.markedWhenAccepted_handoffEvents events

/-- An offer that nobody has answered. -/
private def sampleOffer : HostHandoffRecord where
  id := "offer-1"
  fromUserId := "user-host"
  fromDeviceId := some "device-host"
  status := .available

/-- A candidate by its ids and its leaf. -/
private def sampleCandidate (userId deviceId : MemberId) (leaf : ℕ) : CandidateBinding :=
  { userId, deviceId, leaf }

theorem candidate_selection_converges_two :
    requestAll sampleOffer [sampleCandidate ⟨"user-b", by decide⟩ ⟨"device-b", by decide⟩ 2,
        sampleCandidate ⟨"user-a", by decide⟩ ⟨"device-a", by decide⟩ 1] =
      requestAll sampleOffer [sampleCandidate ⟨"user-a", by decide⟩ ⟨"device-a", by decide⟩ 1,
        sampleCandidate ⟨"user-b", by decide⟩ ⟨"device-b", by decide⟩ 2] ∧
    ∃ settled, (HostHandoffs.handoffEvents
        [{ sampleOffer with status := .accepted, acceptedByUserId := some "user-a" }]
        [.requested ⟨"offer-1", sampleCandidate ⟨"user-b", by decide⟩ ⟨"device-b", by decide⟩ 2⟩,
          .patchApplied "offer-1"]).findHandoff "offer-1" = some settled ∧
      settled.acceptedByUserId = some "user-a" := by
  have hkeys : KeysTellApart
      [sampleCandidate ⟨"user-b", by decide⟩ ⟨"device-b", by decide⟩ 2,
        sampleCandidate ⟨"user-a", by decide⟩ ⟨"device-a", by decide⟩ 1] := by
    unfold KeysTellApart
    decide
  refine ⟨(candidate_selection_converges.1 _ _ _ hkeys ?_).1, ?_⟩
  · intro candidate
    simp [or_comm]
  · obtain ⟨settled, hfind, hsame⟩ := candidate_selection_converges.2.2.1
      [{ sampleOffer with status := .accepted, acceptedByUserId := some "user-a" }] "offer-1" _
      [.requested ⟨"offer-1", sampleCandidate ⟨"user-b", by decide⟩ ⟨"device-b", by decide⟩ 2⟩,
        .patchApplied "offer-1"] rfl rfl
    exact ⟨settled, hfind, hsame.acceptedByUserId⟩

/-- Two candidates of one key are told apart by their order, and an acceptance that comes to the
transition by itself names another acceptor. -/
theorem candidates_with_separator_differ :
    requestAll sampleOffer
        [sampleCandidate ⟨"user", by decide⟩ ⟨"device-1\x00device-2", by decide⟩ 1,
          sampleCandidate ⟨"user\x00device-1", by decide⟩ ⟨"device-2", by decide⟩ 1] ≠
      requestAll sampleOffer
        [sampleCandidate ⟨"user\x00device-1", by decide⟩ ⟨"device-2", by decide⟩ 1,
          sampleCandidate ⟨"user", by decide⟩ ⟨"device-1\x00device-2", by decide⟩ 1] ∧
    ¬(transitionHostHandoffRecord
        { sampleOffer with status := .accepted, acceptedByUserId := some "user-a" }
        (.transferCommitted (some "user-b"))).SameDecision
      { sampleOffer with status := .accepted, acceptedByUserId := some "user-a" } := by
  refine ⟨by decide, fun h ↦ ?_⟩
  have hacceptor := h.acceptedByUserId
  revert hacceptor
  decide

end MultAIplayer.Desktop
