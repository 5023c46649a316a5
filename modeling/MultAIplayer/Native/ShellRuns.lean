import MultAIplayer.Lib.History
import MultAIplayer.Native.ShellAuthorization

/-!
# What shell commands may run

`ShellContract` is what each event owes to the events before it: an execution to the token that was
issued for it, a token to an answer in a dialog or to a grant, a grant to an answer, and a grant that
is used to not having been cleared. `shell_contract` says that every event of every run has paid.

Directories are compared where they are resolved. The token of a request is for the directory that
the dialog has shown unless the file system has changed in between.
-/

namespace MultAIplayer.Native

open History

/-! ### The contract -/

namespace ShellEvent

/-- A token is issued to a call. -/
def issuesTo (call : ℕ) : ShellEvent → Bool
  | issued call' _ _ => call' = call
  | _ => false

/-- A call has been approved, or has found its grant. -/
@[grind =] def entitles (call : ℕ) : ShellEvent → Bool
  | approved call' _ _ | matched call' _ _ _ => call' = call
  | _ => false

def issues (token : String) : ShellEvent → Bool
  | issued _ token' _ => token' = token
  | _ => false

@[grind =] def executes (token : String) : ShellEvent → Bool
  | executed token' _ _ _ _ _ => token' = token
  | _ => false

end ShellEvent

/-- A request was confirmed in a directory, which is the one that its path still stands for unless
the file system has changed. -/
def ConfirmedIn (log : List ShellEvent) (call : ℕ) (request : ShellAuthorizationRequest)
    (reusable : Bool) (resolved : String → Prop) : Prop :=
  ∃ cwd, Since (.reviewed call request cwd) (fun back ↦ .fileSystemChanged ∉ back → resolved cwd)
      log ∧
    Since (.asked call request cwd) (fun back ↦ .approved call request reusable ∈ back) log

/-- A grant was found for a request, in the directory that its path still stands for unless the file
system has changed. -/
def GrantedIn (log : List ShellEvent) (call : ℕ) (request : ShellAuthorizationRequest)
    (resolved : String → Prop) : Prop :=
  ∃ grant now, Since (.matched call request grant now)
    (fun back ↦ .fileSystemChanged ∉ back → resolved grant.cwd) log

/-- What an event owes to the events before it. -/
def ShellContract (before : List ShellEvent) : ShellEvent → Prop
  | .executed token roomId cwd command kind now =>
    (∃ call authorization, .issued call token authorization ∈ before ∧
      authorization.roomId = roomId ∧ authorization.cwd = cwd ∧ authorization.command = command ∧
        authorization.kind = kind ∧ now < authorization.expiresAt) ∧
      before.countP (ShellEvent.executes token) < before.countP (ShellEvent.issues token)
  | .issued call _ authorization =>
    (∃ request : ShellAuthorizationRequest, authorization.roomId = request.roomId ∧
      authorization.command = request.command ∧ authorization.kind = request.kind ∧
        ((∃ reusable, ConfirmedIn before call request reusable (authorization.cwd = ·)) ∨
          GrantedIn before call request (authorization.cwd = ·))) ∧
      before.countP (ShellEvent.issuesTo call) < before.countP (ShellEvent.entitles call)
  | .matched _ request grant now =>
    commandReviewRisk request.command = none ∧ grant.roomId = request.roomId ∧
      grant.command = request.command ∧ now < grant.expiresAt ∧
        ∃ call, Since (.granted call grant) (fun back ↦ .cleared grant.roomId ∉ back) before
  | .granted call grant =>
    ∃ request : ShellAuthorizationRequest, commandReviewRisk request.command = none ∧
      grant.roomId = request.roomId ∧ grant.command = request.command ∧
        ConfirmedIn before call request true (grant.cwd = ·)
  | .approved call request _ => ∃ cwd, .asked call request cwd ∈ before
  | .asked call request cwd => .reviewed call request cwd ∈ before
  | _ => True

/-! ### The invariant -/

/-- A path stands for a directory. -/
def Resolves (fs : FileSystem) (path cwd : String) : Prop := canonicalWorkspace fs path = .ok cwd

/-- What has happened to a suspended command. -/
def PendingJustified (fs : FileSystem) (log : List ShellEvent) (call : ℕ) : Pending → Prop
  | .confirming request cwd =>
    Since (.reviewed call request cwd)
      (fun back ↦ .fileSystemChanged ∉ back → Resolves fs request.cwd cwd) log
  | .asking request cwd =>
    Since (.reviewed call request cwd)
        (fun back ↦ .fileSystemChanged ∉ back → Resolves fs request.cwd cwd) log ∧
      .asked call request cwd ∈ log
  | .granting request =>
    commandReviewRisk request.command = none ∧
      ConfirmedIn log call request true (Resolves fs request.cwd)
  | .issuing request =>
    (∃ reusable, ConfirmedIn log call request reusable (Resolves fs request.cwd)) ∨
      GrantedIn log call request (Resolves fs request.cwd)
  | _ => True

/-- Whether a token is on its way. -/
@[grind =] def Pending.entitled : Option Pending → ℕ
  | some (.granting _) | some (.issuing _) => 1
  | _ => 0

structure ShellInv (s : ShellProcess) (log : List ShellEvent) : Prop where
  justified : Justified ShellContract log
  pending : ∀ call p, s.pending.get call = some p → PendingJustified s.fs log call p
  entitled : ∀ call, log.countP (ShellEvent.issuesTo call) + Pending.entitled (s.pending.get call) ≤
    log.countP (ShellEvent.entitles call)
  grants : ∀ grant ∈ s.state.exactCommandGrants,
    ∃ call, Since (.granted call grant) (fun back ↦ .cleared grant.roomId ∉ back) log
  authorizations : ∀ token authorization, s.state.authorizations.get token = some authorization →
    ∃ call, .issued call token authorization ∈ log
  tokens : ∀ token, log.countP (ShellEvent.executes token) +
    (s.state.authorizations.has token).toNat ≤ log.countP (ShellEvent.issues token)

/-! ### What an event leaves as it was -/

section Snoc

variable {fs fs' : FileSystem} {log : List ShellEvent} {call : ℕ} {e : ShellEvent}
  {request : ShellAuthorizationRequest} {resolved resolved' : String → Prop}

theorem since_unchanged_snoc {e' : ShellEvent} {p q : Prop}
    (h : Since e' (fun back ↦ .fileSystemChanged ∉ back → p) log)
    (hpq : e ≠ .fileSystemChanged → p → q) :
    Since e' (fun back ↦ .fileSystemChanged ∉ back → q) (log ++ [e]) := by
  refine h.snoc fun back hback hnew ↦ ?_
  rw [List.mem_append, List.mem_singleton, not_or] at hnew
  exact hpq (fun he ↦ hnew.2 he.symm) (hback hnew.1)

theorem ConfirmedIn.snoc {reusable : Bool} (h : ConfirmedIn log call request reusable resolved)
    (hresolved : ∀ cwd, e ≠ .fileSystemChanged → resolved cwd → resolved' cwd) :
    ConfirmedIn (log ++ [e]) call request reusable resolved' := by
  obtain ⟨cwd, hreviewed, hasked⟩ := h
  exact ⟨cwd, since_unchanged_snoc hreviewed (hresolved cwd),
    hasked.snoc fun back hback ↦ List.mem_append_left _ hback⟩

theorem GrantedIn.snoc (h : GrantedIn log call request resolved)
    (hresolved : ∀ cwd, e ≠ .fileSystemChanged → resolved cwd → resolved' cwd) :
    GrantedIn (log ++ [e]) call request resolved' := by
  obtain ⟨grant, now, hmatched⟩ := h
  exact ⟨grant, now, since_unchanged_snoc hmatched (hresolved grant.cwd)⟩

theorem ConfirmedIn.mono {reusable : Bool} (h : ConfirmedIn log call request reusable resolved)
    (hresolved : ∀ cwd, resolved cwd → resolved' cwd) :
    ConfirmedIn log call request reusable resolved' := by
  obtain ⟨cwd, hreviewed, hasked⟩ := h
  exact ⟨cwd, hreviewed.mono fun back hback hnew ↦ hresolved cwd (hback hnew), hasked⟩

theorem GrantedIn.mono (h : GrantedIn log call request resolved)
    (hresolved : ∀ cwd, resolved cwd → resolved' cwd) :
    GrantedIn log call request resolved' := by
  obtain ⟨grant, now, hmatched⟩ := h
  exact ⟨grant, now, hmatched.mono fun back hback hnew ↦ hresolved _ (hback hnew)⟩

theorem PendingJustified.snoc {p : Pending} (h : PendingJustified fs log call p)
    (hfs : e ≠ .fileSystemChanged → fs' = fs) : PendingJustified fs' (log ++ [e]) call p := by
  have hresolves : ∀ path cwd, e ≠ .fileSystemChanged → Resolves fs path cwd →
      Resolves fs' path cwd := by
    intro path cwd he hcwd
    rwa [hfs he]
  cases p with
  | confirming request cwd => exact since_unchanged_snoc h (hresolves request.cwd cwd)
  | asking request cwd =>
    exact ⟨since_unchanged_snoc h.1 (hresolves request.cwd cwd), List.mem_append_left _ h.2⟩
  | granting request => exact ⟨h.1, h.2.snoc (hresolves request.cwd)⟩
  | issuing request =>
    exact h.imp (fun ⟨reusable, hconfirmed⟩ ↦ ⟨reusable, hconfirmed.snoc (hresolves request.cwd)⟩)
      fun hgranted ↦ hgranted.snoc (hresolves request.cwd)
  | confirmingRevocation roomId => trivial
  | askingRevocation roomId => trivial
  | revoking roomId => trivial

end Snoc

/-- **What a step has to show.** Suspended commands, grants and tokens are those of before, or the
event accounts for them. -/
theorem ShellInv.snoc {s s' : ShellProcess} {log : List ShellEvent} {e : ShellEvent}
    (h : ShellInv s log) (hcontract : ShellContract log e)
    (hfs : e ≠ .fileSystemChanged → s'.fs = s.fs)
    (hpending : ∀ call p, s'.pending.get call = some p →
      s.pending.get call = some p ∨ PendingJustified s'.fs (log ++ [e]) call p)
    (hentitled : ∀ call, (e.issuesTo call).toNat + Pending.entitled (s'.pending.get call) ≤
      (e.entitles call).toNat + Pending.entitled (s.pending.get call))
    (hgrants : ∀ grant ∈ s'.state.exactCommandGrants,
      grant ∈ s.state.exactCommandGrants ∧ e ≠ .cleared grant.roomId ∨ ∃ call, e = .granted call grant)
    (hauthorizations : ∀ token authorization,
      s'.state.authorizations.get token = some authorization →
        s.state.authorizations.get token = some authorization ∨
          ∃ call, e = .issued call token authorization)
    (htokens : ∀ token, (e.executes token).toNat + (s'.state.authorizations.has token).toNat ≤
      (e.issues token).toNat + (s.state.authorizations.has token).toNat) :
    ShellInv s' (log ++ [e]) where
  justified := justified_snoc h.justified hcontract
  pending call p hp := by
    rcases hpending call p hp with hp | hp
    · exact (h.pending call p hp).snoc hfs
    · exact hp
  entitled call := by
    have hold := h.entitled call
    have hnew := hentitled call
    rw [countP_snoc, countP_snoc]
    omega
  grants grant hgrant := by
    rcases hgrants grant hgrant with ⟨hgrant, he⟩ | ⟨call, rfl⟩
    · obtain ⟨call, hcall⟩ := h.grants grant hgrant
      refine ⟨call, hcall.snoc fun back hback hnew ↦ ?_⟩
      rcases List.mem_append.mp hnew with hnew | hnew
      · exact hback hnew
      · exact he (List.mem_singleton.mp hnew).symm
    · exact ⟨call, since_snoc_self (by simp)⟩
  authorizations token authorization hget := by
    rcases hauthorizations token authorization hget with hget | ⟨call, rfl⟩
    · obtain ⟨call, hcall⟩ := h.authorizations token authorization hget
      exact ⟨call, List.mem_append_left _ hcall⟩
    · exact ⟨call, by simp⟩
  tokens token := by
    have hold := h.tokens token
    have hnew := htokens token
    rw [countP_snoc, countP_snoc]
    omega

/-! ### What each step keeps -/

namespace ShellProcess

variable {s : ShellProcess} {state : ShellAuthorizationState} {call other : ℕ} {p : Pending}

theorem get_pending_finished :
    (s.finished call).pending.get other = if other = call then none else s.pending.get other :=
  InsertionMap.get_delete _ _ _

theorem get_pending_suspended :
    (s.suspended call p).pending.get other = if other = call then some p else s.pending.get other :=
  InsertionMap.get_set _ _ _ _

end ShellProcess

/-- A state with no grants and no tokens but those of another. -/
structure ShellAuthorizationState.Within (state older : ShellAuthorizationState) : Prop where
  grants : ∀ grant ∈ state.exactCommandGrants, grant ∈ older.exactCommandGrants
  authorizations : ∀ token authorization, state.authorizations.get token = some authorization →
    older.authorizations.get token = some authorization

namespace ShellInv

variable {s : ShellProcess} {log : List ShellEvent} {call : ℕ} {p : Pending} {e : ShellEvent}

theorem within {state : ShellAuthorizationState} (h : ShellInv s log)
    (hstate : state.Within s.state) : ShellInv (s.withState state) log where
  justified := h.justified
  pending := h.pending
  entitled := h.entitled
  grants grant hgrant := h.grants grant (hstate.grants grant hgrant)
  authorizations token authorization hget :=
    h.authorizations token authorization (hstate.authorizations token authorization hget)
  tokens token := by
    have hold := h.tokens token
    have hhas : (state.authorizations.has token).toNat ≤
        (s.state.authorizations.has token).toNat := by
      cases hget : state.authorizations.get token with
      | none => simp [InsertionMap.has, hget]
      | some authorization =>
        have hold := hstate.authorizations token authorization hget
        simp [InsertionMap.has, hget, hold]
    simp only [ShellProcess.withState]
    omega

/-- A command goes on with no event, and without a claim to a token. -/
theorem suspended (call : ℕ) (p : Pending) (h : ShellInv s log) (hp : PendingJustified s.fs log call p)
    (hentitled : Pending.entitled (some p) = 0) : ShellInv (s.suspended call p) log where
  justified := h.justified
  pending other q hq := by
    rw [ShellProcess.get_pending_suspended] at hq
    split at hq
    · rename_i hother
      cases hq
      exact hother ▸ hp
    · exact h.pending other q hq
  entitled other := by
    have hold := h.entitled other
    rw [ShellProcess.get_pending_suspended]
    split <;> omega
  grants := h.grants
  authorizations := h.authorizations
  tokens := h.tokens

theorem fail (h : ShellInv s log) (message : String) :
    ShellInv (s.fail call message).1 (log ++ (s.fail call message).2) := by
  refine h.snoc trivial (fun _ ↦ rfl) (fun other q hq ↦ .inl ?_) (fun other ↦ ?_)
    (fun grant hgrant ↦ .inl ⟨hgrant, nofun⟩) (fun _ _ hget ↦ .inl hget) fun _ ↦ le_rfl
  · change (s.finished call).pending.get other = some q at hq
    rw [ShellProcess.get_pending_finished] at hq
    split at hq
    · cases hq
    · exact hq
  · change _ + Pending.entitled ((s.finished call).pending.get other) ≤ _
    rw [ShellProcess.get_pending_finished]
    split
    · simp [ShellEvent.issuesTo, Pending.entitled]
    · exact le_rfl

/-- A step that fails before it changes anything but the state. -/
theorem refuse (h : ShellInv s log) (message : String) :
    ShellInv s (log ++ [.failed message]) :=
  h.snoc trivial (fun _ ↦ rfl) (fun _ _ hq ↦ .inl hq) (fun _ ↦ le_rfl)
    (fun _ hgrant ↦ .inl ⟨hgrant, nofun⟩) (fun _ _ hget ↦ .inl hget) fun _ ↦ le_rfl

/-- A command goes on with an event that is about itself. -/
theorem suspended_snoc (h : ShellInv s log) (hcontract : ShellContract log e)
    (hissued : ∀ other, e.issuesTo other = false)
    (hissues : ∀ token, e.executes token = false) (hcleared : ∀ roomId, e ≠ .cleared roomId)
    (hp : PendingJustified s.fs (log ++ [e]) call p)
    (hentitled : Pending.entitled (some p) ≤
      (e.entitles call).toNat + Pending.entitled (s.pending.get call)) :
    ShellInv (s.suspended call p) (log ++ [e]) := by
  refine h.snoc hcontract (fun _ ↦ rfl) (fun other q hq ↦ ?_) (fun other ↦ ?_)
    (fun grant hgrant ↦ .inl ⟨hgrant, hcleared _⟩) (fun _ _ hget ↦ .inl hget) fun token ↦ ?_
  · rw [ShellProcess.get_pending_suspended] at hq
    split at hq
    · rename_i hother
      cases hq
      exact .inr (hother ▸ hp)
    · exact .inl hq
  · rw [ShellProcess.get_pending_suspended, hissued other]
    split
    · rename_i hother
      subst hother
      simpa using hentitled
    · simp
  · rw [hissues token]
    simp [ShellProcess.suspended]

theorem finishConfirmation (h : ShellInv s log) :
    ShellInv (s.withState s.state.finishConfirmation) log :=
  h.within ⟨fun _ hgrant ↦ hgrant, fun _ _ hget ↦ hget⟩

theorem beginConfirmation {state : ShellAuthorizationState} (h : ShellInv s log)
    (hstate : s.state.beginConfirmation = .ok state) : ShellInv (s.withState state) log := by
  unfold ShellAuthorizationState.beginConfirmation at hstate
  split at hstate
  · cases hstate
  · cases hstate
    exact h.within ⟨fun _ hgrant ↦ hgrant, fun _ _ hget ↦ hget⟩

theorem exactCommandGrant_eq_ok {fs : FileSystem} {now : ℕ} {request : ShellAuthorizationRequest}
    {found : Option ExactCommandGrant} {older state : ShellAuthorizationState}
    (h : older.exactCommandGrant fs now request = .ok (found, state)) :
    state.Within older ∧ ∀ grant ∈ found, grant ∈ older.exactCommandGrants ∧
      now < grant.expiresAt ∧ grant.roomId = request.roomId ∧
        Resolves fs request.cwd grant.cwd ∧ grant.command = request.command := by
  unfold ShellAuthorizationState.exactCommandGrant at h
  split at h
  · cases h
  rename_i cwd hcwd
  cases h
  refine ⟨⟨fun grant hgrant ↦ (List.mem_filter.mp hgrant).1, fun _ _ hget ↦ hget⟩, ?_⟩
  intro grant hgrant
  have hcovers := List.find?_some hgrant
  obtain ⟨hmem, hnow⟩ := List.mem_filter.mp (List.mem_of_find?_eq_some hgrant)
  simp only [ExactCommandGrant.covers, Bool.and_eq_true, decide_eq_true_eq] at hcovers hnow
  obtain ⟨⟨hroom, rfl⟩, hcommand⟩ := hcovers
  exact ⟨hmem, hnow, hroom, hcwd, hcommand⟩

theorem authorize {request : ShellAuthorizationRequest} {now : ℕ} (h : ShellInv s log) :
    ShellInv (s.authorize call request now).1 (log ++ (s.authorize call request now).2) := by
  -- What both branches to a dialog do.
  have hreview {t : ShellProcess} {cwd : String} (ht : ShellInv t log) (hfs : t.fs = s.fs)
      (hcwd : canonicalWorkspace s.fs request.cwd = .ok cwd) :
      ShellInv (t.suspended call (.confirming request cwd)) (log ++ [.reviewed call request cwd]) :=
    ht.suspended_snoc trivial (fun _ ↦ rfl) (fun _ ↦ rfl) (fun _ ↦ nofun)
      (since_snoc_self fun _ ↦ hfs ▸ hcwd) (Nat.zero_le _)
  unfold ShellProcess.authorize
  split
  · exact h.fail _
  · exact h.fail _
  rename_i cwd _ hcwd
  split
  · rename_i hrisk
    split
    · exact h.fail _
    · rename_i grant state hgrant
      obtain ⟨hwithin, hfound⟩ := exactCommandGrant_eq_ok hgrant
      obtain ⟨hmem, hnow, hroom, hresolves, hcommand⟩ := hfound grant rfl
      refine (h.within hwithin).suspended_snoc
        ⟨hrisk, hroom, hcommand, hnow, h.grants grant hmem⟩ (fun _ ↦ rfl) (fun _ ↦ rfl)
        (fun _ ↦ nofun) (.inr ⟨grant, now, since_snoc_self fun _ ↦ hresolves⟩) ?_
      simp [Pending.entitled, ShellEvent.entitles]
    · rename_i state hnone
      exact hreview (h.within (exactCommandGrant_eq_ok hnone).1) rfl hcwd
  · exact hreview h rfl hcwd

theorem openDialog (h : ShellInv s log) :
    ShellInv (s.openDialog call).1 (log ++ (s.openDialog call).2) := by
  unfold ShellProcess.openDialog
  split
  · rename_i request cwd hpending
    have hreviewed : PendingJustified s.fs log call (.confirming request cwd) :=
      h.pending call _ hpending
    split
    · rename_i state hstate
      refine (h.beginConfirmation hstate).suspended_snoc hreviewed.mem (fun _ ↦ rfl)
        (fun _ ↦ rfl) (fun _ ↦ nofun) ⟨since_unchanged_snoc hreviewed fun _ hcwd ↦ hcwd, by simp⟩
        (Nat.zero_le _)
    · exact h.fail _
  · split
    · rename_i state hstate
      simpa using (h.beginConfirmation hstate).suspended call (.askingRevocation _) trivial rfl
    · exact h.fail _
  · simpa using h

theorem closeDialog {result : Except String DialogResult} (h : ShellInv s log) :
    ShellInv (s.closeDialog call result).1 (log ++ (s.closeDialog call result).2) := by
  unfold ShellProcess.closeDialog
  split
  · rename_i request cwd hpending
    have hasked : PendingJustified s.fs log call (.asking request cwd) := h.pending call _ hpending
    obtain ⟨hreviewed, hasked⟩ := hasked
    dsimp only
    split
    · exact h.finishConfirmation.fail _
    rename_i decision
    split
    · exact h.finishConfirmation.fail _
    rename_i happroved
    have hconfirmed : ConfirmedIn (log ++ [.approved call request decision.reusable]) call request
        decision.reusable (Resolves s.fs request.cwd) := by
      obtain ⟨front, back, rfl⟩ := List.append_of_mem hasked
      exact ⟨cwd, since_unchanged_snoc hreviewed fun _ hcwd ↦ hcwd, front,
        back ++ [.approved call request decision.reusable], by simp, by simp⟩
    refine h.finishConfirmation.suspended_snoc ⟨cwd, hasked⟩ (fun _ ↦ rfl) (fun _ ↦ rfl)
      (fun _ ↦ nofun) ?_ ?_
    · split
      · rename_i hreusable
        rw [hreusable] at hconfirmed ⊢
        exact ⟨DialogResult.eq_none_of_reusable (by simpa using happroved) hreusable, hconfirmed⟩
      · exact .inl ⟨_, hconfirmed⟩
    · split <;> simp [Pending.entitled, ShellEvent.entitles]
  · simpa using h

theorem grant {now : ℕ} (h : ShellInv s log) :
    ShellInv (s.grant call now).1 (log ++ (s.grant call now).2) := by
  unfold ShellProcess.grant
  split
  · rename_i request hpending
    obtain ⟨hrisk, hconfirmed⟩ : PendingJustified s.fs log call (.granting request) :=
      h.pending call _ hpending
    have hissuing : PendingJustified s.fs log call (.issuing request) := .inl ⟨true, hconfirmed⟩
    split
    · exact h.fail _
    rename_i grant state hgrant
    obtain ⟨hroom, hcommand, hcwd, hauthorizations, hgrants⟩ :=
      ShellAuthorizationState.grantExactCommand_eq_ok hgrant
    refine h.snoc ⟨request, hrisk, hroom, hcommand, hconfirmed.mono fun cwd' hcwd' ↦ ?_⟩
      (fun _ ↦ rfl) (fun other q hq ↦ ?_) (fun other ↦ ?_) (fun other hother ↦ ?_)
      (fun token found hget ↦ ?_) fun token ↦ ?_
    · exact Except.ok.inj (hcwd.symm.trans hcwd')
    · rw [ShellProcess.get_pending_suspended] at hq
      split at hq
      · rename_i hother
        cases hq
        exact .inr (hother ▸ hissuing.snoc fun _ ↦ rfl)
      · exact .inl hq
    · rw [ShellProcess.get_pending_suspended]
      split
      · rename_i hother
        rw [hother, hpending]
        rfl
      · exact le_rfl
    · rcases hgrants other hother with rfl | hother
      · exact .inr ⟨call, rfl⟩
      · exact .inl ⟨hother, (by simp)⟩
    · exact .inl (hauthorizations ▸ hget)
    · change _ + (state.authorizations.has token).toNat ≤ _
      rw [hauthorizations]
      rfl
  · simpa using h

theorem issue {token : String} {now : ℕ} (h : ShellInv s log) :
    ShellInv (s.issue call token now).1 (log ++ (s.issue call token now).2) := by
  unfold ShellProcess.issue
  split
  · rename_i request hpending
    have hissuing : PendingJustified s.fs log call (.issuing request) := h.pending call _ hpending
    split
    · exact h.fail _
    rename_i authorization state hissue
    obtain ⟨hroom, hcommand, hkind, hcwd, hgrants, htokens⟩ :=
      ShellAuthorizationState.issue_eq_ok hissue
    have hresolved : ∀ cwd', Resolves s.fs request.cwd cwd' → authorization.cwd = cwd' :=
      fun cwd' hcwd' ↦ Except.ok.inj (hcwd.symm.trans hcwd')
    refine h.snoc ⟨⟨request, hroom, hcommand, hkind, ?_⟩, ?_⟩ (fun _ ↦ rfl) (fun other q hq ↦ ?_)
      (fun other ↦ ?_) (fun grant hgrant ↦ .inl ⟨hgrants ▸ hgrant, nofun⟩) (fun other found hget ↦ ?_)
      fun other ↦ ?_
    · exact hissuing.imp (fun ⟨reusable, hconfirmed⟩ ↦ ⟨reusable, hconfirmed.mono hresolved⟩)
        fun hgranted ↦ hgranted.mono hresolved
    · have hentitled := h.entitled call
      rw [hpending] at hentitled
      exact hentitled
    · change (s.finished call).pending.get other = some q at hq
      rw [ShellProcess.get_pending_finished] at hq
      split at hq
      · cases hq
      · exact .inl hq
    · change _ + Pending.entitled ((s.finished call).pending.get other) ≤ _
      rw [ShellProcess.get_pending_finished]
      split
      · rename_i hother
        rw [hother, hpending]
        simp [ShellEvent.issuesTo, ShellEvent.entitles, Pending.entitled]
      · rename_i hother
        simp [ShellEvent.issuesTo, ShellEvent.entitles, Ne.symm hother]
    · rcases htokens other found hget with ⟨rfl, rfl⟩ | ⟨-, hold⟩
      · exact .inr ⟨call, rfl⟩
      · exact .inl hold
    · change _ + (state.authorizations.has other).toNat ≤ _
      cases hget : state.authorizations.get other with
      | none => simp [InsertionMap.has, hget, ShellEvent.executes]
      | some found =>
        rcases htokens other found hget with ⟨rfl, rfl⟩ | ⟨hother, hold⟩
        · simp [InsertionMap.has, hget, ShellEvent.executes, ShellEvent.issues]
        · simp [InsertionMap.has, hget, hold, ShellEvent.executes]
  · simpa using h

theorem clear {roomId : String} (h : ShellInv s log) :
    ShellInv (s.clear call roomId).1 (log ++ (s.clear call roomId).2) := by
  unfold ShellProcess.clear
  split
  · exact h.refuse _
  · simpa using h.suspended call (.confirmingRevocation roomId) trivial rfl

theorem closeRevocation {result : Except String Bool} (h : ShellInv s log) :
    ShellInv (s.closeRevocation call result).1 (log ++ (s.closeRevocation call result).2) := by
  unfold ShellProcess.closeRevocation
  split
  · dsimp only
    split
    · exact h.finishConfirmation.fail _
    · exact h.finishConfirmation.fail _
    · simpa using h.finishConfirmation.suspended call (.revoking _) trivial rfl
  · simpa using h

theorem revoke (h : ShellInv s log) :
    ShellInv (s.revoke call).1 (log ++ (s.revoke call).2) := by
  unfold ShellProcess.revoke
  split
  · rename_i roomId hpending
    refine h.snoc trivial (fun _ ↦ rfl) (fun other q hq ↦ .inl ?_) (fun other ↦ ?_)
      (fun grant hgrant ↦ ?_) (fun _ _ hget ↦ .inl hget) fun _ ↦ le_rfl
    · change (s.finished call).pending.get other = some q at hq
      rw [ShellProcess.get_pending_finished] at hq
      split at hq
      · cases hq
      · exact hq
    · change _ + Pending.entitled ((s.finished call).pending.get other) ≤ _
      rw [ShellProcess.get_pending_finished]
      split
      · simp [ShellEvent.issuesTo, Pending.entitled]
      · exact le_rfl
    · obtain ⟨hgrant, hroom⟩ := List.mem_filter.mp hgrant
      refine .inl ⟨hgrant, ?_⟩
      rintro heq
      cases heq
      simp at hroom
  · simpa using h

/-- The token of an execution is one that was issued, and not used since. -/
theorem run {token roomId cwd command : String} {now : ℕ} (h : ShellInv s log) :
    ShellInv (s.run token roomId cwd command now).1
      (log ++ (s.run token roomId cwd command now).2) := by
  unfold ShellProcess.run
  split
  · exact h.refuse _
  · exact h.refuse _
  obtain ⟨hresult, hstate⟩ :=
    s.state.consume_cases s.fs now token roomId cwd command .remoteRequest
  have hwithin : (s.state.consume s.fs now token roomId cwd command .remoteRequest).2.Within
      s.state := by
    rw [hstate]
    refine ⟨fun _ hgrant ↦ hgrant, fun other found hget ↦ ?_⟩
    rw [InsertionMap.get_delete] at hget
    split at hget
    · cases hget
    · exact hget
  split
  · rename_i message state hconsume
    rw [hconsume] at hwithin
    exact (h.within hwithin).refuse _
  rename_i authorization state hconsume
  rw [hconsume] at hresult hstate hwithin
  rcases hresult with ⟨message, hmessage⟩ | ⟨_, heq, hget, hnow, -, hroom, hcommand, hkind⟩
  · cases hmessage
  cases heq
  have htoken : (s.state.authorizations.has token) = true :=
    InsertionMap.has_iff.mpr ⟨authorization, hget⟩
  obtain ⟨call, hissued⟩ := h.authorizations token authorization hget
  refine h.snoc ⟨⟨call, authorization, hissued, hroom, rfl, hcommand, hkind, hnow⟩, ?_⟩
    (fun _ ↦ rfl) (fun _ _ hq ↦ .inl hq) (fun _ ↦ le_rfl)
    (fun grant hgrant ↦ .inl ⟨hwithin.grants grant hgrant, (by simp)⟩)
    (fun other found hget ↦ .inl (hwithin.authorizations other found hget)) fun other ↦ ?_
  · have htokens := h.tokens token
    rw [htoken] at htokens
    exact htokens
  · change _ + (state.authorizations.has other).toNat ≤ _
    dsimp only at hstate
    rw [hstate]
    by_cases hother : other = token
    · subst hother
      simp [InsertionMap.has, ShellEvent.executes, hget]
    · simp [InsertionMap.has, InsertionMap.get_delete_of_ne _ hother, ShellEvent.executes,
        Ne.symm hother]

theorem changeFileSystem {fs : FileSystem} (h : ShellInv s log) :
    ShellInv { s with fs } (log ++ [.fileSystemChanged]) :=
  h.snoc trivial (fun hne ↦ (hne rfl).elim)
    (fun call p hp ↦ .inr ((h.pending call p hp).snoc fun hne ↦ (hne rfl).elim)) (fun _ ↦ le_rfl)
    (fun _ hgrant ↦ .inl ⟨hgrant, nofun⟩) (fun _ _ hget ↦ .inl hget) fun _ ↦ le_rfl

theorem step (h : ShellInv s log) (action : ShellAction) :
    ShellInv (s.step action).1 (log ++ (s.step action).2) := by
  cases action with
  | authorize call request now =>
    simp only [ShellProcess.step]
    split
    · simpa using h
    · exact h.authorize
  | openDialog call => exact h.openDialog
  | closeDialog call result => exact h.closeDialog
  | grant call now => exact h.grant
  | issue call token now => exact h.issue
  | clear call roomId =>
    simp only [ShellProcess.step]
    split
    · simpa using h
    · exact h.clear
  | closeRevocation call result => exact h.closeRevocation
  | revoke call => exact h.revoke
  | run token roomId cwd command now => exact h.run
  | changeFileSystem fs => exact h.changeFileSystem

end ShellInv

theorem shellInv_initial (fs : FileSystem) : ShellInv (ShellProcess.initial fs) [] where
  justified := justified_nil
  pending call p hp := by cases hp
  entitled call := le_rfl
  grants grant hgrant := by cases hgrant
  authorizations token authorization hget := by cases hget
  tokens token := le_rfl

/-- The log of a run from the start. -/
def shellLog (fs : FileSystem) (actions : List ShellAction) : List ShellEvent :=
  (Machine.run ShellProcess.step (ShellProcess.initial fs) actions).2

theorem shellLog_justified (fs : FileSystem) (actions : List ShellAction) :
    Justified ShellContract (shellLog fs actions) :=
  run_justified (fun _ _ h ↦ h.justified) (fun _ _ action h ↦ h.step action)
    (shellInv_initial fs) actions

/-- What lets a command with a risk through is an answer in a dialog. -/
theorem exists_approved_of_executed {log : List ShellEvent} (h : Justified ShellContract log)
    {token roomId cwd command : String} {kind : ShellExecutionKind} {now : ℕ}
    (hexecuted : .executed token roomId cwd command kind now ∈ log)
    (hrisk : commandReviewRisk command ≠ none) :
    ∃ call authorization, ∃ request : ShellAuthorizationRequest, ∃ reusable,
      .issued call token authorization ∈ log ∧ .approved call request reusable ∈ log ∧
        request.roomId = roomId ∧ request.command = command := by
  obtain ⟨before, ⟨⟨call, authorization, hissued, hroom, -, hcommand, -⟩, -⟩, hbefore⟩ :=
    h.of_mem hexecuted
  have hissued := hbefore _ hissued
  obtain ⟨earlier, ⟨⟨request, hroom', hcommand', -, hwhy⟩, -⟩, hearlier⟩ := h.of_mem hissued
  rcases hwhy with ⟨reusable, shown, -, hasked⟩ | ⟨grant, granted, hmatched⟩
  · obtain ⟨front, back, rfl, happroved⟩ := hasked
    exact ⟨call, authorization, request, reusable, hissued,
      hearlier _ (List.mem_append_right _ (List.mem_cons_of_mem _ happroved)),
      hroom'.symm.trans hroom, hcommand'.symm.trans hcommand⟩
  -- A grant is not looked for when the text has a risk.
  · obtain ⟨_, ⟨hnone, -⟩, -⟩ := h.of_mem (hearlier _ hmatched.mem)
    rw [← hcommand'.symm.trans hcommand] at hrisk
    exact (hrisk hnone).elim

/-- **What shell commands may run.** Every event of every run has been paid for, and a command with
a risk by an answer to a dialog about it. -/
theorem shell_contract (fs : FileSystem) (actions : List ShellAction) :
    Justified ShellContract (shellLog fs actions) ∧
      ∀ token roomId cwd command kind now,
        .executed token roomId cwd command kind now ∈ shellLog fs actions →
          commandReviewRisk command ≠ none →
            ∃ call authorization, ∃ request : ShellAuthorizationRequest, ∃ reusable,
              .issued call token authorization ∈ shellLog fs actions ∧
                .approved call request reusable ∈ shellLog fs actions ∧
                  request.roomId = roomId ∧ request.command = command :=
  ⟨shellLog_justified fs actions, fun _ _ _ _ _ _ hexecuted hrisk ↦
    exists_approved_of_executed (shellLog_justified fs actions) hexecuted hrisk⟩

/-- Each execution is with a token that was issued since its room was last cleared. -/
def TokensUncleared : List ShellEvent → Prop :=
  Justified fun before e ↦ ∀ token roomId cwd command kind now,
    e = .executed token roomId cwd command kind now →
      ∃ call authorization, Since (.issued call token authorization)
        (fun back ↦ .cleared roomId ∉ back) before

/-- Clearing the grants of a room leaves the tokens that were issued under them. -/
theorem not_tokensUncleared_shellLog :
    ¬∀ fs actions, TokensUncleared (shellLog fs actions) := by
  intro h
  have hlog : shellLog { isDir := fun _ ↦ true, canonicalize := .ok }
        [.authorize 0 ⟨"room", "/w", "make", .remoteRequest, "Ada"⟩ 0, .openDialog 0,
          .closeDialog 0 (.ok .no), .grant 0 1, .issue 0 "token-1" 1,
          .authorize 1 ⟨"room", "/w", "make", .remoteRequest, "Ada"⟩ 2, .issue 1 "token-2" 2,
          .clear 2 "room", .openDialog 2, .closeRevocation 2 (.ok true), .revoke 2,
          .run "token-2" "room" "/w" "make" 4] =
      [.reviewed 0 ⟨"room", "/w", "make", .remoteRequest, "Ada"⟩ "/w",
        .asked 0 ⟨"room", "/w", "make", .remoteRequest, "Ada"⟩ "/w",
        .approved 0 ⟨"room", "/w", "make", .remoteRequest, "Ada"⟩ true,
        .granted 0 ⟨"room", "/w", "make", 601⟩,
        .issued 0 "token-1" ⟨"room", "/w", "make", .remoteRequest, 121⟩,
        .matched 1 ⟨"room", "/w", "make", .remoteRequest, "Ada"⟩ ⟨"room", "/w", "make", 601⟩ 2,
        .issued 1 "token-2" ⟨"room", "/w", "make", .remoteRequest, 122⟩] ++ [.cleared "room"] ++
      .executed "token-2" "room" "/w" "make" .remoteRequest 4 :: [] := by
    decide
  obtain ⟨call, authorization, front, back, hsplit, hback⟩ :=
    h _ _ _ _ _ hlog _ _ _ _ _ _ rfl
  -- The clear comes last, so it is after whatever was issued.
  rcases List.eq_nil_or_concat back with rfl | ⟨back, last, rfl⟩
  · have hlast := (List.append_singleton_inj.mp hsplit).2
    cases hlast
  · rw [List.concat_eq_append, ← List.cons_append, ← List.append_assoc] at hsplit
    have hlast := (List.append_singleton_inj.mp hsplit).2
    exact hback (by simp [hlast])

end MultAIplayer.Native
