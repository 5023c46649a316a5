import Mathlib.Algebra.Order.Floor.Ring
import Mathlib.Algebra.Order.Archimedean.Basic
import Mathlib.Data.Rat.Floor

/-!
# Recovery of a pending invite

The loop that waits for the answer to an invite request (`lib/invite/pendingInviteRecovery.ts`). An
attempt asks the relay for a response. Without one it publishes the request again, unless the invite
has expired, in which case the stored request is cleared; a response is handed to the native engine,
and a denial is acknowledged before the stored request is cleared.

## Two counters and two budgets

An attempt that comes back pending counts against `maxAttempts`. An error of the transport, whether
of the question, of the republication or of the acknowledgement, is waited out with a growing delay,
and counts against `maxErrorDelayMs`; it leaves the other counter alone. So a request that is still
pending may be asked for more often than `maxAttempts` says (`pending_polls_exceed_maxAttempts`).

The measure that falls is the number of attempts that may still come back pending, and the number
of delays that fit in what is left of the budget (`remaining`).

## Dependencies

What the dependencies answer in the attempt with number `k`, and what the clock says at its start,
is `env k`: any answers, whatever they depend on. Times are in milliseconds.
-/

namespace MultAIplayer.Desktop

/-! ### One attempt -/

structure PendingMlsInviteRequest where
  inviteId : String
  teamId : String
  roomId : String
  requestId : String
  requesterUserId : String
  requesterDeviceId : String
  keyPackageId : String
  keyPackageHash : String
  expiresAt : String
  sealedRequest : String
  deriving DecidableEq

structure DirectedResponse (β : Type) where
  responseBinding : β
  responseMac : String
  welcome : Option String

/-- What `publishRequest` sends of a request. -/
structure DirectedRequest where
  requestId : String
  requesterDeviceId : String
  keyPackageId : String
  keyPackageHash : String
  sealedRequest : String
  deriving DecidableEq

inductive InviteDecision where
  | approved
  | denied
  deriving DecidableEq

structure PendingInviteRecoveryDependencies (β ε : Type) where
  loadResponse : (inviteId requestId requesterDeviceId : String) →
    Except ε (Option (DirectedResponse β))
  publishRequest : (inviteId : String) → DirectedRequest → Except ε Unit
  acceptResponse : (requestId : String) → β → (responseMac : String) → (welcome : Option String) →
    Except ε InviteDecision
  acknowledge : (inviteId requestId requesterDeviceId : String) → Except ε Unit
  clear : (requestId roomId : String) → Except ε Unit
  completeAdmission : PendingMlsInviteRequest → Except ε Unit

inductive PendingInviteRecoveryResult where
  | pending
  | expired
  | denied
  | approved
  | admissionPending
  deriving DecidableEq

/-- What a recovery does, with how it came out. -/
inductive RecoveryEvent where
  | loadFailed
  | noResponse
  | responseLoaded
  | publishFailed
  | requestPublished
  | acceptFailed
  | accepted (decision : InviteDecision)
  | acknowledgeFailed
  | acknowledged
  | clearFailed
  | cleared
  | admissionFailed
  | admitted
  | polled (milliseconds : ℚ)
  | backedOff (milliseconds : ℚ)
  deriving DecidableEq

def publishPendingInviteRequest {ε : Type} (pending : PendingMlsInviteRequest)
    (publish : String → DirectedRequest → Except ε Unit) : Except ε Unit :=
  publish pending.inviteId {
    requestId := pending.requestId
    requesterDeviceId := pending.requesterDeviceId
    keyPackageId := pending.keyPackageId
    keyPackageHash := pending.keyPackageHash
    sealedRequest := pending.sealedRequest }

/-- `Date.parse(pending.expiresAt) <= now`, which no text meets that is not a date. -/
def PendingMlsInviteRequest.hasExpired (dateParse : String → Option ℤ)
    (pending : PendingMlsInviteRequest) (now : ℤ) : Bool :=
  (dateParse pending.expiresAt).any (· ≤ now)

def processPendingInviteRecoveryAttempt {β ε : Type} (dateParse : String → Option ℤ)
    (pending : PendingMlsInviteRequest) (dependencies : PendingInviteRecoveryDependencies β ε)
    (now : ℤ) : List RecoveryEvent × Except ε PendingInviteRecoveryResult :=
  match dependencies.loadResponse pending.inviteId pending.requestId
    pending.requesterDeviceId with
  | .error error => ([.loadFailed], .error error)
  | .ok none =>
    if pending.hasExpired dateParse now then
      match dependencies.clear pending.requestId pending.roomId with
      | .error error => ([.noResponse, .clearFailed], .error error)
      | .ok () => ([.noResponse, .cleared], .ok .expired)
    else
      match publishPendingInviteRequest pending dependencies.publishRequest with
      | .error error => ([.noResponse, .publishFailed], .error error)
      | .ok () => ([.noResponse, .requestPublished], .ok .pending)
  | .ok (some response) =>
    match dependencies.acceptResponse pending.requestId response.responseBinding
      response.responseMac response.welcome with
    | .error error => ([.responseLoaded, .acceptFailed], .error error)
    | .ok .denied =>
      match dependencies.acknowledge pending.inviteId pending.requestId
        pending.requesterDeviceId with
      | .error error => ([.responseLoaded, .accepted .denied, .acknowledgeFailed], .error error)
      | .ok () =>
        match dependencies.clear pending.requestId pending.roomId with
        | .error error =>
          ([.responseLoaded, .accepted .denied, .acknowledged, .clearFailed], .error error)
        | .ok () => ([.responseLoaded, .accepted .denied, .acknowledged, .cleared], .ok .denied)
    | .ok .approved =>
      match dependencies.completeAdmission pending with
      | .error _ =>
        ([.responseLoaded, .accepted .approved, .admissionFailed], .ok .admissionPending)
      | .ok () => ([.responseLoaded, .accepted .approved, .admitted], .ok .approved)

/-! ### The loop -/

/-- An error that a dependency throws. -/
inductive RecoveryError where
  | relayHttp (status : ℤ) (code : Option String)
  | other (text : String)
  deriving DecidableEq

/-- An error as the loop sees it: wrapped as one of the transport, or as it was. -/
inductive AttemptError where
  | transport (cause : RecoveryError)
  | direct (error : RecoveryError)

def retryableCodes : List String :=
  ["persistence_unavailable", "upstream_unavailable", "relay_shutting_down", "internal_error",
    "rate_limited"]

def isTerminalRelayError : RecoveryError → Bool
  | .other _ => false
  | .relayHttp status code =>
    if 500 ≤ status || status = 408 || status = 429 then false
    else if code.any (· ∈ retryableCodes) then false
    else 400 ≤ status && status < 500

/-- `retryableDependencies`. -/
def PendingInviteRecoveryDependencies.retryable {β : Type}
    (dependencies : PendingInviteRecoveryDependencies β RecoveryError) :
    PendingInviteRecoveryDependencies β AttemptError where
  loadResponse inviteId requestId requesterDeviceId :=
    (dependencies.loadResponse inviteId requestId requesterDeviceId).mapError .transport
  publishRequest inviteId request :=
    (dependencies.publishRequest inviteId request).mapError .transport
  acceptResponse requestId responseBinding responseMac welcome :=
    (dependencies.acceptResponse requestId responseBinding responseMac welcome).mapError .direct
  acknowledge inviteId requestId requesterDeviceId :=
    (dependencies.acknowledge inviteId requestId requesterDeviceId).mapError .transport
  clear requestId roomId := (dependencies.clear requestId roomId).mapError .direct
  completeAdmission pending := (dependencies.completeAdmission pending).mapError .direct

inductive PendingInviteRecoveryLoopResult where
  | expired
  | denied
  | approved
  | admissionPending
  | timedOut
  deriving DecidableEq

structure PendingInviteRecoveryLoopOptions where
  maxAttempts : ℕ := 150
  pendingPollMs : ℚ := 2000
  initialErrorBackoffMs : ℚ := 1000
  maxErrorBackoffMs : ℚ := 15000
  maxErrorDelayMs : ℚ := 300000

/-- The variables of the loop. -/
structure RecoveryLoop where
  pendingAttempts : ℕ := 0
  consecutiveErrors : ℕ := 0
  totalErrorDelayMs : ℚ := 0

/-- What the loop makes of an attempt: it stops, or it goes on after a delay. -/
inductive RecoveryTurn where
  | stop (result : Except RecoveryError PendingInviteRecoveryLoopResult)
  | again (state : RecoveryLoop) (slept : List RecoveryEvent)

namespace PendingInviteRecoveryLoopOptions

variable (options : PendingInviteRecoveryLoopOptions)

def backoff (state : RecoveryLoop) : ℚ :=
  min (min (options.initialErrorBackoffMs * 2 ^ state.consecutiveErrors)
    options.maxErrorBackoffMs) (options.maxErrorDelayMs - state.totalErrorDelayMs)

def turn (state : RecoveryLoop) : Except AttemptError PendingInviteRecoveryResult → RecoveryTurn
  | .ok .expired => .stop (.ok .expired)
  | .ok .denied => .stop (.ok .denied)
  | .ok .approved => .stop (.ok .approved)
  | .ok .admissionPending => .stop (.ok .admissionPending)
  | .ok .pending =>
    let pendingAttempts := state.pendingAttempts + 1
    .again { state with consecutiveErrors := 0, pendingAttempts := pendingAttempts }
      (if pendingAttempts < options.maxAttempts then [.polled options.pendingPollMs] else [])
  | .error (.direct error) => .stop (.error error)
  | .error (.transport cause) =>
    if isTerminalRelayError cause || options.maxErrorDelayMs ≤ state.totalErrorDelayMs then
      .stop (.error cause)
    else
      let backoff := options.backoff state
      .again { state with
        consecutiveErrors := state.consecutiveErrors + 1
        totalErrorDelayMs := state.totalErrorDelayMs + backoff } [.backedOff backoff]

end PendingInviteRecoveryLoopOptions

/-- The dependencies during an attempt, and the clock at its start. -/
structure AttemptEnvironment (β : Type) where
  dependencies : PendingInviteRecoveryDependencies β RecoveryError
  now : ℤ

section

variable {β : Type} (dateParse : String → Option ℤ) (pending : PendingMlsInviteRequest)
  (options : PendingInviteRecoveryLoopOptions) (env : ℕ → AttemptEnvironment β)

/-- The attempt with number `k`. -/
def attempt (k : ℕ) : List RecoveryEvent × Except AttemptError PendingInviteRecoveryResult :=
  processPendingInviteRecoveryAttempt dateParse pending (env k).dependencies.retryable (env k).now

/-- `runPendingInviteRecoveryLoop` from its `k`-th attempt on, for as many turns as there is fuel. Each
event stands with the number of its attempt. -/
@[grind =] def recoveryLoop : (fuel k : ℕ) → RecoveryLoop →
    Option (List (ℕ × RecoveryEvent) × Except RecoveryError PendingInviteRecoveryLoopResult)
  | 0, _, _ => none
  | fuel + 1, k, state =>
    if state.pendingAttempts < options.maxAttempts then
      let events := (attempt dateParse pending env k).1.map (k, ·)
      match options.turn state (attempt dateParse pending env k).2 with
      | .stop result => some (events, result)
      | .again state slept =>
        (recoveryLoop fuel (k + 1) state).map fun rest ↦
          (events ++ slept.map (k, ·) ++ rest.1, rest.2)
    else some ([], .ok .timedOut)

/-- The delays after errors. -/
@[grind =] def errorDelay : RecoveryEvent → ℚ
  | .backedOff milliseconds => milliseconds
  | _ => 0

/-- The stored requests after a recovery of one of them. -/
def storedAfter (stored : List PendingMlsInviteRequest) (trace : List (ℕ × RecoveryEvent)) :
    List PendingMlsInviteRequest :=
  if trace.any fun event ↦ event.2 = .cleared then
    stored.filter fun other ↦ other.requestId ≠ pending.requestId
  else stored

/-! ### Termination -/

/-- The attempts that may still come back pending, and the delays that the rest of the budget may
still be spent on. -/
def remaining (state : RecoveryLoop) : ℕ :=
  options.maxAttempts - state.pendingAttempts +
    ⌈(options.maxErrorDelayMs - state.totalErrorDelayMs) /
      min options.initialErrorBackoffMs options.maxErrorBackoffMs⌉₊

end

section

variable {β : Type} {dateParse : String → Option ℤ} {pending : PendingMlsInviteRequest}
  {options : PendingInviteRecoveryLoopOptions} {env : ℕ → AttemptEnvironment β}
  {state next : RecoveryLoop} {slept : List RecoveryEvent}
  {outcome : Except AttemptError PendingInviteRecoveryResult}

/-- What makes the loop go on. -/
theorem turn_eq_again (h : options.turn state outcome = .again next slept) :
    (outcome = .ok .pending ∧
      next = { state with consecutiveErrors := 0, pendingAttempts := state.pendingAttempts + 1 } ∧
      ∀ event ∈ slept, event = .polled options.pendingPollMs) ∨
    ((∃ cause, outcome = .error (.transport cause)) ∧
      state.totalErrorDelayMs < options.maxErrorDelayMs ∧
      next = { state with
        consecutiveErrors := state.consecutiveErrors + 1
        totalErrorDelayMs := state.totalErrorDelayMs + options.backoff state } ∧
      slept = [.backedOff (options.backoff state)]) := by
  unfold PendingInviteRecoveryLoopOptions.turn at h
  split at h
  · cases h
  · cases h
  · cases h
  · cases h
  · left
    obtain ⟨rfl, rfl⟩ := RecoveryTurn.again.inj h
    refine ⟨rfl, rfl, fun event hevent ↦ ?_⟩
    split at hevent
    · exact List.mem_singleton.mp hevent
    · exact absurd hevent List.not_mem_nil
  · cases h
  · split at h
    · cases h
    · rename_i cause hgo
      obtain ⟨rfl, rfl⟩ := RecoveryTurn.again.inj h
      simp only [Bool.or_eq_true, decide_eq_true_eq, not_or, not_le] at hgo
      exact .inr ⟨⟨cause, rfl⟩, hgo.2, rfl, rfl⟩

theorem backoff_le (options : PendingInviteRecoveryLoopOptions) (state : RecoveryLoop) :
    options.backoff state ≤ options.maxErrorDelayMs - state.totalErrorDelayMs :=
  min_le_right _ _

/-- A delay is a whole one, or all that is left. -/
theorem le_backoff (hinitial : 0 < options.initialErrorBackoffMs) :
    min (min options.initialErrorBackoffMs options.maxErrorBackoffMs)
      (options.maxErrorDelayMs - state.totalErrorDelayMs) ≤ options.backoff state := by
  refine min_le_min (min_le_min ?_ le_rfl) le_rfl
  have hpow : (1 : ℚ) ≤ 2 ^ state.consecutiveErrors := one_le_pow₀ (by norm_num)
  exact le_mul_of_one_le_right hinitial.le hpow

/-- A delay that is waited leaves room for one delay less. -/
theorem ceil_sub_lt_ceil {left delay unit : ℚ} (hunit : 0 < unit) (hleft : 0 < left)
    (hdelay : min unit left ≤ delay) (hle : delay ≤ left) :
    ⌈(left - delay) / unit⌉₊ < ⌈left / unit⌉₊ := by
  rw [Nat.lt_ceil]
  have hnonneg : 0 ≤ (left - delay) / unit := div_nonneg (by linarith) hunit.le
  rcases le_total unit left with h | h
  · rw [min_eq_left h] at hdelay
    calc (⌈(left - delay) / unit⌉₊ : ℚ) < (left - delay) / unit + 1 := Nat.ceil_lt_add_one hnonneg
      _ ≤ left / unit := by
        rw [div_add_one hunit.ne', div_le_div_iff_of_pos_right hunit]
        linarith
  · rw [min_eq_right h] at hdelay
    obtain rfl : left = delay := le_antisymm hdelay hle
    rw [sub_self, zero_div, Nat.ceil_zero]
    exact div_pos hleft hunit

/-- **The measure falls.** -/
theorem remaining_lt (hinitial : 0 < options.initialErrorBackoffMs)
    (hmax : 0 < options.maxErrorBackoffMs) (hattempts : state.pendingAttempts < options.maxAttempts)
    (h : options.turn state outcome = .again next slept) :
    remaining options next < remaining options state := by
  unfold remaining
  rcases turn_eq_again h with ⟨-, rfl, -⟩ | ⟨-, hbudget, rfl, -⟩
  · dsimp only
    omega
  · have := ceil_sub_lt_ceil (lt_min hinitial hmax) (sub_pos.mpr hbudget) (le_backoff hinitial)
      (backoff_le options state)
    rw [sub_sub] at this
    dsimp only
    omega

theorem recoveryLoop_ends (dateParse : String → Option ℤ) (pending : PendingMlsInviteRequest)
    (env : ℕ → AttemptEnvironment β) (hinitial : 0 < options.initialErrorBackoffMs)
    (hmax : 0 < options.maxErrorBackoffMs) {fuel : ℕ} (k : ℕ)
    (hfuel : remaining options state < fuel) :
    ∃ out, recoveryLoop dateParse pending options env fuel k state = some out := by
  induction fuel generalizing k state with
  | zero => omega
  | succ fuel ih =>
    unfold recoveryLoop
    split
    swap
    · exact ⟨_, rfl⟩
    rename_i hattempts
    dsimp only
    split
    · exact ⟨_, rfl⟩
    · rename_i next slept hturn
      have hless := remaining_lt hinitial hmax hattempts hturn
      obtain ⟨out, hout⟩ := ih (k + 1) (Nat.lt_of_lt_of_le hless (Nat.le_of_lt_succ hfuel))
      rw [hout]
      exact ⟨_, rfl⟩

/-- More fuel does not change how the loop ends. -/
theorem recoveryLoop_succ {fuel k : ℕ} {out}
    (h : recoveryLoop dateParse pending options env fuel k state = some out) :
    recoveryLoop dateParse pending options env (fuel + 1) k state = some out := by
  induction fuel generalizing k state out with
  | zero => cases h
  | succ fuel ih =>
    unfold recoveryLoop at h ⊢
    split at h
    swap
    · rw [if_neg ‹_›]
      exact h
    rw [if_pos ‹_›]
    dsimp only at h ⊢
    split at h
    · exact h
    · obtain ⟨rest, hrest, rfl⟩ := Option.map_eq_some_iff.mp h
      rw [ih hrest, Option.map_some]

/-! ### What a recovery leaves behind -/

/-- **The rule of the loop.** What holds when the attempts are used up and when an attempt stops the
loop, and is kept by an attempt after which the loop goes on, holds of how it ends. -/
theorem recoveryLoop_rule
    {P : ℕ → RecoveryLoop →
      List (ℕ × RecoveryEvent) × Except RecoveryError PendingInviteRecoveryLoopResult → Prop}
    (htimedOut : ∀ k state, ¬state.pendingAttempts < options.maxAttempts →
      P k state ([], .ok .timedOut))
    (hstop : ∀ k state result, state.pendingAttempts < options.maxAttempts →
      options.turn state (attempt dateParse pending env k).2 = .stop result →
      P k state ((attempt dateParse pending env k).1.map (k, ·), result))
    (hagain : ∀ k state next slept rest, state.pendingAttempts < options.maxAttempts →
      options.turn state (attempt dateParse pending env k).2 = .again next slept →
      P (k + 1) next rest →
      P k state ((attempt dateParse pending env k).1.map (k, ·) ++ slept.map (k, ·) ++ rest.1,
        rest.2))
    {fuel k : ℕ} {out}
    (h : recoveryLoop dateParse pending options env fuel k state = some out) : P k state out := by
  induction fuel generalizing k state out with
  | zero => cases h
  | succ fuel ih =>
    unfold recoveryLoop at h
    split at h
    swap
    · obtain rfl := Option.some.inj h
      exact htimedOut k state ‹_›
    dsimp only at h
    split at h
    · rename_i hturn
      obtain rfl := Option.some.inj h
      exact hstop k state _ ‹_› hturn
    · rename_i hturn
      obtain ⟨rest, hrest, rfl⟩ := Option.map_eq_some_iff.mp h
      exact hagain k state _ _ rest ‹_› hturn (ih hrest)

/-- What an attempt can do, and how it comes out. -/
inductive AttemptOutcome (expired : Prop) :
    List RecoveryEvent → Except AttemptError PendingInviteRecoveryResult → Prop
  | loadFailed (e) : AttemptOutcome expired [.loadFailed] (.error e)
  | clearFailed (h : expired) (e) : AttemptOutcome expired [.noResponse, .clearFailed] (.error e)
  | expired (h : expired) : AttemptOutcome expired [.noResponse, .cleared] (.ok .expired)
  | publishFailed (e) : AttemptOutcome expired [.noResponse, .publishFailed] (.error e)
  | pending : AttemptOutcome expired [.noResponse, .requestPublished] (.ok .pending)
  | acceptFailed (e) : AttemptOutcome expired [.responseLoaded, .acceptFailed] (.error e)
  | acknowledgeFailed (e) :
    AttemptOutcome expired [.responseLoaded, .accepted .denied, .acknowledgeFailed] (.error e)
  | deniedClearFailed (e) :
    AttemptOutcome expired [.responseLoaded, .accepted .denied, .acknowledged, .clearFailed]
      (.error e)
  | denied :
    AttemptOutcome expired [.responseLoaded, .accepted .denied, .acknowledged, .cleared]
      (.ok .denied)
  | admissionFailed :
    AttemptOutcome expired [.responseLoaded, .accepted .approved, .admissionFailed]
      (.ok .admissionPending)
  | approved :
    AttemptOutcome expired [.responseLoaded, .accepted .approved, .admitted] (.ok .approved)

theorem attempt_outcome (dateParse : String → Option ℤ) (pending : PendingMlsInviteRequest)
    (env : ℕ → AttemptEnvironment β) (k : ℕ) :
    AttemptOutcome (pending.hasExpired dateParse (env k).now = true)
      (attempt dateParse pending env k).1 (attempt dateParse pending env k).2 := by
  unfold attempt processPendingInviteRecoveryAttempt
  split
  · exact .loadFailed _
  · split
    · rename_i hexpired
      split
      · exact .clearFailed hexpired _
      · exact .expired hexpired
    · split
      · exact .publishFailed _
      · exact .pending
  · split
    · exact .acceptFailed _
    · split
      · exact .acknowledgeFailed _
      · split
        · exact .deniedClearFailed _
        · exact .denied
    · split
      · exact .admissionFailed
      · exact .approved

namespace AttemptOutcome

variable {expired : Prop} {events : List RecoveryEvent}

/-- An attempt publishes the request when it comes back pending, and not otherwise. -/
theorem published (h : AttemptOutcome expired events outcome) :
    events.countP (· = .requestPublished) ≤ 1 ∧
      (outcome ≠ .ok .pending → events.countP (· = .requestPublished) = 0) := by
  cases h with
  | pending => exact ⟨by decide, fun h ↦ absurd rfl h⟩
  | _ => exact ⟨by decide +revert, fun _ ↦ by decide +revert⟩

/-- An attempt does not wait. -/
theorem errorDelay (h : AttemptOutcome expired events outcome) :
    (events.map MultAIplayer.Desktop.errorDelay).sum = 0 := by
  cases h <;> simp [MultAIplayer.Desktop.errorDelay]

/-- An attempt that clears the request ends with its expiry or with its denial. -/
theorem of_cleared (h : AttemptOutcome expired events outcome) (hcleared : .cleared ∈ events) :
    outcome = .ok .expired ∨ outcome = .ok .denied := by
  cases h with
  | expired => exact .inl rfl
  | denied => exact .inr rfl
  | _ => simp at hcleared

/-- Only a request that has expired without a response, or whose denial has been acknowledged, is
cleared. -/
theorem justified (h : AttemptOutcome expired events outcome)
    (hclear : .cleared ∈ events ∨ .clearFailed ∈ events) :
    (.noResponse ∈ events ∧ expired) ∨ (.accepted .denied ∈ events ∧ .acknowledged ∈ events) := by
  cases h with
  | clearFailed hexpired e => exact .inl ⟨by simp, hexpired⟩
  | expired hexpired => exact .inl ⟨by simp, hexpired⟩
  | deniedClearFailed e => exact .inr ⟨by simp, by simp⟩
  | denied => exact .inr ⟨by simp, by simp⟩
  | _ => simp at hclear

end AttemptOutcome

theorem map_errorDelay_tagged (k : ℕ) (events : List RecoveryEvent) :
    (events.map (k, ·)).map (fun event ↦ errorDelay event.2) = events.map errorDelay := by
  rw [List.map_map]
  rfl

theorem countP_tagged (k : ℕ) (events : List RecoveryEvent) (event : RecoveryEvent) :
    (events.map (k, ·)).countP (fun tagged ↦ tagged.2 = event) = events.countP (· = event) := by
  rw [List.countP_map]
  rfl

/-- The attempts that come back pending are no more than the counter allows. -/
theorem countP_published_le {fuel k : ℕ} {out}
    (h : recoveryLoop dateParse pending options env fuel k state = some out)
    (hstate : state.pendingAttempts ≤ options.maxAttempts) :
    out.1.countP (fun event ↦ event.2 = .requestPublished) + state.pendingAttempts ≤
      options.maxAttempts := by
  revert hstate
  refine recoveryLoop_rule (P := fun _ state out ↦ state.pendingAttempts ≤ options.maxAttempts →
    out.1.countP (fun event ↦ event.2 = .requestPublished) + state.pendingAttempts ≤
      options.maxAttempts) ?_ ?_ ?_ h
  · intro k state _ hle
    simpa using hle
  · intro k state result hattempts _ _
    have := (attempt_outcome dateParse pending env k).published.1
    dsimp only
    rw [countP_tagged]
    omega
  · intro k state next slept rest hattempts hturn ih _
    obtain ⟨hone, hzero⟩ := (attempt_outcome dateParse pending env k).published
    dsimp only
    rw [List.countP_append, List.countP_append, countP_tagged, countP_tagged]
    rcases turn_eq_again hturn with ⟨-, rfl, hslept⟩ | ⟨⟨cause, hcause⟩, -, rfl, rfl⟩
    · have hnone : slept.countP (· = .requestPublished) = 0 := by
        rw [List.countP_eq_zero]
        intro event hevent
        rw [hslept event hevent]
        nofun
      have := ih hattempts
      dsimp only at this
      omega
    · have := ih (Nat.le_of_lt hattempts)
      rw [hzero (by rw [hcause]; nofun)]
      dsimp only at this
      simpa using this

/-- The waits after errors stay within their budget. -/
theorem sum_errorDelay_le {fuel k : ℕ} {out}
    (h : recoveryLoop dateParse pending options env fuel k state = some out) :
    (out.1.map fun event ↦ errorDelay event.2).sum + state.totalErrorDelayMs ≤
      max state.totalErrorDelayMs options.maxErrorDelayMs := by
  refine recoveryLoop_rule (P := fun _ state out ↦
    (out.1.map fun event ↦ errorDelay event.2).sum + state.totalErrorDelayMs ≤
      max state.totalErrorDelayMs options.maxErrorDelayMs) ?_ ?_ ?_ h
  · intro k state _
    simp
  · intro k state result _ _
    dsimp only
    rw [map_errorDelay_tagged, (attempt_outcome dateParse pending env k).errorDelay, zero_add]
    exact le_max_left _ _
  · intro k state next slept rest _ hturn ih
    dsimp only at ih ⊢
    rw [List.map_append, List.map_append, map_errorDelay_tagged, map_errorDelay_tagged,
      List.sum_append, List.sum_append, (attempt_outcome dateParse pending env k).errorDelay,
      zero_add]
    rcases turn_eq_again hturn with ⟨-, rfl, hslept⟩ | ⟨-, hbudget, rfl, rfl⟩
    · have hnone : (slept.map errorDelay).sum = 0 := by
        refine List.sum_eq_zero fun delay hdelay ↦ ?_
        obtain ⟨event, hevent, rfl⟩ := List.mem_map.mp hdelay
        rw [hslept event hevent]
        rfl
      rw [hnone, zero_add]
      exact ih
    · -- The budget takes in the delay, so it bounds what comes after too.
      have hle := backoff_le options state
      rw [max_eq_right (by linarith)] at ih
      rw [max_eq_right hbudget.le]
      have hdelay : errorDelay (.backedOff (options.backoff state)) = options.backoff state := rfl
      rw [List.map_singleton, List.sum_singleton, hdelay]
      dsimp only at ih
      linarith

/-- The stored request is cleared when the recovery ends with its expiry or with its denial. -/
theorem result_of_cleared {fuel k : ℕ} {out}
    (h : recoveryLoop dateParse pending options env fuel k state = some out)
    (hcleared : ∃ event ∈ out.1, event.2 = .cleared) :
    out.2 = .ok .expired ∨ out.2 = .ok .denied := by
  revert hcleared
  refine recoveryLoop_rule (P := fun _ _ out ↦ (∃ event ∈ out.1, event.2 = .cleared) →
    out.2 = .ok .expired ∨ out.2 = .ok .denied) ?_ ?_ ?_ h
  · rintro k state - ⟨event, hevent, -⟩
    exact absurd hevent List.not_mem_nil
  · rintro k state result - hturn ⟨tagged, htagged, hclear⟩
    obtain ⟨event, hevent, rfl⟩ := List.mem_map.mp htagged
    obtain rfl : event = .cleared := hclear
    rcases (attempt_outcome dateParse pending env k).of_cleared hevent with hend | hend <;>
      rw [hend] at hturn
    · exact .inl (RecoveryTurn.stop.inj hturn).symm
    · exact .inr (RecoveryTurn.stop.inj hturn).symm
  · rintro k state next slept rest - hturn ih ⟨tagged, htagged, hclear⟩
    rcases List.mem_append.mp htagged with htagged | hrest
    · exfalso
      rcases List.mem_append.mp htagged with htagged | htagged
      · obtain ⟨event, hevent, rfl⟩ := List.mem_map.mp htagged
        obtain rfl : event = .cleared := hclear
        rcases (attempt_outcome dateParse pending env k).of_cleared hevent with hend | hend <;>
          rw [hend] at hturn <;> cases hturn
      · obtain ⟨event, hevent, rfl⟩ := List.mem_map.mp htagged
        obtain rfl : event = .cleared := hclear
        rcases turn_eq_again hturn with ⟨-, -, hslept⟩ | ⟨-, -, -, rfl⟩
        · cases hslept _ hevent
        · cases List.mem_singleton.mp hevent
    · exact ih ⟨tagged, hrest, hclear⟩

/-- In an attempt that clears the stored request, or tries to, the request has expired without a
response, or its denial has been acknowledged. -/
theorem clear_justified {fuel k : ℕ} {out}
    (h : recoveryLoop dateParse pending options env fuel k state = some out) (j : ℕ)
    (hclear : (j, .cleared) ∈ out.1 ∨ (j, .clearFailed) ∈ out.1) :
    ((j, .noResponse) ∈ out.1 ∧ pending.hasExpired dateParse (env j).now = true) ∨
      ((j, .accepted .denied) ∈ out.1 ∧ (j, .acknowledged) ∈ out.1) := by
  have hmem (k : ℕ) (events : List RecoveryEvent) (event : RecoveryEvent) :
      (j, event) ∈ events.map (k, ·) ↔ k = j ∧ event ∈ events := by
    constructor
    · intro h
      obtain ⟨event', hevent, heq⟩ := List.mem_map.mp h
      obtain ⟨rfl, rfl⟩ := Prod.mk.inj heq
      exact ⟨rfl, hevent⟩
    · rintro ⟨rfl, hevent⟩
      exact List.mem_map_of_mem hevent
  have hattempt (k : ℕ)
      (hclear : (j, .cleared) ∈ (attempt dateParse pending env k).1.map (k, ·) ∨
        (j, .clearFailed) ∈ (attempt dateParse pending env k).1.map (k, ·)) :
      ((j, .noResponse) ∈ (attempt dateParse pending env k).1.map (k, ·) ∧
          pending.hasExpired dateParse (env j).now = true) ∨
        ((j, .accepted .denied) ∈ (attempt dateParse pending env k).1.map (k, ·) ∧
          (j, .acknowledged) ∈ (attempt dateParse pending env k).1.map (k, ·)) := by
    simp only [hmem] at hclear ⊢
    obtain rfl : k = j := hclear.elim And.left And.left
    have := (attempt_outcome dateParse pending env k).justified (hclear.imp And.right And.right)
    exact this.imp (fun h ↦ ⟨⟨rfl, h.1⟩, h.2⟩) fun h ↦ ⟨⟨rfl, h.1⟩, rfl, h.2⟩
  revert hclear
  refine recoveryLoop_rule (P := fun _ _ out ↦
    ((j, .cleared) ∈ out.1 ∨ (j, .clearFailed) ∈ out.1) →
      ((j, .noResponse) ∈ out.1 ∧ pending.hasExpired dateParse (env j).now = true) ∨
        ((j, .accepted .denied) ∈ out.1 ∧ (j, .acknowledged) ∈ out.1)) ?_ ?_ ?_ h
  · rintro k state - hclear
    exact absurd hclear (not_or.mpr ⟨List.not_mem_nil, List.not_mem_nil⟩)
  · intro k state result _ _
    exact hattempt k
  · intro k state next slept rest _ hturn ih hclear
    have hslept (event : RecoveryEvent) (hevent : (j, event) ∈ slept.map (k, ·)) :
        event ≠ .cleared ∧ event ≠ .clearFailed := by
      have hevent := ((hmem k slept event).mp hevent).2
      rcases turn_eq_again hturn with ⟨-, -, hslept⟩ | ⟨-, -, -, rfl⟩
      · rw [hslept event hevent]
        exact ⟨nofun, nofun⟩
      · rw [List.mem_singleton.mp hevent]
        exact ⟨nofun, nofun⟩
    simp only [List.mem_append] at hclear ⊢
    have hcases : ((j, .cleared) ∈ (attempt dateParse pending env k).1.map (k, ·) ∨
          (j, .clearFailed) ∈ (attempt dateParse pending env k).1.map (k, ·)) ∨
        ((j, .cleared) ∈ rest.1 ∨ (j, .clearFailed) ∈ rest.1) := by
      rcases hclear with ((hclear | hclear) | hclear) | ((hclear | hclear) | hclear)
      · exact .inl (.inl hclear)
      · exact absurd rfl (hslept _ hclear).1
      · exact .inr (.inl hclear)
      · exact .inl (.inr hclear)
      · exact absurd rfl (hslept _ hclear).2
      · exact .inr (.inr hclear)
    rcases hcases with hclear | hclear
    · exact (hattempt k hclear).imp (fun h ↦ ⟨.inl (.inl h.1), h.2⟩)
        fun h ↦ ⟨.inl (.inl h.1), .inl (.inl h.2)⟩
    · exact (ih hclear).imp (fun h ↦ ⟨.inr h.1, h.2⟩) fun h ↦ ⟨.inr h.1, .inr h.2⟩

end

/-- **Recovery ends, within its bounds, and clears only what is final.** The bound on the attempts is
one on those that come back pending. -/
theorem recovery_ends_and_clears_final {β : Type} (dateParse : String → Option ℤ)
    (pending : PendingMlsInviteRequest) (options : PendingInviteRecoveryLoopOptions)
    (env : ℕ → AttemptEnvironment β) (stored : List PendingMlsInviteRequest)
    (hinitial : 0 < options.initialErrorBackoffMs) (hmax : 0 < options.maxErrorBackoffMs) :
    ∃ trace result,
      (∀ fuel, remaining options {} < fuel →
        recoveryLoop dateParse pending options env fuel 0 {} = some (trace, result)) ∧
      trace.countP (fun event ↦ event.2 = .requestPublished) ≤ options.maxAttempts ∧
      (trace.map fun event ↦ errorDelay event.2).sum ≤ max 0 options.maxErrorDelayMs ∧
      (∀ k, (k, .cleared) ∈ trace ∨ (k, .clearFailed) ∈ trace →
        ((k, .noResponse) ∈ trace ∧ pending.hasExpired dateParse (env k).now = true) ∨
          ((k, .accepted .denied) ∈ trace ∧ (k, .acknowledged) ∈ trace)) ∧
      (result ≠ .ok .expired → result ≠ .ok .denied →
        storedAfter pending stored trace = stored) := by
  obtain ⟨⟨trace, result⟩, hout⟩ := recoveryLoop_ends dateParse pending env hinitial hmax 0
    (Nat.lt_succ_self (remaining options {}))
  refine ⟨trace, result, fun fuel hfuel ↦ ?_, ?_, ?_, clear_justified hout, fun hexpired hdenied ↦ ?_⟩
  · induction fuel, hfuel using Nat.le_induction with
    | base => exact hout
    | succ fuel _ ih => exact recoveryLoop_succ ih
  · exact countP_published_le hout (Nat.zero_le _)
  · have := sum_errorDelay_le hout
    rwa [add_zero] at this
  · unfold storedAfter
    rw [if_neg]
    intro hcleared
    obtain ⟨event, hevent, hclear⟩ := List.any_eq_true.mp hcleared
    exact (result_of_cleared hout ⟨event, hevent, of_decide_eq_true hclear⟩).elim hexpired hdenied

/-! ### A request that is asked for more often -/

def samplePendingInvite : PendingMlsInviteRequest where
  inviteId := "invite-1"
  teamId := "team-1"
  roomId := "room-1"
  requestId := "request-1"
  requesterUserId := "github:1"
  requesterDeviceId := "device-1"
  keyPackageId := "package-1"
  keyPackageHash := "hash-1"
  expiresAt := "2030-01-01T00:00:00.000Z"
  sealedRequest := "sealed"

/-- A relay that has no response, and takes no request in its first attempt. -/
def busyRelay (k : ℕ) : AttemptEnvironment Unit where
  dependencies := {
    loadResponse := fun _ _ _ ↦ .ok none
    publishRequest := fun _ _ ↦ if k = 0 then .error (.relayHttp 503 none) else .ok ()
    acceptResponse := fun _ _ _ _ ↦ .ok .approved
    acknowledge := fun _ _ _ ↦ .ok ()
    clear := fun _ _ ↦ .ok ()
    completeAdmission := fun _ ↦ .ok () }
  now := 0

/-- With one attempt allowed, a request that is still pending is asked for twice. -/
theorem pending_polls_exceed_maxAttempts :
    ∃ trace, recoveryLoop (fun _ ↦ some 1) samplePendingInvite { maxAttempts := 1 } busyRelay 3 0 {} =
        some (trace, .ok .timedOut) ∧
      1 < trace.countP fun event ↦ event.2 = .noResponse :=
  ⟨[(0, .noResponse), (0, .publishFailed), (0, .backedOff 1000), (1, .noResponse),
    (1, .requestPublished)], by decide +kernel, by decide⟩

theorem recovery_ends_and_clears_final_busyRelay :
    ∃ trace result,
      (∀ fuel, remaining { maxAttempts := 1 } {} < fuel →
        recoveryLoop (fun _ ↦ some 1) samplePendingInvite { maxAttempts := 1 } busyRelay fuel 0 {} =
          some (trace, result)) ∧
      trace.countP (fun event ↦ event.2 = .requestPublished) ≤ 1 ∧
      (trace.map fun event ↦ errorDelay event.2).sum ≤ max 0 300000 ∧
      (∀ k, (k, .cleared) ∈ trace ∨ (k, .clearFailed) ∈ trace →
        ((k, .noResponse) ∈ trace ∧
            samplePendingInvite.hasExpired (fun _ ↦ some 1) (busyRelay k).now = true) ∨
          ((k, .accepted .denied) ∈ trace ∧ (k, .acknowledged) ∈ trace)) ∧
      (result ≠ .ok .expired → result ≠ .ok .denied →
        storedAfter samplePendingInvite [samplePendingInvite] trace = [samplePendingInvite]) :=
  recovery_ends_and_clears_final (fun _ ↦ some 1) samplePendingInvite { maxAttempts := 1 } busyRelay
    [samplePendingInvite] (by norm_num) (by norm_num)

end MultAIplayer.Desktop
