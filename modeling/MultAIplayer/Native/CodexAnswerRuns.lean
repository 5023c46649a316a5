import MultAIplayer.Native.CodexAnswers

/-!
# What the app-server is answered

The invariant behind `codex_answers` has three parts: the table holds what the log says is open
(`TableInv`), the confirmation that may be open is that of the one command that asks (`DialogInv`),
and each suspended command has in the log what its next step needs (`CallJustified`).

What a command has seen stays in the log; only a request of a key that it has seen registered may
have been closed in between, and no key is registered twice.
-/

namespace MultAIplayer.Native

open History

variable {log : List CodexEvent} {e : CodexEvent} {key : String}
  {request : PendingServerRequest} {call : ℕ}

/-! ### What the log says is open -/

theorem open_snoc_iff : Open (log ++ [e]) key request ↔
    e = .registered key request ∨ Open log key request ∧ e.closes key = false := by
  rw [Open, since_snoc_iff]
  constructor
  · rintro (⟨rfl, -⟩ | h)
    · exact .inl rfl
    · exact .inr ⟨h.mono fun back hback e' he' ↦ hback e' (List.mem_append_left _ he'),
        by obtain ⟨front, back, -, hback⟩ := h; exact hback e (by simp)⟩
  · rintro (rfl | ⟨h, he⟩)
    · exact .inl ⟨rfl, by simp⟩
    · refine .inr (h.mono fun back hback e' he' ↦ ?_)
      rcases List.mem_append.mp he' with he' | he'
      · exact hback e' he'
      · exact List.mem_singleton.mp he' ▸ he

/-- A key is registered once. -/
theorem registered_unique {request' : PendingServerRequest} (h : Justified AnswerContract log)
    (hmem : .registered key request ∈ log) (hmem' : .registered key request' ∈ log) :
    request = request' := by
  obtain ⟨front, back, rfl⟩ := List.append_of_mem hmem
  rcases List.mem_append.mp hmem' with hfront | hback
  · exact (h front _ back rfl request' hfront).elim
  rcases List.mem_cons.mp hback with heq | hback
  · cases heq
    rfl
  · obtain ⟨middle, last, rfl⟩ := List.append_of_mem hback
    exact (h (front ++ CodexEvent.registered key request :: middle) (.registered key request') last
      (by simp) request (by simp)).elim

/-- What is open stays so only if it was: its key is not registered again. -/
theorem Open.of_snoc {request' : PendingServerRequest} (h : Open (log ++ [e]) key request)
    (hcontract : AnswerContract log e) (hmem : .registered key request' ∈ log) :
    Open log key request := by
  rcases open_snoc_iff.mp h with rfl | h
  · exact (hcontract request' hmem).elim
  · exact h.1

/-- How often a request has been answered or resolved. -/
def closings (log : List CodexEvent) (key : String) : ℕ := log.countP (CodexEvent.closes key)

theorem closings_eq_zero_of_not_registered (h : Justified AnswerContract log)
    (hnot : ∀ request, .registered key request ∉ log) : closings log key = 0 := by
  rw [closings, List.countP_eq_zero]
  intro e he hcloses
  obtain ⟨front, back, rfl⟩ := List.append_of_mem he
  have hopen : ∃ request, Open front key request := by
    have hcontract := h front e back rfl
    cases e with
    | answered key' request' reply =>
      obtain rfl : key' = key := by simpa [CodexEvent.closes] using hcloses
      exact ⟨request', hcontract.1⟩
    | resolved key' =>
      obtain rfl : key' = key := by simpa [CodexEvent.closes] using hcloses
      exact hcontract
    | _ => simp [CodexEvent.closes] at hcloses
  obtain ⟨request, hopen⟩ := hopen
  exact hnot request (List.mem_append_left _ hopen.mem)

/-- **Closed at most once**, and exactly once when it is open no more. -/
theorem closings_of_registered (h : Justified AnswerContract log)
    (hmem : .registered key request ∈ log) :
    Open log key request ∧ closings log key = 0 ∨
      (∀ request, ¬Open log key request) ∧ closings log key = 1 := by
  induction log using List.reverseRecOn with
  | nil => cases hmem
  | append_singleton log e ih =>
    have hlog : Justified AnswerContract log := h.of_append
    have hcontract : AnswerContract log e := h log e [] rfl
    have hcount : closings (log ++ [e]) key = closings log key + (e.closes key).toNat :=
      countP_snoc _
    rcases List.mem_append.mp hmem with hold | hnew
    · have hstill {request'} (ho : Open (log ++ [e]) key request') : Open log key request' :=
        ho.of_snoc hcontract hold
      rcases ih hlog hold with ⟨hopen, hzero⟩ | ⟨hclosed, hone⟩
      · cases hcloses : e.closes key with
        | false =>
          exact .inl ⟨open_snoc_iff.mpr (.inr ⟨hopen, hcloses⟩), by rw [hcount, hzero, hcloses]; rfl⟩
        | true =>
          refine .inr ⟨fun request' ho ↦ ?_, by rw [hcount, hzero, hcloses]; rfl⟩
          rcases open_snoc_iff.mp ho with rfl | ⟨-, ho⟩
          · exact hcontract request hold
          · rw [hcloses] at ho
            cases ho
      · refine .inr ⟨fun request' ho ↦ hclosed request' (hstill ho), ?_⟩
        -- What is closed again would have been open.
        have hquiet : e.closes key = false := by
          cases e with
          | answered key' request' reply =>
            by_contra hne
            obtain rfl : key' = key := by simpa [CodexEvent.closes] using hne
            exact hclosed request' hcontract.1
          | resolved key' =>
            by_contra hne
            obtain rfl : key' = key := by simpa [CodexEvent.closes] using hne
            obtain ⟨request', hopen⟩ := hcontract
            exact hclosed request' hopen
          | _ => rfl
        rw [hcount, hone, hquiet]
        rfl
    · obtain rfl := List.mem_singleton.mp hnew
      have hzero := closings_eq_zero_of_not_registered hlog hcontract
      exact .inl ⟨open_snoc_iff.mpr (.inl rfl), by rw [hcount, hzero]; rfl⟩

/-! ### The invariant -/

/-- The table and the log agree on what is open. -/
structure TableInv (requests : CodexRpcState) (log : List CodexEvent) : Prop where
  pending : ∀ key request, requests.pending.get key = some request ↔ Open log key request
  keys : ∀ key request, .registered key request ∈ log →
    ∃ sessionId, ∃ n < requests.nextServerRequestKey, key = requestKey sessionId n
  bounded : ∀ sessionId, requests.openCount sessionId ≤ maxPendingRequestsPerSession

/-- The dialog that is open is that of the command that asks. -/
structure DialogInv (authorization : CodexAuthorizationState) (calls : InsertionMap ℕ CodexCall)
    (log : List CodexEvent) : Prop where
  begun : ∀ call at_ binding, calls.get call = some at_ → at_.asks = some binding →
    authorization.confirmationInFlight = some binding ∧
      Since (.begun call binding) (fun back ↦ ∀ e ∈ back, e.turnsDialog = false) log
  once : ∀ call call' at_ at_', calls.get call = some at_ → calls.get call' = some at_' →
    at_.asks ≠ none → at_'.asks ≠ none → call = call'

/-- An answer is about a request that was registered, and needs a confirmation if that one is
privileged and the answer positive. -/
def PreparedFor (log : List CodexEvent) (prepared : PreparedCodexServerResponse) : Prop :=
  ∃ request, .registered prepared.requestKey request ∈ log ∧
    prepared.confirmation =
      if PositiveApproval prepared.responseField request.method prepared.responseValue then
        some (.serverRequest prepared.requestKey request.roomId request.method) else none

/-- A confirmation was consumed, and a sweep that has happened since has left the request alone if
it is still open. -/
def SweptSince (log : List CodexEvent) (call : ℕ) (binding : CodexConfirmationBinding)
    (key : String) (seen : List CodexEvent → Prop) : Prop :=
  ∃ now, Since (.confirmed call binding) (fun back ↦ .swept now ∈ back ∧ seen back) log ∧
    ∀ request, Open log key request → now < request.expiresAt

/-- What the log has for the next step of a command. -/
def CallJustified (log : List CodexEvent) (call : ℕ) : CodexCall → Prop
  | .confirming prepared binding | .asking prepared binding =>
    PreparedFor log prepared ∧ prepared.confirmation = some binding
  | .finishing prepared => PreparedFor log prepared ∧
    ∀ binding, prepared.confirmation = some binding → .confirmed call binding ∈ log
  | .rechecking prepared => PreparedFor log prepared ∧
    ∀ binding, prepared.confirmation = some binding →
      SweptSince log call binding prepared.requestKey fun _ ↦ True
  | .answering prepared => PreparedFor log prepared ∧
    ∀ binding, prepared.confirmation = some binding → ∃ within,
      SweptSince log call binding prepared.requestKey fun back ↦
        .rechecked call prepared.requestKey within ∈ back
  | _ => True

structure AnswersInv (s : CodexAnswers) (log : List CodexEvent) : Prop where
  justified : Justified AnswerContract log
  table : TableInv s.requests log
  dialog : DialogInv s.authorization s.calls log
  calls : ∀ call at_, s.calls.get call = some at_ → CallJustified log call at_

/-! ### One more event -/

/-- An event that is not about the table. -/
def CodexEvent.quiet : CodexEvent → Bool
  | registered _ _ | answered _ _ _ | resolved _ => false
  | _ => true

theorem open_snoc_of_quiet (he : e.quiet = true) :
    Open (log ++ [e]) key request ↔ Open log key request := by
  rw [open_snoc_iff]
  cases e <;> simp_all [CodexEvent.quiet, CodexEvent.closes]

section Table

variable {requests : CodexRpcState}

theorem TableInv.quiet (h : TableInv requests log) (he : e.quiet = true) :
    TableInv requests (log ++ [e]) where
  pending key request := by rw [h.pending, open_snoc_of_quiet he]
  keys key request hmem := by
    rcases List.mem_append.mp hmem with hmem | hmem
    · exact h.keys key request hmem
    · rw [← List.mem_singleton.mp hmem] at he
      cases he
  bounded := h.bounded

/-- A request leaves the table when it is answered or resolved. -/
theorem TableInv.delete (h : TableInv requests log) (hcloses : ∀ k, e.closes k = (key = k : Bool)) :
    TableInv { requests with pending := requests.pending.delete key } (log ++ [e]) where
  pending k request := by
    have hnot : e ≠ .registered k request := by
      rintro rfl
      have hself := hcloses key
      simp [CodexEvent.closes] at hself
    rw [InsertionMap.get_delete, open_snoc_iff, ← h.pending, hcloses]
    by_cases hk : k = key
    · subst hk
      simp [hnot]
    · simp [hk, hnot, Ne.symm hk]
  keys k request hmem := by
    rcases List.mem_append.mp hmem with hmem | hmem
    · exact h.keys k request hmem
    · have hself := hcloses key
      rw [← List.mem_singleton.mp hmem] at hself
      simp [CodexEvent.closes] at hself
  bounded sessionId := (InsertionMap.countP_filter_le _ _ _).trans (h.bounded sessionId)

/-- A request is registered under a key that the log has not. -/
theorem TableInv.not_registered (h : TableInv requests log) (sessionId : ℕ)
    (request : PendingServerRequest) :
    .registered (requestKey sessionId requests.nextServerRequestKey) request ∉ log := by
  intro hmem
  obtain ⟨sessionId', n, hn, hkey⟩ := h.keys _ _ hmem
  have heq := requestKey_inj hkey
  omega

theorem TableInv.register {sessionId : ℕ} (h : TableInv requests log)
    (hsession : request.sessionId = sessionId)
    (hroom : requests.openCount sessionId < maxPendingRequestsPerSession) :
    TableInv
      { pending := requests.pending.set (requestKey sessionId requests.nextServerRequestKey) request
        nextServerRequestKey := requests.nextServerRequestKey + 1 }
      (log ++ [.registered (requestKey sessionId requests.nextServerRequestKey) request]) where
  pending k request' := by
    rw [InsertionMap.get_set, open_snoc_iff, ← h.pending]
    by_cases hk : k = requestKey sessionId requests.nextServerRequestKey
    · subst hk
      have hnone : requests.pending.get (requestKey sessionId requests.nextServerRequestKey) ≠
          some request' := by
        intro hget
        exact h.not_registered sessionId request' ((h.pending _ _).mp hget).mem
      rw [if_pos rfl]
      constructor
      · intro heq
        cases heq
        exact .inl rfl
      · rintro (heq | ⟨hget, -⟩)
        · cases heq
          rfl
        · exact (hnone hget).elim
    · simp [hk, Ne.symm hk, CodexEvent.closes]
  keys k request' hmem := by
    rcases List.mem_append.mp hmem with hmem | hmem
    · obtain ⟨sessionId', n, hn, hkey⟩ := h.keys k request' hmem
      exact ⟨sessionId', n, Nat.lt_succ_of_lt hn, hkey⟩
    · cases List.mem_singleton.mp hmem
      exact ⟨sessionId, _, Nat.lt_succ_self _, rfl⟩
  bounded other := by
    by_cases hother : other = sessionId
    · subst hother
      exact (InsertionMap.countP_set_le _ _ _ _).trans hroom
    · -- Of another session it is not counted.
      refine le_trans ?_ (h.bounded other)
      refine InsertionMap.countP_set_le_of_not _ ?_
      simpa [hsession] using Ne.symm hother

end Table

/-! ### The dialog -/

section Dialog

variable {authorization : CodexAuthorizationState} {calls calls' : InsertionMap ℕ CodexCall}
  {at_ : CodexCall} {binding : CodexConfirmationBinding}

/-- Commands that do not ask come and go. -/
theorem DialogInv.mono (h : DialogInv authorization calls log)
    (hcalls : ∀ call at_, calls'.get call = some at_ → at_.asks ≠ none →
      calls.get call = some at_) : DialogInv authorization calls' log where
  begun call at_ binding hget hasks :=
    h.begun call at_ binding (hcalls call at_ hget (by simp [hasks])) hasks
  once call call' at_ at_' hget hget' hasks hasks' :=
    h.once call call' at_ at_' (hcalls call at_ hget hasks) (hcalls call' at_' hget' hasks') hasks
      hasks'

theorem DialogInv.snoc (h : DialogInv authorization calls log) (he : e.turnsDialog = false) :
    DialogInv authorization calls (log ++ [e]) where
  begun call at_ binding hget hasks := by
    obtain ⟨hflight, hbegun⟩ := h.begun call at_ binding hget hasks
    refine ⟨hflight, hbegun.snoc fun back hback e' he' ↦ ?_⟩
    rcases List.mem_append.mp he' with he' | he'
    · exact hback e' he'
    · exact List.mem_singleton.mp he' ▸ he
  once := h.once

/-- A dialog opens when none is open. -/
theorem DialogInv.begin (h : DialogInv authorization calls log) (call : ℕ)
    (hnone : authorization.confirmationInFlight = none) (hasks : at_.asks = some binding) :
    DialogInv { authorization with confirmationInFlight := some binding } (calls.set call at_)
      (log ++ [.begun call binding]) := by
  have hquiet : ∀ call' at_', calls.get call' = some at_' → at_'.asks = none := by
    intro call' at_' hget
    by_contra hne
    obtain ⟨binding', hasks'⟩ := Option.ne_none_iff_exists'.mp hne
    have hflight := (h.begun call' at_' binding' hget hasks').1
    rw [hnone] at hflight
    cases hflight
  have hself : ∀ call' at_', (calls.set call at_).get call' = some at_' → at_'.asks ≠ none →
      call' = call ∧ at_' = at_ := by
    intro call' at_' hget hne
    rw [InsertionMap.get_set] at hget
    split at hget
    · rename_i hcall
      exact ⟨hcall, (Option.some.inj hget).symm⟩
    · exact (hne (hquiet call' at_' hget)).elim
  refine ⟨fun call' at_' binding' hget hasks' ↦ ?_, fun c c' a a' hget hget' hne hne' ↦ ?_⟩
  · obtain ⟨rfl, rfl⟩ := hself call' at_' hget (by simp [hasks'])
    rw [hasks] at hasks'
    cases hasks'
    exact ⟨rfl, since_snoc_self (by simp)⟩
  · exact (hself c a hget hne).1.trans (hself c' a' hget' hne').1.symm

/-- The dialog closes with the command that asks. -/
theorem DialogInv.close (h : DialogInv authorization calls log) (hget : calls.get call = some at_)
    (hasks : at_.asks ≠ none)
    (hcalls : ∀ call' at_', calls'.get call' = some at_' → at_'.asks ≠ none →
      call' ≠ call ∧ calls.get call' = some at_') :
    DialogInv { authorization with confirmationInFlight := none } calls' (log ++ [e]) := by
  have hquiet : ∀ call' at_', calls'.get call' = some at_' → at_'.asks = none := by
    intro call' at_' hget'
    by_contra hne
    obtain ⟨hcall, hold⟩ := hcalls call' at_' hget' hne
    exact hcall (h.once call' call at_' at_ hold hget hne hasks)
  refine ⟨fun call' at_' binding hget' hasks' ↦ ?_, fun c c' a a' hget' _ hne _ ↦ ?_⟩
  · rw [hquiet call' at_' hget'] at hasks'
    cases hasks'
  · exact (hne (hquiet c a hget')).elim

end Dialog

/-! ### Suspended commands -/

theorem PreparedFor.snoc {prepared : PreparedCodexServerResponse} (h : PreparedFor log prepared) :
    PreparedFor (log ++ [e]) prepared := by
  obtain ⟨request, hmem, hconfirmation⟩ := h
  exact ⟨request, List.mem_append_left _ hmem, hconfirmation⟩

theorem SweptSince.snoc {binding : CodexConfirmationBinding} {seen seen' : List CodexEvent → Prop}
    (h : SweptSince log call binding key seen) (hcontract : AnswerContract log e)
    (hmem : .registered key request ∈ log) (hseen : ∀ back, seen back → seen' (back ++ [e])) :
    SweptSince (log ++ [e]) call binding key seen' := by
  obtain ⟨now, hsince, hopen⟩ := h
  exact ⟨now, hsince.snoc fun back hback ↦ ⟨List.mem_append_left _ hback.1, hseen back hback.2⟩,
    fun request' ho ↦ hopen request' (ho.of_snoc hcontract hmem)⟩

theorem CallJustified.snoc {at_ : CodexCall} (h : CallJustified log call at_)
    (hcontract : AnswerContract log e) : CallJustified (log ++ [e]) call at_ := by
  cases at_ with
  | preparing request => trivial
  | askingProject binding => trivial
  | confirming prepared binding => exact ⟨h.1.snoc, h.2⟩
  | asking prepared binding => exact ⟨h.1.snoc, h.2⟩
  | finishing prepared =>
    exact ⟨h.1.snoc, fun binding hb ↦ List.mem_append_left _ (h.2 binding hb)⟩
  | rechecking prepared =>
    obtain ⟨request, hmem, -⟩ := h.1
    exact ⟨h.1.snoc, fun binding hb ↦ (h.2 binding hb).snoc hcontract hmem fun _ _ ↦ trivial⟩
  | answering prepared =>
    obtain ⟨request, hmem, -⟩ := h.1
    refine ⟨h.1.snoc, fun binding hb ↦ ?_⟩
    obtain ⟨within, hswept⟩ := h.2 binding hb
    exact ⟨within, hswept.snoc hcontract hmem fun back hback ↦ List.mem_append_left _ hback⟩

/-! ### Taking requests out -/

/-- The answers to some requests. -/
def answersTo (reply : CodexAnswer) (removed : List (String × PendingServerRequest)) :
    List CodexEvent :=
  removed.map fun e ↦ .answered e.1 e.2 reply

section Close

variable {s : CodexAnswers} {p : PendingServerRequest → Bool} {reply : CodexAnswer}
  {marker : CodexEvent} {removed : List (String × PendingServerRequest)}

/-- What of the invariant is not about the table. -/
structure CallsInv (s : CodexAnswers) (log : List CodexEvent) : Prop where
  justified : Justified AnswerContract log
  dialog : DialogInv s.authorization s.calls log
  calls : ∀ call at_, s.calls.get call = some at_ → CallJustified log call at_

theorem CallsInv.snoc (h : CallsInv s log) (hcontract : AnswerContract log e)
    (he : e.turnsDialog = false) : CallsInv s (log ++ [e]) where
  justified := justified_snoc h.justified hcontract
  dialog := h.dialog.snoc he
  calls call at_ hget := (h.calls call at_ hget).snoc hcontract

/-- Open requests are answered one after the other. -/
theorem CallsInv.answers (h : CallsInv s log) (hnodup : (removed.map Prod.fst).Nodup)
    (hopen : ∀ e ∈ removed, Open log e.1 e.2)
    (hreply : ∀ log', ∀ e ∈ removed, Open log' e.1 e.2 →
      AnswerContract log' (.answered e.1 e.2 reply)) :
    CallsInv s (log ++ answersTo reply removed) ∧
      (∀ key request, Open (log ++ answersTo reply removed) key request ↔
        Open log key request ∧ key ∉ removed.map Prod.fst) ∧
      ∀ key request, .registered key request ∈ log ++ answersTo reply removed ↔
        .registered key request ∈ log := by
  induction removed generalizing log with
  | nil => simpa [answersTo] using h
  | cons e removed ih =>
    obtain ⟨hhead, htail⟩ := List.nodup_cons.mp hnodup
    have hcontract := hreply log e List.mem_cons_self (hopen e List.mem_cons_self)
    have hfirst : ∀ key request, Open (log ++ [.answered e.1 e.2 reply]) key request ↔
        Open log key request ∧ key ≠ e.1 := by
      intro key request
      rw [open_snoc_iff]
      simp [CodexEvent.closes, eq_comm]
    have hrest : ∀ e' ∈ removed, Open (log ++ [.answered e.1 e.2 reply]) e'.1 e'.2 := by
      intro e' he'
      refine (hfirst _ _).mpr ⟨hopen e' (List.mem_cons_of_mem _ he'), ?_⟩
      rintro heq
      exact hhead (heq ▸ List.mem_map.mpr ⟨e', he', rfl⟩)
    obtain ⟨hinv, hopens, hmem⟩ := ih (h.snoc hcontract rfl) htail hrest fun log' e' he' ↦
      hreply log' e' (List.mem_cons_of_mem _ he')
    have hlog : log ++ answersTo reply (e :: removed) =
        log ++ [.answered e.1 e.2 reply] ++ answersTo reply removed := by
      simp [answersTo]
    rw [hlog]
    refine ⟨hinv, fun key request ↦ ?_, fun key request ↦ ?_⟩
    · rw [hopens, hfirst, List.map_cons, List.mem_cons, not_or, and_assoc]
    · rw [hmem]
      simp

/-- **The requests that meet a condition are closed**, and none that meets it is open after. -/
theorem AnswersInv.close (h : AnswersInv s log)
    (hreply : ∀ log' key request, p request = true → Open log' key request →
      AnswerContract log' (.answered key request reply))
    (hmarker : ∀ log', (∀ key request, Open log' key request → p request = false) →
      AnswerContract log' marker)
    (hquiet : marker.quiet = true) (hdialog : marker.turnsDialog = false) :
    AnswersInv (s.close p reply marker).1 (log ++ (s.close p reply marker).2) := by
  have hremoved : ∀ e ∈ s.requests.pending.entries.filter (fun e ↦ p e.2),
      s.requests.pending.get e.1 = some e.2 ∧ p e.2 = true := by
    intro e he
    obtain ⟨hmem, hp⟩ := List.mem_filter.mp he
    exact ⟨InsertionMap.mem_entries_iff.mp hmem, hp⟩
  obtain ⟨hinv, hopens, hmem⟩ := CallsInv.answers (s := s)
    ⟨h.justified, h.dialog, h.calls⟩ (s.requests.pending.nodup_keys.sublist
      ((List.filter_sublist (p := fun e ↦ p e.2)).map Prod.fst))
    (fun e he ↦ (h.table.pending _ _).mp (hremoved e he).1)
    fun log' e he ho ↦ hreply log' e.1 e.2 (hremoved e he).2 ho
  have hkept : ∀ key request, (s.requests.pending.filter fun _ request ↦ !p request).get key =
      some request ↔ Open (log ++ answersTo reply
        (s.requests.pending.entries.filter fun e ↦ p e.2)) key request := by
    intro key request
    rw [InsertionMap.get_filter, Option.filter_eq_some_iff, hopens, ← h.table.pending]
    refine and_congr_right fun hget ↦ ?_
    have hkey : key ∈ (s.requests.pending.entries.filter fun e ↦ p e.2).map Prod.fst ↔
        p request = true := by
      constructor
      · intro hmem
        obtain ⟨⟨key', request'⟩, he, rfl⟩ := List.mem_map.mp hmem
        obtain ⟨hget', hp⟩ := hremoved _ he
        rw [hget] at hget'
        cases hget'
        exact hp
      · intro hp
        exact List.mem_map.mpr ⟨(key, request), List.mem_filter.mpr
          ⟨InsertionMap.mem_entries_iff.mpr hget, hp⟩, rfl⟩
    rw [hkey, Bool.not_eq_true', Bool.not_eq_true]
  have htable : TableInv (s.requests.cancelWhere p).2 (log ++ answersTo reply
      (s.requests.pending.entries.filter fun e ↦ p e.2)) :=
    ⟨hkept, fun key request hreg ↦ h.table.keys key request ((hmem key request).mp hreg),
      fun sessionId ↦ (InsertionMap.countP_filter_le _ _ _).trans (h.table.bounded sessionId)⟩
  have hlast := hmarker _ fun key request ho ↦ by
    have hget := (hkept key request).mpr ho
    rw [InsertionMap.get_filter, Option.filter_eq_some_iff] at hget
    simpa using hget.2
  have hfinal := hinv.snoc hlast hdialog
  have hlog : log ++ (s.close p reply marker).2 = log ++ answersTo reply
      (s.requests.pending.entries.filter fun e ↦ p e.2) ++ [marker] :=
    (List.append_assoc _ _ _).symm
  rw [hlog]
  exact ⟨hfinal.justified, htable.quiet hquiet, hfinal.dialog, hfinal.calls⟩

theorem AnswersInv.expireDue {now : ℕ} (h : AnswersInv s log) :
    AnswersInv (s.expireDue now).1 (log ++ (s.expireDue now).2) :=
  h.close (fun log' key request hdue ho ↦ ⟨ho, by simpa using hdue⟩)
    (fun log' hnone key request ho ↦ by simpa using hnone key request ho) rfl rfl

end Close

/-! ### What each step keeps -/

namespace AnswersInv

variable {s : CodexAnswers} {checks : RequestChecks} {at_ : CodexCall}

/-- Other commands than the one that moves. -/
theorem get_suspended {other : ℕ} {at_' : CodexCall}
    (hget : (s.suspended call at_).calls.get other = some at_') :
    other = call ∧ at_' = at_ ∨ other ≠ call ∧ s.calls.get other = some at_' := by
  change (s.calls.set call at_).get other = some at_' at hget
  rw [InsertionMap.get_set] at hget
  split at hget
  · rename_i hother
    exact .inl ⟨hother, (Option.some.inj hget).symm⟩
  · rename_i hother
    exact .inr ⟨hother, hget⟩

theorem get_finished {other : ℕ} {at_' : CodexCall}
    (hget : (s.finished call).calls.get other = some at_') :
    other ≠ call ∧ s.calls.get other = some at_' := by
  change (s.calls.delete call).get other = some at_' at hget
  rw [InsertionMap.get_delete] at hget
  split at hget
  · cases hget
  · rename_i hother
    exact ⟨hother, hget⟩

/-- An event that is not about the table or the dialog. -/
theorem snoc (h : AnswersInv s log) (hcontract : AnswerContract log e) (hquiet : e.quiet = true)
    (hdialog : e.turnsDialog = false) : AnswersInv s (log ++ [e]) where
  justified := justified_snoc h.justified hcontract
  table := h.table.quiet hquiet
  dialog := h.dialog.snoc hdialog
  calls call at_ hget := (h.calls call at_ hget).snoc hcontract

/-- A command that does not ask goes on without an event. -/
theorem suspended (h : AnswersInv s log) (hcall : CallJustified log call at_)
    (hasks : at_.asks = none) : AnswersInv (s.suspended call at_) log where
  justified := h.justified
  table := h.table
  dialog := h.dialog.mono fun other at_' hget hne ↦ by
    rcases get_suspended hget with ⟨-, rfl⟩ | ⟨-, hold⟩
    · exact (hne hasks).elim
    · exact hold
  calls other at_' hget := by
    rcases get_suspended hget with ⟨rfl, rfl⟩ | ⟨-, hold⟩
    · exact hcall
    · exact h.calls other at_' hold

theorem finished (h : AnswersInv s log) (call : ℕ) : AnswersInv (s.finished call) log where
  justified := h.justified
  table := h.table
  dialog := h.dialog.mono fun _ _ hget _ ↦ (get_finished hget).2
  calls other at_' hget := h.calls other at_' (get_finished hget).2

theorem fail (h : AnswersInv s log) (message : String) :
    AnswersInv (s.fail call message).1 (log ++ (s.fail call message).2) :=
  (h.finished call).snoc trivial rfl rfl

theorem register {context : RpcRequestContext} {id : RpcId} {method : String} {params : Value}
    {within : PathWithin} {now : ℕ} (h : AnswersInv s log) :
    AnswersInv (s.register checks context id method params within now).1
      (log ++ (s.register checks context id method params within now).2) := by
  unfold CodexAnswers.register
  split
  · exact h.snoc trivial rfl rfl
  rename_i key request requests hregister
  obtain ⟨rfl, hsession, hroom, rfl⟩ := CodexRpcState.register_eq_ok hregister
  have hcontract := h.table.not_registered context.sessionId
  exact ⟨justified_snoc h.justified hcontract, h.table.register hsession hroom,
    h.dialog.snoc rfl, fun call at_ hget ↦ (h.calls call at_ hget).snoc hcontract⟩

theorem resolve {sessionId : ℕ} {id : RpcId} {found : String} (h : AnswersInv s log) :
    AnswersInv (s.resolve sessionId id found).1 (log ++ (s.resolve sessionId id found).2) := by
  unfold CodexAnswers.resolve CodexRpcState.removeResolved
  cases hget : s.requests.pending.get found with
  | none => simpa using h
  | some request =>
    dsimp only
    split
    · simpa using h
    rename_i requests hresolved
    split at hresolved
    · cases hresolved
      have hcontract : AnswerContract log (.resolved found) :=
        ⟨request, (h.table.pending _ _).mp hget⟩
      exact ⟨justified_snoc h.justified hcontract, h.table.delete fun k ↦ rfl, h.dialog.snoc rfl,
        fun call at_ hcall ↦ (h.calls call at_ hcall).snoc hcontract⟩
    · cases hresolved

theorem prepare {within : PathWithin} (h : AnswersInv s log) :
    AnswersInv (s.prepare checks call within).1 (log ++ (s.prepare checks call within).2) := by
  unfold CodexAnswers.prepare
  split
  · split
    · exact h.fail _
    rename_i prepared hprepare
    obtain ⟨pending, hpending, hconfirmation⟩ := CodexRpcState.prepareResponse_eq_ok hprepare
    have hprepared : PreparedFor log prepared :=
      ⟨pending, ((h.table.pending _ _).mp hpending).mem, hconfirmation⟩
    split
    · rename_i binding hbinding
      have hasking : CallJustified log call (.confirming prepared binding) := ⟨hprepared, hbinding⟩
      simpa using h.suspended hasking rfl
    · rename_i hnone
      have hfinishing : CallJustified log call (.finishing prepared) :=
        ⟨hprepared, fun binding hb ↦ by simp [hnone] at hb⟩
      simpa using h.suspended hfinishing rfl
  · simpa using h

theorem openDialog (h : AnswersInv s log) :
    AnswersInv (s.openDialog call).1 (log ++ (s.openDialog call).2) := by
  unfold CodexAnswers.openDialog
  split
  · rename_i prepared binding hcall
    split
    · exact h.fail _
    rename_i authorization hbegin
    obtain ⟨hnone, rfl⟩ := CodexAuthorizationState.beginConfirmation_eq_ok hbegin
    have hconfirming : CallJustified log call (.confirming prepared binding) := h.calls call _ hcall
    have hasking : CallJustified log call (.asking prepared binding) := hconfirming
    refine ⟨justified_snoc h.justified trivial, h.table.quiet rfl, h.dialog.begin call hnone rfl,
      fun other at_' hget ↦ ?_⟩
    rcases get_suspended hget with ⟨rfl, rfl⟩ | ⟨-, hold⟩
    · exact hasking.snoc trivial
    · exact (h.calls other at_' hold).snoc trivial
  · simpa using h

/-- A dialog closes, and its command goes on as it may. -/
theorem shut {t : CodexAnswers} {binding : CodexConfirmationBinding} (h : AnswersInv s log)
    (hget : s.calls.get call = some at_) (hasks : at_.asks = some binding)
    (hcontract : AnswerContract log e) (hquiet : e.quiet = true) (hrequests : t.requests = s.requests)
    (hauthorization : t.authorization = { s.authorization with confirmationInFlight := none })
    (hcalls : ∀ other at_', t.calls.get other = some at_' →
      other ≠ call ∧ s.calls.get other = some at_' ∨
        at_'.asks = none ∧ CallJustified (log ++ [e]) other at_') :
    AnswersInv t (log ++ [e]) where
  justified := justified_snoc h.justified hcontract
  table := hrequests ▸ h.table.quiet hquiet
  dialog := by
    rw [hauthorization]
    refine h.dialog.close hget (by simp [hasks]) fun other at_' hget' hne ↦ ?_
    rcases hcalls other at_' hget' with hold | ⟨hnone, -⟩
    · exact hold
    · exact (hne hnone).elim
  calls other at_' hget' := by
    rcases hcalls other at_' hget' with ⟨-, hold⟩ | ⟨-, hnew⟩
    · exact (h.calls other at_' hold).snoc hcontract
    · exact hnew

theorem closeDialog {result : Except String Bool} (h : AnswersInv s log) :
    AnswersInv (s.closeDialog call result).1 (log ++ (s.closeDialog call result).2) := by
  unfold CodexAnswers.closeDialog
  split
  · rename_i prepared binding hcall
    split
    · exact h.fail _
    rename_i authorization hfinish
    obtain ⟨-, rfl⟩ := CodexAuthorizationState.finishConfirmation_eq_ok hfinish
    obtain ⟨hprepared, hbinding⟩ : CallJustified log call (.asking prepared binding) :=
      h.calls call _ hcall
    have hbegun := (h.dialog.begun call _ binding hcall rfl).2
    dsimp only
    split
    · exact h.shut hcall rfl trivial rfl rfl rfl fun _ _ hget ↦ .inl (get_finished hget)
    · exact h.shut hcall rfl trivial rfl rfl rfl fun _ _ hget ↦ .inl (get_finished hget)
    · refine h.shut hcall rfl hbegun rfl rfl rfl fun other at_' hget ↦ ?_
      rcases get_suspended hget with ⟨rfl, rfl⟩ | hold
      · refine .inr ⟨rfl, hprepared.snoc, fun binding' hb ↦ ?_⟩
        rw [hbinding] at hb
        cases hb
        simp
      · exact .inl hold
  · simpa using h

theorem respond {request : RespondCodexServerRequest} {now : ℕ} (h : AnswersInv s log) :
    AnswersInv (s.respond call request now).1 (log ++ (s.respond call request now).2) :=
  by
  have hpreparing : CallJustified (log ++ (s.expireDue now).2) call (.preparing request) := trivial
  exact h.expireDue.suspended hpreparing rfl

/-- A sweep leaves what is not due. -/
theorem finish {now : ℕ} (h : AnswersInv s log) :
    AnswersInv (s.finish call now).1 (log ++ (s.finish call now).2) := by
  unfold CodexAnswers.finish
  split
  · rename_i prepared hcall
    have hswept : AnswersInv (s.expireDue now).1 (log ++ (s.expireDue now).2) := h.expireDue
    have hfinishing : CallJustified (log ++ (s.expireDue now).2) call (.finishing prepared) :=
      hswept.calls call _ hcall
    have hrechecking : CallJustified (log ++ (s.expireDue now).2) call (.rechecking prepared) := ?_
    · exact hswept.suspended hrechecking rfl
    refine ⟨hfinishing.1, fun binding hb ↦ ?_⟩
    have hconfirmed : .confirmed call binding ∈ log := (h.calls call _ hcall).2 binding hb
    obtain ⟨front, back, rfl⟩ := List.append_of_mem hconfirmed
    refine ⟨now, ⟨front, back ++ (s.expireDue now).2, by simp, ?_, trivial⟩, fun request ho ↦ ?_⟩
    · exact List.mem_append_right _ (by simp [CodexAnswers.expireDue, CodexAnswers.close])
    · have hget := (hswept.table.pending _ _).mpr ho
      change (s.requests.pending.filter fun _ request ↦ !decide (request.expiresAt ≤ now)).get _ =
        some request at hget
      rw [InsertionMap.get_filter, Option.filter_eq_some_iff] at hget
      simpa using hget.2
  · simpa using h

theorem recheck {within : PathWithin} (h : AnswersInv s log) :
    AnswersInv (s.recheck call within).1 (log ++ (s.recheck call within).2) := by
  unfold CodexAnswers.recheck
  split
  · rename_i prepared hcall
    split
    · exact h.fail _
    rename_i hrecheck
    obtain ⟨hprepared, hswept⟩ : CallJustified log call (.rechecking prepared) :=
      h.calls call _ hcall
    cases hconfirmation : prepared.confirmation with
    | none =>
      have hanswering : CallJustified log call (.answering prepared) :=
        ⟨hprepared, fun binding hb ↦ by simp [hconfirmation] at hb⟩
      simpa using h.suspended hanswering rfl
    | some binding =>
      have hcontract : AnswerContract log (.rechecked call prepared.requestKey within) := by
        intro request ho
        obtain ⟨_, _, hform⟩ := hprepared
        rw [hconfirmation] at hform
        split at hform
        · rw [Option.some.inj hform] at hconfirmation
          obtain ⟨current, hcurrent, hdenial⟩ :=
            CodexRpcState.recheckResponse_eq_ok hrecheck hconfirmation
          rw [(h.table.pending _ _).mpr ho] at hcurrent
          cases hcurrent
          exact hdenial
        · cases hform
      have hanswering : CallJustified (log ++ [.rechecked call prepared.requestKey within]) call
          (.answering prepared) := by
        have ⟨_, hmem, _⟩ := hprepared
        refine ⟨hprepared.snoc, fun binding' hb ↦ ⟨within, ?_⟩⟩
        exact (hswept binding' hb).snoc hcontract hmem fun back _ ↦ by simp
      exact (h.snoc hcontract rfl rfl).suspended hanswering rfl
  · simpa using h

/-- **The answer** of a command goes to the request that was confirmed. -/
theorem answer (h : AnswersInv s log) :
    AnswersInv (s.answer call).1 (log ++ (s.answer call).2) := by
  unfold CodexAnswers.answer CodexRpcState.takePending
  split
  · rename_i prepared hcall
    cases hget : s.requests.pending.get prepared.requestKey with
    | none => exact h.fail _
    | some request =>
      have hopen : Open log prepared.requestKey request := (h.table.pending _ _).mp hget
      obtain ⟨⟨request', hmem, hform⟩, hswept⟩ : CallJustified log call (.answering prepared) :=
        h.calls call _ hcall
      obtain rfl := registered_unique h.justified hopen.mem hmem
      have hcontract : AnswerContract log (.answered prepared.requestKey request
          (.decided call prepared.responseField prepared.responseValue)) := by
        refine ⟨hopen, fun hpositive ↦ ?_⟩
        rw [if_pos hpositive] at hform
        obtain ⟨within, now, hsince, hdue⟩ := hswept _ hform
        exact ⟨now, within, hdue request hopen, hsince⟩
      exact ⟨justified_snoc h.justified hcontract, h.table.delete fun k ↦ rfl,
        (h.dialog.mono fun _ _ hget' _ ↦ (get_finished hget').2).snoc rfl,
        fun other at_' hget' ↦ (h.calls other at_' (get_finished hget').2).snoc hcontract⟩
  · simpa using h

theorem confirmProject {binding : CodexConfirmationBinding} (h : AnswersInv s log) :
    AnswersInv (s.confirmProject call binding).1 (log ++ (s.confirmProject call binding).2) := by
  unfold CodexAnswers.confirmProject
  split
  · exact h.snoc trivial rfl rfl
  rename_i authorization hbegin
  obtain ⟨hnone, rfl⟩ := CodexAuthorizationState.beginConfirmation_eq_ok hbegin
  refine ⟨justified_snoc h.justified trivial, h.table.quiet rfl, h.dialog.begin call hnone rfl,
    fun other at_' hget ↦ ?_⟩
  rcases get_suspended hget with ⟨rfl, rfl⟩ | ⟨-, hold⟩
  · trivial
  · exact (h.calls other at_' hold).snoc trivial

theorem closeProject {approved : Bool} (h : AnswersInv s log) :
    AnswersInv (s.closeProject call approved).1 (log ++ (s.closeProject call approved).2) := by
  unfold CodexAnswers.closeProject
  split
  · rename_i binding hcall
    split
    · exact h.fail _
    rename_i authorization hfinish
    obtain ⟨-, rfl⟩ := CodexAuthorizationState.finishConfirmation_eq_ok hfinish
    have hbegun := (h.dialog.begun call _ binding hcall rfl).2
    cases approved with
    | false => exact h.shut hcall rfl trivial rfl rfl rfl fun _ _ hget ↦ .inl (get_finished hget)
    | true => exact h.shut hcall rfl hbegun rfl rfl rfl fun _ _ hget ↦ .inl (get_finished hget)
  · simpa using h

theorem step (h : AnswersInv s log) (action : CodexAction) :
    AnswersInv (s.step checks action).1 (log ++ (s.step checks action).2) := by
  cases action with
  | expire now => exact h.expireDue
  | register context id method params within now => exact h.register
  | resolve sessionId id found => exact h.resolve
  | cancelRoom roomId message =>
    exact h.close (fun log' key request _ ho ↦ ⟨ho, trivial⟩)
      (fun log' hnone key request ho ↦ by simpa using hnone key request ho) rfl rfl
  | cancelSession sessionId message =>
    exact h.close (fun log' key request _ ho ↦ ⟨ho, trivial⟩)
      (fun log' hnone key request ho ↦ by simpa using hnone key request ho) rfl rfl
  | respond call request now =>
    simp only [CodexAnswers.step]
    split
    · simpa using h
    · exact h.respond
  | prepare call within => exact h.prepare
  | openDialog call => exact h.openDialog
  | closeDialog call result => exact h.closeDialog
  | finish call now => exact h.finish
  | recheck call within => exact h.recheck
  | answer call => exact h.answer
  | confirmProject call roomId canonicalRoot sandboxMode networkAccess =>
    simp only [CodexAnswers.step]
    split
    · simpa using h
    · exact h.confirmProject
  | closeProject call approved => exact h.closeProject

end AnswersInv

theorem answersInv_initial : AnswersInv {} [] where
  justified := justified_nil
  table := by
    refine ⟨fun key request ↦ ⟨fun h ↦ ?_, fun h ↦ ?_⟩, fun _ _ h ↦ ?_, fun _ ↦ Nat.zero_le _⟩
    · rw [InsertionMap.get_empty] at h
      cases h
    · cases h.mem
    · cases h
  dialog := by
    refine ⟨fun call at_ binding h _ ↦ ?_, fun call call' at_ at_' h _ _ _ ↦ ?_⟩
    · rw [InsertionMap.get_empty] at h
      cases h
    · rw [InsertionMap.get_empty] at h
      cases h
  calls call at_ h := by
    rw [InsertionMap.get_empty] at h
    cases h

/-- The state and the log after a run from the start. -/
def codexAnswers (checks : RequestChecks) (actions : List CodexAction) :
    CodexAnswers × List CodexEvent :=
  Machine.run (fun s action ↦ s.step checks action) {} actions

end MultAIplayer.Native
