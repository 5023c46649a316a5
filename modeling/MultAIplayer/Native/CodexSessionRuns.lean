import MultAIplayer.Lib.History
import MultAIplayer.Native.CodexSession

/-!
# Turns on one session

`run_turn` compares no notification with its turn, so a notification that arrives late is counted
in whatever turn reads it. `TurnsApart` says what the turns of a session should come to, and
`turnsApart_iff` when they do: exactly when no loop takes a notification that carries another turn.

What does not depend on the turn that a notification carries holds in every run: the report of a
turn is made of what its loop handled (`Reports`), the loops handle the notifications in the order
of their arrival and each once, and what is set aside while a response is waited for stays
(`InboxInv`).
-/

namespace MultAIplayer.Native

/-! ### What a log says -/

/-- A notification as a loop handles it, with the time. -/
structure Notice where
  method : String
  value : Value
  now : String

namespace SessionEvent

/-- The message that is taken off the channel. -/
@[grind =] def arrival : SessionEvent → Option RpcMessage
  | received message => some message
  | _ => none

@[simp] theorem arrival_received (message : RpcMessage) :
    (received message).arrival = some message := rfl

/-- The message that is done with. -/
def settled : SessionEvent → Option RpcMessage
  | answered id value => some (.response id value)
  | registered id method params => some (.serverRequest id method params)
  | handled _ _ message => some message
  | _ => none

@[simp] theorem settled_received (message : RpcMessage) : (received message).settled = none := rfl

def noticeOf (turn : TurnName) : SessionEvent → Option Notice
  | handled turn' now (.notification method value) =>
    if turn' = turn then some { method, value, now } else none
  | _ => none

/-- The notification that a turn handles. -/
def notified : SessionEvent → Option (TurnName × Value)
  | handled turn _ (.notification _ value) => some (turn, value)
  | _ => none

def activityOf (turn : TurnName) : SessionEvent → Option CodexActivityEvent
  | .activity turn' shown => if turn' = turn then some shown else none
  | _ => none

/-- The turn that an event belongs to. -/
def turn : SessionEvent → Option TurnName
  | .began turn _ | .handled turn _ _ | .activity turn _ | .ended turn _ => some turn
  | _ => none

end SessionEvent

open SessionEvent

/-- The notifications that the loop of a turn has handled. -/
@[grind =] def noticesOf (turn : TurnName) (log : List SessionEvent) : List Notice :=
  log.filterMap (noticeOf turn)

@[grind =] def activitiesOf (turn : TurnName) (log : List SessionEvent) : List CodexActivityEvent :=
  log.filterMap (activityOf turn)

/-! ### The report of a turn -/

/-- The text that a notification adds to the transcript. -/
def Notice.text (notice : Notice) : String :=
  if isTextMethod notice.method then (extractTextDelta notice.value).getD "" else ""

def Notice.image (notice : Notice) : Option CodexGeneratedImage :=
  if notice.method = "item/completed" then projectGeneratedImage notice.value else none

/-- The activity of one more notification. -/
def addActivity (render : Value → String) (context : ActivityContext)
    (sofar : List CodexActivityEvent × InsertionMap String String) (notice : Notice) :
    List CodexActivityEvent × InsertionMap String String :=
  let projected :=
    projectCodexActivity render context notice.method notice.value notice.now sofar.2
  (sofar.1 ++ (projected.map Prod.fst).toList, (projected.map Prod.snd).getD sofar.2)

/-- The activities of some notifications, with the table of when each item was first seen. -/
def projectActivities (render : Value → String) (context : ActivityContext)
    (notices : List Notice) : List CodexActivityEvent × InsertionMap String String :=
  notices.foldl (addActivity render context) ([], .empty)

/-- How a turn ends: with the notification that completes it, or broken off. -/
def EndsWith (notices : List Notice) (status : String) : Prop :=
  (∃ front last, notices = front ++ [last] ∧ last.method = "turn/completed" ∧
      status = completedStatus last.value ∧ ∀ n ∈ front, n.method ≠ "turn/completed") ∨
    status ∈ ["cancelled", "timeout", "error", "disconnected"] ∧
      ∀ n ∈ notices, n.method ≠ "turn/completed"

/-- A result reports some notifications, and the activities that were emitted are theirs. -/
structure Reports (render : Value → String) (context : ActivityContext) (notices : List Notice)
    (activities : List CodexActivityEvent) (result : CodexTurnResult) : Prop where
  transcript : result.transcript = String.join (notices.map Notice.text)
  images : result.generatedImages = (notices.filterMap Notice.image).take maxGeneratedImages
  activities : activities = (projectActivities render context notices).1
  status : EndsWith notices result.status

/-! ### The turn that a notification carries -/

/-- The thread and the turn in the parameters of a notification. -/
def carriedTurn (value : Value) : Option (String × String) :=
  (value.get "params").bind fun params ↦
    (params.strAt "threadId").bind fun threadId ↦
      ((params.strAt "turnId").or ((params.get "turn").bind fun turn ↦ turn.strAt "id")).map
        fun turnId ↦ (threadId, turnId)

/-- A notification carries no other turn than this one. `turnOf` is the id of the turn that the
app-server runs for a `turn/start`. -/
def OfTurn (turnOf : ℤ → String) (turn : TurnName) (value : Value) : Prop :=
  carriedTurn value ∈ [none, some (turn.threadId, turnOf turn.requestId)]

instance (turnOf : ℤ → String) (turn : TurnName) (value : Value) :
    Decidable (OfTurn turnOf turn value) :=
  inferInstanceAs (Decidable (_ ∈ _))

/-- What a report of a turn needs of the log. -/
def TurnContract (render : Value → String) (log : List SessionEvent) : SessionEvent → Prop
  | .ended turn result => ∃ context, .began turn context ∈ log ∧
      Reports render context (noticesOf turn log) (activitiesOf turn log) result
  | _ => True

/-- What the turns of a session come to: each report is made of the notifications of its own turn,
each used once and in order, and no message is lost. -/
structure TurnsApart (render : Value → String) (turnOf : ℤ → String) (s : CodexSession)
    (log : List SessionEvent) : Prop where
  reports : History.Justified (TurnContract render) log
  own : ∀ turn now method value, .handled turn now (.notification method value) ∈ log →
    OfTurn turnOf turn value
  inOrder : (log.filterMap settled).filter RpcMessage.isNotification <+:
    (log.filterMap arrival).filter RpcMessage.isNotification
  kept : (log.filterMap arrival).Perm (log.filterMap settled ++ s.inbox.deferred)

/-- The notification that an action has the loop of a turn take. -/
@[grind =] def takes (s : CodexSession) : SessionAction → Option (TurnName × Value)
  | .iterate poll =>
    match s.phase, s.inbox.next.1 with
    | .running loop, .ok (.notification _ value) =>
      if poll.cancelled || poll.expired then none else some (loop.name, value)
    | _, _ => none
  | _ => none

/-- The notification that is taken next carries no other turn than the one that takes it. -/
def TakesOwn (turnOf : ℤ → String) (s : CodexSession) (action : SessionAction) : Prop :=
  ∀ taken ∈ takes s action, OfTurn turnOf taken.1 taken.2

instance (turnOf : ℤ → String) (s : CodexSession) (action : SessionAction) :
    Decidable (TakesOwn turnOf s action) :=
  match h : takes s action with
  | none => .isTrue (by simp [TakesOwn, h])
  | some taken => decidable_of_iff (OfTurn turnOf taken.1 taken.2) (by simp [TakesOwn, h])

/-! ### Messages -/

section Messages

variable {inbox : RpcInbox} {log new : List SessionEvent}

/-- What is set aside is what has arrived and is not done with. -/
structure InboxInv (inbox : RpcInbox) (log : List SessionEvent) : Prop where
  inOrder : (log.filterMap arrival).filter RpcMessage.isNotification =
    (log.filterMap settled).filter RpcMessage.isNotification ++
      inbox.deferred.filter RpcMessage.isNotification
  kept : (log.filterMap arrival).Perm (log.filterMap settled ++ inbox.deferred)

theorem takeResponse_eq_some {id : RpcId} {messages rest : List RpcMessage} {value : Value}
    (h : RpcInbox.takeResponse id messages = some (value, rest)) :
    ∃ front back, messages = front ++ .response id value :: back ∧ rest = front ++ back := by
  induction messages generalizing rest with
  | nil => simp [RpcInbox.takeResponse] at h
  | cons message others ih =>
    have hlater : ∀ {message}, (RpcInbox.takeResponse id others).map
        (fun taken ↦ (taken.1, message :: taken.2)) = some (value, rest) →
        ∃ front back, message :: others = front ++ .response id value :: back ∧
          rest = front ++ back := by
      intro message h
      obtain ⟨⟨v, tail⟩, htail, heq⟩ := Option.map_eq_some_iff.mp h
      obtain ⟨rfl, rfl⟩ := Prod.mk.inj heq
      obtain ⟨front, back, hothers, htail⟩ := ih htail
      exact ⟨message :: front, back, by rw [hothers, List.cons_append], by rw [htail]; rfl⟩
    cases message with
    | response responseId v =>
      rw [RpcInbox.takeResponse] at h
      split at h
      · rename_i hid
        obtain ⟨rfl, rfl⟩ := Prod.mk.inj (Option.some.inj h)
        exact ⟨[], others, by rw [hid]; rfl, rfl⟩
      · exact hlater h
    | notification method v => exact hlater h
    | serverRequest requestId method params => exact hlater h

/-- Events without messages. -/
theorem InboxInv.quiet (h : InboxInv inbox log)
    (hnew : ∀ e ∈ new, e.arrival = none ∧ e.settled = none) : InboxInv inbox (log ++ new) := by
  have harrival : new.filterMap arrival = [] :=
    List.filterMap_eq_nil_iff.mpr fun e he ↦ (hnew e he).1
  have hsettled : new.filterMap settled = [] :=
    List.filterMap_eq_nil_iff.mpr fun e he ↦ (hnew e he).2
  constructor
  · simpa only [List.filterMap_append, harrival, hsettled, List.append_nil] using h.inOrder
  · simpa only [List.filterMap_append, harrival, hsettled, List.append_nil] using h.kept

/-- A message arrives and is set aside. -/
theorem InboxInv.defer (h : InboxInv inbox log) {rest : RpcInbox}
    (hrest : rest.deferred = inbox.deferred) (message : RpcMessage) :
    InboxInv (rest.defer message) (log ++ [.received message]) where
  inOrder := by
    simp [RpcInbox.defer, hrest, h.inOrder, List.filterMap_cons]
  kept := by
    simpa [RpcInbox.defer, hrest, List.filterMap_cons, ← List.append_assoc]
      using h.kept.append_right [message]

/-- A message arrives and is done with, while no notification waits. -/
theorem InboxInv.through (h : InboxInv inbox log) {rest : RpcInbox}
    (hrest : rest.deferred = inbox.deferred) {message : RpcMessage} {e : SessionEvent}
    (harrival : e.arrival = none) (hsettled : e.settled = some message)
    (hnext : message.isNotification = true → inbox.deferred = []) :
    InboxInv rest (log ++ [.received message, e]) where
  inOrder := by
    rcases hnotification : message.isNotification with _ | _
    · simp [hrest, harrival, hsettled, h.inOrder, hnotification,
        List.filterMap_cons]
    · simp [hrest, harrival, hsettled, h.inOrder, hnotification,
        hnext hnotification, List.filterMap_cons]
  kept := by
    have hkept := h.kept.append_right [message]
    rw [List.append_assoc] at hkept
    simpa [hrest, harrival, hsettled, List.filterMap_cons] using
      hkept.trans (List.perm_append_comm.append_left _)

/-- A message that was set aside is done with. -/
theorem InboxInv.take (h : InboxInv inbox log) {rest : RpcInbox} {message : RpcMessage}
    {front back : List RpcMessage} {e : SessionEvent}
    (hdeferred : inbox.deferred = front ++ message :: back)
    (hrest : rest.deferred = front ++ back) (harrival : e.arrival = none)
    (hsettled : e.settled = some message)
    (hnext : message.isNotification = true → front = []) : InboxInv rest (log ++ [e]) where
  inOrder := by
    rcases hnotification : message.isNotification with _ | _
    · simp [hrest, harrival, hsettled, h.inOrder, hdeferred, hnotification]
    · simp [hrest, harrival, hsettled, h.inOrder, hdeferred, hnotification, hnext hnotification]
  kept := by
    have hkept := h.kept
    rw [hdeferred] at hkept
    simpa [hrest, harrival, hsettled, List.filterMap_cons] using
      hkept.trans (List.perm_middle.append_left _)

theorem RpcInbox.deferred_receive : inbox.receive.2.deferred = inbox.deferred := by
  unfold RpcInbox.receive
  split <;> rfl

/-- The wait for a response loses nothing. -/
theorem InboxInv.waitForResponse (h : InboxInv inbox log) (id : ℤ) (poll : Poll) :
    InboxInv (inbox.waitForResponse id poll).2.1 (log ++ (inbox.waitForResponse id poll).2.2) ∧
      ∀ e ∈ (inbox.waitForResponse id poll).2.2, e.turn = none := by
  have hreceive := inbox.deferred_receive
  unfold RpcInbox.waitForResponse
  split
  · simpa using h
  split
  · rename_i value deferred htake
    obtain ⟨front, back, hdeferred, hrest⟩ := takeResponse_eq_some htake
    refine ⟨h.take hdeferred hrest rfl rfl nofun, ?_⟩
    simp [SessionEvent.turn]
  split
  · simpa using h
  split
  · rename_i message rest hreceived
    rw [hreceived] at hreceive
    split
    · split
      · rename_i responseId value hid
        refine ⟨h.through hreceive rfl rfl nofun, ?_⟩
        simp [SessionEvent.turn]
      · exact ⟨h.defer hreceive _, by simp [SessionEvent.turn]⟩
    · refine ⟨h.through hreceive rfl rfl nofun, ?_⟩
      simp [SessionEvent.turn]
    · exact ⟨h.defer hreceive _, by simp [SessionEvent.turn]⟩
  · rename_i error rest hreceived
    rw [hreceived] at hreceive
    have hrest : rest.deferred = inbox.deferred := hreceive
    refine ⟨⟨?_, ?_⟩, by simp⟩
    · simpa [hrest] using h.inOrder
    · simpa [hrest] using h.kept

theorem taken_quiet : ∀ e ∈ inbox.taken, e.turn = none ∧ ∃ message, e = .received message := by
  intro e he
  unfold RpcInbox.taken at he
  split at he
  · obtain ⟨message, -, rfl⟩ := Option.map_eq_some_iff.mp (Option.mem_toList.mp he)
    exact ⟨rfl, message, rfl⟩
  · simp at he

/-- The loop of a turn takes the messages in their order. -/
theorem InboxInv.next (h : InboxInv inbox log) {message : RpcMessage} {e : SessionEvent}
    (hnext : inbox.next.1 = .ok message) (harrival : e.arrival = none)
    (hsettled : e.settled = some message) :
    InboxInv inbox.next.2 (log ++ (inbox.taken ++ [e])) := by
  have hreceive := inbox.deferred_receive
  rcases hdeferred : inbox.deferred with _ | ⟨first, rest⟩
  · have hnext' : inbox.next = inbox.receive := by
      unfold RpcInbox.next
      rw [hdeferred]
    have htaken : inbox.taken = [.received message] := by
      unfold RpcInbox.taken
      rw [hdeferred, hnext]
      rfl
    rw [hnext', htaken]
    exact h.through hreceive harrival hsettled fun _ ↦ hdeferred
  · have hnext' : inbox.next = (.ok first, { inbox with deferred := rest }) := by
      unfold RpcInbox.next
      rw [hdeferred]
    have htaken : inbox.taken = [] := by
      unfold RpcInbox.taken
      rw [hdeferred]
      rfl
    rw [hnext'] at hnext ⊢
    obtain rfl := Except.ok.inj hnext
    rw [htaken]
    exact h.take (show inbox.deferred = [] ++ first :: rest from hdeferred) rfl harrival hsettled fun _ ↦ rfl

theorem InboxInv.next_error (h : InboxInv inbox log) {error : String}
    (hnext : inbox.next.1 = .error error) : InboxInv inbox.next.2 log := by
  have hreceive := inbox.deferred_receive
  rcases hdeferred : inbox.deferred with _ | ⟨first, rest⟩
  · have hnext' : inbox.next = inbox.receive := by
      unfold RpcInbox.next
      rw [hdeferred]
    rw [hnext']
    exact ⟨by rw [hreceive]; exact h.inOrder, by rw [hreceive]; exact h.kept⟩
  · have hnext' : inbox.next = (.ok first, { inbox with deferred := rest }) := by
      unfold RpcInbox.next
      rw [hdeferred]
    rw [hnext'] at hnext
    exact nomatch hnext

end Messages

/-! ### The loop of a turn -/

section Loop

variable {render : Value → String} {loop : TurnLoop} {log new : List SessionEvent}
  {notices : List Notice} {activities : List CodexActivityEvent}

theorem noticesOf_append (turn : TurnName) :
    noticesOf turn (log ++ new) = noticesOf turn log ++ noticesOf turn new :=
  List.filterMap_append

theorem activitiesOf_append (turn : TurnName) :
    activitiesOf turn (log ++ new) = activitiesOf turn log ++ activitiesOf turn new :=
  List.filterMap_append

theorem of_turn_none {e : SessionEvent} {turn : TurnName} (he : e.turn ≠ some turn) :
    e.noticeOf turn = none ∧ e.activityOf turn = none := by
  rcases e with - | - | - | - | ⟨turn', now, message⟩ | ⟨turn', shown⟩ | - | - | - | - | - | -
  case handled =>
    have hne : turn' ≠ turn := fun h ↦ he (congrArg some h)
    cases message <;> simp [noticeOf, activityOf, hne]
  case activity =>
    have hne : turn' ≠ turn := fun h ↦ he (congrArg some h)
    simp [noticeOf, activityOf, hne]
  all_goals exact ⟨rfl, rfl⟩

/-- Events of no turn, or of others, add nothing to what is said of a turn. -/
theorem of_others {turn : TurnName} (hnew : ∀ e ∈ new, e.turn ≠ some turn) :
    noticesOf turn (log ++ new) = noticesOf turn log ∧
      activitiesOf turn (log ++ new) = activitiesOf turn log := by
  have hnotices : noticesOf turn new = [] :=
    List.filterMap_eq_nil_iff.mpr fun e he ↦ (of_turn_none (hnew e he)).1
  have hactivities : activitiesOf turn new = [] :=
    List.filterMap_eq_nil_iff.mpr fun e he ↦ (of_turn_none (hnew e he)).2
  rw [noticesOf_append, activitiesOf_append, hnotices, hactivities, List.append_nil,
    List.append_nil]
  exact ⟨rfl, rfl⟩

/-- A loop has the report of some notifications so far. -/
structure LoopReport (render : Value → String) (loop : TurnLoop) (notices : List Notice)
    (activities : List CodexActivityEvent) : Prop where
  transcript : loop.transcript = String.join (notices.map Notice.text)
  images : loop.generatedImages = (notices.filterMap Notice.image).take maxGeneratedImages
  activities : (activities, loop.activityStartedAt) =
    projectActivities render loop.context notices

theorem join_snoc (texts : List String) (text : String) :
    String.join (texts ++ [text]) = String.join texts ++ text := by
  simp [String.join]

/-- The list of images grows until it is full. -/
theorem take_snoc {α : Type} {n : ℕ} (xs : List α) (x? : Option α) :
    (if (xs.take n).length < n then xs.take n ++ x?.toList else xs.take n) =
      (xs ++ x?.toList).take n := by
  rw [List.length_take, List.take_append]
  split
  · have hlength : xs.length < n := by omega
    rw [List.take_of_length_le (l := x?.toList)]
    cases x? with
    | none => simp
    | some x =>
      rw [Option.toList_some, List.length_singleton]
      omega
  · have hfull : n - xs.length = 0 := by omega
    rw [hfull, List.take_zero, List.append_nil]

/-- One more notification. -/
theorem LoopReport.noted (h : LoopReport render loop notices activities) (method : String)
    (value : Value) (now : String) :
    LoopReport render (loop.noted render method value now).1 (notices ++ [⟨method, value, now⟩])
      (activities ++ (loop.noted render method value now).2.toList) where
  transcript := by
    rw [List.map_append, List.map_singleton, join_snoc, ← h.transcript]
    show loop.text method value = _
    unfold TurnLoop.text Notice.text
    split <;> simp
  images := by
    rw [List.filterMap_append]
    show loop.images method value = _
    unfold TurnLoop.images
    rw [h.images]
    by_cases hmethod : method = "item/completed"
    · have hone : [(⟨method, value, now⟩ : Notice)].filterMap Notice.image =
          (projectGeneratedImage value).toList := by
        simp only [List.filterMap_cons, List.filterMap_nil, Notice.image, if_pos hmethod]
        cases projectGeneratedImage value <;> rfl
      rw [hone]
      simp only [hmethod, true_and]
      exact take_snoc _ _
    · simp [hmethod, Notice.image]
  activities := by
    rw [projectActivities, List.foldl_append, ← projectActivities]
    show _ = addActivity render loop.context (projectActivities render loop.context notices) _
    rw [← h.activities]
    rfl

/-- What holds of the loop of a turn. -/
structure LoopInv (render : Value → String) (loop : TurnLoop) (log : List SessionEvent) :
    Prop where
  began : .began loop.name loop.context ∈ log
  report : LoopReport render loop (noticesOf loop.name log) (activitiesOf loop.name log)
  goesOn : ∀ n ∈ noticesOf loop.name log, n.method ≠ "turn/completed"

theorem LoopReport.reports (h : LoopReport render loop notices activities) {status : String}
    (hstatus : EndsWith notices status) :
    Reports render loop.context notices activities (loop.result status) where
  transcript := h.transcript
  images := h.images
  activities := congrArg Prod.fst h.activities
  status := hstatus

/-- A turn that is broken off reports what its loop has handled. -/
theorem LoopInv.breaksOff (h : LoopInv render loop log) {status : String}
    (hstatus : status ∈ ["cancelled", "timeout", "error", "disconnected"]) :
    TurnContract render log (.ended loop.name (loop.result status)) :=
  ⟨loop.context, h.began, h.report.reports (.inr ⟨hstatus, h.goesOn⟩)⟩

/-- What a step says of others leaves the loop's report. -/
theorem LoopInv.silent (h : LoopInv render loop log) {loop' : TurnLoop}
    (hname : loop'.name = loop.name) (hcontext : loop'.context = loop.context)
    (htranscript : loop'.transcript = loop.transcript)
    (himages : loop'.generatedImages = loop.generatedImages)
    (hstarted : loop'.activityStartedAt = loop.activityStartedAt)
    (hnew : noticesOf loop.name new = [] ∧ activitiesOf loop.name new = []) :
    LoopInv render loop' (log ++ new) := by
  have hnotices : noticesOf loop'.name (log ++ new) = noticesOf loop.name log := by
    rw [hname, noticesOf_append, hnew.1, List.append_nil]
  have hactivities : activitiesOf loop'.name (log ++ new) = activitiesOf loop.name log := by
    rw [hname, activitiesOf_append, hnew.2, List.append_nil]
  refine ⟨?_, ⟨?_, ?_, ?_⟩, ?_⟩
  · rw [hname, hcontext]
    exact List.mem_append_left _ h.began
  · rw [hnotices, htranscript, h.report.transcript]
  · rw [hnotices, himages, h.report.images]
  · rw [hnotices, hactivities, hstarted, hcontext, h.report.activities]
  · rw [hnotices]
    exact h.goesOn

/-- An event that a message causes inside the loop of a turn. -/
def IsInner (turn : TurnName) (e : SessionEvent) : Prop :=
  (∃ shown, e = .activity turn shown) ∨ (∃ id value, e = .steered id value) ∨
    ∃ id, e = .resolved id

/-- What the loop of a turn is like after it has handled a message. -/
def HandledInv (render : Value → String) (turn : TurnName) (log : List SessionEvent) :
    Handled → Prop
  | .goesOn loop events =>
    loop.name = turn ∧ LoopInv render loop (log ++ events) ∧ ∀ e ∈ events, IsInner turn e
  | .breaks loop status events =>
    loop.name = turn ∧ TurnContract render (log ++ events) (.ended turn (loop.result status)) ∧
      ∀ e ∈ events, IsInner turn e

/-- A loop that breaks with an error reports what it has handled. -/
theorem LoopInv.errs (h : LoopInv render loop log) {turn : TurnName} (hname : loop.name = turn) :
    HandledInv render turn log (.breaks loop "error" []) := by
  subst hname
  refine ⟨rfl, ?_, by simp⟩
  rw [List.append_nil]
  exact h.breaksOff (by decide)

theorem LoopInv.handleResponse (h : LoopInv render loop log) (id : RpcId) (value : Value)
    (now : String) :
    HandledInv render loop.name (log ++ [.handled loop.name now (.response id value)])
      (loop.handleResponse id value) := by
  have hone : noticesOf loop.name [.handled loop.name now (.response id value)] = [] ∧
      activitiesOf loop.name [.handled loop.name now (.response id value)] = [] := ⟨rfl, rfl⟩
  have hsilent : LoopInv render loop (log ++ [.handled loop.name now (.response id value)]) :=
    h.silent rfl rfl rfl rfl rfl hone
  unfold TurnLoop.handleResponse
  split
  · have hnote : ∀ first second, LoopInv render ((loop.note first).note second)
        (log ++ [.handled loop.name now (.response id value)]) :=
      fun _ _ ↦ h.silent rfl rfl rfl rfl rfl hone
    dsimp only
    split
    · exact (hnote _ _).errs rfl
    · split
      · exact (hnote _ _).errs rfl
      · refine ⟨rfl, ?_, by simp⟩
        rw [List.append_nil]
        exact h.silent rfl rfl rfl rfl rfl hone
  · split
    · split
      · refine ⟨rfl, hsilent.silent rfl rfl rfl rfl rfl ⟨rfl, rfl⟩, ?_⟩
        simp [IsInner]
      · exact ⟨rfl, by simpa using hsilent, by simp⟩
    · exact ⟨rfl, by simpa using hsilent, by simp⟩

theorem LoopInv.handleServerRequest (h : LoopInv render loop log) (id : RpcId) (method : String)
    (params : Value) (registration : Except String Unit) (now : String) :
    HandledInv render loop.name (log ++ [.handled loop.name now (.serverRequest id method params)])
      (loop.handleServerRequest method registration) := by
  have hnote : ∀ event, LoopInv render (loop.note event)
      (log ++ [.handled loop.name now (.serverRequest id method params)]) :=
    fun _ ↦ h.silent rfl rfl rfl rfl rfl ⟨rfl, rfl⟩
  unfold TurnLoop.handleServerRequest
  split
  · exact ⟨rfl, by simpa using hnote method, by simp⟩
  · exact (hnote _).errs rfl

theorem LoopInv.handleNotification (h : LoopInv render loop log) (method : String) (value : Value)
    (now : String) :
    HandledInv render loop.name (log ++ [.handled loop.name now (.notification method value)])
      (loop.handleNotification render method value now) := by
  have hname : (loop.noted render method value now).1.name = loop.name := rfl
  have hcontext : (loop.noted render method value now).1.context = loop.context := rfl
  have hreport := h.report.noted method value now
  unfold TurnLoop.handleNotification
  rcases hnoted : loop.noted render method value now with ⟨loop', shown⟩
  simp only [hnoted] at hname hcontext hreport
  have hinner : ∀ e ∈ (shown.map (SessionEvent.activity loop.name)).toList ++
      TurnLoop.resolvedRequest method value, IsInner loop.name e := by
    intro e he
    rcases List.mem_append.mp he with hshown | hresolved
    · obtain ⟨a, -, rfl⟩ := Option.map_eq_some_iff.mp (Option.mem_toList.mp hshown)
      exact .inl ⟨a, rfl⟩
    · unfold TurnLoop.resolvedRequest at hresolved
      split at hresolved
      · obtain ⟨id, -, rfl⟩ := Option.map_eq_some_iff.mp (Option.mem_toList.mp hresolved)
        exact .inr (.inr ⟨id, rfl⟩)
      · simp at hresolved
  have hresolved : noticesOf loop.name (TurnLoop.resolvedRequest method value) = [] ∧
      activitiesOf loop.name (TurnLoop.resolvedRequest method value) = [] := by
    unfold TurnLoop.resolvedRequest
    split
    · cases (value.pointer ["params", "requestId"]).bind RpcId.fromValue <;> exact ⟨rfl, rfl⟩
    · exact ⟨rfl, rfl⟩
  have hnotices : noticesOf loop.name (log ++ [.handled loop.name now (.notification method value)] ++
      ((shown.map (SessionEvent.activity loop.name)).toList ++
        TurnLoop.resolvedRequest method value)) =
      noticesOf loop.name log ++ [⟨method, value, now⟩] := by
    rw [noticesOf_append, noticesOf_append, noticesOf_append, hresolved.1]
    cases shown <;> simp [noticesOf, noticeOf]
  have hactivities : activitiesOf loop.name
      (log ++ [.handled loop.name now (.notification method value)] ++
      ((shown.map (SessionEvent.activity loop.name)).toList ++
        TurnLoop.resolvedRequest method value)) =
      activitiesOf loop.name log ++ shown.toList := by
    rw [activitiesOf_append, activitiesOf_append, activitiesOf_append, hresolved.2]
    cases shown <;> simp [activitiesOf, activityOf]
  have hbegan : .began loop.name loop'.context ∈
      log ++ [.handled loop.name now (.notification method value)] ++
        ((shown.map (SessionEvent.activity loop.name)).toList ++
          TurnLoop.resolvedRequest method value) := by
    rw [hcontext]
    simp [h.began]
  dsimp only
  split
  · rename_i hcompleted
    refine ⟨hname, ⟨loop'.context, hbegan, ?_⟩, hinner⟩
    rw [hnotices, hactivities]
    refine hreport.reports (.inl ⟨_, _, rfl, hcompleted, rfl, h.goesOn⟩)
  · rename_i hgoesOn
    refine ⟨hname, ⟨by rwa [hname], ?_, ?_⟩, hinner⟩
    · rwa [hname, hnotices, hactivities]
    · rw [hname, hnotices]
      intro n hn
      rcases List.mem_append.mp hn with hold | hnew
      · exact h.goesOn n hold
      · rw [List.mem_singleton.mp hnew]
        exact hgoesOn

/-- **A message of the loop.** What the loop reports grows by what the message adds. -/
theorem LoopInv.handle (h : LoopInv render loop log) (message : RpcMessage) (poll : Poll) :
    HandledInv render loop.name (log ++ [.handled loop.name poll.now message])
      (loop.handle render message poll) := by
  cases message with
  | response id value => exact h.handleResponse id value poll.now
  | notification method value => exact h.handleNotification method value poll.now
  | serverRequest id method params =>
    exact h.handleServerRequest id method params poll.registration poll.now

end Loop

/-! ### The session -/

section Session

variable {render : Value → String} {s s' : CodexSession} {log new : List SessionEvent}

/-- The invariant of a session and what has happened on it. -/
structure SessionRunInv (render : Value → String) (s : CodexSession) (log : List SessionEvent) :
    Prop where
  justified : History.Justified (TurnContract render) log
  inbox : InboxInv s.inbox log
  fresh : ∀ e ∈ log, ∀ turn, e.turn = some turn → turn.requestId < s.nextId
  loop : ∀ loop, s.phase = .running loop → LoopInv render loop log

/-- A step that says nothing of a turn. -/
theorem SessionRunInv.moved (h : SessionRunInv render s log) (hinbox : InboxInv s'.inbox (log ++ new))
    (hnext : s.nextId ≤ s'.nextId) (hnew : ∀ e ∈ new, e.turn = none)
    (hphase : ∀ loop, s'.phase = .running loop → s.phase = .running loop) :
    SessionRunInv render s' (log ++ new) where
  justified := h.justified.append_of_forall fun e he before ↦ by
    have hturn := hnew e he
    cases e with
    | ended turn result => simp [SessionEvent.turn] at hturn
    | _ => trivial
  inbox := hinbox
  fresh e he turn hturn := by
    rcases List.mem_append.mp he with hold | hnow
    · exact Int.lt_of_lt_of_le (h.fresh e hold turn hturn) hnext
    · rw [hnew e hnow] at hturn
      exact nomatch hturn
  loop loop hrunning := by
    have hothers : ∀ e ∈ new, e.turn ≠ some loop.name := fun e he heq ↦ by
      rw [hnew e he] at heq
      exact nomatch heq
    have hnotices : noticesOf loop.name new = [] :=
      List.filterMap_eq_nil_iff.mpr fun e he ↦ (of_turn_none (hothers e he)).1
    have hactivities : activitiesOf loop.name new = [] :=
      List.filterMap_eq_nil_iff.mpr fun e he ↦ (of_turn_none (hothers e he)).2
    exact (h.loop loop (hphase loop hrunning)).silent rfl rfl rfl rfl rfl ⟨hnotices, hactivities⟩

/-- The same without events. -/
theorem SessionRunInv.stays (h : SessionRunInv render s log) (hinbox : InboxInv s'.inbox log)
    (hnext : s.nextId ≤ s'.nextId)
    (hphase : ∀ loop, s'.phase = .running loop → s.phase = .running loop) :
    SessionRunInv render s' (log ++ []) :=
  h.moved (by rwa [List.append_nil]) hnext (by simp) hphase

theorem SessionRunInv.fail (h : SessionRunInv render s log) (message : String) :
    SessionRunInv render (s.fail message).1 (log ++ (s.fail message).2) :=
  h.moved (h.inbox.quiet (by simp [CodexSession.fail, arrival, settled])) (Int.le_refl _)
    (by simp [CodexSession.fail, SessionEvent.turn]) nofun

theorem SessionRunInv.allocated (h : SessionRunInv render s log) :
    SessionRunInv render { s with nextId := s.nextId + 1 } log := by
  have hstays : SessionRunInv render { s with nextId := s.nextId + 1 } (log ++ []) :=
    h.stays h.inbox (by show s.nextId ≤ s.nextId + 1; omega) fun _ hrunning ↦ hrunning
  simpa using hstays

/-- A request that begins no turn. -/
theorem SessionRunInv.request (h : SessionRunInv render s log) (sent : Except String Unit)
    (next : ℤ → SessionPhase) (hnext : ∀ id loop, next id ≠ .running loop) :
    SessionRunInv render (s.request sent next fun _ ↦ []).1
      (log ++ (s.request sent next fun _ ↦ []).2) := by
  unfold CodexSession.request
  dsimp only
  split
  · exact h.stays h.inbox (by dsimp only; omega) fun loop hrunning ↦ (hnext _ _ hrunning).elim
  · exact h.allocated.fail _

/-- **A turn begins.** Its name is new, so nothing is said of it yet. -/
theorem SessionRunInv.startTurn (h : SessionRunInv render s log) (arguments : TurnArguments)
    (events : List String) (threadId : String) (sent : Except String Unit) :
    SessionRunInv render (s.startTurn arguments events threadId sent).1
      (log ++ (s.startTurn arguments events threadId sent).2) := by
  unfold CodexSession.startTurn CodexSession.request
  dsimp only
  split
  · refine ⟨?_, h.inbox.quiet (by simp [arrival, settled]), ?_, ?_⟩
    · exact h.justified.append_of_forall fun e he _ ↦ by rw [List.mem_singleton.mp he]; trivial
    · intro e he turn hturn
      dsimp only
      rcases List.mem_append.mp he with hold | hnow
      · have := h.fresh e hold turn hturn
        omega
      · rw [List.mem_singleton.mp hnow] at hturn
        obtain rfl := Option.some.inj hturn
        dsimp only
        omega
    · rintro loop hrunning
      obtain rfl := SessionPhase.running.inj hrunning
      have hothers : ∀ e ∈ log, e.turn ≠ some ⟨threadId, s.nextId⟩ := fun e he hturn ↦ by
        have := h.fresh e he _ hturn
        simp at this
      have hnotices : noticesOf ⟨threadId, s.nextId⟩ (log ++
          [.began ⟨threadId, s.nextId⟩ arguments.context]) = [] := by
        rw [noticesOf_append]
        simpa [noticesOf, noticeOf] using fun e he ↦ (of_turn_none (hothers e he)).1
      have hactivities : activitiesOf ⟨threadId, s.nextId⟩ (log ++
          [.began ⟨threadId, s.nextId⟩ arguments.context]) = [] := by
        rw [activitiesOf_append]
        simpa [activitiesOf, activityOf] using fun e he ↦ (of_turn_none (hothers e he)).2
      refine ⟨by simp, ?_, ?_⟩
      · rw [hnotices, hactivities]
        exact ⟨rfl, rfl, rfl⟩
      · rw [hnotices]
        simp
  · exact h.allocated.fail _

theorem SessionRunInv.threadStarted (h : SessionRunInv render s log) (arguments : TurnArguments)
    (response : Value) (sent : Except String Unit) :
    SessionRunInv render (s.threadStarted arguments response sent).1
      (log ++ (s.threadStarted arguments response sent).2) := by
  unfold CodexSession.threadStarted
  split
  · exact h.startTurn ..
  · split
    · exact h.fail _
    · exact h.request _ _ nofun

theorem SessionRunInv.fallbackStarted (h : SessionRunInv render s log) (arguments : TurnArguments)
    (events : List String) (id : ℤ) (response : Value) (sent : Except String Unit) :
    SessionRunInv render (s.fallbackStarted arguments events id response sent).1
      (log ++ (s.fallbackStarted arguments events id response sent).2) := by
  unfold CodexSession.fallbackStarted
  split
  · exact h.startTurn ..
  · exact h.fail _

theorem SessionRunInv.initialized (h : SessionRunInv render s log) (response : Value)
    (sent : Except String Unit) :
    SessionRunInv render (s.initialized response sent).1
      (log ++ (s.initialized response sent).2) := by
  unfold CodexSession.initialized
  split
  · exact h.fail _
  · exact h.fail _
  · exact h.stays h.inbox (Int.le_refl _) nofun

/-- An iteration of a wait, for what its caller keeps. -/
theorem SessionRunInv.wait (h : SessionRunInv render s log) (id : ℤ) (poll : Poll)
    (returned : CodexSession → Value → CodexSession × List SessionEvent)
    (hphase : ∀ loop, s.phase ≠ .running loop)
    (hreturned : ∀ s' value log', SessionRunInv render s' log' →
      SessionRunInv render (returned s' value).1 (log' ++ (returned s' value).2)) :
    SessionRunInv render (s.wait id poll returned).1 (log ++ (s.wait id poll returned).2) := by
  obtain ⟨hinbox, hquiet⟩ := h.inbox.waitForResponse id poll
  unfold CodexSession.wait
  have hmoved : SessionRunInv render { s with inbox := (s.inbox.waitForResponse id poll).2.1 }
      (log ++ (s.inbox.waitForResponse id poll).2.2) :=
    h.moved hinbox (Int.le_refl _) hquiet fun loop hrunning ↦ (hphase loop hrunning).elim
  split
  · rename_i inbox events hwaited
    rwa [hwaited] at hmoved
  · rename_i error inbox events hwaited
    rw [hwaited] at hmoved
    rw [← List.append_assoc]
    exact hmoved.fail error
  · rename_i value inbox events hwaited
    rw [hwaited] at hmoved
    rw [← List.append_assoc]
    exact hreturned _ value _ hmoved

/-- The loop of a turn breaks, with a report of what it has handled. -/
theorem SessionRunInv.endTurn (h : SessionRunInv render s log) (loop : TurnLoop) {status : String}
    (hfresh : loop.name.requestId < s.nextId)
    (hcontract : TurnContract render log (.ended loop.name (loop.result status))) :
    SessionRunInv render (s.endTurn loop status).1 (log ++ (s.endTurn loop status).2) where
  justified := History.justified_snoc h.justified hcontract
  inbox := h.inbox.quiet (by simp [CodexSession.endTurn, arrival, settled])
  fresh e he turn hturn := by
    rcases List.mem_append.mp he with hold | hnow
    · exact h.fresh e hold turn hturn
    · rw [List.mem_singleton.mp hnow] at hturn
      obtain rfl := Option.some.inj hturn
      exact hfresh
  loop := nofun

theorem LoopInv.fresh {loop : TurnLoop} (hloop : LoopInv render loop log)
    (h : SessionRunInv render s log) : loop.name.requestId < s.nextId :=
  h.fresh _ hloop.began _ rfl

theorem contract_of_inner {turn : TurnName} {e : SessionEvent} (he : IsInner turn e) :
    TurnContract render log e := by
  rcases he with ⟨_, rfl⟩ | ⟨_, _, rfl⟩ | ⟨_, rfl⟩ <;> trivial

theorem quiet_of_inner {turn : TurnName} {e : SessionEvent} (he : IsInner turn e) :
    (e.arrival = none ∧ e.settled = none) ∧ ∀ turn', e.turn = some turn' → turn' = turn := by
  rcases he with ⟨_, rfl⟩ | ⟨_, _, rfl⟩ | ⟨_, rfl⟩
  · exact ⟨⟨rfl, rfl⟩, fun turn' h ↦ (Option.some.inj h).symm⟩
  · exact ⟨⟨rfl, rfl⟩, nofun⟩
  · exact ⟨⟨rfl, rfl⟩, nofun⟩

/-- What a message of the loop leaves, before the loop goes on or breaks. -/
theorem SessionRunInv.took (h : SessionRunInv render s log) {loop : TurnLoop}
    (hloop : LoopInv render loop log) {message : RpcMessage} {now : String}
    (hnext : s.inbox.next.1 = .ok message) {events : List SessionEvent}
    (hinner : ∀ e ∈ events, IsInner loop.name e) {phase : SessionPhase}
    (hphase : ∀ loop', phase = .running loop' →
      LoopInv render loop' (log ++ (s.inbox.taken ++ .handled loop.name now message :: events))) :
    SessionRunInv render { s with inbox := s.inbox.next.2, phase }
      (log ++ (s.inbox.taken ++ .handled loop.name now message :: events)) where
  justified := h.justified.append_of_forall fun e he before ↦ by
    rcases List.mem_append.mp he with htaken | hrest
    · obtain ⟨-, _, rfl⟩ := taken_quiet e htaken
      trivial
    · rcases List.mem_cons.mp hrest with rfl | he
      · trivial
      · exact contract_of_inner (hinner e he)
  inbox := by
    have hnow := (h.inbox.next (e := .handled loop.name now message) hnext rfl rfl).quiet
      fun e he ↦ (quiet_of_inner (hinner e he)).1
    simpa using hnow
  fresh e he turn hturn := by
    have hfresh : loop.name.requestId < s.nextId := hloop.fresh h
    rcases List.mem_append.mp he with hold | hnow
    · exact h.fresh e hold turn hturn
    · rcases List.mem_append.mp hnow with htaken | hrest
      · rw [(taken_quiet e htaken).1] at hturn
        exact nomatch hturn
      · rcases List.mem_cons.mp hrest with rfl | he
        · obtain rfl := Option.some.inj hturn
          exact hfresh
        · obtain rfl := (quiet_of_inner (hinner e he)).2 turn hturn
          exact hfresh
  loop := hphase

/-- An iteration of the loop of a turn. -/
theorem SessionRunInv.turnStep (h : SessionRunInv render s log) {loop : TurnLoop}
    (hphase : s.phase = .running loop) (poll : Poll) :
    SessionRunInv render (s.turnStep render loop poll).1
      (log ++ (s.turnStep render loop poll).2) := by
  have hloop := h.loop loop hphase
  have hfresh := hloop.fresh h
  unfold CodexSession.turnStep
  split
  · exact h.endTurn loop hfresh (hloop.breaksOff (by decide))
  split
  · exact h.endTurn loop hfresh (hloop.breaksOff (by decide))
  dsimp only
  split
  · rename_i message hnext
    have htaken : LoopInv render loop (log ++ s.inbox.taken) := by
      have hnone : ∀ e ∈ s.inbox.taken, e.turn ≠ some loop.name := fun e he heq ↦ by
        rw [(taken_quiet e he).1] at heq
        exact nomatch heq
      exact hloop.silent rfl rfl rfl rfl rfl
        ⟨List.filterMap_eq_nil_iff.mpr fun e he ↦ (of_turn_none (hnone e he)).1,
          List.filterMap_eq_nil_iff.mpr fun e he ↦ (of_turn_none (hnone e he)).2⟩
    have hhandled := htaken.handle message poll
    unfold CodexSession.handle
    dsimp only
    split
    · rename_i loop' events heq
      rw [heq] at hhandled
      obtain ⟨-, hloop', hinner⟩ := hhandled
      refine h.took hloop hnext hinner fun loop'' hrunning ↦ ?_
      obtain rfl := SessionPhase.running.inj hrunning
      simpa using hloop'
    · rename_i loop' status events heq
      rw [heq] at hhandled
      obtain ⟨hname, hcontract, hinner⟩ := hhandled
      have htook : SessionRunInv render
          { s with inbox := s.inbox.next.2, phase := .ended (loop'.result status) }
          (log ++ (s.inbox.taken ++ .handled loop.name poll.now message :: events)) :=
        h.took hloop hnext hinner nofun
      have hassoc : log ++ (s.inbox.taken ++ (.handled loop.name poll.now message :: events ++
          [.ended loop'.name (loop'.result status)])) =
          log ++ (s.inbox.taken ++ .handled loop.name poll.now message :: events) ++
            [.ended loop'.name (loop'.result status)] := by simp
      show SessionRunInv render _ (log ++ (s.inbox.taken ++ (_ ++
        [.ended loop'.name (loop'.result status)])))
      rw [hassoc]
      refine htook.endTurn loop' (hname ▸ hfresh) ?_
      rw [hname]
      simpa using hcontract
  · rename_i error hnext
    have herror := h.inbox.next_error hnext
    split
    · exact h.stays herror (Int.le_refl _) fun _ hrunning ↦ hrunning
    · have hstays : SessionRunInv render { s with inbox := s.inbox.next.2 } (log ++ []) :=
        h.stays herror (Int.le_refl _) fun _ hrunning ↦ hrunning
      rw [List.append_nil] at hstays
      refine hstays.endTurn (loop.note error) hfresh ?_
      have hnoted : LoopInv render (loop.note error) (log ++ []) :=
        hloop.silent rfl rfl rfl rfl rfl ⟨rfl, rfl⟩
      rw [List.append_nil] at hnoted
      exact hnoted.breaksOff (by decide)

theorem SessionRunInv.iterate (h : SessionRunInv render s log) (poll : Poll) :
    SessionRunInv render (s.iterate render poll).1 (log ++ (s.iterate render poll).2) := by
  have hsame : SessionRunInv render s (log ++ []) := by rwa [List.append_nil]
  unfold CodexSession.iterate
  split
  case h_1 hphase =>
    exact h.wait _ _ _ (by simp [hphase]) fun _ _ _ h' ↦ h'.initialized ..
  case h_2 hphase =>
    exact h.wait _ _ _ (by simp [hphase]) fun _ _ _ h' ↦ h'.threadStarted ..
  case h_3 hphase =>
    exact h.wait _ _ _ (by simp [hphase]) fun _ _ _ h' ↦ h'.fallbackStarted ..
  case h_4 hphase => exact h.turnStep hphase poll
  all_goals exact hsame

/-- **One step.** -/
theorem SessionRunInv.step (h : SessionRunInv render s log) (action : SessionAction) :
    SessionRunInv render (s.step render action).1 (log ++ (s.step render action).2) := by
  have hsame : SessionRunInv render s (log ++ []) := by rwa [List.append_nil]
  cases action with
  | emit line =>
    exact h.stays ⟨h.inbox.inOrder, h.inbox.kept⟩ (Int.le_refl _) fun _ hrunning ↦ hrunning
  | disconnect =>
    exact h.stays ⟨h.inbox.inOrder, h.inbox.kept⟩ (Int.le_refl _) fun _ hrunning ↦ hrunning
  | begin arguments sent =>
    show SessionRunInv render (s.begin arguments sent).1 (log ++ (s.begin arguments sent).2)
    unfold CodexSession.begin
    split
    · exact h.request _ _ nofun
    · exact hsame
  | iterate poll => exact h.iterate poll
  | steer id =>
    show SessionRunInv render (s.steer id).1 (log ++ (s.steer id).2)
    unfold CodexSession.steer
    split
    · rename_i loop hphase
      split
      · refine ⟨by simpa using h.justified, by simpa using h.inbox, by simpa using h.fresh, ?_⟩
        intro loop' hrunning
        obtain rfl := SessionPhase.running.inj hrunning
        exact (h.loop loop hphase).silent rfl rfl rfl rfl rfl ⟨rfl, rfl⟩
      · exact hsame
    · exact hsame
  | checkIn alive active =>
    show SessionRunInv render (s.checkIn alive active).1 (log ++ (s.checkIn alive active).2)
    unfold CodexSession.checkIn
    split
    · split
      · exact h.moved (h.inbox.quiet (by simp [arrival, settled])) (Int.le_refl _)
          (by simp [SessionEvent.turn]) nofun
      · exact h.moved (h.inbox.quiet (by simp [arrival, settled])) (Int.le_refl _)
          (by simp [SessionEvent.turn]) nofun
    · exact hsame

theorem sessionRunInv_start : SessionRunInv render {} [] where
  justified := History.justified_nil
  inbox := ⟨rfl, .nil⟩
  fresh := by simp
  loop := nofun

/-- **Every run.** -/
theorem sessionRunInv_run (actions : List SessionAction) :
    SessionRunInv render (Machine.run (CodexSession.step render) {} actions).1
      (Machine.run (CodexSession.step render) {} actions).2 := by
  have hstep : ∀ s log action, SessionRunInv render s log → True →
      SessionRunInv render (s.step render action).1 (log ++ (s.step render action).2) :=
    fun _ _ action h _ ↦ h.step action
  have hrun := Machine.run_invariant hstep sessionRunInv_start (Machine.along_true _ actions)
  simpa using hrun

/-! ### The turn of a notification -/

theorem notified_fail (message : String) : (s.fail message).2.filterMap notified = [] := rfl

theorem notified_request (sent : Except String Unit) (next : ℤ → SessionPhase)
    {events : ℤ → List SessionEvent} (hevents : ∀ id, (events id).filterMap notified = []) :
    (s.request sent next events).2.filterMap notified = [] := by
  unfold CodexSession.request
  dsimp only
  split
  · exact hevents _
  · rfl

theorem notified_wait (id : ℤ) (poll : Poll)
    {returned : CodexSession → Value → CodexSession × List SessionEvent}
    (hreturned : ∀ s' value, (returned s' value).2.filterMap notified = []) :
    (s.wait id poll returned).2.filterMap notified = [] := by
  have hevents : (s.inbox.waitForResponse id poll).2.2.filterMap notified = [] := by
    unfold RpcInbox.waitForResponse
    repeat' split
    all_goals rfl
  unfold CodexSession.wait
  split
  · rename_i hwaited
    rwa [hwaited] at hevents
  · rename_i hwaited
    rw [hwaited] at hevents
    rw [List.filterMap_append, hevents, notified_fail]
    rfl
  · rename_i hwaited
    rw [hwaited] at hevents
    rw [List.filterMap_append, hevents, hreturned]
    rfl

theorem notified_startTurn (arguments : TurnArguments) (events : List String) (threadId : String)
    (sent : Except String Unit) :
    (s.startTurn arguments events threadId sent).2.filterMap notified = [] :=
  notified_request _ _ fun _ ↦ rfl

theorem notified_resolvedRequest (method : String) (value : Value) :
    (TurnLoop.resolvedRequest method value).filterMap notified = [] := by
  unfold TurnLoop.resolvedRequest
  split
  · cases (value.pointer ["params", "requestId"]).bind RpcId.fromValue <;> rfl
  · rfl

/-- What a message causes inside the loop is no message. -/
theorem notified_events (loop : TurnLoop) (message : RpcMessage) (poll : Poll) :
    (loop.handle render message poll).events.filterMap notified = [] := by
  cases message with
  | response id value =>
    show (loop.handleResponse id value).events.filterMap notified = []
    unfold TurnLoop.handleResponse
    dsimp only
    repeat' split
    all_goals rfl
  | serverRequest id method params =>
    show (loop.handleServerRequest method poll.registration).events.filterMap notified = []
    unfold TurnLoop.handleServerRequest
    split <;> rfl
  | notification method value =>
    have hnone : (((loop.noted render method value poll.now).2.map
        (SessionEvent.activity loop.name)).toList ++
        TurnLoop.resolvedRequest method value).filterMap notified = [] := by
      rw [List.filterMap_append, notified_resolvedRequest]
      cases (loop.noted render method value poll.now).2 <;> rfl
    show (loop.handleNotification render method value poll.now).events.filterMap notified = []
    unfold TurnLoop.handleNotification
    dsimp only
    split <;> exact hnone

theorem notified_handle (loop : TurnLoop) (message : RpcMessage) (poll : Poll) :
    (s.handle render loop message poll).2.filterMap notified =
      (notified (.handled loop.name poll.now message)).toList := by
  have hevents : (loop.handle render message poll).events.filterMap notified = [] :=
    notified_events loop message poll
  have hcons : ∀ events : List SessionEvent, events.filterMap notified = [] →
      (SessionEvent.handled loop.name poll.now message :: events).filterMap notified =
        (notified (.handled loop.name poll.now message)).toList := by
    intro events hnone
    rw [List.filterMap_cons, hnone]
    cases notified (.handled loop.name poll.now message) <;> rfl
  unfold CodexSession.handle
  dsimp only
  split
  · rename_i loop' events heq
    rw [heq] at hevents
    exact hcons events hevents
  · rename_i loop' status events heq
    rw [heq] at hevents
    refine hcons (events ++ [.ended loop'.name (loop'.result status)]) ?_
    rw [List.filterMap_append, show events.filterMap notified = [] from hevents]
    rfl

theorem notified_turnStep {loop : TurnLoop} (hphase : s.phase = .running loop) (poll : Poll) :
    (s.turnStep render loop poll).2.filterMap notified =
      (takes s (.iterate poll)).toList := by
  have htaken : s.inbox.taken.filterMap notified = [] :=
    List.filterMap_eq_nil_iff.mpr fun e he ↦ by
      obtain ⟨-, message, rfl⟩ := taken_quiet e he
      rfl
  unfold CodexSession.turnStep
  split
  · rename_i hcancelled
    simp only [takes, hphase, hcancelled, Bool.true_or, if_true]
    split <;> rfl
  split
  · rename_i hexpired
    simp only [takes, hphase, hexpired, Bool.or_true, if_true]
    split <;> rfl
  rename_i hcancelled hexpired
  dsimp only
  split
  · rename_i message hnext
    rw [List.filterMap_append, htaken, notified_handle]
    simp only [takes, hphase, hnext, hcancelled, hexpired]
    cases message <;> rfl
  · rename_i error hnext
    simp only [takes, hphase, hnext]
    split <;> rfl

/-- A step has the loops handle the notification that it takes. -/
theorem notified_step (action : SessionAction) :
    (s.step render action).2.filterMap notified = (takes s action).toList := by
  cases action with
  | emit line => rfl
  | disconnect => rfl
  | begin arguments sent =>
    show (s.begin arguments sent).2.filterMap notified = []
    unfold CodexSession.begin
    split
    · exact notified_request _ _ fun _ ↦ rfl
    · rfl
  | steer id =>
    show (s.steer id).2.filterMap notified = []
    unfold CodexSession.steer
    repeat' split
    all_goals rfl
  | checkIn alive active =>
    show (s.checkIn alive active).2.filterMap notified = []
    unfold CodexSession.checkIn
    repeat' split
    all_goals rfl
  | iterate poll =>
    show (s.iterate render poll).2.filterMap notified = _
    unfold CodexSession.iterate
    split
    case h_1 hphase =>
      have hnone : takes s (.iterate poll) = none := by simp [takes, hphase]
      rw [hnone]
      refine notified_wait _ _ fun s' value ↦ ?_
      unfold CodexSession.initialized
      split <;> rfl
    case h_2 hphase =>
      have hnone : takes s (.iterate poll) = none := by simp [takes, hphase]
      rw [hnone]
      refine notified_wait _ _ fun s' value ↦ ?_
      unfold CodexSession.threadStarted
      split
      · exact notified_startTurn ..
      · split
        · rfl
        · exact notified_request _ _ fun _ ↦ rfl
    case h_3 hphase =>
      have hnone : takes s (.iterate poll) = none := by simp [takes, hphase]
      rw [hnone]
      refine notified_wait _ _ fun s' value ↦ ?_
      unfold CodexSession.fallbackStarted
      split
      · exact notified_startTurn ..
      · rfl
    case h_4 hphase => exact notified_turnStep hphase poll
    all_goals
      rename_i hphase
      simp [takes, hphase]

end Session

/-! ### The turns of a session -/

section Turns

variable {render : Value → String} {turnOf : ℤ → String}

/-- An event is no notification of another turn. -/
def EventOfTurn (turnOf : ℤ → String) (e : SessionEvent) : Prop :=
  ∀ taken ∈ e.notified, OfTurn turnOf taken.1 taken.2

theorem takesOwn_iff (s : CodexSession) (action : SessionAction) :
    TakesOwn turnOf s action ↔ ∀ e ∈ (s.step render action).2, EventOfTurn turnOf e := by
  have hstep : (s.step render action).2.filterMap notified = (takes s action).toList :=
    notified_step action
  constructor
  · intro h e he taken htaken
    have hmem : taken ∈ (s.step render action).2.filterMap notified :=
      List.mem_filterMap.mpr ⟨e, he, htaken⟩
    rw [hstep] at hmem
    exact h taken (Option.mem_toList.mp hmem)
  · intro h taken htaken
    have hmem : taken ∈ (s.step render action).2.filterMap notified := by
      rw [hstep]
      exact Option.mem_toList.mpr htaken
    obtain ⟨e, he, hnotified⟩ := List.mem_filterMap.mp hmem
    exact h e he taken hnotified

/-- The notifications that the loops of a run take are of their turns if they are at each step. -/
theorem takesOwn_run_iff {actions : List SessionAction} :
    Machine.Along (CodexSession.step render) (TakesOwn turnOf) {} actions ↔
      ∀ turn now method value, .handled turn now (.notification method value) ∈
        (Machine.run (CodexSession.step render) {} actions).2 → OfTurn turnOf turn value := by
  have hevents : ∀ log : List SessionEvent, (∀ e ∈ log, EventOfTurn turnOf e) ↔
      ∀ turn now method value, .handled turn now (.notification method value) ∈ log →
        OfTurn turnOf turn value := by
    intro log
    refine ⟨fun h turn now method value hmem ↦ h _ hmem (turn, value) rfl, fun h e he taken ht ↦ ?_⟩
    cases e with
    | handled turn now message =>
      cases message with
      | notification method value =>
        obtain rfl := Option.some.inj ht
        exact h turn now method value he
      | _ => exact nomatch ht
    | _ => exact nomatch ht
  rw [← hevents, ← Machine.along_events_iff]
  constructor
  · exact Machine.Along.mono fun s action h ↦ (takesOwn_iff s action).mp h
  · exact Machine.Along.mono fun s action h ↦ (takesOwn_iff s action).mpr h

/-- The notifications and server requests of a stream carry their turns. -/
def carriesTurns (actions : List SessionAction) : Bool :=
  actions.all fun
    | .emit (.ok value) => (value.strAt "method").isNone || (carriedTurn value).isSome
    | _ => true

/-- The status and the transcript of the report of a turn. -/
def reportOf (turn : TurnName) (log : List SessionEvent) : Option (String × String) :=
  log.findSome? fun
    | .ended turn' result => if turn' = turn then some (result.status, result.transcript) else none
    | _ => none

/-- A line of a turn. -/
def turnLine (method turnId : String) (rest : List (String × Value)) : RpcLine :=
  .ok (.object [("method", .string method), ("params", .object ([("threadId", .string "thread-1"),
    ("turnId", .string turnId)] ++ rest))])

/-- The answer to a request. -/
def answerLine (id : ℤ) (result : List (String × Value)) : RpcLine :=
  .ok (.object [("id", .integer id), ("result", .object result)])

/-- The registration of a server request fails, and the session is used for the next turn while
the app-server is at work on the first. -/
def lateLines : List SessionAction :=
  let thread : List (String × Value) := [("thread", .object [("id", .string "thread-1")])]
  [.emit (answerLine 1 []), .iterate {},
    .begin { context := ⟨"room", "first", false⟩ } (.ok ()), .emit (answerLine 2 thread), .iterate {},
    .emit (answerLine 3 [("turn", .object [("id", .string "turn-1")])]), .iterate {},
    .emit (.ok (.object [("id", .string "request"), ("method", .string "execCommandApproval"),
      ("params", .object [("threadId", .string "thread-1"), ("turnId", .string "turn-1")])])),
    .iterate { registration := .error "Failed to emit Codex server request" }, .checkIn true true,
    .begin { previousThreadId := some "thread-1", context := ⟨"room", "second", false⟩ } (.ok ()),
    .emit (turnLine "item/agentMessage/delta" "turn-1" [("delta", .string "old")]),
    .emit (turnLine "turn/completed" "turn-1"
      [("turn", .object [("id", .string "turn-1"), ("status", .string "completed")])]),
    .emit (answerLine 4 thread), .iterate {}, .iterate {}, .iterate {}, .iterate {}, .iterate {}]

end Turns

end MultAIplayer.Native
