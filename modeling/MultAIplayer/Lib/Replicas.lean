import MultAIplayer.Lib.Machine
import Mathlib.Data.List.Basic

/-!
# Replicas of a log that apply their own events early

Members share a log of events. Each reads it in order and at its own pace, but it does not wait for
its own events: it applies such an event when it makes it, before the log has it (`act`), or when
the log's answer arrives, which may be before or after it reads the event's place (`post`,
`answer`). An own event is skipped when it is read.

## What keeps replicas together

The order in which a replica applies events is therefore not the order of the log. `Follows` is what
remains: the replica's view, with the own events that it still has to apply, is the view of the log
as far as it has read, with the own events that it has applied ahead. Every step keeps it under one
condition, that an event changes places only with events for which that makes no difference
(`Passes`, `Allowed`), and a replica with no event out of place then holds exactly the view of the
log (`Follows.obs_eq`). Nothing else is asked of the events.

## What is compared

Replicas are compared through `obs`, on which the events act (`apply`); the part of a replica's
state that `obs` leaves out may differ.
-/

namespace Replicas

/-! ### Events that commute -/

section Commutes

variable {τ ε : Type} (apply : τ → ε → τ)

/-- The order of two events makes no difference. -/
def Commutes (a b : ε) : Prop := ∀ t, apply (apply t a) b = apply (apply t b) a

variable {apply}

theorem Commutes.symm {a b : ε} (h : Commutes apply a b) : Commutes apply b a :=
  fun t ↦ (h t).symm

/-- An event that commutes with all events of a list may come before or after them. -/
theorem foldl_apply_comm {e : ε} {l : List ε} (h : ∀ a ∈ l, Commutes apply e a) (t : τ) :
    l.foldl apply (apply t e) = apply (l.foldl apply t) e := by
  induction l generalizing t with
  | nil => rfl
  | cons a l ih =>
    rw [List.foldl_cons, List.foldl_cons, h a List.mem_cons_self t]
    exact ih (fun b hb ↦ h b (List.mem_cons_of_mem _ hb)) _

/-- An event passes a list of others: from this state it may come before or after them. -/
def Passes (apply : τ → ε → τ) (t : τ) (e : ε) (l : List ε) : Prop :=
  l.foldl apply (apply t e) = apply (l.foldl apply t) e

@[simp] theorem passes_nil (t : τ) (e : ε) : Passes apply t e [] := rfl

theorem passes_of_commutes {e : ε} {l : List ε} (h : ∀ a ∈ l, Commutes apply e a) (t : τ) :
    Passes apply t e l :=
  foldl_apply_comm h t

/-- Such an event may stand on either side of the list. -/
theorem Passes.insert {t : τ} {e : ε} {l : List ε} (h : Passes apply t e l) (r : List ε) :
    (l ++ e :: r).foldl apply t = (l ++ r).foldl apply (apply t e) := by
  rw [List.foldl_append, List.foldl_append, List.foldl_cons, ← h]

end Commutes

/-! ### Networks -/

/-- An accepted event. -/
structure LogEntry (M ε : Type) where
  sender : M
  event : ε
  /-- The sender applies the event when the answer arrives, and it has not arrived. -/
  awaited : Bool
  deriving DecidableEq

structure Replica (σ ε : Type) where
  view : σ
  /-- How much of the log has been read. -/
  cursor : ℕ := 0
  /-- Own events that have been applied and are not in the log. -/
  unsent : List ε := []

structure Network (M σ ε : Type) where
  log : List (LogEntry M ε) := []
  replica : M → Replica σ ε

inductive Action (M ε α : Type)
  /-- A member does something at its replica. -/
  | act (m : M) (a : α)
  /-- The log takes one of a member's unsent events. -/
  | accept (m : M) (i : ℕ)
  /-- One of a member's unsent events is lost. -/
  | reject (m : M) (i : ℕ)
  /-- The log takes an event that its sender has not applied. -/
  | post (m : M) (e : ε)
  /-- The answer to such an event arrives. -/
  | answer (p : ℕ)
  /-- A member reads the next event of the log. -/
  | read (m : M)
  deriving DecidableEq

/-- What members do, and what is compared. -/
structure System (M σ ε α τ : Type) where
  /-- The view that a local action leaves, and the events that it makes. -/
  perform : M → σ → α → σ × List ε
  /-- What reading another member's event does. -/
  receive : σ → ε → σ
  obs : σ → τ
  apply : τ → ε → τ
  obs_receive : ∀ s e, obs (receive s e) = apply (obs s) e

namespace System

variable {M σ ε α τ : Type} [DecidableEq M] (S : System M σ ε α τ)

def update (net : Network M σ ε) (m : M) (r : Replica σ ε) : Network M σ ε :=
  { net with replica := fun n ↦ if n = m then r else net.replica n }

/-- One step; an action that does not apply leaves everything as it is. -/
def next (net : Network M σ ε) : Action M ε α → Network M σ ε
  | .act m a =>
    let r := net.replica m
    let (view, made) := S.perform m r.view a
    update net m { r with view := view, unsent := r.unsent ++ made }
  | .accept m i =>
    let r := net.replica m
    match r.unsent[i]? with
    | some e =>
      { update net m { r with unsent := r.unsent.eraseIdx i } with
        log := net.log ++ [⟨m, e, false⟩] }
    | none => net
  | .reject m i =>
    let r := net.replica m
    update net m { r with unsent := r.unsent.eraseIdx i }
  | .post m e => { net with log := net.log ++ [⟨m, e, true⟩] }
  | .answer p =>
    match net.log[p]? with
    | some x =>
      if x.awaited then
        let r := net.replica x.sender
        { update net x.sender { r with view := S.receive r.view x.event } with
          log := net.log.set p { x with awaited := false } }
      else net
    | none => net
  | .read m =>
    let r := net.replica m
    match net.log[r.cursor]? with
    | some x =>
      update net m { r with
        cursor := r.cursor + 1
        view := if x.sender = m then r.view else S.receive r.view x.event }
    | none => net

/-- The machine of a network. -/
@[grind =] def step (net : Network M σ ε) (a : Action M ε α) : Network M σ ε × List Empty :=
  (S.next net a, [])

end System

/-! ### Own events out of place -/

section Displaced

variable {M σ ε : Type} [DecidableEq M]

/-- A member's events in a part of the log that are awaited, or that are not. -/
@[grind =] def ownEvents (m : M) (awaited : Bool) (l : List (LogEntry M ε)) : List ε :=
  (l.filter fun x ↦ x.sender = m && x.awaited = awaited).map LogEntry.event

/-- Own events that the replica has read past without applying them. -/
@[grind =] def late (log : List (LogEntry M ε)) (r : Replica σ ε) (m : M) : List ε :=
  ownEvents m true (log.take r.cursor)

/-- Own events that the replica has applied without having read them. -/
@[grind =] def ahead (log : List (LogEntry M ε)) (r : Replica σ ε) (m : M) : List ε :=
  ownEvents m false (log.drop r.cursor) ++ r.unsent

/-- Own events that are not applied where the log has them. -/
def displaced (log : List (LogEntry M ε)) (r : Replica σ ε) (m : M) : List ε :=
  late log r m ++ ahead log r m

variable {m : M}

@[simp] theorem ownEvents_nil (b : Bool) : ownEvents (ε := ε) m b [] = [] := rfl

@[simp] theorem ownEvents_append (b : Bool) (l k : List (LogEntry M ε)) :
    ownEvents m b (l ++ k) = ownEvents m b l ++ ownEvents m b k := by
  simp [ownEvents]

theorem ownEvents_cons (b : Bool) (x : LogEntry M ε) (l : List (LogEntry M ε)) :
    ownEvents m b (x :: l) =
      if x.sender = m ∧ x.awaited = b then x.event :: ownEvents m b l else ownEvents m b l := by
  simp only [ownEvents, List.filter_cons, Bool.and_eq_true, decide_eq_true_eq]
  split <;> rfl

omit [DecidableEq M] in
/-- A list and the list with one of its entries replaced. -/
theorem split_at {l : List (LogEntry M ε)} {p : ℕ} {x : LogEntry M ε} (hx : l[p]? = some x)
    (y : LogEntry M ε) :
    l = l.take p ++ x :: l.drop (p + 1) ∧ l.set p y = l.take p ++ y :: l.drop (p + 1) := by
  obtain ⟨hp, hget⟩ := List.getElem?_eq_some_iff.mp hx
  refine ⟨?_, List.set_eq_take_append_cons_drop.trans (if_pos hp)⟩
  rw [← hget, ← List.drop_eq_getElem_cons hp, List.take_append_drop]

omit [DecidableEq M] in
/-- An entry whose answer arrives carries the same event. -/
theorem map_event_set {l : List (LogEntry M ε)} {p : ℕ} {x : LogEntry M ε}
    (hx : l[p]? = some x) (b : Bool) :
    (l.set p { x with awaited := b }).map LogEntry.event = l.map LogEntry.event := by
  obtain ⟨hl, hset⟩ := split_at hx { x with awaited := b }
  rw [hset]
  conv_rhs => rw [hl]
  simp

/-- The answer to another member's event moves no own event. -/
theorem ownEvents_set_of_ne {l : List (LogEntry M ε)} {p : ℕ} {x : LogEntry M ε}
    (hx : l[p]? = some x) (hne : x.sender ≠ m) (b c : Bool) :
    ownEvents m b (l.set p { x with awaited := c }) = ownEvents m b l := by
  obtain ⟨hl, hset⟩ := split_at hx { x with awaited := c }
  rw [hset]
  conv_rhs => rw [hl]
  simp [ownEvents_cons, hne]

/-- The answer to an own event takes it from the awaited ones to the others. -/
theorem ownEvents_set {l : List (LogEntry M ε)} {p : ℕ} {x : LogEntry M ε}
    (hx : l[p]? = some x) (hown : x.sender = m) (haw : x.awaited = true) :
    (∃ a b, ownEvents m true l = a ++ x.event :: b ∧
      ownEvents m true (l.set p { x with awaited := false }) = a ++ b) ∧
    ∃ a b, ownEvents m false l = a ++ b ∧
      ownEvents m false (l.set p { x with awaited := false }) = a ++ x.event :: b := by
  obtain ⟨hl, hset⟩ := split_at hx { x with awaited := false }
  rw [hset]
  refine ⟨⟨ownEvents m true (l.take p), ownEvents m true (l.drop (p + 1)), ?_, ?_⟩,
    ⟨ownEvents m false (l.take p), ownEvents m false (l.drop (p + 1)), ?_, ?_⟩⟩
  · conv_lhs => rw [hl]
    simp [ownEvents_cons, hown, haw]
  · simp [ownEvents_cons]
  · conv_lhs => rw [hl]
    simp [ownEvents_cons, haw]
  · simp [ownEvents_cons, hown]

end Displaced

/-! ### Following the log -/

namespace System

variable {M σ ε α τ : Type} [DecidableEq M] (S : System M σ ε α τ) (t₀ : τ)

/-- The view of the first events of the log. -/
@[grind =] def logView (log : List (LogEntry M ε)) (n : ℕ) : τ :=
  ((log.take n).map LogEntry.event).foldl S.apply t₀

/-- The replica's view is that of the log as far as it has read, but for its own events. -/
structure Follows (log : List (LogEntry M ε)) (r : Replica σ ε) (m : M) : Prop where
  cursor_le : r.cursor ≤ log.length
  view : (late log r m).foldl S.apply (S.obs r.view) =
    (ahead log r m).foldl S.apply (S.logView t₀ log r.cursor)

variable {S t₀} {log : List (LogEntry M ε)} {r : Replica σ ε} {m : M}

/-- **A replica with no event out of place holds the view of the log.** -/
theorem Follows.obs_eq (h : S.Follows t₀ log r m) (hnone : displaced log r m = []) :
    S.obs r.view = S.logView t₀ log r.cursor := by
  obtain ⟨hlate, hahead⟩ := List.append_eq_nil_iff.mp hnone
  have hview := h.view
  rwa [hlate, hahead, List.foldl_nil, List.foldl_nil] at hview

omit [DecidableEq M] in
theorem logView_append {n : ℕ} (hn : n ≤ log.length) (k : List (LogEntry M ε)) :
    S.logView t₀ (log ++ k) n = S.logView t₀ log n := by
  unfold logView
  rw [List.take_append_of_le_length hn]

theorem late_append (h : r.cursor ≤ log.length) (k : List (LogEntry M ε)) :
    late (log ++ k) r m = late log r m := by
  unfold late
  rw [List.take_append_of_le_length h]

omit [DecidableEq M] in
theorem logView_succ {n : ℕ} {x : LogEntry M ε} (hx : log[n]? = some x) :
    S.logView t₀ log (n + 1) = S.apply (S.logView t₀ log n) x.event := by
  unfold logView
  rw [List.take_add_one, hx, Option.toList_some, List.map_append, List.foldl_append]
  rfl

/-- An event that the member has not applied early joins the log. -/
theorem Follows.append (h : S.Follows t₀ log r m) {y : LogEntry M ε}
    (hy : ¬(y.sender = m ∧ y.awaited = false)) : S.Follows t₀ (log ++ [y]) r m where
  cursor_le := by
    rw [List.length_append]
    exact Nat.le_add_right_of_le h.cursor_le
  view := by
    have hahead : ahead (log ++ [y]) r m = ahead log r m := by
      unfold ahead
      rw [List.drop_append_of_le_length h.cursor_le, ownEvents_append, ownEvents_cons, if_neg hy,
        ownEvents_nil, List.append_nil]
    rw [late_append h.cursor_le, hahead, logView_append h.cursor_le, h.view]

/-- The log takes an unsent event, which may overtake others that it commutes with. -/
theorem Follows.accept (h : S.Follows t₀ log r m) {i : ℕ} {e : ε} (he : r.unsent[i]? = some e)
    (hover : Passes S.apply ((ownEvents m false (log.drop r.cursor)).foldl S.apply
      (S.logView t₀ log r.cursor)) e (r.unsent.take i)) :
    S.Follows t₀ (log ++ [⟨m, e, false⟩]) { r with unsent := r.unsent.eraseIdx i } m where
  cursor_le := by
    rw [List.length_append]
    exact Nat.le_add_right_of_le h.cursor_le
  view := by
    have hsplit : r.unsent = r.unsent.take i ++ e :: r.unsent.drop (i + 1) := by
      obtain ⟨hi, hget⟩ := List.getElem?_eq_some_iff.mp he
      rw [← hget, ← List.drop_eq_getElem_cons hi, List.take_append_drop]
    have hahead : ahead (log ++ [⟨m, e, false⟩]) { r with unsent := r.unsent.eraseIdx i } m =
        ownEvents m false (log.drop r.cursor) ++
          e :: (r.unsent.take i ++ r.unsent.drop (i + 1)) := by
      unfold ahead
      dsimp only
      rw [List.drop_append_of_le_length h.cursor_le, ownEvents_append, ownEvents_cons,
        if_pos ⟨rfl, rfl⟩, ownEvents_nil, List.append_assoc, List.singleton_append,
        List.eraseIdx_eq_take_drop_succ]
    have hlate : late (log ++ [⟨m, e, false⟩]) { r with unsent := r.unsent.eraseIdx i } m =
        late log r m := late_append h.cursor_le _
    rw [hlate, hahead, logView_append h.cursor_le, h.view]
    unfold ahead
    rw [List.foldl_append, List.foldl_append]
    conv_lhs => rw [hsplit]
    exact hover.insert _

/-- A local action applies the events that it makes. -/
theorem Follows.act (h : S.Follows t₀ log r m) {view : σ} {made : List ε}
    (hmade : S.obs view = made.foldl S.apply (S.obs r.view))
    (hlate : (late log r m).foldl S.apply (made.foldl S.apply (S.obs r.view)) =
      made.foldl S.apply ((late log r m).foldl S.apply (S.obs r.view))) :
    S.Follows t₀ log { r with view := view, unsent := r.unsent ++ made } m where
  cursor_le := h.cursor_le
  view := by
    show (late log r m).foldl S.apply (S.obs view) = _
    rw [hmade, hlate, h.view, ← List.foldl_append]
    unfold ahead
    rw [List.append_assoc]

/-- The member reads an event of another, or passes an own event that is awaited. -/
theorem Follows.read (h : S.Follows t₀ log r m) {x : LogEntry M ε} (hx : log[r.cursor]? = some x)
    (hpass : x.sender ≠ m ∨ x.awaited = true →
      Passes S.apply (S.logView t₀ log r.cursor) x.event (ahead log r m))
    (hlate : x.sender ≠ m → Passes S.apply (S.obs r.view) x.event (late log r m)) :
    S.Follows t₀ log { r with
      cursor := r.cursor + 1
      view := if x.sender = m then r.view else S.receive r.view x.event } m where
  cursor_le := (List.getElem?_eq_some_iff.mp hx).1
  view := by
    obtain ⟨hlt, hget⟩ := List.getElem?_eq_some_iff.mp hx
    have hdrop : log.drop r.cursor = x :: log.drop (r.cursor + 1) := by
      rw [List.drop_eq_getElem_cons hlt, hget]
    have htake : log.take (r.cursor + 1) = log.take r.cursor ++ [x] := by
      rw [List.take_add_one, hx, Option.toList_some]
    have hview := h.view
    unfold late at hview hlate ⊢
    unfold ahead at hview hpass ⊢
    dsimp only
    rw [hdrop, ownEvents_cons] at hview hpass
    rw [htake, ownEvents_append, ownEvents_cons, ownEvents_nil, logView_succ hx]
    by_cases hown : x.sender = m
    · cases haw : x.awaited with
      | false =>
        -- an own event that was applied early takes its place
        simp only [hown, haw, and_self, if_true, and_false, if_false, reduceCtorEq,
          List.append_nil] at hview ⊢
        rw [hview]
        rfl
      | true =>
        -- an own event that is awaited becomes late
        have hpass := hpass (.inr haw)
        simp only [hown, haw, and_self, if_true, and_false, if_false, reduceCtorEq]
          at hview hpass ⊢
        rw [List.foldl_append, List.foldl_cons, List.foldl_nil, hview, ← hpass]
    · have hpass := hpass (.inl hown)
      have hlate := hlate hown
      simp only [hown, false_and, if_false, List.append_nil] at hview hpass ⊢
      rw [S.obs_receive, hlate, hview, ← hpass]

/-- The answer to another member's event arrives there. -/
theorem Follows.set_of_ne (h : S.Follows t₀ log r m) {p : ℕ} {x : LogEntry M ε}
    (hx : log[p]? = some x) (hne : x.sender ≠ m) (c : Bool) :
    S.Follows t₀ (log.set p { x with awaited := c }) r m where
  cursor_le := by
    rw [List.length_set]
    exact h.cursor_le
  view := by
    have hlate : late (log.set p { x with awaited := c }) r m = late log r m := by
      unfold late
      rw [List.take_set]
      rcases hp : (log.take r.cursor)[p]? with - | x'
      · rw [List.set_eq_of_length_le (List.getElem?_eq_none_iff.mp hp)]
      · obtain rfl : x = x' := by
          rw [List.getElem?_take] at hp
          split at hp
          · exact Option.some.inj (hx.symm.trans hp)
          · cases hp
        exact ownEvents_set_of_ne hp hne _ _
    have hahead : ahead (log.set p { x with awaited := c }) r m = ahead log r m := by
      unfold ahead
      by_cases hp : p < r.cursor
      · rw [List.drop_set_of_lt hp]
      · rw [List.drop_set, if_neg hp, ownEvents_set_of_ne _ hne]
        rw [List.getElem?_drop, Nat.add_sub_cancel' (Nat.le_of_not_lt hp)]
        exact hx
    have hlog : S.logView t₀ (log.set p { x with awaited := c }) r.cursor =
        S.logView t₀ log r.cursor := by
      unfold logView
      rw [List.map_take, List.map_take, map_event_set hx]
    rw [hlate, hahead, hlog, h.view]

/-- The answer to an own event arrives, and the replica applies it. -/
theorem Follows.answer (h : S.Follows t₀ log r m) {p : ℕ} {x : LogEntry M ε}
    (hx : log[p]? = some x) (hown : x.sender = m) (haw : x.awaited = true)
    (hpass : ∀ e ∈ displaced log r m, Commutes S.apply x.event e) :
    S.Follows t₀ (log.set p { x with awaited := false })
      { r with view := S.receive r.view x.event } m where
  cursor_le := by
    rw [List.length_set]
    exact h.cursor_le
  view := by
    have hlog : S.logView t₀ (log.set p { x with awaited := false }) r.cursor =
        S.logView t₀ log r.cursor := by
      unfold logView
      rw [List.map_take, List.map_take, map_event_set hx]
    have hview := h.view
    unfold displaced at hpass
    show (late (log.set p { x with awaited := false }) r m).foldl S.apply
        (S.obs (S.receive r.view x.event)) =
      (ahead (log.set p { x with awaited := false }) r m).foldl S.apply _
    rw [hlog, S.obs_receive]
    unfold late ahead at hview hpass ⊢
    by_cases hp : p < r.cursor
    · -- the replica has read past the event: it leaves the late ones
      have hxt : (log.take r.cursor)[p]? = some x := by
        rw [List.getElem?_take, if_pos hp, hx]
      obtain ⟨⟨a, b, hold, hnew⟩, -⟩ := ownEvents_set hxt hown haw
      rw [List.take_set, List.drop_set_of_lt hp, hnew, ← hview, hold]
      refine (Passes.insert (passes_of_commutes (fun e he ↦ hpass e ?_) _) _).symm
      rw [hold]
      exact List.mem_append_left _ (List.mem_append_left _ he)
    · -- the replica has not read it yet: it joins those applied ahead
      have hle : r.cursor ≤ p := Nat.le_of_not_lt hp
      have hxd : (log.drop r.cursor)[p - r.cursor]? = some x := by
        rw [List.getElem?_drop, Nat.add_sub_cancel' hle, hx]
      obtain ⟨-, a, b, hold, hnew⟩ := ownEvents_set hxd hown haw
      have hcomm : (b ++ r.unsent).foldl S.apply
          (S.apply (a.foldl S.apply (S.logView t₀ log r.cursor)) x.event) =
            S.apply ((b ++ r.unsent).foldl S.apply
              (a.foldl S.apply (S.logView t₀ log r.cursor))) x.event := by
        refine foldl_apply_comm (fun e he ↦ hpass e (List.mem_append_right _ ?_)) _
        rw [hold, List.append_assoc]
        exact List.mem_append_right _ he
      rw [List.take_set_of_le hle, List.drop_set, if_neg hp, hnew,
        foldl_apply_comm fun e he ↦ hpass e (List.mem_append_left _ he), hview, hold]
      simp only [List.append_assoc, List.cons_append, List.foldl_append, List.foldl_cons] at hcomm ⊢
      exact hcomm.symm

/-! ### Runs -/

variable (S)

/-- When a step keeps the replicas together: an event changes places only with events for which
that makes no difference, no event is lost, and a local action does what its events do. -/
def Allowed (t₀ : τ) (net : Network M σ ε) : Action M ε α → Prop
  | .act m a =>
    let r := net.replica m
    let made := (S.perform m r.view a).2
    S.obs (S.perform m r.view a).1 = made.foldl S.apply (S.obs r.view) ∧
      (late net.log r m).foldl S.apply (made.foldl S.apply (S.obs r.view)) =
        made.foldl S.apply ((late net.log r m).foldl S.apply (S.obs r.view))
  | .accept m i =>
    let r := net.replica m
    ∀ e ∈ r.unsent[i]?, Passes S.apply ((ownEvents m false (net.log.drop r.cursor)).foldl S.apply
      (S.logView t₀ net.log r.cursor)) e (r.unsent.take i)
  | .reject m i => (net.replica m).unsent[i]? = none
  | .post _ _ => True
  | .answer p =>
    ∀ x ∈ net.log[p]?, x.awaited = true →
      ∀ e ∈ displaced net.log (net.replica x.sender) x.sender, Commutes S.apply x.event e
  | .read m =>
    let r := net.replica m
    ∀ x ∈ net.log[r.cursor]?,
      (x.sender ≠ m ∨ x.awaited = true →
        Passes S.apply (S.logView t₀ net.log r.cursor) x.event (ahead net.log r m)) ∧
      (x.sender ≠ m → Passes S.apply (S.obs r.view) x.event (late net.log r m))

variable {S}

/-- A replica with no event out of place may read on. -/
theorem allowed_read {net : Network M σ ε}
    (hnone : displaced net.log (net.replica m) m = []) :
    S.Allowed t₀ net (.read m : Action M ε α) := by
  obtain ⟨hlate, hahead⟩ := List.append_eq_nil_iff.mp hnone
  intro x _
  rw [hlate, hahead]
  exact ⟨fun _ ↦ passes_nil _ _, fun _ ↦ passes_nil _ _⟩

/-- A replica may read past an own event that it has applied. -/
theorem allowed_read_own {net : Network M σ ε}
    (hown : ∀ x ∈ net.log[(net.replica m).cursor]?, x.sender = m ∧ x.awaited = false) :
    S.Allowed t₀ net (.read m : Action M ε α) := by
  intro x hx
  obtain ⟨hsender, hawaited⟩ := hown x hx
  refine ⟨fun h ↦ ?_, fun h ↦ absurd hsender h⟩
  rcases h with hne | haw
  · exact absurd hsender hne
  · rw [hawaited] at haw
    cases haw

theorem update_self (net : Network M σ ε) (m : M) (r : Replica σ ε) :
    (update net m r).replica m = r := if_pos rfl

theorem update_of_ne {net : Network M σ ε} {m n : M} {r : Replica σ ε} (h : n ≠ m) :
    (update net m r).replica n = net.replica n := if_neg h

/-- **The step lemma.** An allowed step keeps every replica following the log. -/
theorem follows_next {net : Network M σ ε} (h : ∀ m, S.Follows t₀ net.log (net.replica m) m)
    {a : Action M ε α} (ha : S.Allowed t₀ net a) (n : M) :
    S.Follows t₀ (S.next net a).log ((S.next net a).replica n) n := by
  cases a with
  | act m a =>
    show S.Follows t₀ net.log ((update net m _).replica n) n
    by_cases hn : n = m
    · subst hn
      rw [update_self]
      exact (h n).act ha.1 ha.2
    · rw [update_of_ne hn]
      exact h n
  | accept m i =>
    unfold next
    dsimp only
    split
    · next e he =>
      show S.Follows t₀ (net.log ++ [⟨m, e, false⟩]) ((update net m _).replica n) n
      by_cases hn : n = m
      · subst hn
        rw [update_self]
        exact (h n).accept he (ha e he)
      · rw [update_of_ne hn]
        exact (h n).append fun hc ↦ hn hc.1.symm
    · exact h n
  | reject m i =>
    show S.Follows t₀ net.log ((update net m _).replica n) n
    by_cases hn : n = m
    · subst hn
      rw [update_self, List.eraseIdx_of_length_le (List.getElem?_eq_none_iff.mp ha)]
      exact h n
    · rw [update_of_ne hn]
      exact h n
  | post m e => exact (h n).append fun hc ↦ nomatch hc.2
  | answer p =>
    unfold next
    dsimp only
    split
    · next x hx =>
      split
      · next haw =>
        show S.Follows t₀ (net.log.set p _) ((update net x.sender _).replica n) n
        by_cases hn : n = x.sender
        · subst hn
          rw [update_self]
          exact (h _).answer hx rfl haw (ha x hx haw)
        · rw [update_of_ne hn]
          exact (h n).set_of_ne hx (Ne.symm hn) false
      · exact h n
    · exact h n
  | read m =>
    unfold next
    dsimp only
    split
    · next x hx =>
      show S.Follows t₀ net.log ((update net m _).replica n) n
      by_cases hn : n = m
      · subst hn
        rw [update_self]
        exact (h n).read hx (ha x hx).1 (ha x hx).2
      · rw [update_of_ne hn]
        exact h n
    · exact h n

/-- A network before any event. -/
def start (view : M → σ) : Network M σ ε := { replica := fun m ↦ { view := view m } }

theorem follows_start {view : M → σ} (h : ∀ m, S.obs (view m) = t₀) (m : M) :
    S.Follows t₀ (start (ε := ε) view).log ((start (ε := ε) view).replica m) m where
  cursor_le := Nat.le_refl 0
  view := h m

/-- **The run lemma.** After a run of allowed steps every replica follows the log. -/
theorem follows_run {view : M → σ} (h : ∀ m, S.obs (view m) = t₀) {as : List (Action M ε α)}
    (has : Machine.Along S.step (S.Allowed t₀) (start view) as) (m : M) :
    S.Follows t₀ (Machine.run S.step (start view) as).1.log
      ((Machine.run S.step (start view) as).1.replica m) m := by
  have hstep : ∀ (net : Network M σ ε) (a : Action M ε α),
      (∀ n, S.Follows t₀ net.log (net.replica n) n) → S.Allowed t₀ net a →
      ∀ n, S.Follows t₀ (S.step net a).1.log ((S.step net a).1.replica n) n :=
    fun _ _ hnet ha ↦ follows_next hnet ha
  exact Machine.run_state_invariant hstep (follows_start h) has m

end System

end Replicas
