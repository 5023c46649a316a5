import Mathlib.Data.List.Induction
import MultAIplayer.Lib.Machine

/-!
# Histories

What a log of events says about its past. `Justified J` asks of every event that `J` holds of it and
of the events before it; `Since e P` says that an event has happened and that `P` holds of what came
after it. Both are kept along a run by looking at the new events only.

`run_justified` is the rule for machines: an invariant of state and log under which every new event
is justified.
-/

namespace History

variable {σ α ε : Type} {J : List ε → ε → Prop} {P Q : List ε → Prop} {log new : List ε} {e : ε}

/-- Every event is justified by the events before it. -/
def Justified (J : List ε → ε → Prop) (log : List ε) : Prop :=
  ∀ before e after, log = before ++ e :: after → J before e

/-- An event has happened, and something holds of the events after it. -/
def Since (e : ε) (P : List ε → Prop) (log : List ε) : Prop :=
  ∃ front back, log = front ++ e :: back ∧ P back

theorem justified_nil : Justified J [] := by
  intro before e after h
  simp at h

theorem justified_snoc (h : Justified J log) (he : J log e) : Justified J (log ++ [e]) := by
  intro before e' after hlog
  rcases List.eq_nil_or_concat after with rfl | ⟨after, last, rfl⟩
  · obtain ⟨rfl, rfl⟩ := List.append_singleton_inj.mp hlog
    exact he
  · have hsplit : log ++ [e] = (before ++ e' :: after) ++ [last] := by simpa using hlog
    exact h before e' after (List.append_singleton_inj.mp hsplit).1

/-- Events that are justified whatever came before them. -/
theorem Justified.append_of_forall (h : Justified J log)
    (hnew : ∀ e ∈ new, ∀ before, J before e) : Justified J (log ++ new) := by
  induction new using List.reverseRecOn with
  | nil => simpa using h
  | append_singleton new e ih =>
    rw [← List.append_assoc]
    exact justified_snoc (ih fun e' he' ↦ hnew e' (List.mem_append_left _ he')) (hnew e (by simp) _)

theorem Justified.of_append (h : Justified J (log ++ new)) : Justified J log := by
  rintro before e after rfl
  exact h before e (after ++ new) (by simp)

theorem Justified.of_mem (h : Justified J log) (he : e ∈ log) : ∃ before, J before e ∧
    ∀ e' ∈ before, e' ∈ log := by
  obtain ⟨before, after, rfl⟩ := List.append_of_mem he
  exact ⟨before, h before e after rfl, fun e' he' ↦ List.mem_append_left _ he'⟩

theorem Since.mem (h : Since e P log) : e ∈ log := by
  obtain ⟨front, back, rfl, -⟩ := h
  simp

theorem since_snoc_self (h : P []) : Since e P (log ++ [e]) := ⟨log, [], rfl, h⟩

theorem Since.mono (h : Since e P log) (hPQ : ∀ back, P back → Q back) : Since e Q log := by
  obtain ⟨front, back, rfl, hback⟩ := h
  exact ⟨front, back, rfl, hPQ back hback⟩

theorem Since.snoc {e' : ε} (h : Since e P log) (hP : ∀ back, P back → Q (back ++ [e'])) :
    Since e Q (log ++ [e']) := by
  obtain ⟨front, back, rfl, hback⟩ := h
  exact ⟨front, back ++ [e'], by simp, hP back hback⟩

theorem since_snoc_iff {e' : ε} :
    Since e P (log ++ [e']) ↔ e = e' ∧ P [] ∨ Since e (fun back ↦ P (back ++ [e'])) log := by
  constructor
  · rintro ⟨front, back, hlog, hback⟩
    rcases List.eq_nil_or_concat back with rfl | ⟨back, last, rfl⟩
    · exact .inl ⟨(List.append_singleton_inj.mp hlog).2.symm, hback⟩
    · rw [List.concat_eq_append] at hlog hback
      have hsplit : log ++ [e'] = (front ++ e :: back) ++ [last] := by simpa using hlog
      obtain ⟨rfl, rfl⟩ := List.append_singleton_inj.mp hsplit
      exact .inr ⟨front, back, rfl, hback⟩
  · rintro (⟨rfl, hnil⟩ | h)
    · exact since_snoc_self hnil
    · exact h.snoc fun back hback ↦ hback

/-- What happened after the last of some event is also what the log says from there on. -/
theorem Since.after {x : ε} {before after : List ε} (h : Since e P (before ++ x :: after))
    (hx : ∀ back, P back → x ∉ back) (hne : x ≠ e) : Since e P after := by
  obtain ⟨front, back, hlog, hback⟩ := h
  rcases List.append_eq_append_iff.mp hlog with ⟨middle, rfl, hsplit⟩ | ⟨middle, rfl, hsplit⟩
  · rcases List.cons_eq_append_iff.mp hsplit with ⟨rfl, heq⟩ | ⟨middle, rfl, rfl⟩
    · exact (hne (List.cons.inj heq).1.symm).elim
    · exact ⟨middle, back, rfl, hback⟩
  · rcases List.cons_eq_append_iff.mp hsplit with ⟨rfl, heq⟩ | ⟨middle, rfl, rfl⟩
    · exact (hne (List.cons.inj heq).1).elim
    · exact (hx _ hback (by simp)).elim

/-- One event happened, and another after it. -/
def Before (a b : ε) (log : List ε) : Prop := [a, b].Sublist log

theorem before_snoc_iff {a b : ε} :
    Before a b (log ++ [e]) ↔ Before a b log ∨ a ∈ log ∧ b = e := by
  constructor
  · intro h
    obtain ⟨l₁, l₂, heq, h₁, h₂⟩ := List.sublist_append_iff.mp h
    rcases List.sublist_singleton.mp h₂ with rfl | rfl
    · rw [List.append_nil] at heq
      subst heq
      exact .inl h₁
    · obtain ⟨rfl, rfl⟩ := List.append_singleton_inj.mp (show [a] ++ [b] = l₁ ++ [e] from heq)
      exact .inr ⟨List.singleton_sublist.mp h₁, rfl⟩
  · rintro (h | ⟨ha, rfl⟩)
    · exact h.trans (List.sublist_append_left _ _)
    · exact (List.singleton_sublist.mpr ha).append (List.Sublist.refl [b])

theorem before_append {a b : ε} {front back : List ε} (ha : a ∈ front) (hb : b ∈ back) :
    Before a b (front ++ back) :=
  (List.singleton_sublist.mpr ha).append (List.singleton_sublist.mpr hb)

theorem Before.mem_left {a b : ε} (h : Before a b log) : a ∈ log :=
  h.subset List.mem_cons_self

/-- After each of one event, another has happened. -/
def FollowedBy (a b : ε) (log : List ε) : Prop :=
  ∀ front back, log = front ++ a :: back → b ∈ back

theorem FollowedBy.snoc {a b : ε} (h : FollowedBy a b log) (he : e ≠ a) :
    FollowedBy a b (log ++ [e]) := by
  intro front back hlog
  rcases List.eq_nil_or_concat back with rfl | ⟨back, last, rfl⟩
  · exact (he (List.append_singleton_inj.mp hlog).2).elim
  · rw [List.concat_eq_append] at hlog ⊢
    have hsplit : log ++ [e] = (front ++ a :: back) ++ [last] := by simpa using hlog
    exact List.mem_append_left _ (h front back (List.append_singleton_inj.mp hsplit).1)

theorem followedBy_snoc_self {a b : ε} (hne : b ≠ a) : FollowedBy a b (log ++ [b]) := by
  intro front back hlog
  rcases List.eq_nil_or_concat back with rfl | ⟨back, last, rfl⟩
  · exact (hne (List.append_singleton_inj.mp hlog).2).elim
  · rw [List.concat_eq_append] at hlog ⊢
    have hsplit : log ++ [b] = (front ++ a :: back) ++ [last] := by simpa using hlog
    simp [(List.append_singleton_inj.mp hsplit).2]

theorem countP_snoc (p : ε → Bool) : (log ++ [e]).countP p = log.countP p + (p e).toNat := by
  rw [List.countP_append, List.countP_singleton]
  cases p e <;> rfl

/-- **The rule for machines.** -/
theorem run_justified {step : σ → α → σ × List ε} {Inv : σ → List ε → Prop}
    (hjustified : ∀ s log, Inv s log → Justified J log)
    (hstep : ∀ s log a, Inv s log → Inv (step s a).1 (log ++ (step s a).2))
    {s : σ} (h : Inv s []) (as : List α) : Justified J (Machine.run step s as).2 := by
  have hrun := Machine.run_invariant (fun s log a h _ ↦ hstep s log a h) h
    (Machine.along_true s as)
  exact hjustified _ _ hrun

end History
