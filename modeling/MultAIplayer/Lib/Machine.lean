import Mathlib.Data.List.Basic

/-!
# Machines and their runs

A deterministic machine: a step takes a state and an action to a new state and to the events that
the outside sees. Everything the environment decides is part of the action, so quantifying over
lists of actions quantifies over interleavings, clocks and failures.

## Invariants

`run_invariant` is the one induction: an invariant of the state **and of the events so far** that
every allowed step keeps holds after every allowed run. `Along` says that a run is allowed, that
is, that each step meets a condition in the state in which it is taken.
-/

namespace Machine

variable {σ α ε : Type} (step : σ → α → σ × List ε)

/-- The state and the events after a list of actions. -/
@[grind =] def run (s : σ) : List α → σ × List ε
  | [] => (s, [])
  | a :: as => ((run (step s a).1 as).1, (step s a).2 ++ (run (step s a).1 as).2)

/-- Every step of a run meets a condition in the state in which it is taken. -/
@[grind =] def Along (P : σ → α → Prop) (s : σ) : List α → Prop
  | [] => True
  | a :: as => P s a ∧ Along P (step s a).1 as

variable {step}

instance decidableAlong {P : σ → α → Prop} [∀ s a, Decidable (P s a)] :
    (s : σ) → (as : List α) → Decidable (Along step P s as)
  | _, [] => .isTrue trivial
  | s, a :: as =>
    have := decidableAlong (P := P) (step s a).1 as
    inferInstanceAs (Decidable (P s a ∧ Along step P (step s a).1 as))

@[simp] theorem run_nil (s : σ) : run step s [] = (s, []) := rfl

theorem run_cons (s : σ) (a : α) (as : List α) :
    run step s (a :: as) =
      ((run step (step s a).1 as).1, (step s a).2 ++ (run step (step s a).1 as).2) := rfl

theorem run_append (s : σ) (as bs : List α) :
    run step s (as ++ bs) = ((run step (run step s as).1 bs).1,
      (run step s as).2 ++ (run step (run step s as).1 bs).2) := by
  induction as generalizing s with
  | nil => rfl
  | cons a as ih => rw [List.cons_append, run_cons, ih, run_cons, List.append_assoc]

theorem run_singleton (s : σ) (a : α) : run step s [a] = step s a := by
  rw [run_cons, run_nil, List.append_nil]

theorem along_append {P : σ → α → Prop} {s : σ} {as bs : List α} :
    Along step P s (as ++ bs) ↔ Along step P s as ∧ Along step P (run step s as).1 bs := by
  induction as generalizing s with
  | nil => simp [Along]
  | cons a as ih => rw [List.cons_append, Along, ih, Along, run_cons, and_assoc]

theorem Along.mono {P Q : σ → α → Prop} (hPQ : ∀ s a, P s a → Q s a) {s : σ} {as : List α}
    (h : Along step P s as) : Along step Q s as := by
  induction as generalizing s with
  | nil => trivial
  | cons a as ih => exact ⟨hPQ _ _ h.1, ih h.2⟩

theorem Along.and {P Q : σ → α → Prop} {s : σ} {as : List α} (hP : Along step P s as)
    (hQ : Along step Q s as) : Along step (fun s a ↦ P s a ∧ Q s a) s as := by
  induction as generalizing s with
  | nil => trivial
  | cons a as ih => exact ⟨⟨hP.1, hQ.1⟩, ih hP.2 hQ.2⟩

/-- A run without a condition is allowed. -/
theorem along_true (s : σ) (as : List α) : Along step (fun _ _ ↦ True) s as := by
  induction as generalizing s with
  | nil => trivial
  | cons a as ih => exact ⟨trivial, ih _⟩

/-- A condition on the actions alone. -/
theorem along_of_forall {Q : α → Prop} {as : List α} (h : ∀ a ∈ as, Q a) (s : σ) :
    Along step (fun _ a ↦ Q a) s as := by
  induction as generalizing s with
  | nil => trivial
  | cons a as ih =>
    exact ⟨h a List.mem_cons_self, ih (fun b hb ↦ h b (List.mem_cons_of_mem _ hb)) _⟩

/-- **The run rule.** An invariant of the state and of the events so far, kept by every allowed
step, holds after every allowed run. -/
theorem run_invariant {P : σ → α → Prop} {Inv : σ → List ε → Prop}
    (hstep : ∀ s log a, Inv s log → P s a → Inv (step s a).1 (log ++ (step s a).2))
    {s : σ} {log : List ε} {as : List α} (h : Inv s log) (hP : Along step P s as) :
    Inv (run step s as).1 (log ++ (run step s as).2) := by
  induction as generalizing s log with
  | nil => simpa using h
  | cons a as ih =>
    rw [run_cons, ← List.append_assoc]
    exact ih (hstep s log a h hP.1) hP.2

/-- The run rule for an invariant of the state alone. -/
theorem run_state_invariant {P : σ → α → Prop} {Inv : σ → Prop}
    (hstep : ∀ s a, Inv s → P s a → Inv (step s a).1) {s : σ} {as : List α} (h : Inv s)
    (hP : Along step P s as) : Inv (run step s as).1 := by
  induction as generalizing s with
  | nil => exact h
  | cons a as ih => exact ih (hstep s a h hP.1) hP.2

/-- What every step says of its events is what the run says of them. -/
theorem along_events_iff {Q : ε → Prop} {s : σ} {as : List α} :
    Along step (fun s a ↦ ∀ e ∈ (step s a).2, Q e) s as ↔ ∀ e ∈ (run step s as).2, Q e := by
  induction as generalizing s with
  | nil => simp [Along]
  | cons a as ih =>
    rw [Along, ih, run_cons]
    simp only [List.mem_append]
    exact ⟨fun h e he ↦ he.elim (h.1 e) (h.2 e), fun h ↦ ⟨fun e he ↦ h e (.inl he),
      fun e he ↦ h e (.inr he)⟩⟩

/-! ### Schedules -/

/-- The state and the events after the first actions of a schedule. -/
def after (step : σ → α → σ × List ε) (s : σ) (schedule : ℕ → α) (k : ℕ) : σ × List ε :=
  run step s ((List.range k).map schedule)

theorem after_succ (s : σ) (schedule : ℕ → α) (k : ℕ) :
    after step s schedule (k + 1) =
      ((step (after step s schedule k).1 (schedule k)).1,
        (after step s schedule k).2 ++ (step (after step s schedule k).1 (schedule k)).2) := by
  rw [after, List.range_succ, List.map_append, run_append, List.map_singleton, run_singleton]
  rfl

/-- **The progress rule.** What a measure brings about comes about: it never grows before, and as
long as it has not come about, the measure falls again and again. -/
theorem exists_of_measure {μ : ℕ → ℕ} {goal : ℕ → Prop} {start : ℕ}
    (hle : ∀ k ≥ start, ¬goal k → μ (k + 1) ≤ μ k)
    (hlt : ∀ k ≥ start, ¬goal k → ∃ k' ≥ k, μ (k' + 1) < μ k') : ∃ k ≥ start, goal k := by
  by_contra hnever
  have hnot : ∀ k ≥ start, ¬goal k := fun k hk hgoal ↦ hnever ⟨k, hk, hgoal⟩
  have hmono : ∀ d, ∀ k ≥ start, μ (k + d) ≤ μ k := by
    intro d
    induction d with
    | zero => exact fun k _ ↦ Nat.le_refl _
    | succ d ih =>
      intro k hk
      exact Nat.le_trans (hle (k + d) (by omega) (hnot _ (by omega))) (ih k hk)
  have hsmaller : ∀ m, ∀ k ≥ start, m ≤ μ k := by
    intro m
    induction m with
    | zero => exact fun k _ ↦ Nat.zero_le _
    | succ m ih =>
      intro k hk
      obtain ⟨k', hk', hfall⟩ := hlt k hk (hnot k hk)
      have hbelow := hmono (k' - k) k hk
      rw [Nat.add_sub_cancel' hk'] at hbelow
      have := ih (k' + 1) (by omega)
      omega
  have := hsmaller (μ start + 1) start (Nat.le_refl _)
  omega

/-- **The unwinding rule.** What an observer sees of a run is what it sees of the run of the actions
that are its own, when its own actions look the same in states that agree for it, and the others
neither show nor break the agreement. -/
theorem run_filter {P : σ → α → Prop} {Agree : σ → σ → Prop} {mine : α → Bool} {shown : ε → Bool}
    (hmine : ∀ s t a, Agree s t → P s a → mine a = true →
      Agree (step s a).1 (step t a).1 ∧ (step s a).2.filter shown = (step t a).2.filter shown)
    (hother : ∀ s t a, Agree s t → P s a → mine a = false →
      Agree (step s a).1 t ∧ (step s a).2.filter shown = [])
    {s t : σ} {as : List α} (h : Agree s t) (hP : Along step P s as) :
    (run step s as).2.filter shown = (run step t (as.filter mine)).2.filter shown := by
  induction as generalizing s t with
  | nil => rfl
  | cons a as ih =>
    rw [run_cons, List.filter_append]
    cases ha : mine a with
    | true =>
      obtain ⟨hagree, hevents⟩ := hmine s t a h hP.1 ha
      rw [List.filter_cons_of_pos ha, run_cons, List.filter_append, hevents, ih hagree hP.2]
    | false =>
      obtain ⟨hagree, hevents⟩ := hother s t a h hP.1 ha
      rw [List.filter_cons_of_neg (by rw [ha]; decide), hevents, List.nil_append,
        ih hagree hP.2]

end Machine
