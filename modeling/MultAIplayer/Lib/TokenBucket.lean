import Mathlib.Algebra.Order.Field.Basic
import Mathlib.Algebra.Order.Ring.Cast
import Mathlib.Data.List.Count
import Mathlib.Tactic.Linarith
import Mathlib.Tactic.Ring

/-!
# Token buckets

A bucket that holds at most `capacity` tokens and fills at `rate`, over any ordered field. Its level
at a time is computed from what it held when it was last looked at; a bucket that is not kept at all
is a full one, and a bucket that has had the time to fill may therefore be dropped
(`level_eq_capacity`).

## The bound

What has been taken since a time `a`, and what is left, is what a full bucket could have given by now
(`Bounded.spent`). Waiting and taking keep that (`Bounded.wait`, `Bounded.take`), and the bound on
every interval of the past follows, because an interval that lies behind does not change any more.
-/

/-- What a bucket held when it was last looked at. -/
structure TokenBucket (K : Type) where
  tokens : K
  updatedAt : K

namespace TokenBucket

/-! ### Taken tokens -/

section Taken

variable {K : Type} [LinearOrder K] {now : K} {times : List K}

/-- How many of the times lie in a closed interval. -/
def taken (times : List K) (a b : K) : ℕ := times.countP fun t ↦ a ≤ t ∧ t ≤ b

theorem taken_append_singleton (times : List K) (a c t : K) :
    taken (times ++ [t]) a c = taken times a c + if a ≤ t ∧ t ≤ c then 1 else 0 := by
  rw [taken, List.countP_append, List.countP_singleton, taken]
  simp only [decide_eq_true_eq]

/-- What has been taken up to a later time has been taken up to now. -/
theorem taken_of_le (hpast : ∀ t ∈ times, t ≤ now) {a c : K} (hc : now ≤ c) :
    taken times a c = taken times a now := by
  refine List.countP_congr fun t ht ↦ ?_
  have hnow := hpast t ht
  simp only [decide_eq_true_eq]
  exact ⟨fun h ↦ ⟨h.1, hnow⟩, fun h ↦ ⟨h.1, hnow.trans hc⟩⟩

/-- Nothing has been taken since a time that is still to come. -/
theorem taken_of_lt (times : List K) {a c : K} (hc : c < a) : taken times a c = 0 := by
  refine List.countP_eq_zero.mpr fun t _ ht ↦ ?_
  simp only [decide_eq_true_eq] at ht
  exact absurd (ht.1.trans ht.2) (not_le.mpr hc)

end Taken

variable {K : Type} [Field K] [LinearOrder K]

/-- The level of a bucket; a bucket that is not kept is full. -/
def level (capacity rate : K) (b : Option (TokenBucket K)) (now : K) : K :=
  match b with
  | none => capacity
  | some b => min capacity (b.tokens + max 0 (now - b.updatedAt) * rate)

/-- The account of a bucket: when tokens were taken, what is left, and the time. -/
structure Bounded (capacity rate : K) (times : List K) (left now : K) : Prop where
  nonneg : 0 ≤ left
  le_capacity : left ≤ capacity
  past : ∀ t ∈ times, t ≤ now
  /-- What was taken since `a` and what is left is at most what a full bucket could give. -/
  spent : ∀ a ≤ now, (taken times a now : K) + left ≤ capacity + (now - a) * rate
  window : ∀ a b, a ≤ b → (taken times a b : K) ≤ capacity + (b - a) * rate

variable {capacity rate now later : K} {b : TokenBucket K} {times : List K} {left : K}

/-! ### Levels -/

theorem level_le_capacity (b : Option (TokenBucket K)) : level capacity rate b now ≤ capacity := by
  cases b with
  | none => exact le_refl _
  | some b => exact min_le_left _ _

variable [IsStrictOrderedRing K]

theorem level_nonneg (hcapacity : 0 ≤ capacity) (hrate : 0 ≤ rate) {b : Option (TokenBucket K)}
    (htokens : ∀ c ∈ b, 0 ≤ c.tokens) : 0 ≤ level capacity rate b now := by
  cases b with
  | none => exact hcapacity
  | some b =>
    have hfill : 0 ≤ max 0 (now - b.updatedAt) * rate := mul_nonneg (le_max_left _ _) hrate
    exact le_min hcapacity (add_nonneg (htokens b rfl) hfill)

/-- A bucket does not fill faster than its rate. -/
theorem level_later (hrate : 0 ≤ rate) (hlater : now ≤ later) {b : Option (TokenBucket K)}
    (hpast : ∀ c ∈ b, c.updatedAt ≤ now) :
    level capacity rate b later ≤ level capacity rate b now + (later - now) * rate := by
  have hfill : 0 ≤ (later - now) * rate := mul_nonneg (sub_nonneg.mpr hlater) hrate
  cases b with
  | none =>
    show capacity ≤ capacity + (later - now) * rate
    linarith
  | some b =>
    have hupdated : b.updatedAt ≤ now := hpast b rfl
    have hsplit : (later - b.updatedAt) * rate =
        (now - b.updatedAt) * rate + (later - now) * rate := by ring
    simp only [level]
    rw [max_eq_right (sub_nonneg.mpr hupdated), max_eq_right (sub_nonneg.mpr (hupdated.trans hlater)),
      hsplit, ← min_add_add_right]
    exact min_le_min (by linarith) (by linarith)

/-- **A bucket that has had the time to fill is full**, so that it may be dropped. -/
theorem level_eq_capacity (htokens : 0 ≤ b.tokens)
    (hfull : capacity ≤ max 0 (now - b.updatedAt) * rate) :
    level capacity rate (some b) now = capacity :=
  min_eq_left (by linarith)

/-! ### The account -/

namespace Bounded

/-- The account of a full bucket that nobody has used. -/
theorem unused (hcapacity : 0 ≤ capacity) (hrate : 0 ≤ rate) (now : K) :
    Bounded capacity rate [] capacity now where
  nonneg := hcapacity
  le_capacity := le_refl _
  past := fun _ ht ↦ (List.not_mem_nil ht).elim
  spent := fun a ha ↦ by
    have hfill : 0 ≤ (now - a) * rate := mul_nonneg (sub_nonneg.mpr ha) hrate
    simp only [taken, List.countP_nil, Nat.cast_zero]
    linarith
  window := fun a c hac ↦ by
    have hfill : 0 ≤ (c - a) * rate := mul_nonneg (sub_nonneg.mpr hac) hrate
    simp only [taken, List.countP_nil, Nat.cast_zero]
    linarith

variable (h : Bounded capacity rate times left now)

include h

/-- An interval that ends now is bounded without what is left. -/
theorem spent_of_le {a : K} (ha : a ≤ now) :
    (taken times a now : K) ≤ capacity + (now - a) * rate := by
  have hspent := h.spent a ha
  have hleft := h.nonneg
  linarith

/-- **Waiting** keeps the account: the bucket fills at its rate at most. -/
theorem wait (hrate : 0 ≤ rate) (hlater : now ≤ later) {left' : K} (hnonneg : 0 ≤ left')
    (hle : left' ≤ capacity) (hfill : left' ≤ left + (later - now) * rate) :
    Bounded capacity rate times left' later where
  nonneg := hnonneg
  le_capacity := hle
  past := fun t ht ↦ (h.past t ht).trans hlater
  spent := fun a ha ↦ by
    rw [taken_of_le h.past hlater]
    rcases le_or_gt a now with hnow | hnow
    · have hspent := h.spent a hnow
      have hsplit : (later - a) * rate = (now - a) * rate + (later - now) * rate := by ring
      linarith
    · have hgain : 0 ≤ (later - a) * rate := mul_nonneg (sub_nonneg.mpr ha) hrate
      rw [taken_of_lt times hnow, Nat.cast_zero]
      linarith
  window := h.window

/-- **Taking** a token that is there keeps the account. -/
theorem take (hrate : 0 ≤ rate) (hone : 1 ≤ left) :
    Bounded capacity rate (times ++ [now]) (left - 1) now where
  nonneg := sub_nonneg.mpr hone
  le_capacity := by
    have := h.le_capacity
    linarith
  past := by
    intro t ht
    rcases List.mem_append.mp ht with ht | ht
    · exact h.past t ht
    · exact le_of_eq (List.mem_singleton.mp ht)
  spent := fun a ha ↦ by
    have hspent := h.spent a ha
    rw [taken_append_singleton, if_pos ⟨ha, le_refl now⟩, Nat.cast_add, Nat.cast_one]
    linarith
  window := fun a c hac ↦ by
    rw [taken_append_singleton]
    split_ifs with hin
    · -- an interval that holds the present ends now or later, when no more has been taken
      rw [taken_of_le h.past hin.2, Nat.cast_add, Nat.cast_one]
      have hspent := h.spent a hin.1
      have hrest : (now - a) * rate ≤ (c - a) * rate :=
        mul_le_mul_of_nonneg_right (by linarith [hin.2]) hrate
      linarith
    · rw [add_zero]
      exact h.window a c hac

end Bounded

end TokenBucket
