import Mathlib.Data.List.DropRight
import Mathlib.Order.Lattice

/-!
# Keeping the newest of a list

Elements that are older than a cutoff leave a list, and of the others the last ones are kept, up to
a limit. `KeepsNewest` says what such a selection is for, by the times of the elements alone. The
last elements are such a selection exactly when nothing that the limit leaves out is newer than what
it keeps (`keepsNewest_rtake_iff`), and then a later cutoff keeps a part of them
(`rtake_filter_sublist`).
-/

namespace List

variable {α T : Type*} [LinearOrder T] {limit : ℕ} {time : α → T} {cutoff : T}
  {l dropped kept : List α}

theorem rdrop_append_rtake (n : ℕ) (l : List α) : l.rdrop n ++ l.rtake n = l :=
  take_append_drop _ l

theorem length_rtake (n : ℕ) (l : List α) : (l.rtake n).length = min n l.length := by
  rw [rtake, length_drop]
  omega

theorem rtake_of_length_le {n : ℕ} (h : l.length ≤ n) : l.rtake n = l := by
  rw [rtake, Nat.sub_eq_zero_of_le h, drop_zero]

theorem rdrop_of_length_le {n : ℕ} (h : l.length ≤ n) : l.rdrop n = [] := by
  rw [rdrop, Nat.sub_eq_zero_of_le h, take_zero]

theorem rtake_sublist (n : ℕ) (l : List α) : (l.rtake n).Sublist l := drop_sublist _ l

/-- Of what is not older than the cutoff, as much is kept as the limit allows, in the order of the
list, and everything that is newer than something that is kept. -/
structure KeepsNewest (limit : ℕ) (time : α → T) (cutoff : T) (l kept : List α) : Prop where
  within : kept.Sublist (l.filter fun a ↦ cutoff ≤ time a)
  length : kept.length = min limit (l.filter fun a ↦ cutoff ≤ time a).length
  newest : ∀ k ∈ kept,
    ((l.filter fun a ↦ cutoff ≤ time a).filter fun a ↦ time k < time a).Sublist kept

theorem keepsNewest_of_append
    (hl : (l.filter fun a ↦ decide (cutoff ≤ time a)) =
      (dropped ++ kept).filter fun a ↦ decide (cutoff ≤ time a))
    (hlength : kept.length = min limit (dropped ++ kept).length)
    (hwithin : ∀ k ∈ kept, cutoff ≤ time k)
    (holder : ∀ d ∈ dropped, ∀ k ∈ kept, time d ≤ time k) :
    KeepsNewest limit time cutoff l kept := by
  have hkept : (kept.filter fun a ↦ decide (cutoff ≤ time a)) = kept :=
    filter_eq_self.mpr fun k hk ↦ decide_eq_true (hwithin k hk)
  rw [filter_append, hkept] at hl
  refine ⟨hl ▸ sublist_append_right _ _, ?_, fun k hk ↦ ?_⟩
  · have hle := length_filter_le (fun a ↦ decide (cutoff ≤ time a)) dropped
    rw [length_append] at hlength
    rw [hl, length_append]
    omega
  · have hnone : ((dropped.filter fun a ↦ decide (cutoff ≤ time a)).filter fun a ↦
        decide (time k < time a)) = [] :=
      filter_eq_nil_iff.mpr fun d hd h ↦
        not_lt.mpr (holder d (mem_of_mem_filter hd) k hk) (of_decide_eq_true h)
    rw [hl, filter_append, hnone, nil_append]
    exact filter_sublist

theorem KeepsNewest.older
    (hl : (l.filter fun a ↦ decide (cutoff ≤ time a)) =
      (dropped ++ kept).filter fun a ↦ decide (cutoff ≤ time a))
    (h : KeepsNewest limit time cutoff l kept) :
    (∀ k ∈ kept, cutoff ≤ time k) ∧ ∀ d ∈ dropped, ∀ k ∈ kept, time d ≤ time k := by
  have hwithin : ∀ k ∈ kept, cutoff ≤ time k := fun k hk ↦
    of_decide_eq_true (mem_filter.mp (h.within.subset hk)).2
  refine ⟨hwithin, fun d hd k hk ↦ not_lt.mp fun hlt ↦ ?_⟩
  have hkept : (kept.filter fun a ↦ decide (cutoff ≤ time a)) = kept :=
    filter_eq_self.mpr fun k hk ↦ decide_eq_true (hwithin k hk)
  -- What is newer than `k` is in what is kept, and `d` is one too many there.
  have hsub := (h.newest k hk).filter fun a ↦ decide (time k < time a)
  rw [filter_filter, hl, filter_append, hkept, filter_append] at hsub
  have hlength := hsub.length_le
  simp only [Bool.and_self] at hlength
  rw [length_append] at hlength
  have hmem : d ∈ (dropped.filter fun a ↦ decide (cutoff ≤ time a)).filter fun a ↦
      decide (time k < time a) :=
    mem_filter.mpr ⟨mem_filter.mpr ⟨hd, decide_eq_true ((hwithin k hk).trans hlt.le)⟩,
      decide_eq_true hlt⟩
  have hpos := length_pos_of_mem hmem
  omega

/-- **The last elements are the newest exactly when** none of them is older than the cutoff and
nothing that the limit leaves out is newer than one of them. -/
theorem keepsNewest_rtake_iff {p : α → Bool} (hp : ∀ a ∈ l, cutoff ≤ time a → p a = true) :
    KeepsNewest limit time cutoff l ((l.filter p).rtake limit) ↔
      (∀ k ∈ (l.filter p).rtake limit, cutoff ≤ time k) ∧
        ∀ d ∈ (l.filter p).rdrop limit, ∀ k ∈ (l.filter p).rtake limit, time d ≤ time k := by
  have hl : (l.filter fun a ↦ decide (cutoff ≤ time a)) =
      ((l.filter p).rdrop limit ++ (l.filter p).rtake limit).filter fun a ↦
        decide (cutoff ≤ time a) := by
    rw [rdrop_append_rtake, filter_filter]
    refine filter_congr fun a ha ↦ ?_
    by_cases h : cutoff ≤ time a
    · rw [hp a ha h, Bool.and_true]
    · rw [decide_eq_false h, Bool.false_and]
  refine ⟨KeepsNewest.older hl, fun h ↦ keepsNewest_of_append hl ?_ h.1 h.2⟩
  rw [rdrop_append_rtake, length_rtake]

theorem keepsNewest_rtake_self_iff : KeepsNewest limit time cutoff l (l.rtake limit) ↔
    (∀ k ∈ l.rtake limit, cutoff ≤ time k) ∧
      ∀ d ∈ l.rdrop limit, ∀ k ∈ l.rtake limit, time d ≤ time k := by
  have hall : (l.filter fun _ ↦ true) = l := filter_eq_self.mpr fun _ _ ↦ rfl
  have hiff : KeepsNewest limit time cutoff l ((l.filter fun _ ↦ true).rtake limit) ↔ _ :=
    keepsNewest_rtake_iff fun _ _ _ ↦ rfl
  rw [hall] at hiff
  exact hiff

/-- **A later cutoff keeps a part**, if it does not reach what is kept before it has passed all
that the limit leaves out. -/
theorem rtake_filter_sublist {p q : α → Bool} (hpq : ∀ a ∈ l, q a = true → p a = true)
    (h : ∀ d ∈ (l.filter p).rdrop limit, ∀ k ∈ (l.filter p).rtake limit, q d = true → q k = true) :
    ((l.filter q).rtake limit).Sublist ((l.filter p).rtake limit) := by
  have hl : l.filter q = (l.filter p).filter q := by
    rw [filter_filter]
    refine filter_congr fun a ha ↦ ?_
    cases hq : q a with
    | false => rw [Bool.false_and]
    | true => rw [hpq a ha hq, Bool.and_true]
  have hall : l.filter q = ((l.filter p).rdrop limit ++ (l.filter p).rtake limit).filter q := by
    rw [rdrop_append_rtake, hl]
  have hdropped : 0 < ((l.filter p).rdrop limit).length →
      ((l.filter p).rtake limit).length = limit := by
    rw [length_rtake, rdrop, length_take]
    omega
  rw [hall, filter_append]
  generalize (l.filter p).rdrop limit = dropped at h hdropped ⊢
  generalize (l.filter p).rtake limit = kept at h hdropped ⊢
  rcases hleft : dropped.filter q with _ | ⟨d, rest⟩
  · rw [nil_append]
    exact (rtake_sublist _ _).trans filter_sublist
  · have hd : d ∈ dropped.filter q := hleft ▸ mem_cons_self
    have hall : kept.filter q = kept :=
      filter_eq_self.mpr fun k hk ↦ h d (mem_of_mem_filter hd) k hk (mem_filter.mp hd).2
    have hfull : kept.length = limit := hdropped (length_pos_of_mem (mem_of_mem_filter hd))
    have hlast : (d :: rest ++ kept).length - limit = (d :: rest).length := by
      rw [length_append]
      omega
    rw [hall, rtake, hlast, drop_left]

end List
