import Mathlib.Data.List.Basic

/-!
# Boards and displays

Authors post values, each under the key that it has, and withdraw everything that they posted. The
latest value under a key is the last one that is posted and not withdrawn.

A **display** keeps at most one value per index, and the index of a key may forget part of it. It
shows a board when it holds exactly the latest values. What a display does is blind: it overwrites
the index of a posted value, and it erases what it is told to erase. `shows_post_iff` and
`shows_erase_iff` say exactly when that is right, for a display that was right before.
-/

/-- A value and who posted it. -/
structure Post (ι β : Type) where
  author : ι
  value : β
  deriving DecidableEq

namespace Board

variable {ι β κ γ : Type} (key : β → κ) (index : κ → γ)

/-- What is left when the authors that satisfy a test have withdrawn their posts. -/
def withdraw (b : List (Post ι β)) (p : ι → Bool) : List (Post ι β) :=
  b.filter fun q ↦ !p q.author

/-- A display with a value put at the index of its key. -/
def overwrite [DecidableEq γ] (d : γ → Option β) (v : β) : γ → Option β :=
  fun c ↦ if c = index (key v) then some v else d c

/-- What is left of a display when the values under some keys are erased. -/
def erase (d : γ → Option β) (hit : κ → Bool) : γ → Option β :=
  fun c ↦ (d c).filter fun v ↦ !hit (key v)

section Latest

variable [DecidableEq κ]

/-- The value that was posted last under a key. -/
@[grind =] def latest (b : List (Post ι β)) (k : κ) : Option β :=
  (b.reverse.find? fun q ↦ key q.value = k).map (·.value)

/-- The display holds exactly the latest values of the board. -/
def Shows (d : γ → Option β) (b : List (Post ι β)) : Prop :=
  ∀ c v, d c = some v ↔ index (key v) = c ∧ latest key b (key v) = some v

variable {key index} {b : List (Post ι β)} {p : ι → Bool} {k : κ}

theorem latest_eq_none_iff : latest key b k = none ↔ ∀ q ∈ b, key q.value ≠ k := by
  simp [latest]

theorem mem_of_latest {v : β} (h : latest key b k = some v) :
    key v = k ∧ ∃ q ∈ b, q.value = v := by
  obtain ⟨q, hq, hv⟩ := Option.map_eq_some_iff.mp h
  have hkey := List.find?_some hq
  rw [decide_eq_true_eq] at hkey
  subst hv
  exact ⟨hkey, q, List.mem_reverse.mp (List.mem_of_find?_eq_some hq), rfl⟩

variable (key) in
theorem exists_latest {q : Post ι β} (h : q ∈ b) : ∃ v, latest key b (key q.value) = some v := by
  cases hv : latest key b (key q.value) with
  | some v => exact ⟨v, rfl⟩
  | none => exact absurd rfl (latest_eq_none_iff.mp hv q h)

theorem latest_append (i : ι) (v : β) :
    latest key (b ++ [⟨i, v⟩]) k = if key v = k then some v else latest key b k := by
  rw [latest, List.reverse_append, List.reverse_singleton, List.singleton_append, List.find?_cons]
  by_cases h : key v = k <;> simp [h, latest]

/-- A key that no withdrawn post has keeps its latest value. -/
theorem latest_withdraw_of_stays (h : ∀ q ∈ b, key q.value = k → p q.author = false) :
    latest key (withdraw b p) k = latest key b k := by
  rw [latest, withdraw, ← List.filter_reverse, List.find?_filter, latest, ← List.head?_filter,
    ← List.head?_filter]
  congr 2
  refine List.filter_congr fun q hq ↦ ?_
  by_cases hk : key q.value = k
  · simp [h q (List.mem_reverse.mp hq) hk]
  · simp [hk]

/-- A key that every post of is withdrawn has no latest value. -/
theorem latest_withdraw_of_leaves (h : ∀ q ∈ b, key q.value = k → p q.author = true) :
    latest key (withdraw b p) k = none := by
  rw [latest_eq_none_iff]
  intro q hq hk
  have hq := List.mem_filter.mp hq
  simp [h q hq.1 hk] at hq

variable {d : γ → Option β}

/-- **Posting.** Overwriting the index of a posted value is right exactly when the board has no
other key at that index. -/
theorem shows_post_iff [DecidableEq γ] (h : Shows key index d b) (i : ι) (v : β) :
    Shows key index (overwrite key index d v) (b ++ [⟨i, v⟩]) ↔
      ∀ q ∈ b, index (key q.value) = index (key v) → key q.value = key v := by
  constructor
  · intro h' q hq hindex
    by_contra hne
    obtain ⟨w, hw⟩ := exists_latest key hq
    have hkey := (mem_of_latest hw).1
    rw [← hkey] at hw hindex hne
    have hshown := (h' (index (key w)) w).mpr
      ⟨rfl, by rw [latest_append, if_neg fun hv ↦ hne hv.symm, hw]⟩
    rw [overwrite, if_pos hindex, Option.some.injEq] at hshown
    exact hne (congrArg key hshown.symm)
  · intro hone c w
    rw [overwrite]
    by_cases hc : c = index (key v)
    · rw [if_pos hc, Option.some.injEq, latest_append, hc]
      constructor
      · rintro rfl
        exact ⟨rfl, if_pos rfl⟩
      · rintro ⟨hindex, hw⟩
        split_ifs at hw with hkey
        · exact Option.some.inj hw
        · obtain ⟨q, hq, rfl⟩ := (mem_of_latest hw).2
          exact absurd (hone q hq hindex).symm hkey
    · rw [if_neg hc, h c w, latest_append]
      refine and_congr_right fun hindex ↦ ?_
      rw [if_neg fun hkey ↦ hc (hindex.symm.trans (congrArg index hkey.symm))]

/-- **Withdrawing.** Erasing some keys is right, for the authors that withdraw, exactly when only
these authors have posts under the erased keys and their other posts are not the latest. -/
theorem shows_erase_iff (h : Shows key index d b) (hit : κ → Bool) :
    Shows key index (erase key d hit) (withdraw b p) ↔
      (∀ q ∈ b, hit (key q.value) = true → p q.author = true) ∧
        ∀ q ∈ b, p q.author = true → hit (key q.value) = false →
          latest key (withdraw b p) (key q.value) = latest key b (key q.value) := by
  constructor
  · intro h'
    constructor
    · intro q hq hhit
      by_contra hstays
      have hmem : q ∈ withdraw b p := List.mem_filter.mpr ⟨hq, by simpa using hstays⟩
      obtain ⟨w, hw⟩ := exists_latest key hmem
      have hkey := (mem_of_latest hw).1
      rw [← hkey] at hw hhit
      have hshown := (h' (index (key w)) w).mpr ⟨rfl, hw⟩
      have := (Option.filter_eq_some_iff.mp hshown).2
      simp [hhit] at this
    · intro q hq _ hhit
      obtain ⟨w, hw⟩ := exists_latest key hq
      have hkey := (mem_of_latest hw).1
      rw [← hkey] at hw hhit ⊢
      have hshown : erase key d hit (index (key w)) = some w :=
        Option.filter_eq_some_iff.mpr ⟨(h _ w).mpr ⟨rfl, hw⟩, by simp [hhit]⟩
      rw [hw, ((h' _ w).mp hshown).2]
  · rintro ⟨honly, hlatest⟩ c v
    rw [erase, Option.filter_eq_some_iff, h c v, and_assoc]
    refine and_congr_right fun _ ↦ ?_
    cases hhit : hit (key v) with
    | true =>
      have hnone : latest key (withdraw b p) (key v) = none :=
        latest_withdraw_of_leaves fun q hq hkey ↦ honly q hq (hkey ▸ hhit)
      simp [hnone]
    | false =>
      have hsame : latest key (withdraw b p) (key v) = latest key b (key v) := by
        by_cases hleaves : ∃ q ∈ b, key q.value = key v ∧ p q.author = true
        · obtain ⟨q, hq, hkey, hp⟩ := hleaves
          rw [← hkey]
          exact hlatest q hq hp (hkey ▸ hhit)
        · refine latest_withdraw_of_stays fun q hq hkey ↦ ?_
          by_contra hp
          exact hleaves ⟨q, hq, hkey, by simpa using hp⟩
      simp [hsame]

end Latest

end Board
