import Mathlib.Data.List.Infix

/-!
# First readings

A text without delimiters of its own can still be cut where something can first be read, for example
the opening of the next part. `Ends P s t` says that a part `s`, followed by `t`, ends at the first
such place. A text is cut so in one way only (`Ends.unique`), and so is a whole row of parts
(`flatten_injective`) when each part can be read at its start and nowhere else (`OpensOnce`).
-/

namespace FirstReadings

variable {α : Type} {P : List α → Prop}

/-- What follows `s` is read there or is nothing, and nothing is read inside `s`. -/
def Ends (P : List α → Prop) (s t : List α) : Prop :=
  (t = [] ∨ P t) ∧ ∀ u v, s = u ++ v → v ≠ [] → ¬ P (v ++ t)

variable {s s' t t' : List α}

theorem Ends.not_longer (h : Ends P s t) {w : List α} (heq : s' ++ w = s) (hw : w ≠ []) :
    ¬ Ends P s' (w ++ t) := by
  rintro ⟨hnil | hread, -⟩
  · exact hw (List.append_eq_nil_iff.mp hnil).1
  · exact h.2 s' w heq.symm hw hread

/-- **A text is cut at the first reading in one way.** -/
theorem Ends.unique (h : Ends P s t) (h' : Ends P s' t') (heq : s ++ t = s' ++ t') :
    s = s' ∧ t = t' := by
  rcases List.append_eq_append_iff.mp heq with ⟨w, hs, ht⟩ | ⟨w, hs, ht⟩
  · rcases eq_or_ne w [] with rfl | hw
    · rw [List.append_nil] at hs
      exact ⟨hs.symm, ht⟩
    · exact absurd (ht ▸ h) (h'.not_longer hs.symm hw)
  · rcases eq_or_ne w [] with rfl | hw
    · rw [List.append_nil] at hs
      exact ⟨hs, ht.symm⟩
    · exact absurd (ht ▸ h') (h.not_longer hs.symm hw)

/-- A part that can be read at its start, whatever follows, and nowhere else, whatever can be read
behind it. -/
structure OpensOnce (P : List α → Prop) (x : List α) : Prop where
  ne_nil : x ≠ []
  opens : ∀ t, P (x ++ t)
  once : ∀ u v t, x = u ++ v → u ≠ [] → v ≠ [] → (t = [] ∨ P t) → ¬ P (v ++ t)

theorem flatten_nil_or_opens {xs : List (List α)} (h : ∀ x ∈ xs, OpensOnce P x) :
    xs.flatten = [] ∨ P xs.flatten := by
  cases xs with
  | nil => exact Or.inl rfl
  | cons x xs => exact Or.inr ((h x List.mem_cons_self).opens _)

/-- Of two parts at the head of one text, neither is longer. -/
theorem OpensOnce.not_longer {x y w : List α} {xs ys : List (List α)} (hy : OpensOnce P y)
    (hx : x ≠ []) (hxs : ∀ x ∈ xs, OpensOnce P x) (hys : ∀ y ∈ ys, OpensOnce P y)
    (heq : y = x ++ w) (hrest : xs.flatten = w ++ ys.flatten) : w = [] := by
  by_contra hw
  refine hy.once x w ys.flatten heq hx hw (flatten_nil_or_opens hys) ?_
  rcases flatten_nil_or_opens hxs with hnil | hopens
  · rw [hnil] at hrest
    exact absurd (List.append_eq_nil_iff.mp hrest.symm).1 hw
  · exact hrest ▸ hopens

/-- **A row of parts is read in one way.** -/
theorem flatten_injective {xs ys : List (List α)} (hxs : ∀ x ∈ xs, OpensOnce P x)
    (hys : ∀ y ∈ ys, OpensOnce P y) (h : xs.flatten = ys.flatten) : xs = ys := by
  induction xs generalizing ys with
  | nil =>
    cases ys with
    | nil => rfl
    | cons y ys =>
      rw [List.flatten_nil, List.flatten_cons] at h
      exact absurd (List.append_eq_nil_iff.mp h.symm).1 (hys y List.mem_cons_self).ne_nil
  | cons x xs ih =>
    have hx := hxs x List.mem_cons_self
    have hxs' := fun z hz ↦ hxs z (List.mem_cons_of_mem _ hz)
    cases ys with
    | nil =>
      rw [List.flatten_nil, List.flatten_cons] at h
      exact absurd (List.append_eq_nil_iff.mp h).1 hx.ne_nil
    | cons y ys =>
      have hy := hys y List.mem_cons_self
      have hys' := fun z hz ↦ hys z (List.mem_cons_of_mem _ hz)
      rw [List.flatten_cons, List.flatten_cons] at h
      have hhead : x = y ∧ xs.flatten = ys.flatten := by
        rcases List.append_eq_append_iff.mp h with ⟨w, heq, hrest⟩ | ⟨w, heq, hrest⟩
        · obtain rfl := hy.not_longer hx.ne_nil hxs' hys' heq hrest
          exact ⟨(heq.trans (List.append_nil x)).symm, hrest⟩
        · obtain rfl := hx.not_longer hy.ne_nil hys' hxs' heq hrest
          exact ⟨heq.trans (List.append_nil y), hrest.symm⟩
      rw [hhead.1, ih hxs' hys' hhead.2]

/-- A mark that starts with an item of its own is not split by a head without the item. -/
theorem infix_of_not_mem {c : α} {h inside rest : List α} (hh : c ∉ h)
    (hmark : c :: rest <:+: h ++ inside) : c :: rest <:+: inside := by
  obtain ⟨u, z, hmark⟩ := hmark
  rw [List.append_assoc] at hmark
  rcases List.append_eq_append_iff.mp hmark with ⟨y, hy, hy'⟩ | ⟨y, hy, hy'⟩
  · cases y with
    | nil =>
      rw [List.nil_append] at hy'
      exact ⟨[], z, by rw [List.nil_append, hy']⟩
    | cons d y =>
      rw [List.cons_append, List.cons_append, List.cons.injEq] at hy'
      exact absurd (hy ▸ List.mem_append_right u (hy'.1 ▸ List.mem_cons_self)) hh
  · exact ⟨y, z, by rw [List.append_assoc, hy']⟩

/-- A closing mark that starts with an item of its own occurs behind a text without the mark only
where it is written. -/
theorem closes_once {c : α} {h inside rest u v : List α} (hrest : c ∉ rest) (hh : c ∉ h)
    (hinside : ¬ c :: rest <:+: inside)
    (heq : h ++ inside ++ c :: rest = u ++ c :: rest ++ v) : v = [] := by
  have hinside' : ¬ c :: rest <:+: h ++ inside := fun hmark ↦
    hinside (infix_of_not_mem hh hmark)
  rw [List.append_assoc u] at heq
  rcases List.append_eq_append_iff.mp heq with ⟨w, hu, hmark⟩ | ⟨w, hin, hmark⟩
  · have hlength := congrArg List.length hmark
    simp only [List.length_append, List.length_cons] at hlength
    exact List.eq_nil_of_length_eq_zero (by omega)
  · cases w with
    | nil =>
      have hlength := congrArg List.length hmark
      simp only [List.length_append, List.length_cons, List.length_nil] at hlength
      exact List.eq_nil_of_length_eq_zero (by omega)
    | cons d w =>
      rw [List.cons_append, List.cons_append, List.cons.injEq] at hmark
      obtain ⟨rfl, hmark⟩ := hmark
      rcases List.append_eq_append_iff.mp hmark with ⟨z, rfl, -⟩ | ⟨z, rfl, hz⟩
      · exact absurd ⟨u, z, by rw [hin, List.append_assoc]; rfl⟩ hinside'
      · -- An occurrence that overlaps the last one would have its first item inside it.
        cases z with
        | nil =>
          rw [List.append_nil] at hinside'
          exact absurd ⟨u, [], by rw [hin, List.append_nil]⟩ hinside'
        | cons e z =>
          rw [List.cons_append, List.cons.injEq] at hz
          exact absurd (List.mem_append_right w (hz.1 ▸ List.mem_cons_self)) hrest

end FirstReadings
