import Mathlib.Order.WellFoundedSet

/-!
# Waiting lines

Processes ask for resources one after the other, stand in a line for each, are served first come
first served, and give back what they hold. A process asks in increasing order of the resources.

## What rests on what

* Mutual exclusion and the order of service (`Sound.eq_of_held`, `Sound.granted_prefix`) rest on the
  lines alone: who holds a resource stands first in its line.
* `Sound.exists_ready` is where the order of the resources does its work. Who is not served waits
  for a process that holds the resource, and that process waits for a later resource: an ascending
  chain in the finite set of resources that somebody waits for.
-/

namespace WaitingLines

/-- What a process still means to ask for, what it stands in line for, and what it holds. -/
@[ext] structure Process (ρ : Type) where
  wanted : List ρ := []
  awaiting : Option ρ := none
  held : List ρ := []

/-- What the outside sees. -/
inductive Event (ρ : Type) where
  | asked (resource : ρ) (process : ℕ)
  | granted (resource : ρ) (process : ℕ)
  deriving DecidableEq

/-- The processes, by number, and the line of each resource with its holder in front. -/
structure System (ρ : Type) where
  process : ℕ → Process ρ := fun _ ↦ {}
  line : ρ → List ℕ := fun _ ↦ []

variable {ρ : Type} [DecidableEq ρ]

namespace Event

def askedFor (r : ρ) : Event ρ → Option ℕ
  | asked r' i => if r' = r then some i else none
  | granted _ _ => none

def grantedFor (r : ρ) : Event ρ → Option ℕ
  | asked _ _ => none
  | granted r' i => if r' = r then some i else none

end Event

/-- The processes that asked for a resource, in the order in which they did. -/
def requests (r : ρ) (log : List (Event ρ)) : List ℕ := log.filterMap (Event.askedFor r)

/-- The processes that were given a resource, in the order in which they were. -/
def grants (r : ρ) (log : List (Event ρ)) : List ℕ := log.filterMap (Event.grantedFor r)

/-- The resources of a process, from the first it got to the last it means to ask for. -/
@[grind =]
def Process.resources (p : Process ρ) : List ρ := p.held.reverse ++ p.awaiting.toList ++ p.wanted

/-- A process has something to do. -/
def Process.Unfinished (p : Process ρ) : Prop := p ≠ {}

/-- A process can go on: it stands in no line, or first in the line it stands in. -/
def System.Ready (s : System ρ) (i : ℕ) : Prop :=
  (s.process i).Unfinished ∧ ∀ r, (s.process i).awaiting = some r → (s.line r).head? = some i

/-- One process changed. -/
def System.setProcess (s : System ρ) (i : ℕ) (p : Process ρ) : System ρ :=
  { s with process := fun j ↦ if j = i then p else s.process j }

/-- One line changed. -/
def System.setLine (s : System ρ) (r : ρ) (line : List ℕ) : System ρ :=
  { s with line := fun r' ↦ if r' = r then line else s.line r' }

section

variable (s : System ρ)

omit [DecidableEq ρ] in
@[simp] theorem System.process_setProcess (i j : ℕ) (p : Process ρ) :
    (s.setProcess i p).process j = if j = i then p else s.process j := rfl

omit [DecidableEq ρ] in
@[simp] theorem System.line_setProcess (i : ℕ) (p : Process ρ) :
    (s.setProcess i p).line = s.line := rfl

@[simp] theorem System.process_setLine (r : ρ) (line : List ℕ) :
    (s.setLine r line).process = s.process := rfl

@[simp] theorem System.line_setLine (r r' : ρ) (line : List ℕ) :
    (s.setLine r line).line r' = if r' = r then line else s.line r' := rfl

end

variable (before : ρ → ρ → Prop)

/-- What the processes do. -/
inductive Step (s : System ρ) : List (Event ρ) → System ρ → Prop
  | start (i : ℕ) (wanted : List ρ) (h : s.process i = {}) (hwanted : wanted.Pairwise before) :
      Step s [] (s.setProcess i { wanted })
  | ask (i : ℕ) (r : ρ) (wanted held : List ρ) (h : s.process i = ⟨r :: wanted, none, held⟩) :
      Step s [.asked r i]
        ((s.setProcess i ⟨wanted, some r, held⟩).setLine r (s.line r ++ [i]))
  | grant (i : ℕ) (r : ρ) (wanted held : List ρ) (h : s.process i = ⟨wanted, some r, held⟩)
      (hhead : (s.line r).head? = some i) :
      Step s [.granted r i] (s.setProcess i ⟨wanted, none, r :: held⟩)
  | giveUp (i : ℕ) (wanted held : List ρ) (h : s.process i = ⟨wanted, none, held⟩) :
      Step s [] (s.setProcess i ⟨[], none, held⟩)
  | giveBack (i : ℕ) (r : ρ) (wanted held : List ρ) (h : s.process i = ⟨wanted, none, r :: held⟩) :
      Step s [] ((s.setProcess i ⟨wanted, none, held⟩).setLine r (s.line r).tail)

/-- What holds of the lines after any steps, given what the outside saw. -/
structure Sound (s : System ρ) (log : List (Event ρ)) : Prop where
  /-- Only finitely many processes have started. -/
  finite : {i | (s.process i).Unfinished}.Finite
  /-- Resources are asked for in increasing order. -/
  ordered : ∀ i, (s.process i).resources.Pairwise before
  /-- Who waits for a resource or holds it stands in its line, and nobody else does. -/
  mem_line : ∀ i r, i ∈ s.line r ↔ r ∈ (s.process i).held ∨ (s.process i).awaiting = some r
  nodup : ∀ r, (s.line r).Nodup
  /-- Who holds a resource stands first. -/
  first : ∀ i r, r ∈ (s.process i).held → (s.line r).head? = some i
  /-- Those who asked are those who have been served before, followed by the line. -/
  served : ∀ r, ∃ past, requests r log = past ++ s.line r ∧
    ((grants r log = past ∧ ∀ i, r ∉ (s.process i).held) ∨
      ∃ i, r ∈ (s.process i).held ∧ grants r log = past ++ [i])

variable {before} {s : System ρ} {log : List (Event ρ)}

/-! ### Logs -/

theorem requests_append (r : ρ) (log log' : List (Event ρ)) :
    requests r (log ++ log') = requests r log ++ requests r log' := List.filterMap_append

theorem grants_append (r : ρ) (log log' : List (Event ρ)) :
    grants r (log ++ log') = grants r log ++ grants r log' := List.filterMap_append

theorem requests_asked (r r' : ρ) (i : ℕ) :
    requests r [.asked r' i] = if r' = r then [i] else [] := by
  by_cases h : r' = r <;> simp [requests, Event.askedFor, h]

theorem grants_asked (r r' : ρ) (i : ℕ) : grants r [.asked r' i] = [] := rfl

theorem requests_granted (r r' : ρ) (i : ℕ) : requests r [.granted r' i] = [] := rfl

theorem grants_granted (r r' : ρ) (i : ℕ) :
    grants r [.granted r' i] = if r' = r then [i] else [] := by
  by_cases h : r' = r <;> simp [grants, Event.grantedFor, h]

/-! ### What soundness says -/

/-- **Mutual exclusion.** -/
theorem Sound.eq_of_held (h : Sound before s log) {i j : ℕ} {r : ρ} (hi : r ∈ (s.process i).held)
    (hj : r ∈ (s.process j).held) : i = j :=
  Option.some.inj ((h.first i r hi).symm.trans (h.first j r hj))

/-- **First come, first served.** -/
theorem Sound.granted_prefix (h : Sound before s log) (r : ρ) :
    grants r log <+: requests r log := by
  obtain ⟨past, hrequests, ⟨hgrants, -⟩ | ⟨i, hi, hgrants⟩⟩ := h.served r
  · rw [hrequests, hgrants]
    exact List.prefix_append _ _
  · obtain ⟨line, hline⟩ : ∃ line, s.line r = i :: line :=
      List.head?_eq_some_iff.mp (h.first i r hi)
    rw [hrequests, hgrants, hline]
    exact ⟨line, by simp⟩

omit [DecidableEq ρ] in
/-- Who holds a resource and waits for another waits for a later one. -/
theorem Process.before_of_awaiting {p : Process ρ} (h : p.resources.Pairwise before) {r r' : ρ}
    (hheld : r ∈ p.held) (hawaiting : p.awaiting = some r') : before r r' := by
  rw [Process.resources, List.append_assoc, List.pairwise_append] at h
  exact h.2.2 r (List.mem_reverse.mpr hheld) r' (by simp [hawaiting])

theorem Sound.unfinished_of_mem (h : Sound before s log) {i : ℕ} {r : ρ} (hi : i ∈ s.line r) :
    (s.process i).Unfinished := by
  intro hidle
  rw [h.mem_line, hidle] at hi
  rcases hi with hi | hi <;> cases hi

/-- **No cyclic wait.** When some process has something to do, some process can go on. -/
theorem Sound.exists_ready [IsStrictOrder ρ before] (h : Sound before s log)
    (hunfinished : ∃ i, (s.process i).Unfinished) : ∃ i, s.Ready i := by
  -- the resources that somebody waits for, on which "later" is well-founded
  let awaited : Set ρ := {r | ∃ i, (s.process i).awaiting = some r}
  have hfinite : awaited.Finite := by
    refine (h.finite.biUnion fun i _ ↦ (s.process i).awaiting.toList.finite_toSet).subset ?_
    rintro r ⟨i, hi⟩
    exact Set.mem_biUnion (h.unfinished_of_mem ((h.mem_line i r).mpr (.inr hi))) (by simp [hi])
  have hwf : awaited.WellFoundedOn (Function.swap before) := hfinite.wellFoundedOn
  have hready : ∀ r ∈ awaited, ∃ i, s.Ready i := by
    intro r hr
    refine hwf.induction (P := fun _ ↦ ∃ i, s.Ready i) hr fun r hr ih ↦ ?_
    obtain ⟨i, hi⟩ := hr
    have hmem : i ∈ s.line r := (h.mem_line i r).mpr (.inr hi)
    obtain ⟨j, line, hline⟩ := List.exists_cons_of_ne_nil (List.ne_nil_of_mem hmem)
    have hj : j ∈ s.line r := by rw [hline]; exact List.mem_cons_self
    have hunfinished := h.unfinished_of_mem hj
    rcases (h.mem_line j r).mp hj with hheld | hawaiting
    · cases hwait : (s.process j).awaiting with
      | none => exact ⟨j, hunfinished, fun r' hr' ↦ by rw [hwait] at hr'; cases hr'⟩
      | some r' => exact ih r' ⟨j, hwait⟩ (Process.before_of_awaiting (h.ordered j) hheld hwait)
    · refine ⟨j, hunfinished, fun r' hr' ↦ ?_⟩
      obtain rfl : r = r' := Option.some.inj (hawaiting.symm.trans hr')
      rw [hline, List.head?_cons]
  obtain ⟨i, hi⟩ := hunfinished
  cases hwait : (s.process i).awaiting with
  | none => exact ⟨i, hi, fun r hr ↦ by rw [hwait] at hr; cases hr⟩
  | some r => exact hready r ⟨i, hwait⟩

/-! ### Every step keeps it -/

omit [DecidableEq ρ] in
theorem finite_setProcess (h : {i | (s.process i).Unfinished}.Finite) (i : ℕ) (p : Process ρ) :
    {j | ((s.setProcess i p).process j).Unfinished}.Finite := by
  refine (h.insert i).subset fun j hj ↦ ?_
  by_cases hji : j = i
  · exact .inl hji
  · rw [Set.mem_ofPred_eq, System.process_setProcess, if_neg hji] at hj
    exact .inr hj

omit [DecidableEq ρ] in
theorem ordered_setProcess (h : ∀ i, (s.process i).resources.Pairwise before) {i : ℕ}
    {p : Process ρ} (hp : p.resources.Pairwise before) (j : ℕ) :
    ((s.setProcess i p).process j).resources.Pairwise before := by
  by_cases hji : j = i
  · rwa [System.process_setProcess, if_pos hji]
  · rw [System.process_setProcess, if_neg hji]
    exact h j

omit [DecidableEq ρ] in
theorem held_setProcess {i : ℕ} {p : Process ρ} (hp : p.held = (s.process i).held) (j : ℕ) :
    ((s.setProcess i p).process j).held = (s.process j).held := by
  by_cases hji : j = i
  · rw [System.process_setProcess, if_pos hji, hji, hp]
  · rw [System.process_setProcess, if_neg hji]

/-- What a process still means to ask for matters to nobody else. -/
theorem Sound.setWanted (h : Sound before s log) {i : ℕ} {p : Process ρ}
    (hheld : p.held = (s.process i).held) (hawaiting : p.awaiting = (s.process i).awaiting)
    (hp : p.resources.Pairwise before) : Sound before (s.setProcess i p) log := by
  have hsame : ∀ j, ((s.setProcess i p).process j).awaiting = (s.process j).awaiting := by
    intro j
    by_cases hji : j = i
    · rw [System.process_setProcess, if_pos hji, hji, hawaiting]
    · rw [System.process_setProcess, if_neg hji]
  exact {
    finite := finite_setProcess h.finite i p
    ordered := ordered_setProcess h.ordered hp
    mem_line := fun j r ↦ by
      rw [held_setProcess hheld, hsame]
      exact h.mem_line j r
    nodup := h.nodup
    first := fun j r hj ↦ h.first j r (by rwa [← held_setProcess hheld])
    served := fun r ↦ by
      simp only [held_setProcess hheld]
      exact h.served r }

section

variable [IsStrictOrder ρ before] {i : ℕ} {r : ρ} {wanted held : List ρ}

theorem Sound.ask (h : Sound before s log) (hi : s.process i = ⟨r :: wanted, none, held⟩) :
    Sound before ((s.setProcess i ⟨wanted, some r, held⟩).setLine r (s.line r ++ [i]))
      (log ++ [.asked r i]) := by
  have hordered : (Process.mk (r :: wanted) none held).resources.Pairwise before :=
    hi ▸ h.ordered i
  have hfree : r ∉ held := by
    intro hmem
    rw [Process.resources, List.append_assoc, List.pairwise_append] at hordered
    exact irrefl r (hordered.2.2 r (List.mem_reverse.mpr hmem) r (by simp))
  have hnot : i ∉ s.line r := by
    rw [h.mem_line, hi]
    rintro (hmem | hmem)
    · exact hfree hmem
    · cases hmem
  have hheld := held_setProcess (p := ⟨wanted, some r, held⟩) (s := s) (i := i) (by rw [hi])
  refine {
    finite := finite_setProcess h.finite i _
    ordered := ordered_setProcess h.ordered (by simpa [Process.resources] using hordered)
    mem_line := fun j r' ↦ ?_
    nodup := fun r' ↦ ?_
    first := fun j r' hj ↦ ?_
    served := fun r' ↦ ?_ }
  · have hline := h.mem_line j r'
    rw [System.process_setLine, System.process_setProcess, System.line_setLine]
    by_cases hr : r' = r <;> by_cases hji : j = i
    · simp [hr, hji]
    · rw [hr] at hline ⊢
      simp [hji, hline]
    · rw [hji, hi] at hline
      simp [hr, hji, hline, Ne.symm hr]
    · simp [hr, hji, hline]
  · rw [System.line_setLine]
    by_cases hr : r' = r
    · rw [if_pos hr]
      refine List.nodup_append.mpr ⟨h.nodup r, List.nodup_singleton i, ?_⟩
      rintro j hj _ hk rfl
      exact hnot (List.mem_singleton.mp hk ▸ hj)
    · rw [if_neg hr]
      exact h.nodup r'
  · rw [System.process_setLine, hheld] at hj
    have hfirst := h.first j r' hj
    rw [System.line_setLine]
    by_cases hr : r' = r
    · rw [if_pos hr, List.head?_append, ← hr, hfirst, Option.some_or]
    · rwa [if_neg hr]
  · obtain ⟨past, hrequests, hgrants⟩ := h.served r'
    refine ⟨past, ?_, ?_⟩
    · rw [requests_append, hrequests, requests_asked, System.line_setLine]
      by_cases hr : r' = r
      · rw [if_pos hr.symm, if_pos hr, hr, List.append_assoc]
      · rw [if_neg (Ne.symm hr), if_neg hr, List.append_nil, System.line_setProcess]
    · rw [grants_append, grants_asked, List.append_nil, System.process_setLine]
      simpa only [hheld] using hgrants

/-- Nobody holds what the first of the line still waits for. -/
theorem Sound.notMem_held (h : Sound before s log) (hi : (s.process i).awaiting = some r)
    (hhead : (s.line r).head? = some i) (j : ℕ) : r ∉ (s.process j).held := by
  intro hj
  obtain rfl : j = i := Option.some.inj ((h.first j r hj).symm.trans hhead)
  exact irrefl r (Process.before_of_awaiting (h.ordered j) hj hi)

theorem Sound.grant (h : Sound before s log) (hi : s.process i = ⟨wanted, some r, held⟩)
    (hhead : (s.line r).head? = some i) :
    Sound before (s.setProcess i ⟨wanted, none, r :: held⟩) (log ++ [.granted r i]) := by
  have hordered : (Process.mk wanted (some r) held).resources.Pairwise before := hi ▸ h.ordered i
  have hunheld := h.notMem_held (by rw [hi]) hhead
  have hheld : ∀ j r', r' ∈ ((s.setProcess i ⟨wanted, none, r :: held⟩).process j).held ↔
      r' ∈ (s.process j).held ∨ (r' = r ∧ j = i) := by
    intro j r'
    rw [System.process_setProcess]
    by_cases hji : j = i
    · rw [if_pos hji, hji, hi]
      simp [or_comm]
    · simp [hji]
  refine {
    finite := finite_setProcess h.finite i _
    ordered := ordered_setProcess h.ordered (by simpa [Process.resources] using hordered)
    mem_line := fun j r' ↦ ?_
    nodup := h.nodup
    first := fun j r' hj ↦ ?_
    served := fun r' ↦ ?_ }
  · have hline := h.mem_line j r'
    rw [System.process_setProcess, System.line_setProcess]
    by_cases hji : j = i
    · rw [hji, hi] at hline
      rw [if_pos hji, hji, hline]
      simp [or_comm, eq_comm]
    · rw [if_neg hji, hline]
  · rcases (hheld j r').mp hj with hj | ⟨hr, hji⟩
    · exact h.first j r' hj
    · rwa [hr, hji]
  · obtain ⟨past, hrequests, hgrants⟩ := h.served r'
    rw [requests_append, requests_granted, List.append_nil]
    refine ⟨past, hrequests, ?_⟩
    rw [grants_append, grants_granted]
    by_cases hr : r' = r
    · rcases hgrants with ⟨hgrants, -⟩ | ⟨j, hj, -⟩
      · exact .inr ⟨i, (hheld i r').mpr (.inr ⟨hr, rfl⟩), by rw [hgrants, if_pos hr.symm]⟩
      · exact absurd (hr ▸ hj) (hunheld j)
    · simpa only [hheld, hr, false_and, or_false, if_neg (Ne.symm hr), List.append_nil]
        using hgrants

theorem Sound.giveBack (h : Sound before s log)
    (hi : s.process i = ⟨wanted, none, r :: held⟩) :
    Sound before ((s.setProcess i ⟨wanted, none, held⟩).setLine r (s.line r).tail) log := by
  have hordered : (Process.mk wanted none (r :: held)).resources.Pairwise before := hi ▸ h.ordered i
  have hmem : r ∈ (s.process i).held := by rw [hi]; exact List.mem_cons_self
  obtain ⟨line, hline⟩ := List.head?_eq_some_iff.mp (h.first i r hmem)
  have hnodup : i ∉ line ∧ line.Nodup := List.nodup_cons.mp (hline ▸ h.nodup r)
  have hrest : held.reverse.Pairwise before ∧ ∀ r' ∈ held, before r' r := by
    simp only [Process.resources, List.reverse_cons, Option.toList_none, List.append_nil] at hordered
    obtain ⟨hheld, -, hlast⟩ := List.pairwise_append.mp (List.pairwise_append.mp hordered).1
    exact ⟨hheld, fun r' hr' ↦ hlast r' (List.mem_reverse.mpr hr') r (List.mem_singleton_self r)⟩
  have hheld : ∀ j r', r' ∈ ((s.setProcess i ⟨wanted, none, held⟩).process j).held ↔
      r' ∈ (s.process j).held ∧ ¬(r' = r ∧ j = i) := by
    intro j r'
    rw [System.process_setProcess]
    by_cases hji : j = i
    · rw [if_pos hji, hji, hi, List.mem_cons]
      refine ⟨fun hr' ↦ ⟨.inr hr', fun hr ↦ ?_⟩, fun ⟨hr', hne⟩ ↦ hr'.resolve_left ?_⟩
      · exact irrefl r (hrest.2 r (hr.1 ▸ hr'))
      · exact fun hr ↦ hne ⟨hr, rfl⟩
    · simp [hji]
  refine {
    finite := finite_setProcess h.finite i _
    ordered := ordered_setProcess h.ordered ?_
    mem_line := fun j r' ↦ ?_
    nodup := fun r' ↦ ?_
    first := fun j r' hj ↦ ?_
    served := fun r' ↦ ?_ }
  · simp only [Process.resources, List.reverse_cons, List.append_assoc] at hordered ⊢
    exact hordered.sublist ((List.sublist_append_right _ _).append_left _)
  · have hawaiting : ((s.setProcess i ⟨wanted, none, held⟩).process j).awaiting =
        (s.process j).awaiting := by
      rw [System.process_setProcess]
      by_cases hji : j = i
      · rw [if_pos hji, hji, hi]
      · rw [if_neg hji]
    have hmemLine := h.mem_line j r'
    rw [System.process_setLine, hheld, hawaiting, System.line_setLine]
    by_cases hr : r' = r
    · rw [hr, hline] at hmemLine
      rw [if_pos hr, hr, hline, List.tail_cons]
      by_cases hji : j = i
      · simp [hji, hnodup.1, hi]
      · simpa [hji] using hmemLine
    · rw [if_neg hr]
      simpa [hr] using hmemLine
  · rw [System.line_setLine]
    by_cases hr : r' = r
    · rw [if_pos hr, hline]
      exact hnodup.2
    · rw [if_neg hr]
      exact h.nodup r'
  · obtain ⟨hj, hne⟩ := (hheld j r').mp hj
    rw [System.line_setLine]
    by_cases hr : r' = r
    · exact absurd ⟨hr, h.eq_of_held (hr ▸ hj) hmem⟩ hne
    · rw [if_neg hr]
      exact h.first j r' hj
  · obtain ⟨past, hrequests, hgrants⟩ := h.served r'
    simp only [System.process_setLine, System.line_setLine, hheld]
    by_cases hr : r' = r
    · subst hr
      obtain ⟨-, hnone⟩ | ⟨j, hj, hgrants⟩ := hgrants
      · exact absurd hmem (hnone i)
      · obtain rfl := h.eq_of_held hj hmem
        refine ⟨past ++ [j], ?_, .inl ⟨hgrants, fun k ⟨hk, hne⟩ ↦ ?_⟩⟩
        · rw [hrequests, hline]
          simp
        · exact hne ⟨rfl, h.eq_of_held hk hmem⟩
    · refine ⟨past, ?_, ?_⟩
      · rw [hrequests, if_neg hr]
        rfl
      · simpa only [hr, false_and, not_false_iff, and_true] using hgrants

omit [IsStrictOrder ρ before] in
/-- At the start nobody has asked for anything. -/
theorem sound_initial : Sound before ({} : System ρ) [] where
  finite := by
    refine Set.finite_empty.subset fun i hi ↦ hi rfl
  ordered _ := List.Pairwise.nil
  mem_line i r := by simp
  nodup _ := List.nodup_nil
  first i r hi := by cases hi
  served r := ⟨[], rfl, .inl ⟨rfl, fun _ ↦ List.not_mem_nil⟩⟩

/-- **The step rule.** -/
theorem Sound.step {s' : System ρ} {events : List (Event ρ)} (h : Sound before s log)
    (hstep : Step before s events s') : Sound before s' (log ++ events) := by
  cases hstep with
  | start i wanted hi hwanted =>
    rw [List.append_nil]
    exact h.setWanted (by rw [hi]) (by rw [hi]) hwanted
  | ask i r wanted held hi => exact h.ask hi
  | grant i r wanted held hi hhead => exact h.grant hi hhead
  | giveUp i wanted held hi =>
    rw [List.append_nil]
    refine h.setWanted (by rw [hi]) (by rw [hi]) ?_
    have hordered := hi ▸ h.ordered i
    exact hordered.sublist ((List.nil_sublist wanted).append_left _)
  | giveBack i r wanted held hi =>
    rw [List.append_nil]
    exact h.giveBack hi

variable (before) in
omit [IsStrictOrder ρ before] in
/-- States and what the outside has seen, after any steps from the start. -/
inductive Reached : System ρ → List (Event ρ) → Prop
  | initial : Reached {} []
  | step {s s' : System ρ} {log events : List (Event ρ)} (h : Reached s log)
      (hstep : Step before s events s') : Reached s' (log ++ events)

/-- **The run rule.** -/
theorem Reached.sound (h : Reached before s log) : Sound before s log := by
  induction h with
  | initial => exact sound_initial
  | step _ hstep ih => exact ih.step hstep

end

end WaitingLines
