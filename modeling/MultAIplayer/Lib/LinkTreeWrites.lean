import MultAIplayer.Lib.LinkTrees

/-!
# Making directories and files in trees with links

`put` is a tree with one more node. `createDirAll` makes the directories of a path one by one, as
`create_dir_all` does: it tries the whole path, and where the parent leads nowhere, the parent first.
It makes directories exactly when something is `missing` on the path, which is then made below the
directory that the path reaches, wherever its links lead (`createDirAll_eq`).
-/

namespace LinkTree

variable {N : Type*}

/-- The absolute path of a place, which has no links to follow. -/
def placePath (place : List N) : List (Component N) := place.reverse.map .normal

theorem placePath_cons (name : N) (place : List N) :
    placePath (name :: place) = placePath place ++ [.normal name] := by
  rw [placePath, List.reverse_cons, List.map_append]
  rfl

variable {t : LinkTree N} {place rest names outer dest : List N} {name : N} {node : Node N}

/-! ### Paths without links -/

/-- A path that goes on with a name of the directory it leads to, which is no link. -/
theorem resolve_cons (h : t.resolve (placePath rest) = some place) (hdir : t.node place = some .dir)
    (hname : t.node (name :: place) = some .dir ∨ t.node (name :: place) = some .file) :
    t.resolve (placePath (name :: rest)) = some (name :: place) := by
  obtain ⟨spare, hwalks⟩ := resolve_eq_some_iff.mp h
  rw [placePath_cons]
  exact resolve_eq_some_iff.mpr ⟨spare, hwalks.append (.enter hdir hname .done)⟩

theorem resolve_cons_eq_none (h : t.resolve (placePath rest) = none) :
    t.resolve (placePath (name :: rest)) = none := by
  rw [Option.eq_none_iff_forall_not_mem]
  intro place hplace
  obtain ⟨spare, hwalks⟩ := resolve_eq_some_iff.mp (Option.mem_def.mp hplace)
  rw [placePath_cons] at hwalks
  obtain ⟨mid, left, hrest, -⟩ := hwalks.exists_of_append
  rw [resolve_eq_some_iff.mpr ⟨left, hrest⟩] at h
  exact absurd h (Option.some_ne_none _)

theorem resolve_placePath (h : t.node place = some .dir ∨ t.node place = some .file) :
    t.resolve (placePath place) = some place := by
  induction place with
  | nil => exact resolve_eq_some_iff.mpr ⟨_, .done⟩
  | cons name place ih =>
    have hpresent : t.node (name :: place) ≠ none := by
      rcases h with h | h <;> rw [h] <;> exact Option.some_ne_none _
    have hdir := t.parent_dir name place hpresent
    exact resolve_cons (ih (.inl hdir)) hdir h

/-- A path leads to a directory or a file. -/
theorem node_of_resolve {path : List (Component N)} (h : t.resolve path = some dest) :
    t.node dest = some .dir ∨ t.node dest = some .file := by
  obtain ⟨spare, hwalks⟩ := resolve_eq_some_iff.mp h
  have hnode : ∀ {left place path dest spare}, t.Walks left place path dest spare →
      t.node place = some .dir ∨ t.node place = some .file →
      t.node dest = some .dir ∨ t.node dest = some .file := by
    intro left place path dest spare hwalks
    induction hwalks with
    | done => exact id
    | current _ _ ih => exact ih
    | @parent left place rest _ _ hdir _ ih =>
      intro _
      refine ih (.inl ?_)
      rcases place with _ | ⟨name, place⟩
      · exact t.root_dir
      · exact t.parent_dir name place (by rw [hdir]; exact Option.some_ne_none _)
    | enter _ hname _ ih => exact fun _ ↦ ih hname
    | @follow left place name rest target _ _ hdir _ _ ih =>
      intro hplace
      refine ih ?_
      unfold Path.start
      split
      · exact .inl t.root_dir
      · exact hplace
  exact hnode hwalks (.inl t.root_dir)

/-- A name that is not there leads nowhere. -/
theorem resolve_placePath_of_none (hdir : t.node place = some .dir)
    (hname : t.node (name :: place) = none) : t.resolve (placePath (name :: place)) = none := by
  rw [Option.eq_none_iff_forall_not_mem]
  intro dest hdest
  obtain ⟨spare, hwalks⟩ := resolve_eq_some_iff.mp (Option.mem_def.mp hdest)
  rw [placePath_cons] at hwalks
  obtain ⟨mid, left, hrest, hlast⟩ := hwalks.exists_of_append
  have hmid : mid = place := Option.some.inj
    ((resolve_eq_some_iff.mpr ⟨left, hrest⟩).symm.trans (resolve_placePath (.inl hdir)))
  subst hmid
  cases hlast with
  | enter _ hnode =>
    rw [hname] at hnode
    rcases hnode with hnode | hnode <;> exact absurd hnode (Option.some_ne_none _).symm
  | follow _ hnode =>
    rw [hname] at hnode
    exact absurd hnode (Option.some_ne_none _).symm

/-! ### Making directories -/

variable [DecidableEq N] (t)

/-- The tree with a node at a name of a directory, unless a directory has the name. -/
def put (place : List N) (name : N) (node : Node N) : LinkTree N where
  node other :=
    if other = name :: place ∧ t.node place = some .dir ∧ t.node (name :: place) ≠ some .dir then
      some node
    else t.node other
  maxLinks := t.maxLinks
  root_dir := by
    rw [if_neg fun h ↦ absurd h.1 (List.cons_ne_nil _ _).symm]
    exact t.root_dir
  parent_dir := by
    intro name' place' h
    split at h
    · next hput =>
      obtain ⟨heq, hdir, -⟩ := hput
      obtain ⟨-, rfl⟩ := List.cons.inj heq
      rw [if_neg fun hself ↦ absurd hself.1 (List.cons_ne_self _ _).symm]
      exact hdir
    · have hdir := t.parent_dir name' place' h
      split
      · next hput => exact absurd (hput.1 ▸ hdir) hput.2.2
      · exact hdir

/-- The tree without a file. -/
def unlink (place : List N) : LinkTree N where
  node other := if other = place ∧ t.node place = some .file then none else t.node other
  maxLinks := t.maxLinks
  root_dir := by
    rw [if_neg, t.root_dir]
    rintro ⟨rfl, hfile⟩
    exact nomatch Option.some.inj (t.root_dir.symm.trans hfile)
  parent_dir := by
    intro name' place' h
    split at h
    · exact absurd rfl h
    · have hdir := t.parent_dir name' place' h
      rw [if_neg, hdir]
      rintro ⟨rfl, hfile⟩
      exact nomatch Option.some.inj (hdir.symm.trans hfile)

/-- Why a directory was not made. A parent that leads nowhere is missing, and also one behind a file
or a loop of links: there the parent is tried too, and something is present. -/
inductive MkdirError where
  | missing
  | present

def mkdir (name : N) (rest : List N) : Except MkdirError (LinkTree N) :=
  match t.resolve (placePath rest) with
  | none => .error .missing
  | some place =>
    if t.node place = some .dir ∧ t.node (name :: place) = none then .ok (t.put place name .dir)
    else .error .present

def isDir (path : List (Component N)) : Bool :=
  (t.resolve path).any fun place ↦ t.node place = some .dir

/-- Whether all directories of a path are there in the end, and the tree that is left. The names of
the path are listed innermost first. -/
def createDirAll : List N → Bool × LinkTree N
  | [] => (true, t)
  | name :: rest =>
    match t.mkdir name rest with
    | .ok made => (true, made)
    | .error .present => (t.isDir (placePath (name :: rest)), t)
    | .error .missing =>
      match createDirAll rest with
      | (false, left) => (false, left)
      | (true, left) =>
        match left.mkdir name rest with
        | .ok made => (true, made)
        | .error _ => (left.isDir (placePath (name :: rest)), left)

/-- The directory that a path reaches and the names that are missing below it, if nothing stands in
their way. -/
@[grind =] def missing : List N → Option (List N × List N)
  | [] => none
  | name :: rest =>
    match t.resolve (placePath rest) with
    | none => (missing rest).map fun found ↦ (found.1, name :: found.2)
    | some place =>
      if t.node place = some .dir ∧ t.node (name :: place) = none then some (place, [name]) else none

/-- The tree with directories below a place, one in the other. -/
@[grind =] def putDirs (place : List N) : List N → LinkTree N
  | [] => t
  | name :: names => (putDirs place names).put (names ++ place) name .dir

/-! ### One more node -/

variable {t}

theorem node_put_of_ne {other : List N} (h : other ≠ name :: place) :
    (t.put place name node).node other = t.node other :=
  if_neg fun hput ↦ h hput.1

theorem node_put_self (hdir : t.node place = some .dir)
    (hname : t.node (name :: place) ≠ some .dir) :
    (t.put place name node).node (name :: place) = some node :=
  if_pos ⟨rfl, hdir, hname⟩

theorem node_put_dir (hdir : t.node place = some .dir) :
    (t.put place name .dir).node (name :: place) = some .dir := by
  show (if _ then _ else _) = _
  split
  · rfl
  · next hput =>
    by_contra hne
    exact hput ⟨rfl, hdir, hne⟩

theorem node_unlink_of_ne {other : List N} (h : other ≠ place) :
    (t.unlink place).node other = t.node other :=
  if_neg fun hunlink ↦ h hunlink.1

theorem node_unlink_self (h : t.node place = some .file) : (t.unlink place).node place = none :=
  if_pos ⟨rfl, h⟩

theorem extends_put (hname : t.node (name :: place) = none) (hnode : ∀ target, node ≠ .link target) :
    Extends t (t.put place name node) where
  maxLinks_eq := rfl
  stays other present h := by
    rw [node_put_of_ne, h]
    rintro rfl
    rw [hname] at h
    exact absurd h (Option.some_ne_none _).symm
  no_link other target hnone h := by
    by_cases hother : other = name :: place
    · replace h : (if _ then some node else t.node other) = _ := h
      split at h
      · exact hnode target (Option.some.inj h)
      · exact absurd (hnone.symm.trans h) (Option.some_ne_none _).symm
    · rw [node_put_of_ne hother, hnone] at h
      exact absurd h (Option.some_ne_none _).symm

/-! ### What is missing on a path -/

theorem of_missing {l : List N} (h : t.missing l = some (place, names)) :
    t.node place = some .dir ∧ (∃ name inner, names = inner ++ [name] ∧
      t.node (name :: place) = none) ∧
    ∃ outer, l = names ++ outer ∧ t.resolve (placePath outer) = some place := by
  induction l generalizing names with
  | nil => exact absurd h (Option.some_ne_none _).symm
  | cons name rest ih =>
    rw [missing] at h
    split at h
    · obtain ⟨⟨place', names'⟩, hrest, hpair⟩ := Option.map_eq_some_iff.mp h
      obtain ⟨rfl, rfl⟩ := Prod.mk.inj hpair
      obtain ⟨hdir, ⟨last, inner, rfl, hlast⟩, outer, rfl, houter⟩ := ih hrest
      exact ⟨hdir, ⟨last, name :: inner, rfl, hlast⟩, outer, rfl, houter⟩
    · next hresolve =>
      split at h
      · next hmissing =>
        obtain ⟨rfl, rfl⟩ := Prod.mk.inj (Option.some.inj h)
        exact ⟨hmissing.1, ⟨name, [], rfl, hmissing.2⟩, rest, rfl, hresolve⟩
      · exact absurd h (Option.some_ne_none _).symm

/-- Places below a directory, one in the other. -/
def IsBelow (place names : List N) (q : List N) : Prop :=
  ∃ inner, inner ≠ [] ∧ inner <:+ names ∧ q = inner ++ place

theorem node_of_missing {l q : List N} (h : t.missing l = some (place, names))
    (hq : IsBelow place names q) : t.node q = none := by
  obtain ⟨inner, hne, ⟨before, hbefore⟩, rfl⟩ := hq
  obtain ⟨-, ⟨last, rest, hnames, hlast⟩, -⟩ := of_missing h
  rw [← hbefore] at hnames
  have hget : (before ++ inner).getLast? = some last := by
    rw [hnames, List.getLast?_append, List.getLast?_singleton, Option.some_or]
  rw [List.getLast?_append, List.getLast?_eq_some_getLast hne, Option.some_or,
    Option.some.injEq] at hget
  refine node_of_suffix hlast ?_
  rw [← List.dropLast_append_getLast hne, hget, List.append_assoc]
  exact List.suffix_append _ _

/-! ### The directories that are made -/

theorem putDirs_dir (hdir : t.node place = some .dir) {inner : List N} (hinner : inner <:+ names) :
    (t.putDirs place names).node (inner ++ place) = some .dir := by
  induction names generalizing inner with
  | nil =>
    obtain rfl := List.suffix_nil.mp hinner
    exact hdir
  | cons name names ih =>
    rcases List.suffix_cons_iff.mp hinner with rfl | hinner
    · exact node_put_dir (ih List.suffix_rfl)
    · rw [putDirs, node_put_of_ne]
      · exact ih hinner
      · intro heq
        have hlength := congrArg List.length heq
        have hle := hinner.length_le
        rw [List.length_append, List.length_cons, List.length_append] at hlength
        omega

theorem putDirs_other {q : List N} (hq : ¬ IsBelow place names q) :
    (t.putDirs place names).node q = t.node q := by
  induction names with
  | nil => rfl
  | cons name names ih =>
    rw [putDirs, node_put_of_ne]
    · refine ih fun hbelow ↦ hq ?_
      obtain ⟨inner, hne, hsuffix, rfl⟩ := hbelow
      exact ⟨inner, hne, hsuffix.trans (List.suffix_cons _ _), rfl⟩
    · rintro rfl
      exact hq ⟨name :: names, List.cons_ne_nil _ _, List.suffix_rfl, rfl⟩

theorem putDirs_below (hdir : t.node place = some .dir) {q : List N} (hq : IsBelow place names q) :
    (t.putDirs place names).node q = some .dir := by
  obtain ⟨inner, -, hsuffix, rfl⟩ := hq
  exact putDirs_dir hdir hsuffix

theorem extends_putDirs {l : List N} (h : t.missing l = some (place, names)) :
    Extends t (t.putDirs place names) := by
  have hdir := (of_missing h).1
  refine ⟨?_, fun q node hnode ↦ ?_, fun q target hnone hlink ↦ ?_⟩
  · clear h
    induction names with
    | nil => rfl
    | cons name names ih => exact ih
  · rw [putDirs_other fun hq ↦ ?_, hnode]
    rw [node_of_missing h hq] at hnode
    exact absurd hnode (Option.some_ne_none _).symm
  · by_cases hq : IsBelow place names q
    · rw [putDirs_below hdir hq] at hlink
      exact nomatch Option.some.inj hlink
    · rw [putDirs_other hq, hnone] at hlink
      exact absurd hlink (Option.some_ne_none _).symm

/-- The path leads to the innermost directory that was made. -/
theorem resolve_putDirs {l : List N} (h : t.missing l = some (place, names)) :
    (t.putDirs place names).resolve (placePath l) = some (names ++ place) := by
  obtain ⟨hdir, -, outer, rfl, houter⟩ := of_missing h
  have hstart : (t.putDirs place names).resolve (placePath outer) = some place :=
    resolve_mono (extends_putDirs h).below houter
  have hinner : ∀ inner, inner <:+ names →
      (t.putDirs place names).resolve (placePath (inner ++ outer)) = some (inner ++ place) := by
    intro inner
    induction inner with
    | nil => exact fun _ ↦ hstart
    | cons name inner ih =>
      intro hsuffix
      have htail := (List.suffix_cons name inner).trans hsuffix
      exact resolve_cons (ih htail) (putDirs_dir hdir htail) (.inl (putDirs_dir hdir hsuffix))
  exact hinner names List.suffix_rfl

/-- **Making all directories of a path.** What is missing on it is made. If nothing is, there is
either a directory already or something in the way, and nothing changes. -/
theorem createDirAll_eq (l : List N) : t.createDirAll l =
    match t.missing l with
    | some found => (true, t.putDirs found.1 found.2)
    | none => (t.isDir (placePath l), t) := by
  induction l with
  | nil =>
    have hroot : t.resolve (placePath []) = some [] := resolve_placePath (.inl t.root_dir)
    have hdir : t.isDir (placePath []) = true := by
      rw [isDir, hroot]
      exact decide_eq_true t.root_dir
    rw [createDirAll, missing, hdir]
  | cons name rest ih =>
    rw [createDirAll, mkdir, missing]
    rcases hrest : t.resolve (placePath rest) with _ | place
    · dsimp only
      rw [ih]
      rcases hmissing : t.missing rest with _ | ⟨place, names⟩
      · have hno : t.isDir (placePath rest) = false := by rw [isDir, hrest]; rfl
        have hno' : t.isDir (placePath (name :: rest)) = false := by
          rw [isDir, resolve_cons_eq_none hrest]
          rfl
        dsimp only [Option.map_none]
        rw [hno, hno']
      · dsimp only [Option.map_some]
        have hdir := (of_missing hmissing).1
        have hfresh : (t.putDirs place names).node (name :: (names ++ place)) = none := by
          have hnext : t.missing (name :: rest) = some (place, name :: names) := by
            rw [missing, hrest, hmissing]
            rfl
          rw [putDirs_other]
          · exact node_of_missing hnext ⟨name :: names, List.cons_ne_nil _ _, List.suffix_rfl, rfl⟩
          · rintro ⟨inner, -, hsuffix, heq⟩
            have hlength := congrArg List.length heq
            have hle := hsuffix.length_le
            rw [List.length_cons, List.length_append, List.length_append] at hlength
            omega
        rw [mkdir, resolve_putDirs hmissing]
        dsimp only
        rw [if_pos ⟨putDirs_dir hdir List.suffix_rfl, hfresh⟩]
        rfl
    · dsimp only
      by_cases hnew : t.node place = some .dir ∧ t.node (name :: place) = none
      · rw [if_pos hnew, if_pos hnew]
        rfl
      · rw [if_neg hnew, if_neg hnew]

end LinkTree
