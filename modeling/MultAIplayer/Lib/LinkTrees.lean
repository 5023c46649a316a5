import Mathlib.Data.List.Infix

/-!
# Trees of directories, files and symbolic links

A place in a tree is the list of its names, innermost first, so that the tail of a place is its
parent. A walk follows a path through directories and symbolic links; `left` is how many links it
may still follow. A path that is continued is walked from where it has led (`walk_append`).

A later tree `Extends` an earlier one when everything in it has stayed and what is new is no link.
In it a path that led somewhere leads there still (`resolve_mono`), and behind a place that was
missing no name leads out (`Walks.fresh`). `grown` is the largest such tree, but that it has
directories for files, so it knows of every place that a path may ever lead to
(`Extends.below_grown`).
-/

namespace LinkTree

inductive Component (N : Type*) where
  | current
  | parent
  | normal (name : N)
  deriving DecidableEq

structure Path (N : Type*) where
  absolute : Bool
  components : List (Component N)
  deriving DecidableEq

inductive Node (N : Type*) where
  | dir
  | file
  | link (target : Path N)
  deriving DecidableEq

end LinkTree

open LinkTree

structure LinkTree (N : Type*) where
  node : List N → Option (Node N)
  /-- The number of links that one walk may follow. -/
  maxLinks : ℕ
  root_dir : node [] = some .dir
  parent_dir : ∀ name place, node (name :: place) ≠ none → node place = some .dir

namespace LinkTree

variable {N : Type*}

/-- Where a path starts, seen from a place. -/
def Path.start (path : Path N) (place : List N) : List N := if path.absolute then [] else place

/-- The names of a path, which its `.` components have no part in. -/
def names (path : List (Component N)) : List (Component N) :=
  path.filter fun | .current => false | _ => true

variable (t : LinkTree N)

/-- A walk that leaves it to `follow` to go on from the target of a link. -/
@[grind =] def walkWith (follow : List N → List (Component N) → Option (List N × ℕ)) (left : ℕ) :
    List N → List (Component N) → Option (List N × ℕ)
  | place, [] => some (place, left)
  | place, component :: rest =>
    match t.node place with
    | some .dir =>
      match component with
      | .current => walkWith follow left place rest
      | .parent => walkWith follow left place.tail rest
      | .normal name =>
        match t.node (name :: place) with
        | none => none
        | some (.link target) => follow (target.start place) (target.components ++ rest)
        | some _ => walkWith follow left (name :: place) rest
    | _ => none

/-- Where a path leads, and how many links are left. -/
def walk : ℕ → List N → List (Component N) → Option (List N × ℕ)
  | 0 => t.walkWith (fun _ _ ↦ none) 0
  | left + 1 => t.walkWith (walk left) (left + 1)

/-- The walks that lead somewhere, one rule for each kind of step. -/
inductive Walks : ℕ → List N → List (Component N) → List N → ℕ → Prop where
  | done {left place} : Walks left place [] place left
  | current {left place rest dest spare} : t.node place = some .dir →
      Walks left place rest dest spare → Walks left place (.current :: rest) dest spare
  | parent {left place rest dest spare} : t.node place = some .dir →
      Walks left place.tail rest dest spare → Walks left place (.parent :: rest) dest spare
  | enter {left place name rest dest spare} : t.node place = some .dir →
      (t.node (name :: place) = some .dir ∨ t.node (name :: place) = some .file) →
      Walks left (name :: place) rest dest spare → Walks left place (.normal name :: rest) dest spare
  | follow {left place name rest target dest spare} : t.node place = some .dir →
      t.node (name :: place) = some (.link target) →
      Walks left (target.start place) (target.components ++ rest) dest spare →
      Walks (left + 1) place (.normal name :: rest) dest spare

/-- Where an absolute path leads. -/
def resolve (path : List (Component N)) : Option (List N) :=
  (t.walk t.maxLinks [] path).map Prod.fst

structure Extends (t t' : LinkTree N) : Prop where
  maxLinks_eq : t'.maxLinks = t.maxLinks
  stays : ∀ place node, t.node place = some node → t'.node place = some node
  no_link : ∀ place target, t.node place = none → t'.node place ≠ some (.link target)

/-- Every missing place below a directory becomes a directory. -/
def grownNode : List N → Option (Node N)
  | [] => some .dir
  | name :: place =>
    match t.node (name :: place) with
    | some node => some node
    | none => if grownNode place matches some .dir then some .dir else none

theorem grownNode_of_some {place : List N} {node : Node N} (h : t.node place = some node) :
    t.grownNode place = some node := by
  cases place with
  | nil => rw [grownNode, ← h, t.root_dir]
  | cons name place => rw [grownNode, h]

/-- `t` with what is missing made. -/
def grown : LinkTree N where
  node := t.grownNode
  maxLinks := t.maxLinks
  root_dir := rfl
  parent_dir := by
    intro name place h
    rw [grownNode] at h
    split at h
    · rename_i node hnode
      exact t.grownNode_of_some (t.parent_dir name place (by rw [hnode]; exact nofun))
    · split at h
      · rename_i hdir
        revert hdir
        rcases t.grownNode place with _ | _ | _ | _ <;> simp
      · exact absurd rfl h

/-! ### Walks -/

variable {t} {t' : LinkTree N} {left spare m : ℕ} {place dest mid : List N}
  {path p r rest : List (Component N)}

/-- What is done behind a link, by the number of links left. -/
theorem walk_eq_walkWith (left : ℕ) : t.walk left =
    t.walkWith (match left with | 0 => fun _ _ ↦ none | left + 1 => t.walk left) left := by
  cases left <;> rfl

theorem walk_of_walks (h : t.Walks left place path dest spare) :
    t.walk left place path = some (dest, spare) := by
  induction h with
  | done => rw [walk_eq_walkWith, walkWith]
  | current hdir _ ih =>
    rw [walk_eq_walkWith, walkWith, hdir]
    rwa [walk_eq_walkWith] at ih
  | parent hdir _ ih =>
    rw [walk_eq_walkWith, walkWith, hdir]
    rwa [walk_eq_walkWith] at ih
  | enter hdir hnode _ ih =>
    rw [walk_eq_walkWith] at ih
    rw [walk_eq_walkWith, walkWith, hdir]
    rcases hnode with hnode | hnode <;> simp only [hnode, ih]
  | follow hdir hnode _ ih =>
    rw [walk_eq_walkWith, walkWith, hdir]
    simp only [hnode, ih]

theorem walks_of_walk (h : t.walk left place path = some (dest, spare)) :
    t.Walks left place path dest spare := by
  induction left using Nat.strong_induction_on generalizing place path with
  | _ left ihLeft =>
    induction path generalizing place with
    | nil =>
      rw [walk_eq_walkWith, walkWith] at h
      cases h
      exact .done
    | cons component rest ih =>
      rw [walk_eq_walkWith, walkWith.eq_def] at h
      simp only [← walk_eq_walkWith] at h
      split at h
      · rename_i hdir
        cases component with
        | current => exact .current hdir (ih h)
        | parent => exact .parent hdir (ih h)
        | normal name =>
          dsimp only at h
          split at h
          · exact absurd h nofun
          · rename_i target hnode
            cases left with
            | zero => exact absurd h nofun
            | succ left => exact .follow hdir hnode (ihLeft left (Nat.lt_succ_self left) h)
          · rename_i node hlink hnode
            refine .enter hdir ?_ (ih h)
            cases node with
            | dir => exact .inl hnode
            | file => exact .inr hnode
            | link target => exact absurd rfl (hlink target)
      · exact absurd h nofun

theorem walk_eq_some_iff :
    t.walk left place path = some (dest, spare) ↔ t.Walks left place path dest spare :=
  ⟨walks_of_walk, walk_of_walks⟩

theorem Walks.unique {dest' : List N} {spare' : ℕ} (h : t.Walks left place path dest spare)
    (h' : t.Walks left place path dest' spare') : dest = dest' ∧ spare = spare' := by
  have heq := (walk_of_walks h).symm.trans (walk_of_walks h')
  exact Prod.mk.inj (Option.some.inj heq)

theorem Walks.append (h : t.Walks left place p mid m) (hr : t.Walks m mid r dest spare) :
    t.Walks left place (p ++ r) dest spare := by
  induction h with
  | done => exact hr
  | current hdir _ ih => exact .current hdir (ih hr)
  | parent hdir _ ih => exact .parent hdir (ih hr)
  | enter hdir hnode _ ih => exact .enter hdir hnode (ih hr)
  | follow hdir hnode _ ih =>
    have hrest := ih hr
    rw [List.append_assoc] at hrest
    exact .follow hdir hnode hrest

theorem Walks.exists_of_append (h : t.Walks left place (p ++ r) dest spare) :
    ∃ mid m, t.Walks left place p mid m ∧ t.Walks m mid r dest spare := by
  generalize hpath : p ++ r = path at h
  induction h generalizing p with
  | done =>
    obtain ⟨rfl, rfl⟩ := List.append_eq_nil_iff.mp hpath
    exact ⟨_, _, .done, .done⟩
  | @current left place rest _ _ hdir hrest ih =>
    rcases List.append_eq_cons_iff.mp hpath with ⟨rfl, rfl⟩ | ⟨p', rfl, rfl⟩
    · exact ⟨_, _, .done, .current hdir hrest⟩
    · obtain ⟨mid, m, hp, hr⟩ := ih rfl
      exact ⟨mid, m, .current hdir hp, hr⟩
  | @parent left place rest _ _ hdir hrest ih =>
    rcases List.append_eq_cons_iff.mp hpath with ⟨rfl, rfl⟩ | ⟨p', rfl, rfl⟩
    · exact ⟨_, _, .done, .parent hdir hrest⟩
    · obtain ⟨mid, m, hp, hr⟩ := ih rfl
      exact ⟨mid, m, .parent hdir hp, hr⟩
  | @enter left place name rest _ _ hdir hnode hrest ih =>
    rcases List.append_eq_cons_iff.mp hpath with ⟨rfl, rfl⟩ | ⟨p', rfl, rfl⟩
    · exact ⟨_, _, .done, .enter hdir hnode hrest⟩
    · obtain ⟨mid, m, hp, hr⟩ := ih rfl
      exact ⟨mid, m, .enter hdir hnode hp, hr⟩
  | @follow left place name rest target _ _ hdir hnode hrest ih =>
    rcases List.append_eq_cons_iff.mp hpath with ⟨rfl, rfl⟩ | ⟨p', rfl, rfl⟩
    · exact ⟨_, _, .done, .follow hdir hnode hrest⟩
    · obtain ⟨mid, m, hp, hr⟩ := ih (List.append_assoc _ _ _)
      exact ⟨mid, m, .follow hdir hnode hp, hr⟩

theorem walk_append (left : ℕ) (place : List N) (p r : List (Component N)) :
    t.walk left place (p ++ r) = (t.walk left place p).bind fun spare ↦ t.walk spare.2 spare.1 r := by
  refine Option.ext fun ⟨dest, spare⟩ ↦ ?_
  rw [Option.bind_eq_some_iff, walk_eq_some_iff]
  constructor
  · intro h
    obtain ⟨mid, m, hp, hr⟩ := h.exists_of_append
    exact ⟨(mid, m), walk_of_walks hp, walk_of_walks hr⟩
  · rintro ⟨⟨mid, m⟩, hp, hr⟩
    exact (walks_of_walk hp).append (walks_of_walk hr)

/-- Without its `.` components a path leads to the same place. -/
theorem Walks.names (h : t.Walks left place path dest spare) :
    t.Walks left place (names path) dest spare := by
  induction path generalizing left place with
  | nil => exact h
  | cons component rest ih =>
    obtain ⟨mid, m, hcomponent, hrest⟩ := exists_of_append (p := [component]) h
    cases component with
    | current =>
      cases hcomponent with
      | current _ hdone =>
        cases hdone
        exact ih hrest
    | parent => exact hcomponent.append (ih hrest)
    | normal name => exact hcomponent.append (ih hrest)

/-- `.` components alone lead nowhere else. -/
theorem Walks.of_names_eq_nil (h : t.Walks left place path dest spare)
    (hnames : LinkTree.names path = []) : dest = place := by
  have hwalk := h.names
  rw [hnames] at hwalk
  cases hwalk
  rfl

/-! ### Later trees -/

/-- Walks that succeed in `t` succeed in `t'`: a file may have become a directory. -/
structure Below (t t' : LinkTree N) : Prop where
  maxLinks_eq : t'.maxLinks = t.maxLinks
  dir : ∀ place, t.node place = some .dir → t'.node place = some .dir
  file : ∀ place, t.node place = some .file →
    t'.node place = some .dir ∨ t'.node place = some .file
  link : ∀ place target, t.node place = some (.link target) → t'.node place = some (.link target)

theorem Walks.mono (hbelow : Below t t') (h : t.Walks left place path dest spare) :
    t'.Walks left place path dest spare := by
  induction h with
  | done => exact .done
  | current hdir _ ih => exact .current (hbelow.dir _ hdir) ih
  | parent hdir _ ih => exact .parent (hbelow.dir _ hdir) ih
  | enter hdir hnode _ ih =>
    refine .enter (hbelow.dir _ hdir) ?_ ih
    rcases hnode with hnode | hnode
    · exact .inl (hbelow.dir _ hnode)
    · exact hbelow.file _ hnode
  | follow hdir hnode _ ih => exact .follow (hbelow.dir _ hdir) (hbelow.link _ _ hnode) ih

theorem resolve_eq_some_iff {dest : List N} :
    t.resolve path = some dest ↔ ∃ spare, t.Walks t.maxLinks [] path dest spare := by
  rw [resolve, Option.map_eq_some_iff]
  constructor
  · rintro ⟨⟨dest', spare⟩, hwalk, rfl⟩
    exact ⟨spare, walks_of_walk hwalk⟩
  · rintro ⟨spare, hwalks⟩
    exact ⟨(dest, spare), walk_of_walks hwalks, rfl⟩

theorem resolve_mono (hbelow : Below t t') (h : t.resolve path = some dest) :
    t'.resolve path = some dest := by
  obtain ⟨spare, hwalks⟩ := resolve_eq_some_iff.mp h
  refine resolve_eq_some_iff.mpr ⟨spare, ?_⟩
  rw [hbelow.maxLinks_eq]
  exact hwalks.mono hbelow

theorem Extends.below (h : Extends t t') : Below t t' where
  maxLinks_eq := h.maxLinks_eq
  dir place := h.stays place .dir
  file place hfile := .inr (h.stays place .file hfile)
  link place target := h.stays place (.link target)

theorem Extends.refl (t : LinkTree N) : Extends t t where
  maxLinks_eq := rfl
  stays _ _ h := h
  no_link _ _ hnone := by rw [hnone]; exact nofun

theorem extends_grown (t : LinkTree N) : Extends t t.grown where
  maxLinks_eq := rfl
  stays _ _ h := t.grownNode_of_some h
  no_link place target hnone := by
    show t.grownNode place ≠ _
    cases place with
    | nil => exact absurd (t.root_dir.symm.trans hnone) nofun
    | cons name place =>
      rw [grownNode, hnone]
      dsimp only
      split <;> exact nofun

/-- Every later tree is below the grown one. -/
theorem Extends.below_grown (h : Extends t t') : Below t' t.grown := by
  have hdir : ∀ place, t'.node place = some .dir → t.grownNode place = some .dir := by
    intro place
    induction place with
    | nil => exact fun _ ↦ rfl
    | cons name place ih =>
      intro hnode
      have hparent : t.grownNode place = some .dir :=
        ih (t'.parent_dir name place (by rw [hnode]; exact nofun))
      rw [grownNode]
      cases hold : t.node (name :: place) with
      | none => simp only [hparent, if_true]
      | some node => exact (h.stays _ _ hold).symm.trans hnode
  refine ⟨h.maxLinks_eq.symm, hdir, ?_, ?_⟩
  · intro place hfile
    show t.grownNode place = _ ∨ t.grownNode place = _
    cases place with
    | nil => exact .inl rfl
    | cons name place =>
      have hparent : t.grownNode place = some .dir :=
        hdir place (t'.parent_dir name place (by rw [hfile]; exact nofun))
      rw [grownNode]
      cases hold : t.node (name :: place) with
      | none => exact .inl (by simp only [hparent, if_true])
      | some node => exact .inr ((h.stays _ _ hold).symm.trans hfile)
  · intro place target hlink
    cases hold : t.node place with
    | none => exact absurd hlink (h.no_link place target hold)
    | some node =>
      rw [h.stays _ _ hold] at hlink
      exact t.grownNode_of_some (hold.trans hlink)

/-- Below a missing place nothing is present. -/
theorem node_of_suffix (h : t.node place = none) (hsuffix : place <:+ dest) :
    t.node dest = none := by
  obtain ⟨inner, rfl⟩ := hsuffix
  induction inner with
  | nil => exact h
  | cons name inner ih =>
    by_contra hpresent
    exact absurd ((t.parent_dir name (inner ++ place) hpresent).symm.trans ih) nofun

/-- A path that goes on from a place which was missing stays below it. -/
theorem Walks.fresh (hext : Extends t t') (hplace : t.node place = none)
    (h : t'.Walks left place path dest spare) (hpath : .parent ∉ path) : place <:+ dest := by
  induction h with
  | done => exact List.suffix_rfl
  | current _ _ ih => exact ih hplace fun hmem ↦ hpath (.tail _ hmem)
  | parent => exact absurd (List.mem_cons_self ..) hpath
  | @enter left place name rest _ _ _ _ _ ih =>
    have hname := node_of_suffix hplace (List.suffix_cons name place)
    exact (List.suffix_cons name place).trans (ih hname fun hmem ↦ hpath (.tail _ hmem))
  | @follow left place name rest target _ _ _ hnode =>
    have hname := node_of_suffix hplace (List.suffix_cons name place)
    exact absurd hnode (hext.no_link _ target hname)

/-! ### Trees from lists -/

section OfNodes

variable [DecidableEq N]

/-- The tree of what a list names, each thing below its parent. -/
def ofNodes (nodes : List (List N × Node N)) (maxLinks : ℕ) (hroot : nodes.lookup [] = some .dir)
    (hparents : ∀ e ∈ nodes, nodes.lookup e.1.tail = some .dir) : LinkTree N where
  node place := nodes.lookup place
  maxLinks := maxLinks
  root_dir := hroot
  parent_dir name place h := by
    obtain ⟨node, hnode⟩ := Option.ne_none_iff_exists'.mp h
    obtain ⟨before, behind, hsplit, _⟩ := List.lookup_eq_some_iff.mp hnode
    have hmem : (name :: place, node) ∈ nodes := by
      rw [hsplit]
      exact List.mem_append_right _ (List.mem_cons_self ..)
    exact hparents _ hmem

variable {nodes new : List (List N × Node N)} {maxLinks : ℕ}

/-- What is listed behind the rest, and is no link, makes a later tree. -/
theorem ofNodes_extends (hroot : nodes.lookup [] = some .dir)
    (hparents : ∀ e ∈ nodes, nodes.lookup e.1.tail = some .dir)
    (hroot' : (nodes ++ new).lookup [] = some .dir)
    (hparents' : ∀ e ∈ nodes ++ new, (nodes ++ new).lookup e.1.tail = some .dir)
    (hnew : ∀ e ∈ new, ∀ target, e.2 ≠ .link target) :
    Extends (ofNodes nodes maxLinks hroot hparents)
      (ofNodes (nodes ++ new) maxLinks hroot' hparents') where
  maxLinks_eq := rfl
  stays place node h := by
    show (nodes ++ new).lookup place = some node
    rw [List.lookup_append, show nodes.lookup place = some node from h, Option.some_or]
  no_link place target hnone h := by
    replace h : (nodes ++ new).lookup place = some (.link target) := h
    rw [List.lookup_append, show nodes.lookup place = none from hnone, Option.none_or] at h
    obtain ⟨before, behind, hsplit, _⟩ := List.lookup_eq_some_iff.mp h
    have hmem : (place, .link target) ∈ new := by
      rw [hsplit]
      exact List.mem_append_right _ (List.mem_cons_self ..)
    exact hnew _ hmem target rfl

end OfNodes

end LinkTree
