import MultAIplayer.Native.ProjectFiles

/-!
# What the files of a project are confined to

A write goes to the place that its path leads to, and that place is in the project: the check of the
canonical path is made after the last link was followed. But the missing directories of the path are
made before. They are `madeDirectories`, from the path and the tree alone, and the write stays
inside the project exactly when these are below the project and the file is then written
(`filesConfined_iff`). Reads stay inside in any case (`readConfined`).

Two disks are compared by what is at each place (`Disk.entry`); a temporary file that is moved or
removed is then no difference (`atomicWrite_spec`).
-/

namespace MultAIplayer.Native

open LinkTree (Component names placePath IsBelow)

namespace Disk

variable {disk other : Disk} {place : List String} {name : String} {bytes : List UInt8}

/-! ### Entries -/

theorem entry_eq_none_iff : disk.entry place = none ↔ disk.tree.node place = none := by
  unfold entry
  rcases disk.tree.node place with _ | _ | _ | _ <;> simp

theorem entry_of_dir (h : disk.tree.node place = some .dir) : disk.entry place = some .dir := by
  unfold entry
  rw [h]

theorem entry_of_file (h : disk.tree.node place = some .file) :
    disk.entry place = some (.file (disk.bytes place)) := by
  unfold entry
  rw [h]

theorem entry_congr (hnode : disk.tree.node place = other.tree.node place)
    (hbytes : disk.bytes place = other.bytes place) : disk.entry place = other.entry place := by
  unfold entry
  rw [hnode, hbytes]

theorem node_eq_entry (disk : Disk) (place : List String) :
    disk.tree.node place = (disk.entry place).map Entry.node := by
  unfold entry
  rcases hnode : disk.tree.node place with _ | _ | _ | _ <;> rfl

theorem node_eq_of_entry (h : disk.entry place = other.entry place) :
    disk.tree.node place = other.tree.node place := by
  rw [node_eq_entry, node_eq_entry, h]

theorem node_of_entry_file (h : disk.entry place = some (.file bytes)) :
    disk.tree.node place = some .file := by
  rw [node_eq_entry, h]
  rfl

/-- A file may be put where a directory has no other kind of thing. -/
def TakesFile (disk : Disk) (place : List String) (name : String) : Prop :=
  disk.tree.node place = some .dir ∧
    (disk.tree.node (name :: place) = none ∨ disk.tree.node (name :: place) = some .file)

theorem TakesFile.ne_dir (h : disk.TakesFile place name) :
    disk.tree.node (name :: place) ≠ some .dir := by
  rcases h.2 with h | h <;> rw [h] <;> simp

theorem node_putFile (h : disk.TakesFile place name) :
    (disk.putFile place name bytes).tree.node (name :: place) = some .file :=
  LinkTree.node_put_self h.1 h.ne_dir

theorem node_putFile_of_ne {q : List String} (h : q ≠ name :: place) :
    (disk.putFile place name bytes).tree.node q = disk.tree.node q :=
  LinkTree.node_put_of_ne h

theorem entry_putFile (h : disk.TakesFile place name) :
    (disk.putFile place name bytes).entry (name :: place) = some (.file bytes) := by
  rw [entry_of_file (node_putFile h)]
  show some (Entry.file (if _ then _ else _)) = _
  rw [if_pos rfl]

theorem entry_putFile_of_ne {q : List String} (h : q ≠ name :: place) :
    (disk.putFile place name bytes).entry q = disk.entry q :=
  entry_congr (node_putFile_of_ne h) (if_neg h)

theorem entry_removeFile (h : disk.tree.node place = some .file) :
    (disk.removeFile place).entry place = none :=
  entry_eq_none_iff.mpr (LinkTree.node_unlink_self h)

theorem entry_removeFile_of_ne {q : List String} (h : q ≠ place) :
    (disk.removeFile place).entry q = disk.entry q :=
  entry_congr (LinkTree.node_unlink_of_ne h) rfl

theorem dir_putFile {q : List String} (h : disk.tree.node q = some .dir)
    (htakes : disk.TakesFile place name) :
    (disk.putFile place name bytes).tree.node q = some .dir := by
  rw [node_putFile_of_ne, h]
  rintro rfl
  exact htakes.ne_dir h

theorem dir_removeFile {q : List String} (h : disk.tree.node q = some .dir) (place : List String) :
    (disk.removeFile place).tree.node q = some .dir := by
  show (if _ then none else disk.tree.node q) = _
  rw [if_neg, h]
  rintro ⟨rfl, hfile⟩
  exact nomatch Option.some.inj (h.symm.trans hfile)

end Disk

/-! ### Writing a file -/

section Write

variable {disk : Disk} {parent : List String} {name temporary : String} {content : List UInt8}
  {canWrite : Bool}

theorem rejectNonRegularTarget_eq_ok_iff :
    rejectNonRegularTarget disk parent name = .ok () ↔ disk.TakesFile parent name := by
  unfold rejectNonRegularTarget Disk.TakesFile
  by_cases hdir : disk.tree.node parent = some .dir
  · rw [if_pos hdir]
    rcases disk.tree.node (name :: parent) with _ | _ | _ | _ <;> simp [hdir]
  · rw [if_neg hdir]
    exact ⟨fun h ↦ absurd h nofun, fun h ↦ absurd h.1 hdir⟩

/-- The temporary file is made and leaves no trace. -/
theorem entry_temporary_removed (hdir : disk.tree.node parent = some .dir)
    (hfree : disk.tree.node (temporary :: parent) = none) (q : List String) :
    ((disk.putFile parent temporary content).removeFile (temporary :: parent)).entry q =
      disk.entry q := by
  by_cases hq : q = temporary :: parent
  · rw [hq, Disk.entry_removeFile (Disk.node_putFile ⟨hdir, .inl hfree⟩)]
    exact (Disk.entry_eq_none_iff.mpr hfree).symm
  · rw [Disk.entry_removeFile_of_ne hq, Disk.entry_putFile_of_ne hq]

theorem putFile_putFile (hdir : disk.tree.node parent = some .dir)
    (hfree : disk.tree.node (temporary :: parent) = none) (first : List UInt8) (q : List String) :
    (((disk.putFile parent temporary first).putFile parent temporary content).removeFile
      (temporary :: parent)).entry q = disk.entry q := by
  have htakes : disk.TakesFile parent temporary := ⟨hdir, .inl hfree⟩
  have hagain : (disk.putFile parent temporary first).TakesFile parent temporary :=
    ⟨Disk.dir_putFile hdir htakes, .inr (Disk.node_putFile htakes)⟩
  by_cases hq : q = temporary :: parent
  · rw [hq, Disk.entry_removeFile (Disk.node_putFile hagain)]
    exact (Disk.entry_eq_none_iff.mpr hfree).symm
  · rw [Disk.entry_removeFile_of_ne hq, Disk.entry_putFile_of_ne hq, Disk.entry_putFile_of_ne hq]

theorem takesFile_removeFile (h : disk.TakesFile parent name)
    (hsource : disk.tree.node (temporary :: parent) = some .file) :
    (disk.removeFile (temporary :: parent)).TakesFile parent name := by
  refine ⟨Disk.dir_removeFile h.1 _, ?_⟩
  by_cases hname : name = temporary
  · rw [hname]
    exact .inl (LinkTree.node_unlink_self hsource)
  · have hne : name :: parent ≠ temporary :: parent := fun heq ↦ hname (List.cons.inj heq).1
    show (disk.tree.unlink _).node _ = none ∨ (disk.tree.unlink _).node _ = some .file
    rw [LinkTree.node_unlink_of_ne hne]
    exact h.2

/-- What is left when a write has failed, or has been made. -/
theorem atomicWrite_spec {target : List String} {after : Disk} {outcome : Except String Unit}
    (h : atomicWritePrivateFile disk temporary canWrite target content = (outcome, after)) :
    (∃ message, outcome = .error message ∧ ∀ q, after.entry q = disk.entry q) ∨
    outcome = .ok () ∧ after.tree.maxLinks = disk.tree.maxLinks ∧
      ∃ name place parent, target = name :: place ∧
      disk.tree.resolve (placePath place) = some parent ∧ disk.TakesFile parent name ∧
      after.entry (name :: parent) = some (.file content) ∧
      ∀ q, q ≠ name :: parent → after.entry q = disk.entry q := by
  unfold atomicWritePrivateFile at h
  split at h
  · obtain ⟨rfl, rfl⟩ := Prod.mk.inj h
    exact .inl ⟨_, rfl, fun _ ↦ rfl⟩
  · next name place =>
    split at h
    · obtain ⟨rfl, rfl⟩ := Prod.mk.inj h
      exact .inl ⟨_, rfl, fun _ ↦ rfl⟩
    · next parent hparent =>
      split at h
      · obtain ⟨rfl, rfl⟩ := Prod.mk.inj h
        exact .inl ⟨_, rfl, fun _ ↦ rfl⟩
      · next hregular =>
        have htarget := rejectNonRegularTarget_eq_ok_iff.mp hregular
        split at h
        · obtain ⟨rfl, rfl⟩ := Prod.mk.inj h
          exact .inl ⟨_, rfl, fun _ ↦ rfl⟩
        · next hfree =>
          replace hfree := not_not.mp hfree
          have htakes : disk.TakesFile parent temporary := ⟨htarget.1, .inl hfree⟩
          dsimp only at h
          split at h
          · split at h
            · obtain ⟨rfl, rfl⟩ := Prod.mk.inj h
              exact .inl ⟨_, rfl, putFile_putFile htarget.1 hfree []⟩
            · next hwritten =>
              obtain ⟨rfl, rfl⟩ := Prod.mk.inj h
              have hagain : (disk.putFile parent temporary []).TakesFile parent temporary :=
                ⟨Disk.dir_putFile htarget.1 htakes, .inr (Disk.node_putFile htakes)⟩
              have hmoved := takesFile_removeFile (rejectNonRegularTarget_eq_ok_iff.mp hwritten)
                (Disk.node_putFile hagain)
              refine .inr ⟨rfl, rfl, name, place, parent, rfl, hparent, htarget, ?_, fun q hq ↦ ?_⟩
              · rw [Disk.renameFile, Disk.entry_putFile hmoved]
                exact congrArg (some ∘ Entry.file) (if_pos rfl)
              · rw [Disk.renameFile, Disk.entry_putFile_of_ne hq]
                exact putFile_putFile htarget.1 hfree [] q
          · obtain ⟨rfl, rfl⟩ := Prod.mk.inj h
            exact .inl ⟨_, rfl, entry_temporary_removed htarget.1 hfree⟩

/-- In a directory without the file and the temporary file only the storage can fail. -/
theorem atomicWrite_fresh (hdir : disk.tree.node parent = some .dir)
    (hname : disk.tree.node (name :: parent) = none)
    (htemporary : disk.tree.node (temporary :: parent) = none) :
    (atomicWritePrivateFile disk temporary canWrite (name :: parent) content).1 =
      if canWrite then .ok () else .error temporaryNotWritten := by
  have htakes : disk.TakesFile parent temporary := ⟨hdir, .inl htemporary⟩
  have hagain : (disk.putFile parent temporary []).TakesFile parent temporary :=
    ⟨Disk.dir_putFile hdir htakes, .inr (Disk.node_putFile htakes)⟩
  have hwritten : ((disk.putFile parent temporary []).putFile parent temporary
      content).TakesFile parent name := by
    refine ⟨Disk.dir_putFile hagain.1 hagain, ?_⟩
    by_cases heq : name = temporary
    · rw [heq]
      exact .inr (Disk.node_putFile hagain)
    · have hne : name :: parent ≠ temporary :: parent := fun h ↦ heq (List.cons.inj h).1
      rw [Disk.node_putFile_of_ne hne, Disk.node_putFile_of_ne hne]
      exact .inl hname
  unfold atomicWritePrivateFile
  dsimp only
  rw [LinkTree.resolve_placePath (.inl hdir)]
  dsimp only
  rw [rejectNonRegularTarget_eq_ok_iff.mpr ⟨hdir, .inl hname⟩]
  dsimp only
  rw [if_neg (not_not.mpr htemporary), rejectNonRegularTarget_eq_ok_iff.mpr hwritten]
  cases canWrite <;> rfl

end Write

/-! ### The place that is written -/

section Paths

variable {disk after : Disk} {root normalized target place missing : List String} {path : String}

/-- The directories that a request to write makes, as the place and the names below it, from the
path alone. -/
@[grind =] def madeDirectories (disk : Disk) (root : List String) (path : String) :
    Option (List String × List String) :=
  match normalizedPath path with
  | some (fileName :: parents) =>
    if disk.pathExists (placePath (fileName :: parents ++ root)) then none
    else disk.tree.missing (parents ++ root)
  | _ => none

theorem names_joinedPath (h : normalizedPath path = some normalized) :
    names (joinedPath root path) = placePath (normalized ++ root) := by
  unfold normalizedPath at h
  split at h
  · exact absurd h (Option.some_ne_none _).symm
  · split at h
    · exact absurd h (Option.some_ne_none _).symm
    · split at h
      · exact absurd h (Option.some_ne_none _).symm
      · next hcomponents =>
        have hparent := (not_or.mp hcomponents).2
        obtain rfl := Option.some.inj h
        have hroot : ∀ place : List String, names (placePath place) = placePath place :=
          fun place ↦ List.filter_eq_self.mpr fun component hmem ↦ by
            obtain ⟨name, -, rfl⟩ := List.mem_map.mp hmem
            rfl
        have hnames : ∀ components : List (Component String), .parent ∉ components →
            names components = (components.filterMap normalName).map .normal := by
          intro components hmem
          induction components with
          | nil => rfl
          | cons component components ih =>
            have hrest := ih fun hmem' ↦ hmem (List.mem_cons_of_mem _ hmem')
            rcases component with _ | _ | name
            · exact hrest
            · exact absurd List.mem_cons_self hmem
            · exact congrArg (Component.normal name :: ·) hrest
        unfold joinedPath names
        rw [List.filter_append]
        show names (placePath root) ++ names (parsePath path).components = _
        rw [hroot, hnames _ hparent, placePath, placePath, List.reverse_append, List.reverse_reverse,
          List.map_append]

theorem resolve_names {t : LinkTree String} {components : List (Component String)}
    (h : t.resolve components = some target) : t.resolve (names components) = some target := by
  obtain ⟨spare, hwalks⟩ := LinkTree.resolve_eq_some_iff.mp h
  exact LinkTree.resolve_eq_some_iff.mpr ⟨spare, hwalks.names⟩

/-- A place that a request is about: where its path leads, or a name in the directory that the rest
of the path leads to. -/
structure IsTarget (t : LinkTree String) (root : List String) (path : String)
    (target : List String) : Prop where
  within : root <:+ target
  named : ∃ normalized, normalizedPath path = some normalized ∧
    (t.resolve (placePath (normalized ++ root)) = some target ∨
      ∃ fileName parents parent, normalized = fileName :: parents ∧ target = fileName :: parent ∧
        t.resolve (placePath (parents ++ root)) = some parent ∧ t.node parent = some .dir)

theorem of_safeProjectPath (hroot : disk.tree.node root = some .dir)
    (h : safeProjectPath disk root path = .ok target) :
    root <:+ target ∧ disk.tree.resolve (joinedPath root path) = some target := by
  unfold safeProjectPath at h
  split at h
  · exact nomatch h
  · rw [LinkTree.resolve_placePath (.inl hroot)] at h
    dsimp only at h
    split at h
    · exact nomatch h
    · next canonical hcanonical =>
      split at h
      · next hwithin => exact Except.ok.inj h ▸ ⟨hwithin, hcanonical⟩
      · exact nomatch h

theorem safeProjectWritePath_kept (hroot : disk.tree.node root = some .dir)
    (h : madeDirectories disk root path = none) : (safeProjectWritePath disk root path).2 = disk ∧
      ∀ target, (safeProjectWritePath disk root path).1 = .ok target →
        IsTarget disk.tree root path target := by
  unfold safeProjectWritePath
  rcases hnormalized : normalizedPath path with _ | normalized
  · exact ⟨rfl, fun _ hok ↦ nomatch hok⟩
  · dsimp only
    by_cases hexists : disk.pathExists (placePath (normalized ++ root)) = true
    · rw [if_pos hexists]
      refine ⟨rfl, fun target hok ↦ ?_⟩
      obtain ⟨hwithin, hresolve⟩ := of_safeProjectPath hroot hok
      refine ⟨hwithin, normalized, hnormalized, .inl ?_⟩
      rw [← names_joinedPath hnormalized]
      exact resolve_names hresolve
    · rw [if_neg hexists]
      rcases normalized with _ | ⟨fileName, parents⟩
      · exact ⟨rfl, fun _ hok ↦ nomatch hok⟩
      · have hmissing : disk.tree.missing (parents ++ root) = none := by
          unfold madeDirectories at h
          rw [hnormalized] at h
          dsimp only at h
          rwa [if_neg hexists] at h
        dsimp only
        rw [LinkTree.createDirAll_eq, hmissing]
        dsimp only
        rcases hdir : disk.tree.isDir (placePath (parents ++ root)) with _ | _
        · exact ⟨rfl, fun _ hok ↦ nomatch hok⟩
        · dsimp only
          obtain ⟨parent, hparent, hnode⟩ := (Option.any_eq_true _ _).mp hdir
          rw [hparent]
          dsimp only
          split
          · next hwithin =>
            refine ⟨rfl, fun target hok ↦ ?_⟩
            obtain rfl := Except.ok.inj hok
            exact ⟨hwithin.trans (List.suffix_cons _ _), fileName :: parents, hnormalized,
              .inr ⟨fileName, parents, parent, rfl, rfl, hparent, of_decide_eq_true hnode⟩⟩
          · exact ⟨rfl, fun _ hok ↦ nomatch hok⟩

theorem safeProjectWritePath_made (h : madeDirectories disk root path = some (place, missing)) :
    ∃ fileName parents, normalizedPath path = some (fileName :: parents) ∧
      disk.tree.missing (parents ++ root) = some (place, missing) ∧
      safeProjectWritePath disk root path =
        (if root <:+ missing ++ place then .ok (fileName :: (missing ++ place))
          else .error outsideProject,
        { disk with tree := disk.tree.putDirs place missing }) := by
  unfold madeDirectories at h
  split at h
  · next fileName parents hnormalized =>
    split at h
    · exact absurd h (Option.some_ne_none _).symm
    · next hexists =>
      refine ⟨fileName, parents, hnormalized, h, ?_⟩
      unfold safeProjectWritePath
      rw [hnormalized]
      dsimp only
      rw [if_neg hexists, LinkTree.createDirAll_eq, h]
      dsimp only
      rw [LinkTree.resolve_putDirs h]
      dsimp only
      split <;> rfl
  · exact absurd h (Option.some_ne_none _).symm

theorem IsTarget.parent_dir {t : LinkTree String} {name : String}
    (h : IsTarget t root path (name :: place)) : t.node place = some .dir := by
  obtain ⟨normalized, -, hresolve | ⟨fileName, parents, parent, rfl, htarget, -, hdir⟩⟩ := h.named
  · refine t.parent_dir name place ?_
    rcases LinkTree.node_of_resolve hresolve with hnode | hnode <;> rw [hnode] <;>
      exact Option.some_ne_none _
  · obtain ⟨rfl, rfl⟩ := List.cons.inj htarget
    exact hdir

/-- A tree in which a file has been written at a place. -/
structure HasWritten (disk after : Disk) (target : List String) (content : List UInt8) : Prop where
  maxLinks : after.tree.maxLinks = disk.tree.maxLinks
  free : disk.tree.node target = none ∨ disk.tree.node target = some .file
  written : after.entry target = some (.file content)
  others : ∀ q, q ≠ target → after.entry q = disk.entry q

variable {content : List UInt8}

theorem HasWritten.below (h : HasWritten disk after target content) :
    LinkTree.Below disk.tree after.tree := by
  have hsame : ∀ q, q ≠ target → after.tree.node q = disk.tree.node q := fun q hq ↦
    Disk.node_eq_of_entry (h.others q hq)
  have hne : ∀ q node, disk.tree.node q = some node → node ≠ .file → q ≠ target := by
    rintro q node hnode hfile rfl
    rcases h.free with hnone | hold
    · exact absurd (hnode.symm.trans hnone) (Option.some_ne_none _)
    · exact hfile (Option.some.inj (hnode.symm.trans hold))
  refine ⟨h.maxLinks, fun q hdir ↦ ?_, fun q hfile ↦ .inr ?_, fun q link hlink ↦ ?_⟩
  · rw [hsame q (hne q _ hdir nofun), hdir]
  · by_cases hq : q = target
    · rw [hq]
      exact Disk.node_of_entry_file h.written
    · rw [hsame q hq, hfile]
  · rw [hsame q (hne q _ hlink nofun), hlink]

/-- The path of the request leads to the file that was written. -/
theorem IsTarget.leads (h : IsTarget disk.tree root path target)
    (hwritten : HasWritten disk after target content) : ∃ normalized,
      normalizedPath path = some normalized ∧
        after.tree.resolve (placePath (normalized ++ root)) = some target := by
  obtain ⟨normalized, hnormalized, hresolve | ⟨fileName, parents, parent, rfl, rfl, hparent, hdir⟩⟩ :=
    h.named
  · exact ⟨normalized, hnormalized, LinkTree.resolve_mono hwritten.below hresolve⟩
  · refine ⟨fileName :: parents, hnormalized, ?_⟩
    exact LinkTree.resolve_cons (LinkTree.resolve_mono hwritten.below hparent)
      (hwritten.below.dir _ hdir) (.inr (Disk.node_of_entry_file hwritten.written))

theorem atomicWrite_target {temporary : String} {canWrite : Bool} {outcome : Except String Unit}
    (htarget : IsTarget disk.tree root path target)
    (h : atomicWritePrivateFile disk temporary canWrite target content = (outcome, after)) :
    (∃ message, outcome = .error message ∧ ∀ q, after.entry q = disk.entry q) ∨
      outcome = .ok () ∧ HasWritten disk after target content := by
  rcases atomicWrite_spec h with hfailed | ⟨hok, hlinks, name, place, parent, rfl, hparent, htakes,
    hwritten, hothers⟩
  · exact .inl hfailed
  · rw [LinkTree.resolve_placePath (.inl htarget.parent_dir)] at hparent
    obtain rfl := Option.some.inj hparent
    exact .inr ⟨hok, hlinks, htakes.2, hwritten, hothers⟩

end Paths

/-! ### Requests -/

section Requests

variable {disk mid after : Disk} {root target place missing : List String} {temporary : String}
  {canWrite : Bool} {request : ProjectFileWriteRequest}
  {outcome : Except CommandError ProjectFileWriteResult}

/-- Why a request with an acceptable path fails. -/
def FailsWith (mid : Disk) (temporary : String) (canWrite : Bool) (target : List String)
    (request : ProjectFileWriteRequest) (error : CommandError) : Prop :=
  maxEditorBytes < (asBytes request.content).length ∨ request.expectedContent ≠ none ∨
    ∃ message, (atomicWritePrivateFile mid temporary canWrite target
      (asBytes request.content)).1 = .error message ∧ error = .new .storageError message

/-- What a request with an acceptable path leaves behind. -/
theorem projectFileWriteIn_spec
    (hpath : safeProjectWritePath disk root request.path = (.ok target, mid))
    (htarget : IsTarget mid.tree root request.path target)
    (h : projectFileWriteIn disk root temporary canWrite request = (outcome, after)) :
    (∃ error, outcome = .error error ∧ FailsWith mid temporary canWrite target request error ∧
        ∀ q, after.entry q = mid.entry q) ∨
      (∃ result, outcome = .ok result) ∧ HasWritten mid after target (asBytes request.content) := by
  unfold projectFileWriteIn at h
  rw [hpath] at h
  dsimp only at h
  split at h
  · next hsize =>
    obtain ⟨rfl, rfl⟩ := Prod.mk.inj h
    exact .inl ⟨_, rfl, .inl hsize, fun _ ↦ rfl⟩
  · split at h
    · next error hcompared =>
      obtain ⟨rfl, rfl⟩ := Prod.mk.inj h
      refine .inl ⟨_, rfl, .inr (.inl fun hexpected ↦ ?_), fun _ ↦ rfl⟩
      rw [hexpected] at hcompared
      exact nomatch hcompared
    · split at h
      · next message left hwrite =>
        obtain ⟨rfl, rfl⟩ := Prod.mk.inj h
        rcases atomicWrite_target htarget hwrite with ⟨_, -, hsame⟩ | ⟨hok, -⟩
        · exact .inl ⟨_, rfl, .inr (.inr ⟨message, by rw [hwrite], rfl⟩), hsame⟩
        · exact nomatch hok
      · next left hwrite =>
        rcases atomicWrite_target htarget hwrite with ⟨_, hfailed, -⟩ | ⟨-, hwritten⟩
        · exact nomatch hfailed
        · have hfile := Disk.node_of_entry_file hwritten.written
          have hat : left.fileAt (placePath target) = some target := by
            unfold Disk.fileAt
            rw [LinkTree.resolve_placePath (.inr hfile)]
            exact Option.filter_some_pos (decide_eq_true hfile)
          rw [hat] at h
          obtain ⟨rfl, rfl⟩ := Prod.mk.inj h
          exact .inr ⟨⟨_, rfl⟩, hwritten⟩

/-- A write changes nothing outside the project, nothing at all when the request is rejected, and
else the file that the path leads to and missing directories above it. -/
structure WriteConfined (disk : Disk) (root : List String) (request : ProjectFileWriteRequest)
    (outcome : Except CommandError ProjectFileWriteResult) (after : Disk) : Prop where
  outside : ∀ q, ¬ root <:+ q → after.entry q = disk.entry q
  rejected : ∀ error, outcome = .error error → error ≠ .new .storageError temporaryNotWritten →
    ∀ q, after.entry q = disk.entry q
  accepted : ∀ result, outcome = .ok result → ∃ target, root <:+ target ∧
    (∃ normalized, normalizedPath request.path = some normalized ∧
      after.tree.resolve (placePath (normalized ++ root)) = some target) ∧
    after.entry target = some (.file (asBytes request.content)) ∧
    ∀ q, q ≠ target → after.entry q = disk.entry q ∨
      disk.entry q = none ∧ after.entry q = some .dir ∧ root <:+ q ∧ q <:+ target

/-- Missing directories are below the project, and the request has no other reason to be
rejected. -/
def MakesForFile (disk : Disk) (root : List String) (request : ProjectFileWriteRequest) : Prop :=
  ∀ place missing, madeDirectories disk root request.path = some (place, missing) →
    root <:+ place ∧ (asBytes request.content).length ≤ maxEditorBytes ∧
      request.expectedContent = none

/-- Nothing is made before the file. -/
theorem writeConfined_of_kept (hroot : disk.tree.node root = some .dir)
    (hkept : madeDirectories disk root request.path = none)
    (h : projectFileWriteIn disk root temporary canWrite request = (outcome, after)) :
    WriteConfined disk root request outcome after := by
  obtain ⟨hsame, htarget⟩ := safeProjectWritePath_kept hroot hkept
  rcases hpath : safeProjectWritePath disk root request.path with ⟨message | target, mid⟩
  · rw [hpath] at hsame
    obtain rfl : mid = disk := hsame
    unfold projectFileWriteIn at h
    rw [hpath] at h
    obtain ⟨rfl, rfl⟩ := Prod.mk.inj h
    exact ⟨fun _ _ ↦ rfl, fun _ _ _ _ ↦ rfl, fun _ hok ↦ nomatch hok⟩
  · rw [hpath] at hsame htarget
    obtain rfl : mid = disk := hsame
    have hat := htarget target rfl
    rcases projectFileWriteIn_spec hpath hat h with ⟨error, rfl, -, hfailed⟩ |
      ⟨⟨result, rfl⟩, hwritten⟩
    · exact ⟨fun q _ ↦ hfailed q, fun _ _ _ q ↦ hfailed q, fun _ hok ↦ nomatch hok⟩
    · refine ⟨fun q hq ↦ hwritten.others q ?_, fun _ herror ↦ (nomatch herror), fun _ _ ↦ ?_⟩
      · rintro rfl
        exact hq hat.within
      · exact ⟨target, hat.within, hat.leads hwritten, hwritten.written,
          fun q hq ↦ .inl (hwritten.others q hq)⟩

/-- The disk with the missing directories. -/
theorem entry_made {parents : List String}
    (hmissing : disk.tree.missing (parents ++ root) = some (place, missing)) (q : List String) :
    ({ disk with tree := disk.tree.putDirs place missing } : Disk).entry q = disk.entry q ∧
        ¬ IsBelow place missing q ∨
      IsBelow place missing q ∧ disk.entry q = none ∧
        ({ disk with tree := disk.tree.putDirs place missing } : Disk).entry q = some .dir := by
  by_cases hq : IsBelow place missing q
  · exact .inr ⟨hq, Disk.entry_eq_none_iff.mpr (LinkTree.node_of_missing hmissing hq),
      Disk.entry_of_dir (LinkTree.putDirs_below (LinkTree.of_missing hmissing).1 hq)⟩
  · exact .inl ⟨Disk.entry_congr (LinkTree.putDirs_other hq) rfl, hq⟩

/-- Something is made. -/
theorem exists_isBelow {parents : List String}
    (hmissing : disk.tree.missing (parents ++ root) = some (place, missing)) :
    IsBelow place missing (missing ++ place) := by
  obtain ⟨-, ⟨name, inner, rfl, -⟩, -⟩ := LinkTree.of_missing hmissing
  exact ⟨inner ++ [name], by simp, List.suffix_rfl, rfl⟩

/-- A directory that was just made is empty. -/
theorem node_in_made {parents : List String}
    (hmissing : disk.tree.missing (parents ++ root) = some (place, missing)) (name : String) :
    (disk.tree.putDirs place missing).node (name :: (missing ++ place)) = none := by
  rw [LinkTree.putDirs_other]
  · exact LinkTree.node_of_suffix (LinkTree.node_of_missing hmissing (exists_isBelow hmissing))
      (List.suffix_cons _ _)
  · rintro ⟨inner, -, hsuffix, heq⟩
    have hlength := congrArg List.length heq
    have hle := hsuffix.length_le
    rw [List.length_cons, List.length_append, List.length_append] at hlength
    omega

/-- What is made in the project is made below a place of the project. -/
theorem within_place {parents : List String} (hroot : disk.tree.node root = some .dir)
    (hmissing : disk.tree.missing (parents ++ root) = some (place, missing)) :
    root <:+ missing ++ place ↔ root <:+ place := by
  refine ⟨fun h ↦ ?_, fun h ↦ h.trans (List.suffix_append _ _)⟩
  rcases List.suffix_or_suffix_of_suffix h (List.suffix_append missing place) with hroot' | hplace
  · exact hroot'
  · obtain ⟨inner, rfl⟩ := hplace
    rcases inner with _ | ⟨name, inner⟩
    · exact List.suffix_rfl
    · have hbelow : IsBelow place missing (name :: inner ++ place) :=
        ⟨name :: inner, List.cons_ne_nil _ _, List.suffix_append_self_iff.mp h, rfl⟩
      rw [LinkTree.node_of_missing hmissing hbelow] at hroot
      exact absurd hroot (Option.some_ne_none _).symm

/-- A request that is rejected has made directories before. -/
theorem makesForFile_of_confined (hroot : disk.tree.node root = some .dir)
    (h : projectFileWriteIn disk root temporary canWrite request = (outcome, after))
    (hconfined : WriteConfined disk root request outcome after) :
    MakesForFile disk root request := by
  intro place missing hmade
  obtain ⟨fileName, parents, -, hmissing, hpath⟩ := safeProjectWritePath_made hmade
  by_contra hreason
  obtain ⟨error, houtcome, herror, hafter⟩ : ∃ error, outcome = .error error ∧
      error ≠ .new .storageError temporaryNotWritten ∧
      after = { disk with tree := disk.tree.putDirs place missing } := by
    unfold projectFileWriteIn at h
    rw [hpath] at h
    by_cases hwithin : root <:+ missing ++ place
    · rw [if_pos hwithin] at h
      dsimp only at h
      by_cases hsize : maxEditorBytes < (asBytes request.content).length
      · rw [if_pos hsize] at h
        obtain ⟨rfl, rfl⟩ := Prod.mk.inj h
        exact ⟨_, rfl, by decide, rfl⟩
      · rw [if_neg hsize] at h
        rcases hexpected : request.expectedContent with _ | expected
        · exact absurd ⟨(within_place hroot hmissing).mp hwithin, Nat.le_of_not_lt hsize, hexpected⟩
            hreason
        · have hnone : ({ disk with tree := disk.tree.putDirs place missing } : Disk).fileAt
              (placePath (fileName :: (missing ++ place))) = none := by
            unfold Disk.fileAt
            rw [LinkTree.resolve_placePath_of_none
              (LinkTree.putDirs_dir (LinkTree.of_missing hmissing).1 List.suffix_rfl)
              (node_in_made hmissing fileName)]
            rfl
          rw [hexpected] at h
          dsimp only at h
          rw [hnone] at h
          obtain ⟨rfl, rfl⟩ := Prod.mk.inj h
          exact ⟨_, rfl, by decide, rfl⟩
    · rw [if_neg hwithin] at h
      obtain ⟨rfl, rfl⟩ := Prod.mk.inj h
      exact ⟨_, rfl, by decide, rfl⟩
  have hsame := hconfined.rejected error houtcome herror (missing ++ place)
  rcases entry_made hmissing (missing ++ place) with ⟨-, hno⟩ | ⟨-, hnone, hdir⟩
  · exact hno (exists_isBelow hmissing)
  · rw [hafter, hdir, hnone] at hsame
    exact absurd hsame (Option.some_ne_none _)

theorem confined_of_makesForFile (hroot : disk.tree.node root = some .dir)
    (hmade : madeDirectories disk root request.path = some (place, missing))
    (hreason : MakesForFile disk root request)
    (h : projectFileWriteIn disk root temporary canWrite request = (outcome, after)) :
    WriteConfined disk root request outcome after := by
  obtain ⟨fileName, parents, hnormalized, hmissing, hpath⟩ := safeProjectWritePath_made hmade
  obtain ⟨hwithin, hsize, hexpected⟩ := hreason place missing hmade
  have hdir := LinkTree.putDirs_dir (LinkTree.of_missing hmissing).1 (List.suffix_rfl (l := missing))
  have hinside := (within_place hroot hmissing).mpr hwithin
  rw [if_pos hinside] at hpath
  set mid : Disk := { disk with tree := disk.tree.putDirs place missing } with hmid
  have htarget : IsTarget mid.tree root request.path (fileName :: (missing ++ place)) :=
    ⟨hinside.trans (List.suffix_cons _ _), fileName :: parents, hnormalized,
      .inr ⟨fileName, parents, missing ++ place, rfl, rfl, LinkTree.resolve_putDirs hmissing, hdir⟩⟩
  have hbelow : ∀ q, IsBelow place missing q → root <:+ q := by
    rintro q ⟨inner, -, -, rfl⟩
    exact hwithin.trans (List.suffix_append _ _)
  have houtside : ∀ q, ¬ root <:+ q → mid.entry q = disk.entry q := fun q hq ↦ by
    rcases entry_made hmissing q with ⟨hsame, -⟩ | ⟨hmade, -⟩
    · exact hsame
    · exact absurd (hbelow q hmade) hq
  rcases projectFileWriteIn_spec hpath htarget h with ⟨error, rfl, hwhy, hfailed⟩ |
    ⟨⟨result, rfl⟩, hwritten⟩
  · refine ⟨fun q hq ↦ (hfailed q).trans (houtside q hq), fun error' herror hne ↦ ?_,
      fun _ hok ↦ nomatch hok⟩
    obtain rfl := Except.error.inj herror
    rcases hwhy with hlong | hother | ⟨message, hmessage, rfl⟩
    · exact absurd hlong (Nat.not_lt.mpr hsize)
    · exact absurd hexpected hother
    · have hfresh : (atomicWritePrivateFile mid temporary canWrite (fileName :: (missing ++ place))
          (asBytes request.content)).1 = if canWrite then .ok () else .error temporaryNotWritten :=
        atomicWrite_fresh hdir (node_in_made hmissing fileName) (node_in_made hmissing temporary)
      rw [hmessage] at hfresh
      split at hfresh
      · exact nomatch hfresh
      · exact absurd (congrArg (CommandError.new .storageError) (Except.error.inj hfresh)) hne
  · refine ⟨fun q hq ↦ ?_, fun _ herror ↦ (nomatch herror), fun _ _ ↦ ?_⟩
    · refine (hwritten.others q ?_).trans (houtside q hq)
      rintro rfl
      exact hq htarget.within
    · refine ⟨_, htarget.within, htarget.leads hwritten, hwritten.written, fun q hq ↦ ?_⟩
      rw [hwritten.others q hq]
      rcases entry_made hmissing q with ⟨hsame, -⟩ | ⟨hmade, hnone, hnew⟩
      · exact .inl hsame
      · refine .inr ⟨hnone, hnew, hbelow q hmade, ?_⟩
        obtain ⟨inner, -, hsuffix, rfl⟩ := hmade
        exact (List.suffix_append_self_iff.mpr hsuffix).trans (List.suffix_cons _ _)

/-! ### Reading -/

/-- What is returned are bytes of a file of the project. -/
def ReadConfined (disk : Disk) (root : List String) (content : ProjectFileContent) : Prop :=
  ∃ place bytes, root <:+ place ∧ disk.entry place = some (.file bytes) ∧
    ((∃ mediaType, content.content = .dataUrl mediaType bytes) ∨
      ∃ n, content.content = .utf8Lossy (bytes.take n))

theorem readConfined {read : ProjectFileReadRequest} {content : ProjectFileContent}
    (hroot : disk.tree.node root = some .dir) (h : projectFileReadIn disk root read = .ok content) :
    ReadConfined disk root content := by
  unfold projectFileReadIn at h
  split at h
  · cases h
  · split at h
    · cases h
    · split at h
      · cases h
      · next requested hpath =>
        have hwithin := (of_safeProjectPath hroot hpath).1
        split at h
        · next hfile =>
          refine ⟨requested, disk.bytes requested, hwithin, Disk.entry_of_file hfile, ?_⟩
          dsimp only at h
          split at h
          · split at h
            · cases h
            · split at h
              · cases h
              · exact .inl ⟨_, by rw [← Except.ok.inj h]⟩
          · exact .inr ⟨_, by rw [← Except.ok.inj h]⟩
        · cases h

theorem node_of_projectRoot {cwd : String} (h : projectRoot disk cwd = .ok root) :
    disk.tree.node root = some .dir := by
  unfold projectRoot at h
  split at h
  · cases h
  · next hdir =>
    split at h
    · next hroot =>
      obtain rfl := Except.ok.inj h
      unfold ensureExistingDir at hdir
      split at hdir
      · cases hdir
      · split at hdir
        · next hisDir =>
          obtain ⟨place, hplace, hnode⟩ := (Option.any_eq_true _ _).mp hisDir
          obtain rfl := Option.some.inj (hroot.symm.trans hplace)
          exact of_decide_eq_true hnode
        · cases hdir
    · cases h

/-- Writes and reads stay inside the project, and a request for a directory that is no project
changes nothing. -/
def FilesConfined (disk : Disk) (temporary : String) (canWrite : Bool)
    (write : ProjectFileWriteRequest) (read : ProjectFileReadRequest) : Prop :=
  (∀ root, projectRoot disk write.cwd = .ok root → WriteConfined disk root write
    (projectFileWrite disk temporary canWrite write).1
      (projectFileWrite disk temporary canWrite write).2) ∧
  (∀ error, projectRoot disk write.cwd = .error error →
    (projectFileWrite disk temporary canWrite write).2 = disk) ∧
  ∀ content, projectFileRead disk read = .ok content →
    ∃ root, projectRoot disk read.cwd = .ok root ∧ ReadConfined disk root content

/-- **Files stay inside the project exactly when** missing directories are made only below the
project and for a file that is then written. -/
theorem filesConfined_iff (disk : Disk) (temporary : String) (canWrite : Bool)
    (write : ProjectFileWriteRequest) (read : ProjectFileReadRequest) :
    FilesConfined disk temporary canWrite write read ↔
      ∀ root, projectRoot disk write.cwd = .ok root → MakesForFile disk root write := by
  have hin : ∀ root, projectRoot disk write.cwd = .ok root →
      projectFileWriteIn disk root temporary canWrite write =
        ((projectFileWrite disk temporary canWrite write).1,
          (projectFileWrite disk temporary canWrite write).2) := fun root hroot ↦ by
    unfold projectFileWrite
    rw [hroot]
  constructor
  · intro h root hroot
    exact makesForFile_of_confined (node_of_projectRoot hroot) (hin root hroot) (h.1 root hroot)
  · intro h
    refine ⟨fun root hroot ↦ ?_, fun error herror ↦ ?_, fun content hread ↦ ?_⟩
    · rcases hmade : madeDirectories disk root write.path with _ | ⟨place, missing⟩
      · exact writeConfined_of_kept (node_of_projectRoot hroot) hmade (hin root hroot)
      · exact confined_of_makesForFile (node_of_projectRoot hroot) hmade (h root hroot)
          (hin root hroot)
    · unfold projectFileWrite
      rw [herror]
    · unfold projectFileRead at hread
      split at hread
      · exact nomatch hread
      · next root hroot => exact ⟨root, hroot, readConfined (node_of_projectRoot hroot) hread⟩

end Requests

/-- `/project` with a link to `/outside`. -/
private def linkOutDisk : Disk where
  tree := .ofNodes [([], .dir), (["project"], .dir), (["outside"], .dir),
    (["out", "project"], .link ⟨true, [.normal "outside"]⟩)] 40 (by decide) (by decide)
  workingDirectory := []
  bytes _ := []

/-- A file in a new directory behind the link is rejected, and the directory is made. -/
theorem write_makes_directory_outside :
    ¬ FilesConfined linkOutDisk "tmp" true
      { cwd := "/project", path := "out/new/file.txt", content := "" }
      { cwd := "/project", path := "file.txt" } := by
  intro h
  have hroot : projectRoot linkOutDisk "/project" = .ok ["project"] := by rfl
  have houtside := (h.1 ["project"] hroot).outside ["new", "outside"] (by decide)
  exact absurd (Disk.node_eq_of_entry houtside) (by decide +kernel)

end MultAIplayer.Native
