import MultAIplayer.Lib.LinkTrees
import MultAIplayer.Native.PermissionProjection

/-!
# Where permissions lead

`permission_path_is_within_project`, against a tree of files with symbolic links. A path may name
what does not exist yet: the check follows its nearest existing ancestor. `exists` is that a path
leads somewhere, so a link whose target is missing counts as missing, and the check looks at the
directory that holds the link and not at where it leads.

A granted path `StaysWithin` the project when in every later tree (new directories and files, all
links as they are) it leads into the project, if it leads anywhere. The check makes sure of it but
where the first name behind the ancestor is a link (`linkBehind`); there it depends on where the
link leads once its missing target is made (`grants_stay_within_iff`).
-/

namespace MultAIplayer.Native

open LinkTree (Component Path names Extends)

/-- The files of the host, and the working directory of the process. -/
structure HostFiles where
  tree : LinkTree String
  workingDirectory : List String

/-! ### Paths -/

instance lawfulBEq_component : LawfulBEq (Component String) := inferInstance

/-- What stands between two separators. -/
def pathComponent (name : List Char) : Component String :=
  if name = [] ∨ name = ['.'] then .current
  else if name = ['.', '.'] then .parent
  else .normal (String.ofList name)

/-- A text as a path: `/` separates, and an absolute path starts with it. -/
def parsePath (text : String) : Path String where
  absolute := text.toList.head? = some '/'
  components := (text.toList.splitOn '/').map pathComponent

namespace HostFiles

variable (files : HostFiles)

/-- `Path::exists`, of an absolute path. -/
def pathExists (path : List (Component String)) : Bool := (files.tree.resolve path).isSome

/-- `Path::canonicalize`. -/
def canonicalize (text : String) : Option (List String) :=
  if text = "" then none
  else
    (files.tree.walk files.tree.maxLinks ((parsePath text).start files.workingDirectory)
      (parsePath text).components).map Prod.fst

/-- The nearest of the first `k` ancestors of a path that exists. -/
def ancestorFrom (path : List (Component String)) : ℕ → Option (List (Component String))
  | 0 => if files.pathExists [] then some [] else none
  | k + 1 =>
    if files.pathExists ((names path).take (k + 1)) then some ((names path).take (k + 1))
    else ancestorFrom path k

/-- The loop over `Path::parent`, which drops the last name of a path. -/
def existingAncestor (path : List (Component String)) : Option (List (Component String)) :=
  if files.pathExists path then some path
  else
    match (names path).length with
    | 0 => none
    | k + 1 => files.ancestorFrom path k

/-- The path of a request: an absolute one as it stands, another one below the project. -/
def requestedPath (project : List String) (path : String) : List (Component String) :=
  if (parsePath path).absolute then (parsePath path).components
  else project.reverse.map .normal ++ (parsePath path).components

def permissionPathIsWithinProject (path : String) (root : Option String) : Bool :=
  match root.bind files.canonicalize with
  | none => false
  | some project =>
    if (trim path).isEmpty || path = "~" || "~/".toList.isPrefixOf path.toList ||
        "~\\".toList.isPrefixOf path.toList || .parent ∈ (parsePath path).components then false
    else
      match (files.existingAncestor (requestedPath project path)).bind files.tree.resolve with
      | none => false
      | some ancestor => project <:+ ancestor

/-! ### Confinement -/

/-- Wherever the path leads, now or after directories and files have been made, is in the
project. -/
def StaysWithin (project : List String) (path : List (Component String)) : Prop :=
  ∀ later, Extends files.tree later → ∀ place, later.resolve path = some place → project <:+ place

/-- The first name of a path behind its nearest existing ancestor is a symbolic link. -/
def linkBehind (path : List (Component String)) : Bool :=
  match files.existingAncestor path with
  | none => false
  | some ancestor =>
    match files.tree.resolve ancestor, (names path)[ancestor.length]? with
    | some place, some (.normal name) =>
      match files.tree.node (name :: place) with
      | some (.link _) => true
      | _ => false
    | _, _ => false

/-- Where a path leads with everything made that is missing on its way, if that is in the
project. -/
@[grind =] def leadsWithin (project : List String) (path : List (Component String)) : Bool :=
  (files.tree.grown.resolve path).all fun place ↦ project <:+ place

/-- The result of a permission request grants no network, and nothing outside the project. -/
def GrantConfined (root : Option String) (result : Value) : Prop :=
  networkGranted ((result.get "permissions").getD .null) = false ∧
    ∀ e ∈ grantedPaths ((result.get "permissions").getD .null), ∃ path project,
      e = some path ∧ root.bind files.canonicalize = some project ∧
        files.StaysWithin project (requestedPath project path)

/-- No granted path has a link behind its nearest existing ancestor that leads out of the
project. -/
def NoLinkOut (root : Option String) (result : Value) : Prop :=
  ∀ path project, some path ∈ grantedPaths ((result.get "permissions").getD .null) →
    root.bind files.canonicalize = some project →
    files.linkBehind (requestedPath project path) = true →
    files.leadsWithin project (requestedPath project path) = true

/-! ### The nearest existing ancestor -/

variable {files : HostFiles} {path ancestor : List (Component String)} {project : List String}

theorem ancestorFrom_eq_some {k : ℕ} (h : files.ancestorFrom path k = some ancestor) :
    ∃ j, j ≤ k ∧ ancestor = (names path).take j ∧
      ∀ i, j < i → i ≤ k → files.pathExists ((names path).take i) = false := by
  induction k with
  | zero =>
    rw [ancestorFrom] at h
    split at h
    · cases h
      exact ⟨0, le_rfl, rfl, fun i hi hle ↦ by omega⟩
    · exact absurd h nofun
  | succ k ih =>
    rw [ancestorFrom] at h
    split at h
    · cases h
      exact ⟨k + 1, le_rfl, rfl, fun i hi hle ↦ by omega⟩
    · rename_i hmissing
      obtain ⟨j, hj, rfl, hbetween⟩ := ih h
      refine ⟨j, Nat.le_succ_of_le hj, rfl, fun i hi hle ↦ ?_⟩
      rcases Nat.lt_or_eq_of_le hle with hlt | rfl
      · exact hbetween i hi (Nat.le_of_lt_succ hlt)
      · exact eq_false_of_ne_true hmissing

theorem existingAncestor_eq_some (h : files.existingAncestor path = some ancestor) :
    (files.pathExists path = true ∧ ancestor = path) ∨
      ∃ j, j < (names path).length ∧ ancestor = (names path).take j ∧
        ∀ i, j < i → i < (names path).length →
          files.pathExists ((names path).take i) = false := by
  rw [existingAncestor] at h
  split at h
  · rename_i hexists
    cases h
    exact .inl ⟨hexists, rfl⟩
  · refine .inr ?_
    split at h
    · exact absurd h nofun
    · rename_i k hlength
      obtain ⟨j, hj, hancestor, hbetween⟩ := ancestorFrom_eq_some h
      refine ⟨j, by omega, hancestor, fun i hi hlt ↦ hbetween i hi (by omega)⟩

variable {place dest : List String}

theorem linkBehind_of_link {j : ℕ} {name : String} {target : Path String}
    (hancestor : files.existingAncestor path = some ((names path).take j))
    (hplace : files.tree.resolve ((names path).take j) = some place)
    (hname : (names path)[j]? = some (.normal name))
    (hlink : files.tree.node (name :: place) = some (.link target)) :
    files.linkBehind path = true := by
  have hlength : ((names path).take j).length = j := by
    obtain ⟨hj, _⟩ := List.getElem?_eq_some_iff.mp hname
    rw [List.length_take]
    omega
  rw [linkBehind, hancestor]
  simp only [hplace, hlength, hname, hlink]

/-- A path whose nearest existing ancestor leads into the project stays within it, unless it goes
on over a link that leads out. -/
theorem staysWithin_of_ancestor (hparent : .parent ∉ path)
    (hancestor : files.existingAncestor path = some ancestor)
    (hplace : files.tree.resolve ancestor = some place) (hproject : project <:+ place)
    (hlink : files.linkBehind path = true → files.leadsWithin project path = true) :
    files.StaysWithin project path := by
  intro later hext dest hdest
  rcases existingAncestor_eq_some hancestor with ⟨_, rfl⟩ | ⟨j, hj, rfl, hbetween⟩
  · have hstays := LinkTree.resolve_mono hext.below hplace
    rw [hdest] at hstays
    cases hstays
    exact hproject
  -- the walk up to the ancestor is the old one, what follows starts with a missing name
  obtain ⟨spare, hwalk⟩ := LinkTree.resolve_eq_some_iff.mp hdest
  obtain ⟨spare', hold⟩ := LinkTree.resolve_eq_some_iff.mp hplace
  have hsplit : names path = (names path).take j ++ (names path)[j] :: (names path).drop (j + 1) :=
    by rw [← List.drop_eq_getElem_cons hj, List.take_append_drop]
  have hnames := hwalk.names
  rw [hsplit] at hnames
  obtain ⟨mid, m, hbefore, hbehind⟩ := hnames.exists_of_append
  have hsame := hold.mono hext.below
  rw [← hext.maxLinks_eq] at hsame
  obtain ⟨rfl, rfl⟩ := hbefore.unique hsame
  have hmem : (names path)[j] ∈ names path := List.getElem_mem hj
  have hget : (names path)[j]? = some (names path)[j] := List.getElem?_eq_getElem hj
  have hrestParent : .parent ∉ (names path).drop (j + 1) := fun hin ↦
    hparent (List.mem_of_mem_filter (List.mem_of_mem_drop hin))
  generalize (names path)[j] = component at hbehind hmem hget
  cases hbehind with
  | current => exact absurd (List.mem_filter.mp hmem).2 Bool.false_ne_true
  | parent => exact absurd (List.mem_of_mem_filter hmem) hparent
  | @enter _ _ name _ _ _ hdir hnode hrest =>
    cases hpresent : files.tree.node (name :: mid) with
    | none =>
      have hfresh := hrest.fresh hext hpresent hrestParent
      exact (hproject.trans (List.suffix_cons name mid)).trans hfresh
    | some node =>
      rw [hext.stays _ _ hpresent] at hnode
      have holdDir : files.tree.node mid = some .dir :=
        files.tree.parent_dir name mid (by rw [hpresent]; exact nofun)
      have hexists : files.pathExists ((names path).take (j + 1)) = true := by
        rw [pathExists, Option.isSome_iff_exists]
        refine ⟨name :: mid, LinkTree.resolve_eq_some_iff.mpr ⟨m, ?_⟩⟩
        rw [List.take_add_one, hget]
        exact hold.append (.enter holdDir (hnode.imp hpresent.trans hpresent.trans) .done)
      rcases Nat.lt_or_ge (j + 1) (names path).length with hlt | hge
      · rw [hbetween (j + 1) (Nat.lt_succ_self j) hlt] at hexists
        exact absurd hexists Bool.false_ne_true
      · rw [List.drop_eq_nil_of_le hge] at hrest
        cases hrest
        exact hproject.trans (List.suffix_cons name mid)
  | @follow _ _ name _ target _ _ hdir hnode hrest =>
    have hpresent : files.tree.node (name :: mid) = some (.link target) := by
      cases hold' : files.tree.node (name :: mid) with
      | none => exact absurd hnode (hext.no_link _ target hold')
      | some node => exact (hext.stays _ _ hold').symm.trans hnode
    have hwithin := hlink (linkBehind_of_link hancestor hplace hget hpresent)
    rw [leadsWithin, LinkTree.resolve_mono hext.below_grown hdest] at hwithin
    exact of_decide_eq_true hwithin

theorem leadsWithin_of_staysWithin (h : files.StaysWithin project path) :
    files.leadsWithin project path = true := by
  rw [leadsWithin, Option.all_eq_true]
  intro place hplace
  exact decide_eq_true (h _ (LinkTree.extends_grown files.tree) place hplace)

theorem of_permissionPathIsWithinProject {text : String} {root : Option String}
    (h : files.permissionPathIsWithinProject text root = true) :
    ∃ project ancestor place, root.bind files.canonicalize = some project ∧
      .parent ∉ requestedPath project text ∧
      files.existingAncestor (requestedPath project text) = some ancestor ∧
      files.tree.resolve ancestor = some place ∧ project <:+ place := by
  rw [permissionPathIsWithinProject] at h
  split at h
  · exact absurd h nofun
  · rename_i project hproject
    split at h
    · exact absurd h nofun
    · rename_i hrejected
      split at h
      · exact absurd h nofun
      · rename_i place hplace
        obtain ⟨ancestor, hancestor, hresolve⟩ := Option.bind_eq_some_iff.mp hplace
        refine ⟨project, ancestor, place, hproject, ?_, hancestor, hresolve, of_decide_eq_true h⟩
        have hcomponents : .parent ∉ (parsePath text).components := fun hmem ↦
          hrejected (by rw [decide_eq_true hmem, Bool.or_true])
        rw [requestedPath]
        split
        · exact hcomponents
        · rw [List.mem_append]
          rintro (hmem | hmem)
          · obtain ⟨name, _, hname⟩ := List.mem_map.mp hmem
            exact absurd hname nofun
          · exact hcomponents hmem

end HostFiles

/-! ### Grants -/

variable {files : HostFiles} {root : Option String} {params result answer : Value}
  {checks : RequestChecks}

/-- What an accepted answer grants is nothing, or the projection of what was asked for. -/
theorem granted_of_validatePermissionResult (h : validatePermissionResult params result = .ok ()) :
    ∃ granted, result.get "permissions" = some (.object granted) ∧ (granted = [] ∨
      projectPermissions ((params.get "permissions").getD .null) = .ok (.object granted)) := by
  rw [validatePermissionResult] at h
  split at h
  · exact absurd h nofun
  · rename_i granted hgranted
    obtain ⟨value, hvalue, hobject⟩ := Option.bind_eq_some_iff.mp hgranted
    refine ⟨granted, by rw [hvalue, Value.eq_object_of_asObject hobject], ?_⟩
    cases hrequested : projectPermissions ((params.get "permissions").getD .null) with
    | error e => rw [hrequested] at h; exact absurd h nofun
    | ok requested =>
      simp only [hrequested, bind, Except.bind] at h
      split at h
      · exact absurd h nofun
      · rename_i fields hfields
        split at h
        · exact absurd h nofun
        · rename_i hmatch
          rw [Bool.and_eq_true, not_and_or] at hmatch
          rcases hmatch with hempty | hequal
          · cases granted with
            | nil => exact .inl rfl
            | cons field fields => exact absurd rfl hempty
          · right
            have heq := not_not.mp fun hne ↦ hequal (decide_eq_true hne)
            rw [Value.eq_object_of_asObject hfields, ← heq]

theorem permissionResult_of_accepted (h : validateCodexServerResult
    { checks with permissionResult := validatePermissionResult } permissionsMethod params result =
      .ok answer) : validatePermissionResult params result = .ok () ∧ answer = result := by
  rw [validateCodexServerResult] at h
  split at h
  · exact absurd h nofun
  · rw [if_neg (by decide), if_neg (by decide), if_pos rfl] at h
    dsimp only at h
    cases hresult : validatePermissionResult params result with
    | error e => rw [hresult] at h; exact absurd h nofun
    | ok _ =>
      rw [hresult] at h
      cases h
      exact ⟨rfl, rfl⟩

/-- A request that is not denied, and an answer to it that is accepted: what is granted is confined
to the project just when no granted path goes on, behind its nearest existing ancestor, over a
symbolic link that leads out. -/
theorem grants_stay_within_iff (checks : RequestChecks) (params result : Value)
    (hdenial : enforcedPermissionDenial files.permissionPathIsWithinProject permissionsMethod params
      root = none)
    (haccepted : validateCodexServerResult
      { checks with permissionResult := validatePermissionResult } permissionsMethod params result =
        .ok answer) :
    files.GrantConfined root answer ↔ files.NoLinkOut root answer := by
  constructor
  · rintro ⟨_, hpaths⟩ path project hmem hproject _
    obtain ⟨path', project', hpath', hproject', hstays⟩ := hpaths _ hmem
    cases hpath'
    rw [hproject] at hproject'
    cases hproject'
    exact HostFiles.leadsWithin_of_staysWithin hstays
  · intro hlinks
    obtain ⟨hresult, rfl⟩ := permissionResult_of_accepted haccepted
    obtain ⟨granted, hgranted, rfl | hprojected⟩ := granted_of_validatePermissionResult hresult
    · rw [HostFiles.GrantConfined, hgranted]
      exact ⟨rfl, fun e he ↦ absurd he List.not_mem_nil⟩
    rw [HostFiles.NoLinkOut, hgranted, Option.getD_some] at hlinks
    rw [HostFiles.GrantConfined, hgranted, Option.getD_some,
      networkGranted_projectPermissions hprojected]
    rw [grantedPaths_projectPermissions hprojected] at hlinks ⊢
    rw [enforcedPermissionDenial, if_pos rfl] at hdenial
    cases hrequest : params.get "permissions" with
    | none =>
      rw [hrequest] at hprojected
      exact absurd hprojected nofun
    | some permissions =>
      rw [hrequest] at hdenial hlinks
      dsimp only at hdenial
      rw [Option.getD_some] at hlinks ⊢
      split at hdenial
      · exact absurd hdenial nofun
      · rename_i hnetwork
        split at hdenial
        · exact absurd hdenial nofun
        · rename_i hfiles
          refine ⟨decide_eq_false hnetwork, fun e he ↦ ?_⟩
          have hwithin : filesystemPermissionsWithinProject files.permissionPathIsWithinProject root
              permissions = true := by
            by_contra hne
            exact hfiles (by rw [eq_false_of_ne_true hne]; rfl)
          obtain ⟨path, rfl, hpath⟩ :=
            within_of_filesystemPermissionsWithinProject hwithin e he
          obtain ⟨project, ancestor, place, hproject, hparent, hancestor, hplace, hsuffix⟩ :=
            HostFiles.of_permissionPathIsWithinProject hpath
          exact ⟨path, project, rfl, hproject, HostFiles.staysWithin_of_ancestor hparent hancestor
            hplace hsuffix (hlinks path project he hproject)⟩

/-- `/project` with the links `docs`, to a missing directory inside, and `out`, to one outside. -/
private def linkedNodes : List (List String × LinkTree.Node String) :=
  [([], .dir), (["project"], .dir), (["outside"], .dir),
    (["docs", "project"], .link ⟨false, [.normal "build", .normal "docs"]⟩),
    (["out", "project"], .link ⟨true, [.normal "outside", .normal "new"]⟩)]

private def linkedFiles : HostFiles where
  tree := .ofNodes linkedNodes 40 (by decide) (by decide)
  workingDirectory := []

private def anyChecks : RequestChecks where
  projects _ _ := true
  permissionResult _ _ := .ok ()
  userInputResult _ _ := .ok ()
  mcpResult _ _ := .ok ()
  size _ := 0

/-- The parameters of a request to read a path, and an answer that grants it. -/
private def readProfile (path : String) : Value :=
  .object [("permissions", .object [("fileSystem", .object [("read", .array [.string path])])])]

theorem grants_stay_within_iff_docs :
    linkedFiles.GrantConfined (some "/project") (readProfile "docs/index.md") := by
  refine (grants_stay_within_iff anyChecks (readProfile "docs/index.md")
    (readProfile "docs/index.md") (by decide +kernel) (by rfl)).mpr ?_
  intro path project hmem hproject _
  have hproject' : project = ["project"] :=
    Option.some.inj (hproject.symm.trans (by decide +kernel))
  have hpath : some path = some "docs/index.md" :=
    List.mem_singleton.mp (show some path ∈ [some "docs/index.md"] from hmem)
  cases hpath
  rw [hproject']
  decide +kernel

/-- A link to a file that is not there yet is granted, and leads out once the file is made. -/
theorem grant_leads_out :
    enforcedPermissionDenial linkedFiles.permissionPathIsWithinProject permissionsMethod
        (readProfile "out") (some "/project") = none ∧
      validateCodexServerResult { anyChecks with permissionResult := validatePermissionResult }
        permissionsMethod (readProfile "out") (readProfile "out") = .ok (readProfile "out") ∧
      ¬linkedFiles.GrantConfined (some "/project") (readProfile "out") := by
  refine ⟨by decide +kernel, by rfl, fun hconfined ↦ ?_⟩
  obtain ⟨path, project, hpath, hproject, hstays⟩ := hconfined.2 (some "out") (by decide +kernel)
  cases hpath
  have hproject' : project = ["project"] :=
    Option.some.inj (hproject.symm.trans (by decide +kernel))
  have hlater : Extends linkedFiles.tree
      (.ofNodes (linkedNodes ++ [(["new", "outside"], .file)]) 40 (by decide) (by decide)) :=
    LinkTree.ofNodes_extends (by decide) (by decide) (by decide) (by decide) fun e he target ↦ by
      rw [List.mem_singleton.mp he]
      exact nofun
  rw [hproject'] at hstays
  exact absurd (hstays _ hlater ["new", "outside"] (by decide +kernel)) (by decide)

end MultAIplayer.Native
