import MultAIplayer.Native.CodexRequests
import MultAIplayer.Native.Validation
import Mathlib.Algebra.Ring.Int.Defs

/-!
# Permission profiles

`project_permissions`, the profile that a permission request is shown and granted by, and
`validate_permission_result`, the check of an answer: an answer grants nothing, or the projected
profile. The fields of an object stand in the order of their keys, in which a `Map` keeps them.

What a profile grants (`grantedPaths`) is what the request names, and `enforcedPermissionDenial` has
looked at all of it.
-/

namespace MultAIplayer.Native

def maxPermissionItems : ℕ := 100
def maxPermissionPathChars : ℕ := 4096

def boundedPermissionText (value : Value) (max : ℕ) : Except String Value :=
  match value.asStr with
  | none => .error "Permission path must be text"
  | some text =>
    if max < text.length || text.toList.any isControl then
      .error "Permission path exceeds supported bounds"
    else .ok (.string text)

/-- A field of a projected object, left out where there is nothing to project. -/
@[grind =] def projectField {α : Type} (key : String) (project : α → Except String Value) :
    Option α → Except String (List (String × Value))
  | none => .ok []
  | some a => (project a).map fun value ↦ [(key, value)]

def projectPaths (items : List Value) : Except String Value :=
  if maxPermissionItems < items.length then .error "Permission path list is too large"
  else (items.mapM fun item ↦ boundedPermissionText item maxPermissionPathChars).map .array

def projectDepth (depth : ℤ) : Except String Value :=
  if depth = 0 ∨ 2 ^ 32 - 1 < depth then .error "Permission glob scan depth is invalid"
  else .ok (.integer depth)

def specialKinds : List String :=
  ["root", "minimal", "project_roots", "tmpdir", "slash_tmp", "unknown"]

def projectSpecial (special : Value) : Except String Value :=
  match (special.strAt "kind").filter fun kind ↦ kind ∈ specialKinds with
  | none => .error "Special permission path kind is invalid"
  | some kind => do
    let path ← projectField "path" (boundedPermissionText · maxPermissionPathChars)
      (special.get "path")
    let subpath ← projectField "subpath" (boundedPermissionText · maxPermissionPathChars)
      (special.get "subpath")
    return .object (("kind", .string kind) :: (path ++ subpath))

def projectPermissionPath (path : Value) : Except String Value :=
  match path.strAt "type" with
  | some "path" => do
    let text ← boundedPermissionText ((path.get "path").getD .null) maxPermissionPathChars
    return .object [("path", text), ("type", .string "path")]
  | some "glob_pattern" => do
    let text ← boundedPermissionText ((path.get "pattern").getD .null) maxPermissionPathChars
    return .object [("pattern", text), ("type", .string "glob_pattern")]
  | some "special" =>
    match (path.get "value").bind Value.asObject with
    | none => .error "Special permission path is invalid"
    | some special => do
      let special ← projectSpecial (.object special)
      return .object [("type", .string "special"), ("value", special)]
  | _ => .error "Permission entry path type is invalid"

def projectPermissionEntry (entry : Value) : Except String Value :=
  match entry.asObject with
  | none => .error "Permission entry must be an object"
  | some _ =>
    match (entry.strAt "access").filter fun access ↦ access ∈ ["read", "write", "deny"] with
    | none => .error "Permission entry access is invalid"
    | some access =>
      match (entry.get "path").bind Value.asObject with
      | none => .error "Permission entry path is invalid"
      | some path => do
        let path ← projectPermissionPath (.object path)
        return .object [("access", .string access), ("path", path)]

def projectEntries (entries : List Value) : Except String Value :=
  if maxPermissionItems < entries.length then .error "Permission entry list is too large"
  else (entries.mapM projectPermissionEntry).map .array

def projectNetwork (network : List (String × Value)) : Except String Value :=
  projectField "enabled" (fun enabled ↦ .ok (.bool enabled))
    (((Value.object network).get "enabled").bind Value.asBool) |>.map .object

def projectFiles (files : List (String × Value)) : Except String Value := do
  let read ← projectField "read" projectPaths (((Value.object files).get "read").bind Value.asArray)
  let write ← projectField "write" projectPaths
    (((Value.object files).get "write").bind Value.asArray)
  let depth ← projectField "globScanMaxDepth" projectDepth
    (((Value.object files).get "globScanMaxDepth").bind Value.asU64)
  let entries ← projectField "entries" projectEntries
    (((Value.object files).get "entries").bind Value.asArray)
  return .object (entries ++ depth ++ read ++ write)

def projectPermissions (value : Value) : Except String Value :=
  match value.asObject with
  | none => .error "Permission profile must be an object"
  | some _ => do
    let network ← projectField "network" projectNetwork ((value.get "network").bind Value.asObject)
    let files ← projectField "fileSystem" projectFiles
      ((value.get "fileSystem").bind Value.asObject)
    return .object (files ++ network)

def validatePermissionResult (params result : Value) : Except String Unit :=
  match (result.get "permissions").bind Value.asObject with
  | none => .error "Codex permission response is missing permissions"
  | some granted => do
    let requested ← projectPermissions ((params.get "permissions").getD .null)
    match requested.asObject with
    | none => .error "Codex requested permission profile is invalid"
    | some requested =>
      if !granted.isEmpty && Value.object granted ≠ Value.object requested then
        .error "Codex permission grants must match the requested profile"
      else if (result.strAt "scope").any fun scope ↦ scope ∉ ["turn", "session"] then
        .error "Codex permission scope is invalid"
      else if (result.asObject.getD []).any fun field ↦
          field.1 ∉ ["permissions", "scope", "strictAutoReview"] then
        .error "Codex permission response contains unsupported fields"
      else .ok ()

/-! ### What a profile grants -/

/-- The items of a list of a profile's `fileSystem`. -/
def fileItems (permissions : Value) (key : String) : List Value :=
  ((permissions.pointer ["fileSystem", key]).bind Value.asArray).getD []

/-- The path of an entry of the type `path`. -/
def entryPath (entry : Value) : Option String :=
  if (entry.pointer ["path", "type"]).bind Value.asStr = some "path" then
    (entry.pointer ["path", "path"]).bind Value.asStr
  else none

def isDenied (entry : Value) : Bool := entry.strAt "access" = some "deny"

/-- What is granted to be read or written, each with the path that it names, if it names one. -/
def grantedPaths (permissions : Value) : List (Option String) :=
  ((fileItems permissions "read").map Value.asStr ++
    (fileItems permissions "write").map Value.asStr) ++
      ((fileItems permissions "entries").filter fun entry ↦ !isDenied entry).map entryPath

def networkGranted (permissions : Value) : Bool :=
  (permissions.pointer ["network", "enabled"]).bind Value.asBool = some true

/-! ### The projection keeps what is granted -/

variable {α β : Type} {key : String} {fields : List (String × Value)} {value projected : Value}

theorem lookup_projectField {project : α → Except String Value} {o : Option α}
    (h : projectField key project o = .ok fields) :
    fields.lookup key = o.bind fun a ↦ (project a).toOption := by
  cases o with
  | none =>
    cases h
    rfl
  | some a =>
    rw [projectField] at h
    show _ = (project a).toOption
    cases hproject : project a with
    | error e => rw [hproject] at h; exact absurd h nofun
    | ok value =>
      rw [hproject] at h
      cases h
      exact List.lookup_cons_self

theorem lookup_projectField_of_ne {project : α → Except String Value} {o : Option α}
    {key' : String} (h : projectField key project o = .ok fields) (hne : key' ≠ key) :
    fields.lookup key' = none := by
  cases o with
  | none =>
    cases h
    rfl
  | some a =>
    rw [projectField] at h
    cases hproject : project a with
    | error e => rw [hproject] at h; exact absurd h nofun
    | ok value =>
      rw [hproject] at h
      cases h
      rw [List.lookup_cons, beq_eq_false_iff_ne.mpr hne]
      rfl

/-- What a projection of each item keeps is kept of the list. -/
theorem map_eq_of_mapM {f : α → Except String β} {γ : Type} {g : α → γ} {g' : β → γ}
    (hf : ∀ a b, f a = .ok b → g' b = g a) :
    ∀ {l : List α} {l' : List β}, l.mapM f = .ok l' → l'.map g' = l.map g := by
  intro l
  induction l with
  | nil =>
    rintro l' h
    cases h
    rfl
  | cons a l ih =>
    intro l' h
    rw [List.mapM_cons] at h
    cases ha : f a with
    | error e => rw [ha] at h; exact absurd h nofun
    | ok b =>
      cases hl : l.mapM f with
      | error e => rw [ha, hl] at h; exact absurd h nofun
      | ok l'' =>
        rw [ha, hl] at h
        cases h
        rw [List.map_cons, List.map_cons, hf a b ha, ih hl]

theorem asStr_of_boundedPermissionText {max : ℕ}
    (h : boundedPermissionText value max = .ok projected) : projected.asStr = value.asStr := by
  rw [boundedPermissionText] at h
  split at h
  · exact absurd h nofun
  · rename_i text htext
    split at h
    · exact absurd h nofun
    · cases h
      exact htext.symm

theorem asArray_of_projectPaths {items : List Value} (h : projectPaths items = .ok projected) :
    ∃ items', projected.asArray = some items' ∧ items'.map Value.asStr = items.map Value.asStr := by
  rw [projectPaths] at h
  split at h
  · exact absurd h nofun
  · cases hitems : items.mapM fun item ↦ boundedPermissionText item maxPermissionPathChars with
    | error e => rw [hitems] at h; exact absurd h nofun
    | ok items' =>
      rw [hitems] at h
      cases h
      exact ⟨items', rfl, map_eq_of_mapM (fun a b ↦ asStr_of_boundedPermissionText) hitems⟩

theorem entryPath_eq (entry : Value) : entryPath entry = (entry.get "path").bind fun path ↦
    if path.strAt "type" = some "path" then path.strAt "path" else none := by
  have hpointer : ∀ key, (entry.pointer ["path", key]).bind Value.asStr =
      (entry.get "path").bind fun path ↦ path.strAt key := by
    intro key
    show (((entry.get "path").bind fun path ↦ (path.get key).bind some).bind _) = _
    cases entry.get "path" with
    | none => rfl
    | some path =>
      show ((path.get key).bind some).bind _ = (path.get key).bind Value.asStr
      cases path.get key <;> rfl
  by_cases htype : ((entry.get "path").bind fun path ↦ path.strAt "type") = some "path"
  · rw [entryPath, if_pos ((hpointer "type").trans htype), hpointer]
    cases hpath : entry.get "path" with
    | none => rfl
    | some path =>
      rw [hpath] at htype
      exact (if_pos htype).symm
  · rw [entryPath, if_neg fun h ↦ htype ((hpointer "type").symm.trans h)]
    cases hpath : entry.get "path" with
    | none => rfl
    | some path =>
      rw [hpath] at htype
      exact (if_neg htype).symm

theorem pathText_projectPermissionPath (h : projectPermissionPath value = .ok projected) :
    (if projected.strAt "type" = some "path" then projected.strAt "path" else none) =
      if value.strAt "type" = some "path" then value.strAt "path" else none := by
  rw [projectPermissionPath] at h
  split at h
  · rename_i htype
    rw [htype, if_pos rfl]
    cases htext : boundedPermissionText ((value.get "path").getD .null)
        maxPermissionPathChars with
    | error e => rw [htext] at h; exact absurd h nofun
    | ok text =>
      rw [htext] at h
      cases h
      show text.asStr = _
      rw [asStr_of_boundedPermissionText htext, Value.strAt]
      cases value.get "path" <;> rfl
  · rename_i htype
    have hne : some "glob_pattern" ≠ some "path" := by decide
    rw [htype, if_neg hne]
    cases htext : boundedPermissionText ((value.get "pattern").getD .null)
        maxPermissionPathChars with
    | error e => rw [htext] at h; exact absurd h nofun
    | ok text =>
      rw [htext] at h
      cases h
      rfl
  · rename_i htype
    have hne : some "special" ≠ some "path" := by decide
    rw [htype, if_neg hne]
    split at h
    · exact absurd h nofun
    · rename_i special _
      cases hspecial : projectSpecial (.object special) with
      | error e => rw [hspecial] at h; exact absurd h nofun
      | ok special' =>
        rw [hspecial] at h
        cases h
        rfl
  · exact absurd h nofun

theorem of_projectPermissionEntry (h : projectPermissionEntry value = .ok projected) :
    (isDenied projected, entryPath projected) = (isDenied value, entryPath value) := by
  rw [projectPermissionEntry] at h
  split at h
  · exact absurd h nofun
  · split at h
    · exact absurd h nofun
    · rename_i access haccess
      split at h
      · exact absurd h nofun
      · rename_i fields hfields
        cases hpath : projectPermissionPath (.object fields) with
        | error e => rw [hpath] at h; exact absurd h nofun
        | ok path =>
          rw [hpath] at h
          cases h
          have hget : value.get "path" = some (.object fields) := by
            obtain ⟨path, hpath, hobject⟩ := Option.bind_eq_some_iff.mp hfields
            rw [hpath, Value.eq_object_of_asObject hobject]
          have hentry : entryPath value = _ := (entryPath_eq value).trans (by rw [hget])
          rw [hentry, isDenied, isDenied, (Option.filter_eq_some_iff.mp haccess).1]
          refine Prod.ext rfl ?_
          rw [entryPath_eq]
          exact pathText_projectPermissionPath hpath

theorem asArray_of_projectEntries {items : List Value} (h : projectEntries items = .ok projected) :
    ∃ items', projected.asArray = some items' ∧
      (items'.map fun entry ↦ (isDenied entry, entryPath entry)) =
        items.map fun entry ↦ (isDenied entry, entryPath entry) := by
  rw [projectEntries] at h
  split at h
  · exact absurd h nofun
  · cases hitems : items.mapM projectPermissionEntry with
    | error e => rw [hitems] at h; exact absurd h nofun
    | ok items' =>
      rw [hitems] at h
      cases h
      exact ⟨items', rfl, map_eq_of_mapM (fun a b ↦ of_projectPermissionEntry) hitems⟩

/-- A list of a projected profile, by what is read of its items. -/
theorem map_projectField {γ : Type} {g : Value → γ} {project : List Value → Except String Value}
    (hproject : ∀ items list, project items = .ok list →
      ∃ items', list.asArray = some items' ∧ items'.map g = items.map g)
    {o : Option (List Value)} (h : projectField key project o = .ok fields) :
    (((fields.lookup key).bind Value.asArray).getD []).map g = (o.getD []).map g := by
  cases o with
  | none =>
    cases h
    rfl
  | some items =>
    rw [projectField] at h
    cases hlist : project items with
    | error e => rw [hlist] at h; exact absurd h nofun
    | ok list =>
      rw [hlist] at h
      cases h
      obtain ⟨items', hitems', hmap⟩ := hproject items list hlist
      rw [List.lookup_cons_self, Option.bind_some, hitems']
      exact hmap

theorem projectFiles_fields {files : Value} (h : projectFiles fields = .ok files) :
    ∃ read write entries,
      projectField "read" projectPaths (((Value.object fields).get "read").bind Value.asArray) =
        .ok read ∧
      projectField "write" projectPaths (((Value.object fields).get "write").bind Value.asArray) =
        .ok write ∧
      projectField "entries" projectEntries
        (((Value.object fields).get "entries").bind Value.asArray) = .ok entries ∧
      files.get "read" = read.lookup "read" ∧ files.get "write" = write.lookup "write" ∧
      files.get "entries" = entries.lookup "entries" := by
  rw [projectFiles] at h
  cases hread : projectField "read" projectPaths
      (((Value.object fields).get "read").bind Value.asArray) with
  | error e => rw [hread] at h; exact absurd h nofun
  | ok read =>
  cases hwrite : projectField "write" projectPaths
      (((Value.object fields).get "write").bind Value.asArray) with
  | error e => rw [hread, hwrite] at h; exact absurd h nofun
  | ok write =>
  cases hdepth : projectField "globScanMaxDepth" projectDepth
      (((Value.object fields).get "globScanMaxDepth").bind Value.asU64) with
  | error e => rw [hread, hwrite, hdepth] at h; exact absurd h nofun
  | ok depth =>
  cases hentries : projectField "entries" projectEntries
      (((Value.object fields).get "entries").bind Value.asArray) with
  | error e => rw [hread, hwrite, hdepth, hentries] at h; exact absurd h nofun
  | ok entries =>
    rw [hread, hwrite, hdepth, hentries] at h
    cases h
    have hget : ∀ key, (Value.object (entries ++ depth ++ read ++ write)).get key =
        (((entries.lookup key).or (depth.lookup key)).or (read.lookup key)).or
          (write.lookup key) := fun key ↦ by
      rw [Value.get, List.lookup_append, List.lookup_append, List.lookup_append]
    refine ⟨read, write, entries, rfl, rfl, rfl, ?_, ?_, ?_⟩
    · rw [hget, lookup_projectField_of_ne hentries (by decide),
        lookup_projectField_of_ne hdepth (by decide),
        lookup_projectField_of_ne hwrite (by decide), Option.or_none]
      rfl
    · rw [hget, lookup_projectField_of_ne hentries (by decide),
        lookup_projectField_of_ne hdepth (by decide),
        lookup_projectField_of_ne hread (by decide)]
      rfl
    · rw [hget, lookup_projectField_of_ne hdepth (by decide),
        lookup_projectField_of_ne hread (by decide),
        lookup_projectField_of_ne hwrite (by decide), Option.or_none, Option.or_none,
        Option.or_none]

/-- What is granted, of the `fileSystem` of a profile. -/
@[grind =] def grantedFiles (files : Value) : List (Option String) :=
  ((((files.get "read").bind Value.asArray).getD []).map Value.asStr ++
    (((files.get "write").bind Value.asArray).getD []).map Value.asStr) ++
      ((((files.get "entries").bind Value.asArray).getD []).filter
        fun entry ↦ !isDenied entry).map entryPath

theorem grantedPaths_eq (permissions : Value) :
    grantedPaths permissions = ((permissions.get "fileSystem").map grantedFiles).getD [] := by
  have hitems : ∀ key, fileItems permissions key = (((permissions.get "fileSystem").bind
      fun files ↦ (files.get key).bind Value.asArray).getD []) := by
    intro key
    show ((((permissions.get "fileSystem").bind fun files ↦ (files.get key).bind some).bind
      Value.asArray).getD []) = _
    cases permissions.get "fileSystem" with
    | none => rfl
    | some files =>
      show (((files.get key).bind some).bind Value.asArray).getD [] =
        ((files.get key).bind Value.asArray).getD []
      cases files.get key <;> rfl
  rw [grantedPaths, hitems, hitems, hitems]
  cases permissions.get "fileSystem" <;> rfl

theorem map_filter_isDenied (entries : List Value) :
    (entries.filter fun entry ↦ !isDenied entry).map entryPath =
      ((entries.map fun entry ↦ (isDenied entry, entryPath entry)).filter
        fun entry ↦ !entry.1).map Prod.snd := by
  rw [List.filter_map, List.map_map]
  rfl

theorem grantedFiles_projectFiles {files : Value} (h : projectFiles fields = .ok files) :
    grantedFiles files = grantedFiles (.object fields) := by
  obtain ⟨read, write, entries, hread, hwrite, hentries, hgetRead, hgetWrite, hgetEntries⟩ :=
    projectFiles_fields h
  rw [grantedFiles, grantedFiles, hgetRead, hgetWrite, hgetEntries, map_filter_isDenied,
    map_filter_isDenied, map_projectField (fun _ _ ↦ asArray_of_projectPaths) hread,
    map_projectField (fun _ _ ↦ asArray_of_projectPaths) hwrite,
    map_projectField (fun _ _ ↦ asArray_of_projectEntries) hentries]

theorem grantedFiles_of_asObject_none (h : value.asObject = none) : grantedFiles value = [] := by
  rw [grantedFiles, Value.get_of_asObject_none h, Value.get_of_asObject_none h, Value.get_of_asObject_none h]
  rfl

theorem projectPermissions_fields (h : projectPermissions value = .ok projected) :
    ∃ network files,
      projectField "network" projectNetwork ((value.get "network").bind Value.asObject) =
        .ok network ∧
      projectField "fileSystem" projectFiles ((value.get "fileSystem").bind Value.asObject) =
        .ok files ∧
      projected.get "network" = network.lookup "network" ∧
      projected.get "fileSystem" = files.lookup "fileSystem" := by
  rw [projectPermissions] at h
  split at h
  · exact absurd h nofun
  cases hnetwork : projectField "network" projectNetwork
      ((value.get "network").bind Value.asObject) with
  | error e => rw [hnetwork] at h; exact absurd h nofun
  | ok network =>
  cases hfiles : projectField "fileSystem" projectFiles
      ((value.get "fileSystem").bind Value.asObject) with
  | error e => rw [hnetwork, hfiles] at h; exact absurd h nofun
  | ok files =>
    rw [hnetwork, hfiles] at h
    cases h
    refine ⟨network, files, rfl, rfl, ?_, ?_⟩
    · rw [Value.get, List.lookup_append, lookup_projectField_of_ne hfiles (by decide),
        Option.none_or]
    · rw [Value.get, List.lookup_append, lookup_projectField_of_ne hnetwork (by decide),
        Option.or_none]

/-- The projection of a profile grants what the profile names. -/
theorem grantedPaths_projectPermissions (h : projectPermissions value = .ok projected) :
    grantedPaths projected = grantedPaths value := by
  obtain ⟨_, files, _, hfiles, _, hget⟩ := projectPermissions_fields h
  rw [grantedPaths_eq, grantedPaths_eq, hget]
  cases hvalue : value.get "fileSystem" with
  | none =>
    rw [hvalue] at hfiles
    cases hfiles
    rfl
  | some profile =>
    rw [hvalue, Option.bind_some] at hfiles
    show _ = grantedFiles profile
    cases hobject : profile.asObject with
    | none =>
      rw [hobject] at hfiles
      cases hfiles
      exact (grantedFiles_of_asObject_none hobject).symm
    | some fields =>
      rw [hobject, projectField] at hfiles
      cases hproject : projectFiles fields with
      | error e => rw [hproject] at hfiles; exact absurd hfiles nofun
      | ok profile' =>
        rw [hproject] at hfiles
        cases hfiles
        rw [Value.eq_object_of_asObject hobject]
        exact grantedFiles_projectFiles hproject

theorem networkGranted_eq (permissions : Value) : networkGranted permissions = decide
    (((permissions.get "network").bind fun network ↦
      (network.get "enabled").bind Value.asBool) = some true) := by
  have hpointer : (permissions.pointer ["network", "enabled"]).bind Value.asBool =
      (permissions.get "network").bind fun network ↦ (network.get "enabled").bind Value.asBool := by
    show ((permissions.get "network").bind fun network ↦
      (network.get "enabled").bind some).bind Value.asBool = _
    cases permissions.get "network" with
    | none => rfl
    | some network =>
      show ((network.get "enabled").bind some).bind _ = (network.get "enabled").bind _
      cases network.get "enabled" <;> rfl
  rw [networkGranted, hpointer]

/-- The projection of a profile grants the network only where the profile does. -/
theorem networkGranted_projectPermissions (h : projectPermissions value = .ok projected) :
    networkGranted projected = networkGranted value := by
  obtain ⟨network, _, hnetwork, _, hget, _⟩ := projectPermissions_fields h
  rw [networkGranted_eq, networkGranted_eq, hget]
  cases hvalue : value.get "network" with
  | none =>
    rw [hvalue] at hnetwork
    cases hnetwork
    rfl
  | some profile =>
    rw [hvalue, Option.bind_some] at hnetwork
    cases hobject : profile.asObject with
    | none =>
      rw [hobject] at hnetwork
      cases hnetwork
      rw [Option.bind_some, Value.get_of_asObject_none hobject]
      rfl
    | some fields =>
      rw [hobject] at hnetwork
      rw [Value.eq_object_of_asObject hobject]
      cases henabled : ((Value.object fields).get "enabled").bind Value.asBool with
      | none =>
        rw [projectField, projectNetwork, henabled] at hnetwork
        cases hnetwork
        rw [Option.bind_some, henabled]
        rfl
      | some enabled =>
        rw [projectField, projectNetwork, henabled] at hnetwork
        cases hnetwork
        rw [Option.bind_some, henabled]
        rfl

/-! ### What was looked at -/

variable {within : PathWithin} {root : Option String}

theorem within_of_pathsWithin {files : Value} (h : pathsWithin within root files key = true) :
    ∀ e ∈ (((files.get key).bind Value.asArray).getD []).map Value.asStr,
      ∃ path, e = some path ∧ within path root = true := by
  intro e he
  rw [pathsWithin] at h
  cases hget : files.get key with
  | none =>
    rw [hget] at he
    exact absurd he List.not_mem_nil
  | some list =>
    rw [hget] at h he
    cases hlist : list.asArray with
    | none =>
      rw [Option.bind_some, hlist] at he
      exact absurd he List.not_mem_nil
    | some items =>
      rw [Option.bind_some, hlist] at he
      simp only [hlist] at h
      obtain ⟨item, hitem, rfl⟩ := List.mem_map.mp he
      have hany := List.all_eq_true.mp h item hitem
      obtain ⟨path, hpath, hwithin⟩ := (Option.any_eq_true _ _).mp hany
      exact ⟨path, hpath, hwithin⟩

/-- Each path that a profile grants has passed the check of paths. -/
theorem within_of_filesystemPermissionsWithinProject
    (h : filesystemPermissionsWithinProject within root value = true) :
    ∀ e ∈ grantedPaths value, ∃ path, e = some path ∧ within path root = true := by
  intro e he
  rw [grantedPaths_eq] at he
  rw [filesystemPermissionsWithinProject] at h
  cases hfiles : value.get "fileSystem" with
  | none =>
    rw [hfiles] at he
    exact absurd he List.not_mem_nil
  | some files =>
    rw [hfiles] at h he
    simp only [Bool.and_eq_true] at h
    obtain ⟨⟨⟨_, hread⟩, hwrite⟩, hentries⟩ := h
    replace he : e ∈ grantedFiles files := he
    rw [grantedFiles, List.mem_append, List.mem_append] at he
    rcases he with (he | he) | he
    · exact within_of_pathsWithin hread e he
    · exact within_of_pathsWithin hwrite e he
    · obtain ⟨entry, hentry, rfl⟩ := List.mem_map.mp he
      rw [List.mem_filter] at hentry
      cases hget : files.get "entries" with
      | none =>
        rw [hget] at hentry
        exact absurd hentry.1 List.not_mem_nil
      | some list =>
        rw [hget] at hentry hentries
        cases hlist : list.asArray with
        | none =>
          rw [Option.bind_some, hlist] at hentry
          exact absurd hentry.1 List.not_mem_nil
        | some items =>
          rw [Option.bind_some, hlist] at hentry
          simp only [hlist] at hentries
          have hall := List.all_eq_true.mp hentries entry hentry.1
          rw [Bool.or_eq_true, Bool.and_eq_true, decide_eq_true_iff, decide_eq_true_iff] at hall
          rcases hall with hdeny | ⟨htype, hpath⟩
          · have hkept := hentry.2
            rw [isDenied, Value.strAt, decide_eq_true hdeny] at hkept
            exact absurd hkept Bool.false_ne_true
          · obtain ⟨path, hpath, hwithin⟩ := (Option.any_eq_true _ _).mp hpath
            refine ⟨path, ?_, hwithin⟩
            rw [entryPath, if_pos htype]
            exact hpath

end MultAIplayer.Native
