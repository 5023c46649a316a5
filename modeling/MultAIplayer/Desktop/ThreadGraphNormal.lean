import Mathlib.Data.List.Perm.Basic
import MultAIplayer.Desktop.CodexThreadGraphs

/-!
# Normalizing a thread graph again

A node that was read is read again as it is (`normalizeNode_toJson`), and at most 160 nodes are
kept, so a graph that was normalized stays the same when it is normalized once more, up to the order
in which its nodes are listed (`normalizeCodexThreadGraph_again`).
-/

namespace MultAIplayer.Desktop

/-- Two graphs with the same active thread and the same nodes, in any order. -/
structure CodexThreadGraph.Same (a b : CodexThreadGraph) : Prop where
  active : a.activeThreadId = b.activeThreadId
  nodes : ∀ id, a.nodesById.get id = b.nodesById.get id

/-! ### Nodes -/

theorem normalizeTitle_of_normal {chars : List Char}
    (hcontrol : ∀ c ∈ chars, isControlCharacter c = false)
    (hlength : chars.length ≤ maxCodexThreadIdChars)
    (htrim : Text.trim (String.ofList chars) = String.ofList chars)
    (hne : String.ofList chars ≠ "") :
    normalizeTitle (some (.string (String.ofList chars))) = String.ofList chars := by
  unfold normalizeTitle
  dsimp only
  have hkept : ((String.ofList chars).toList.filter fun c ↦ !isControlCharacter c).take
      maxCodexThreadIdChars = chars := by
    rw [String.toList_ofList, List.filter_eq_self.mpr fun c hc ↦ by rw [hcontrol c hc]; rfl]
    exact List.take_of_length_le hlength
  rw [hkept, htrim, if_neg hne]

theorem normalizeTitle_default : normalizeTitle (some (.string "Codex thread")) = "Codex thread" := by
  decide

theorem normalizeTitle_again (value : Option JsonValue) :
    normalizeTitle (some (.string (normalizeTitle value))) = normalizeTitle value := by
  rcases value with _ | value
  · exact normalizeTitle_default
  cases value
  case string text =>
    set kept := (text.toList.filter fun c ↦ !isControlCharacter c).take maxCodexThreadIdChars
      with hkept
    have hvalue : normalizeTitle (some (.string text)) =
        if Text.trim (String.ofList kept) = "" then "Codex thread"
        else Text.trim (String.ofList kept) := rfl
    rw [hvalue]
    by_cases hempty : Text.trim (String.ofList kept) = ""
    · rw [if_pos hempty]
      exact normalizeTitle_default
    · rw [if_neg hempty]
      have hchars : (Text.trim (String.ofList kept)).toList.Sublist kept := by
        unfold Text.trim
        rw [String.toList_ofList, String.toList_ofList]
        exact (List.rdropWhile_prefix _ _).sublist.trans (List.dropWhile_sublist _)
      have hmem : ∀ c ∈ (Text.trim (String.ofList kept)).toList, isControlCharacter c = false := by
        intro c hc
        have hfilter := List.mem_of_mem_take (hchars.subset hc)
        rw [List.mem_filter, Bool.not_eq_true'] at hfilter
        exact hfilter.2
      have hlength : (Text.trim (String.ofList kept)).toList.length ≤ maxCodexThreadIdChars :=
        hchars.length_le.trans (List.length_take_le _ _)
      have hofList : String.ofList (Text.trim (String.ofList kept)).toList =
          Text.trim (String.ofList kept) := String.ofList_toList
      have hnormal := normalizeTitle_of_normal hmem hlength
        (by rw [hofList, Text.trim_trim]) (by rw [hofList]; exact hempty)
      rw [hofList] at hnormal
      exact hnormal
  all_goals exact normalizeTitle_default

/-- A node that was read: it is written in the form in which it is read. -/
structure CodexThreadGraphNode.IsNormal (node : CodexThreadGraphNode) : Prop
    extends node.IsRead where
  session : normalizeCodexThreadId (node.sessionId.map JsonValue.string) = node.sessionId
  parent : normalizeCodexThreadId (node.parentThreadId.map JsonValue.string) = node.parentThreadId
  title : normalizeTitle (some (.string node.title)) = node.title

theorem normalizeCodexThreadId_map (value : Option JsonValue) :
    normalizeCodexThreadId ((normalizeCodexThreadId value).map JsonValue.string) =
      normalizeCodexThreadId value := by
  cases h : normalizeCodexThreadId value with
  | none => rfl
  | some id => exact normalizeCodexThreadId_idem h

theorem isNormal_of_normalizeNode {value : JsonValue} {node : CodexThreadGraphNode}
    (h : normalizeNode value = some (some node)) : node.IsNormal := by
  have hread := isRead_of_normalizeNode h
  unfold normalizeNode at h
  split at h
  · next fields =>
    split at h
    · exact absurd (Option.some.inj h) (Option.some_ne_none _).symm
    · obtain ⟨text, -, hnode⟩ := Option.map_eq_some_iff.mp h
      obtain rfl := Option.some.inj hnode
      exact ⟨hread, normalizeCodexThreadId_map _, normalizeCodexThreadId_map _,
        normalizeTitle_again _⟩
  · exact absurd (Option.some.inj h) (Option.some_ne_none _).symm

theorem normalizeNode_toJson {node : CodexThreadGraphNode} (h : node.IsNormal) :
    normalizeNode node.toJson = some (some node) := by
  obtain ⟨text, hstatus, htext⟩ := h.status
  have hid := h.id
  have hsession := h.session
  have hparent := h.parent
  have htitle := h.title
  have hcreated := h.createdAt
  have hupdated := h.updatedAt
  obtain ⟨id, sessionId, parentThreadId, title, status, createdAt, updatedAt⟩ := node
  dsimp only at htext hid hsession hparent htitle hcreated hupdated
  have htime : ∀ n : ℕ, isSafeTimestamp (some (.integer n)) = true →
      safeTimestamp (some (.integer n)) = n := fun n hn ↦ by
    unfold safeTimestamp
    dsimp only
    rw [if_pos hn, Int.toNat_natCast]
  cases sessionId <;> cases parentThreadId <;>
    simp_all [normalizeNode, CodexThreadGraphNode.toJson, List.lookup, propertyText]

/-! ### Graphs -/

theorem ownEntries_perm {β : Type} (fields : List (String × β)) :
    (ownEntries fields).Perm fields := by
  have hindexed : ((fields.filterMap fun field ↦ (arrayIndex field.1).map (·, field)).map Prod.snd) =
      fields.filter fun field ↦ (arrayIndex field.1).isSome := by
    induction fields with
    | nil => rfl
    | cons field fields ih =>
      cases hindex : arrayIndex field.1 with
      | none => rw [List.filterMap_cons_none (by rw [hindex]; rfl), ih,
          List.filter_cons_of_neg (by rw [hindex]; exact Bool.false_ne_true)]
      | some n => rw [List.filterMap_cons_some (by rw [hindex]; rfl), List.map_cons, ih,
          List.filter_cons_of_pos (by rw [hindex]; rfl)]
  have hnone : (fields.filter fun field ↦ (arrayIndex field.1).isNone) =
      fields.filter fun field ↦ !(arrayIndex field.1).isSome :=
    List.filter_congr fun field _ ↦ by rw [Option.not_isSome]
  unfold ownEntries
  dsimp only
  rw [hnone]
  refine List.Perm.trans ?_ (List.filter_append_perm (fun field ↦ (arrayIndex field.1).isSome) fields)
  refine List.Perm.append_right _ ?_
  rw [← hindexed]
  exact (List.mergeSort_perm _ _).map _

/-- Nodes that are written are read again, all of them if they are not too many. -/
theorem newestNodes_toJson {values : List JsonValue} {nodes : List CodexThreadGraphNode}
    (hnormal : ∀ node ∈ nodes, node.IsNormal) (hlength : nodes.length ≤ maxCodexThreadGraphNodes)
    (hvalues : values.Perm (nodes.map CodexThreadGraphNode.toJson)) :
    ∃ bounded, newestNodes values = some bounded ∧ bounded.Perm nodes := by
  have hwritten : List.Forall₂ (fun value node ↦ value = CodexThreadGraphNode.toJson node)
      (nodes.map CodexThreadGraphNode.toJson) nodes :=
    List.forall₂_map_left_iff.mpr (List.forall₂_same.mpr fun _ _ ↦ rfl)
  obtain ⟨listed, hlisted, hperm⟩ := List.perm_comp_forall₂ hvalues hwritten
  have hread : values.mapM normalizeNode = some (listed.map some) := by
    have hall : ∀ node ∈ listed, node.IsNormal := fun node hnode ↦ hnormal node (hperm.subset hnode)
    clear hperm hvalues
    induction hlisted with
    | nil => rfl
    | cons hvalue _ ih =>
      obtain ⟨hnode, hrest⟩ := List.forall_mem_cons.mp hall
      rw [List.mapM_cons, hvalue, normalizeNode_toJson hnode, ih hrest]
      rfl
  refine ⟨_, Option.map_eq_some_iff.mpr ⟨_, hread, rfl⟩, ?_⟩
  have hsome : (listed.map some).reduceOption = listed := by
    rw [List.reduceOption, List.filterMap_map]
    exact List.filterMap_some
  rw [hsome, List.take_of_length_le]
  · exact (List.mergeSort_perm _ _).trans hperm
  · rw [List.length_mergeSort, hperm.length_eq]
    exact hlength

theorem exists_nodes {entries : List (String × ThreadGraphEntry)}
    (h : ∀ entry ∈ entries, ∃ node : CodexThreadGraphNode,
      node.IsNormal ∧ (node.id, ThreadGraphEntry.node node) = entry) :
    ∃ nodes : List CodexThreadGraphNode, (∀ node ∈ nodes, node.IsNormal) ∧
      entries = nodes.map fun node ↦ (node.id, ThreadGraphEntry.node node) := by
  induction entries with
  | nil => exact ⟨[], List.forall_mem_nil _, rfl⟩
  | cons entry entries ih =>
    obtain ⟨⟨node, hnode, rfl⟩, hrest⟩ := List.forall_mem_cons.mp h
    obtain ⟨nodes, hnodes, rfl⟩ := ih hrest
    exact ⟨node :: nodes, List.forall_mem_cons.mpr ⟨hnode, hnodes⟩, rfl⟩

variable {values : List JsonValue} {bounded : List CodexThreadGraphNode}

theorem newestNodes_isNormal (h : newestNodes values = some bounded) :
    ∀ node ∈ bounded, node.IsNormal := by
  obtain ⟨nodes, hnodes, rfl⟩ := Option.map_eq_some_iff.mp h
  intro node hnode
  have hmem := List.mem_mergeSort.mp (List.mem_of_mem_take hnode)
  obtain ⟨value, _, hvalue⟩ := exists_of_mapM hnodes (List.reduceOption_mem_iff.mp hmem)
  exact isNormal_of_normalizeNode hvalue

/-- The nodes of a graph that was read, as they are listed. -/
theorem graphOfNodes_entries (requestedActive : Option String)
    (hnormal : ∀ node ∈ bounded, node.IsNormal)
    (hlength : bounded.length ≤ maxCodexThreadGraphNodes) :
    ∃ nodes : List CodexThreadGraphNode, (∀ node ∈ nodes, node.IsNormal) ∧
      nodes.length ≤ maxCodexThreadGraphNodes ∧
      (graphOfNodes requestedActive bounded).nodesById.entries =
        nodes.map fun node ↦ (node.id, ThreadGraphEntry.node node) := by
  have hread : ∀ entry ∈ (graphOfNodes requestedActive bounded).nodesById.entries,
      ∃ node : CodexThreadGraphNode,
        node.IsNormal ∧ (node.id, ThreadGraphEntry.node node) = entry := by
    intro entry hentry
    obtain ⟨node, hnode, hid, hvalue⟩ :=
      lookup_graphOfNodes (InsertionMap.mem_entries_iff.mp hentry)
    exact ⟨node, hnormal node hnode, Prod.ext hid hvalue.symm⟩
  obtain ⟨nodes, hnodes, hentries⟩ := exists_nodes hread
  refine ⟨nodes, hnodes, ?_, hentries⟩
  have hsize : (graphOfNodes requestedActive bounded).nodesById.size ≤ bounded.length := by
    refine (size_setAll_empty_le _).trans ?_
    rw [List.length_map]
  rw [InsertionMap.size, hentries, List.length_map] at hsize
  exact hsize.trans hlength

variable {requestedActive : Option String} {id : String}

/-- The active thread is known or the name of something inherited. -/
theorem activeThreadId_known (h : (graphOfNodes requestedActive bounded).activeThreadId = some id) :
    id ∈ bounded.map CodexThreadGraphNode.id ∨ id ∈ objectPrototypeKeys := by
  rw [activeThreadId_graphOfNodes] at h
  split at h
  · split at h
    · next hknown => exact Option.some.inj h ▸ hknown
    · exact Or.inl (head_mem_ids h)
  · exact Or.inl (head_mem_ids h)

theorem activeThreadId_normal (hnormal : ∀ node ∈ bounded, node.IsNormal)
    (hrequested : ∀ id, requestedActive = some id →
      normalizeCodexThreadId (some (.string id)) = some id)
    (h : (graphOfNodes requestedActive bounded).activeThreadId = some id) :
    normalizeCodexThreadId (some (.string id)) = some id := by
  have hread : ∀ node ∈ bounded, node.IsRead := fun node hnode ↦ (hnormal node hnode).toIsRead
  rw [activeThreadId_graphOfNodes] at h
  split at h
  · split at h
    · exact Option.some.inj h ▸ hrequested _ rfl
    · exact normalize_mem_ids hread (head_mem_ids h)
  · exact normalize_mem_ids hread (head_mem_ids h)

theorem graphOfNodes_same {nodes listed : List CodexThreadGraphNode}
    (hentries : (graphOfNodes requestedActive bounded).nodesById.entries =
      nodes.map fun node ↦ (node.id, ThreadGraphEntry.node node))
    (hperm : listed.Perm nodes) :
    (graphOfNodes (graphOfNodes requestedActive bounded).activeThreadId listed).Same
      (graphOfNodes requestedActive bounded) := by
  have hids : ∀ id, id ∈ listed.map CodexThreadGraphNode.id ↔
      id ∈ bounded.map CodexThreadGraphNode.id := by
    intro id
    have hhas : (graphOfNodes requestedActive bounded).nodesById.has id = true ↔ _ :=
      has_graphOfNodes
    rw [← hhas, InsertionMap.has_iff, ← InsertionMap.mem_keys_iff, InsertionMap.keys, hentries,
      List.map_map]
    exact (hperm.map CodexThreadGraphNode.id).mem_iff
  have hget : ∀ active id entry, (graphOfNodes active listed).nodesById.get id = some entry →
      (graphOfNodes requestedActive bounded).nodesById.get id = some entry := by
    intro active id entry hentry
    obtain ⟨node, hnode, rfl, rfl⟩ := lookup_graphOfNodes hentry
    rw [← InsertionMap.mem_entries_iff, hentries]
    exact List.mem_map.mpr ⟨node, hperm.subset hnode, rfl⟩
  refine ⟨?_, fun id ↦ ?_⟩
  · rw [activeThreadId_graphOfNodes]
    rcases hactive : (graphOfNodes requestedActive bounded).activeThreadId with _ | id
    · -- A graph without an active thread has no nodes.
      have hnone : bounded = [] := by
        rw [activeThreadId_graphOfNodes] at hactive
        split at hactive
        · split at hactive
          · exact absurd hactive (Option.some_ne_none _)
          · exact List.head?_eq_none_iff.mp (Option.map_eq_none_iff.mp hactive)
        · exact List.head?_eq_none_iff.mp (Option.map_eq_none_iff.mp hactive)
      have hempty : listed.map CodexThreadGraphNode.id = [] :=
        List.eq_nil_iff_forall_not_mem.mpr fun id hid ↦ by
          rw [hids, hnone] at hid
          exact absurd hid List.not_mem_nil
      rw [List.map_eq_nil_iff.mp hempty]
      rfl
    · exact if_pos ((activeThreadId_known hactive).imp_left (hids id).mpr)
  · rcases hentry : (graphOfNodes (graphOfNodes requestedActive bounded).activeThreadId
        listed).nodesById.get id with _ | entry
    · rcases hother : (graphOfNodes requestedActive bounded).nodesById.get id with _ | other
      · rfl
      · have hmem := (hids id).mpr
          (has_graphOfNodes.mp (InsertionMap.has_iff.mpr ⟨other, hother⟩))
        obtain ⟨entry, hhas⟩ := InsertionMap.has_iff.mp (has_graphOfNodes.mpr hmem)
        exact absurd (hentry.symm.trans hhas) (Option.some_ne_none _).symm
    · exact (hget _ id entry hentry).symm

theorem normalizeCodexThreadGraph_toJson (graph : CodexThreadGraph) :
    normalizeCodexThreadGraph graph.toJson = (newestNodes (objectValues graph.nodeFields)).map
      (graphOfNodes (normalizeCodexThreadId (graph.activeThreadId.map JsonValue.string))) := by
  unfold CodexThreadGraph.toJson
  cases graph.activeThreadId <;> rfl

/-- **Normalizing again.** What was normalized stays the same. -/
theorem normalizeCodexThreadGraph_again {value : JsonValue} {graph : CodexThreadGraph}
    (h : normalizeCodexThreadGraph value = some graph) :
    ∃ again, normalizeCodexThreadGraph graph.toJson = some again ∧ again.Same graph := by
  have hgraph : ∃ requested bounded, graph = graphOfNodes requested bounded ∧
      (∀ node ∈ bounded, node.IsNormal) ∧ bounded.length ≤ maxCodexThreadGraphNodes ∧
      ∀ id, requested = some id → normalizeCodexThreadId (some (.string id)) = some id := by
    cases value with
    | object fields =>
      obtain ⟨bounded, hbounded, rfl⟩ := Option.map_eq_some_iff.mp h
      exact ⟨_, bounded, rfl, newestNodes_isNormal hbounded, length_newestNodes_le hbounded,
        fun id hid ↦ normalizeCodexThreadId_idem hid⟩
    | _ =>
      refine ⟨none, [], (Option.some.inj h).symm, List.forall_mem_nil _, Nat.zero_le _, ?_⟩
      exact fun id hid ↦ absurd hid (Option.some_ne_none id).symm
  obtain ⟨requested, bounded, rfl, hnormal, hlength, hrequested⟩ := hgraph
  obtain ⟨nodes, hnodes, hcount, hentries⟩ := graphOfNodes_entries requested hnormal hlength
  have hvalues : (objectValues (graphOfNodes requested bounded).nodeFields).Perm
      (nodes.map CodexThreadGraphNode.toJson) := by
    refine ((ownEntries_perm _).map _).trans (List.Perm.of_eq ?_)
    rw [CodexThreadGraph.nodeFields, hentries, List.map_map, List.map_map]
    rfl
  obtain ⟨listed, hlisted, hperm⟩ := newestNodes_toJson hnodes hcount hvalues
  have hactive : normalizeCodexThreadId ((graphOfNodes requested bounded).activeThreadId.map
      JsonValue.string) = (graphOfNodes requested bounded).activeThreadId := by
    rcases hactive : (graphOfNodes requested bounded).activeThreadId with _ | id
    · rfl
    · exact activeThreadId_normal hnormal hrequested hactive
  refine ⟨_, ?_, graphOfNodes_same hentries hperm⟩
  rw [normalizeCodexThreadGraph_toJson, hlisted, hactive]
  rfl

end MultAIplayer.Desktop
