import Mathlib.Data.List.ReduceOption
import MultAIplayer.Desktop.CodexThreads
import Mathlib.Computability.Primrec.List

/-!
# Well-formed thread graphs

A graph that is made of nodes that were read is accepted by the check of saved history exactly when
its active thread is one of them (`isCurrent_graphOfNodes`): ids, texts and times of what was read
are in order, and at most 160 nodes are kept. So a graph can fail the check, or lose its active
thread, in three ways only: the id is the name of something inherited, its node is not among the
newest, or a status cannot be converted to a text (`threadGraph_wellFormed`).
-/

namespace MultAIplayer.Desktop

open JsonValue

/-! ### Entries -/

theorem mem_ownEntries {β : Type} {fields : List (String × β)} {field : String × β} :
    field ∈ ownEntries fields ↔ field ∈ fields := by
  unfold ownEntries
  dsimp only
  rw [List.mem_append, List.mem_map, List.mem_filter]
  constructor
  · rintro (⟨⟨n, other⟩, hmem, rfl⟩ | ⟨hmem, -⟩)
    · obtain ⟨source, hsource, hindex⟩ := List.mem_filterMap.mp (List.mem_mergeSort.mp hmem)
      obtain ⟨m, _, hm⟩ := Option.map_eq_some_iff.mp hindex
      rw [Prod.mk.injEq] at hm
      exact hm.2 ▸ hsource
    · exact hmem
  · intro hmem
    cases hindex : arrayIndex field.1 with
    | none => exact Or.inr ⟨hmem, rfl⟩
    | some n =>
      refine Or.inl ⟨(n, field), List.mem_mergeSort.mpr (List.mem_filterMap.mpr ⟨field, hmem, ?_⟩),
        rfl⟩
      rw [hindex]
      rfl

/-- Keys that are no array indices are listed as they were inserted. -/
theorem ownEntries_of_no_index {β : Type} {fields : List (String × β)}
    (h : ∀ field ∈ fields, arrayIndex field.1 = none) : ownEntries fields = fields := by
  have hindexed : fields.filterMap (fun field ↦ (arrayIndex field.1).map (·, field)) = [] :=
    List.filterMap_eq_nil_iff.mpr fun field hfield ↦ by rw [h field hfield, Option.map_none]
  have hothers : fields.filter (fun field ↦ (arrayIndex field.1).isNone) = fields :=
    List.filter_eq_self.mpr fun field hfield ↦ by rw [h field hfield, Option.isNone_none]
  unfold ownEntries
  dsimp only
  rw [hindexed, hothers, List.mergeSort_nil, List.map_nil, List.nil_append]

theorem everyThreadNode_iff {entries : List (String × JsonValue)} :
    everyThreadNode entries = some true ↔
      ∀ entry ∈ entries, isCurrentThreadNode entry.1 entry.2 = some true := by
  induction entries with
  | nil => exact ⟨fun _ ↦ List.forall_mem_nil _, fun _ ↦ rfl⟩
  | cons entry entries ih =>
    obtain ⟨key, node⟩ := entry
    rw [List.forall_mem_cons, everyThreadNode, ← ih]
    rcases isCurrentThreadNode key node with _ | _ | _
    · exact ⟨fun h ↦ absurd h (Option.some_ne_none _).symm, fun h ↦ absurd h.1 (by simp)⟩
    · have hne : some false ≠ some true := by decide
      exact ⟨fun h ↦ absurd h hne, fun h ↦ absurd h.1 hne⟩
    · exact ⟨fun h ↦ ⟨rfl, h⟩, fun h ↦ h.2⟩

/-! ### Nodes that were read -/

/-- What holds of every node that was read. -/
structure CodexThreadGraphNode.IsRead (node : CodexThreadGraphNode) : Prop where
  id : normalizeCodexThreadId (some (.string node.id)) = some node.id
  status : ∃ text ∈ codexThreadStatuses, node.status.toText = some text
  createdAt : isSafeTimestamp (some (.integer node.createdAt)) = true
  updatedAt : isSafeTimestamp (some (.integer node.updatedAt)) = true

theorem isSafeTimestamp_safeTimestamp (value : Option JsonValue) :
    isSafeTimestamp (some (.integer (safeTimestamp value))) = true := by
  unfold safeTimestamp
  split
  · next n =>
    split
    · next hsafe =>
      unfold isSafeTimestamp at hsafe ⊢
      dsimp only at hsafe ⊢
      rw [Bool.and_eq_true, decide_eq_true_eq] at hsafe
      rw [Int.toNat_of_nonneg hsafe.1]
      exact Bool.and_eq_true _ _ ▸ ⟨decide_eq_true hsafe.1, hsafe.2⟩
    · rfl
  · rfl

/-- An id that was normalized stays as it is. -/
theorem normalizeCodexThreadId_idem {value : Option JsonValue} {id : String}
    (h : normalizeCodexThreadId value = some id) :
    normalizeCodexThreadId (some (.string id)) = some id := by
  unfold normalizeCodexThreadId at h
  split at h
  · next value =>
    dsimp only at h
    split at h
    · exact absurd h (Option.some_ne_none _).symm
    · next hne =>
      split at h
      · exact absurd h (Option.some_ne_none _).symm
      · next hshort =>
        split at h
        · next hchars =>
          obtain rfl := Option.some.inj h
          unfold normalizeCodexThreadId
          dsimp only
          rw [Text.trim_trim, if_neg hne, if_neg hshort, if_pos hchars]
        · exact absurd h (Option.some_ne_none _).symm
  · exact absurd h (Option.some_ne_none _).symm

theorem isRead_of_normalizeNode {value : JsonValue} {node : CodexThreadGraphNode}
    (h : normalizeNode value = some (some node)) : node.IsRead := by
  unfold normalizeNode at h
  split at h
  · next fields =>
    split at h
    · exact absurd (Option.some.inj h) (Option.some_ne_none _).symm
    · next id hid =>
      obtain ⟨text, htext, hnode⟩ := Option.map_eq_some_iff.mp h
      obtain rfl := Option.some.inj hnode
      refine ⟨normalizeCodexThreadId_idem hid, ?_, isSafeTimestamp_safeTimestamp _,
        isSafeTimestamp_safeTimestamp _⟩
      dsimp only
      split
      · next hstatus =>
        refine ⟨text, hstatus, ?_⟩
        cases hlookup : fields.lookup "status" with
        | none =>
          rw [hlookup] at htext
          obtain rfl := Option.some.inj htext
          exact absurd hstatus (by decide)
        | some value =>
          rw [hlookup] at htext
          exact htext
      · exact ⟨"unknown", by decide, rfl⟩
  · exact absurd (Option.some.inj h) (Option.some_ne_none _).symm

theorem isCurrentThreadNode_of_isRead {node : CodexThreadGraphNode} (h : node.IsRead) :
    isCurrentThreadNode node.id node.toJson = some true := by
  obtain ⟨text, hstatus, htext⟩ := h.status
  obtain ⟨id, sessionId, parentThreadId, title, status, createdAt, updatedAt⟩ := node
  have hcreated := h.createdAt
  have hupdated := h.updatedAt
  dsimp only at htext hcreated hupdated
  rcases sessionId with _ | sessionId <;> rcases parentThreadId with _ | parentThreadId <;>
    simp [isCurrentThreadNode, CodexThreadGraphNode.toJson, List.lookup, asString,
      isOptionalString, propertyText, htext, hstatus, hcreated, hupdated]

/-! ### The newest nodes -/

theorem exists_of_mapM {α β : Type} {f : α → Option β} {l : List α} {l' : List β}
    (h : l.mapM f = some l') {b : β} (hb : b ∈ l') : ∃ a ∈ l, f a = some b := by
  induction l generalizing l' with
  | nil =>
    obtain rfl : [] = l' := Option.some.inj h
    exact absurd hb List.not_mem_nil
  | cons a l ih =>
    rw [List.mapM_cons] at h
    obtain ⟨c, hc, h⟩ := Option.bind_eq_some_iff.mp h
    obtain ⟨rest, hrest, h⟩ := Option.bind_eq_some_iff.mp h
    obtain rfl := Option.some.inj h
    rcases List.mem_cons.mp hb with rfl | hb
    · exact ⟨a, List.mem_cons_self, hc⟩
    · obtain ⟨a', ha', hf⟩ := ih hrest hb
      exact ⟨a', List.mem_cons_of_mem _ ha', hf⟩

variable {values : List JsonValue} {bounded : List CodexThreadGraphNode}

theorem newestNodes_isRead (h : newestNodes values = some bounded) :
    ∀ node ∈ bounded, node.IsRead := by
  obtain ⟨nodes, hnodes, rfl⟩ := Option.map_eq_some_iff.mp h
  intro node hnode
  have hmem := List.mem_mergeSort.mp (List.mem_of_mem_take hnode)
  obtain ⟨value, _, hvalue⟩ := exists_of_mapM hnodes (List.reduceOption_mem_iff.mp hmem)
  exact isRead_of_normalizeNode hvalue

theorem newestNodes_nil : newestNodes [] = some [] := by simp [newestNodes]

theorem length_newestNodes_le (h : newestNodes values = some bounded) :
    bounded.length ≤ maxCodexThreadGraphNodes := by
  obtain ⟨nodes, hnodes, rfl⟩ := Option.map_eq_some_iff.mp h
  exact List.length_take_le _ _

/-! ### The graph of nodes -/

variable {requestedActive : Option String} {id : String}

theorem lookup_graphOfNodes {entry : ThreadGraphEntry}
    (h : (graphOfNodes requestedActive bounded).nodesById.get id = some entry) :
    ∃ node ∈ bounded, node.id = id ∧ entry = .node node := by
  unfold graphOfNodes at h
  dsimp only at h
  rw [InsertionMap.get_setAll_reverse, InsertionMap.get_empty, Option.or_none] at h
  have hmem := List.mem_reverse.mp (InsertionMap.mem_of_lookupEntry h)
  obtain ⟨node, hnode, heq⟩ := List.mem_map.mp hmem
  rw [Prod.mk.injEq] at heq
  exact ⟨node, hnode, heq.1, heq.2.symm⟩

theorem has_graphOfNodes :
    (graphOfNodes requestedActive bounded).nodesById.has id = true ↔
      id ∈ bounded.map CodexThreadGraphNode.id := by
  rw [InsertionMap.has_iff]
  constructor
  · rintro ⟨entry, hentry⟩
    obtain ⟨node, hnode, rfl, -⟩ := lookup_graphOfNodes hentry
    exact List.mem_map_of_mem hnode
  · intro hmem
    rw [← Option.isSome_iff_exists]
    unfold graphOfNodes
    dsimp only
    rw [InsertionMap.get_setAll_reverse, InsertionMap.get_empty, Option.or_none,
      Option.isSome_iff_ne_none, Ne, InsertionMap.lookupEntry_eq_none_iff, List.map_reverse,
      List.mem_reverse, List.map_map, not_not]
    exact hmem

theorem size_setAll_empty_le {α β : Type} [DecidableEq α] (l : List (α × β)) :
    ((InsertionMap.empty : InsertionMap α β).setAll l).size ≤ l.length := by
  have hgrow : ∀ m : InsertionMap α β, (m.setAll l).size ≤ m.size + l.length := by
    induction l with
    | nil => exact fun m ↦ Nat.le_refl _
    | cons entry l ih =>
      intro m
      have hset : (m.set entry.1 entry.2).size ≤ m.size + 1 := by
        rcases Bool.eq_false_or_eq_true (m.has entry.1) with hhas | hhas
        · rw [InsertionMap.size_set_of_has entry.2 hhas]
          exact Nat.le_succ _
        · rw [InsertionMap.size_set_of_not_has entry.2 hhas]
      have hrest := ih (m.set entry.1 entry.2)
      rw [InsertionMap.setAll, List.foldl_cons, ← InsertionMap.setAll, List.length_cons]
      omega
  exact (hgrow InsertionMap.empty).trans (Nat.le_of_eq (Nat.zero_add _))

theorem nodeFields_lookup (graph : CodexThreadGraph) (id : String) :
    (graph.nodeFields.lookup id).isSome = graph.nodesById.has id := by
  unfold CodexThreadGraph.nodeFields InsertionMap.has InsertionMap.get
  induction graph.nodesById.entries with
  | nil => rfl
  | cons entry entries ih =>
    rw [List.map_cons, List.lookup_cons, InsertionMap.lookupEntry]
    rcases eq_or_ne entry.1 id with rfl | hne
    · rw [beq_self_eq_true, if_pos rfl]
      rfl
    · rw [if_neg hne, beq_eq_false_iff_ne.mpr (Ne.symm hne)]
      exact ih

/-- **A graph of nodes that were read is accepted exactly when** its active thread is one of
them. -/
theorem isCurrent_graphOfNodes (hread : ∀ node ∈ bounded, node.IsRead)
    (hlength : bounded.length ≤ maxCodexThreadGraphNodes) :
    isCurrentCodexThreadGraph (graphOfNodes requestedActive bounded).toJson = some true ↔
      ∀ id, (graphOfNodes requestedActive bounded).activeThreadId = some id →
        id ∈ bounded.map CodexThreadGraphNode.id := by
  have hnodes : everyThreadNode (ownEntries (graphOfNodes requestedActive bounded).nodeFields) =
      some true := by
    refine everyThreadNode_iff.mpr fun entry hentry ↦ ?_
    obtain ⟨⟨key, value⟩, hmem, rfl⟩ := List.mem_map.mp (mem_ownEntries.mp hentry)
    have hget := InsertionMap.mem_entries_iff.mp hmem
    obtain ⟨node, hnode, rfl, rfl⟩ := lookup_graphOfNodes hget
    exact isCurrentThreadNode_of_isRead (hread node hnode)
  have hsize : (graphOfNodes requestedActive bounded).nodeFields.length ≤
      maxCodexThreadGraphNodes := by
    unfold CodexThreadGraph.nodeFields
    rw [List.length_map]
    refine (size_setAll_empty_le _).trans ?_
    rw [List.length_map]
    exact hlength
  have hshort := Nat.not_lt.mpr hsize
  unfold CodexThreadGraph.toJson
  cases hactive : (graphOfNodes requestedActive bounded).activeThreadId with
  | none =>
    refine ⟨fun _ id hid ↦ absurd hid (Option.some_ne_none id).symm, fun _ ↦ ?_⟩
    simp [isCurrentCodexThreadGraph, List.lookup, hshort, hnodes]
  | some active =>
    have hown := nodeFields_lookup (graphOfNodes requestedActive bounded) active
    have hlookup : isCurrentCodexThreadGraph (.object [("activeThreadId", .string active),
        ("nodesById", .object (graphOfNodes requestedActive bounded).nodeFields)]) =
        some ((graphOfNodes requestedActive bounded).nodesById.has active) := by
      rw [← hown]
      cases hentry : (graphOfNodes requestedActive bounded).nodeFields.lookup active with
      | none => simp [isCurrentCodexThreadGraph, List.lookup, hshort, hentry]
      | some value => simp [isCurrentCodexThreadGraph, List.lookup, hshort, hentry, hnodes]
    show isCurrentCodexThreadGraph (.object [("activeThreadId", .string active), _]) = _ ↔ _
    rw [hlookup, Option.some.injEq, has_graphOfNodes]
    constructor
    · rintro hmem id hid
      exact Option.some.inj hid ▸ hmem
    · exact fun h ↦ h active rfl

/-- Which thread is active. -/
theorem activeThreadId_graphOfNodes :
    (graphOfNodes requestedActive bounded).activeThreadId =
      match requestedActive with
      | some id =>
        if id ∈ bounded.map CodexThreadGraphNode.id ∨ id ∈ objectPrototypeKeys then some id
        else bounded.head?.map CodexThreadGraphNode.id
      | none => bounded.head?.map CodexThreadGraphNode.id := by
  cases requestedActive with
  | none => rfl
  | some id =>
    have hhas : (graphOfNodes none bounded).nodesById.has id = true ↔ _ := has_graphOfNodes
    show (if (CodexThreadGraph.lookup _ id).isSome then some id else _) = _
    refine if_congr ?_ rfl rfl
    rw [← hhas]
    unfold CodexThreadGraph.lookup InsertionMap.has
    rw [Option.isSome_or, Bool.or_eq_true]
    refine or_congr Iff.rfl ?_
    split
    · next hmem => exact ⟨fun _ ↦ hmem, fun _ ↦ rfl⟩
    · next hmem => exact ⟨fun h ↦ absurd h Bool.false_ne_true, fun h ↦ absurd h hmem⟩

theorem head_mem_ids {id : String}
    (h : bounded.head?.map CodexThreadGraphNode.id = some id) :
    id ∈ bounded.map CodexThreadGraphNode.id := by
  obtain ⟨node, hnode, rfl⟩ := Option.map_eq_some_iff.mp h
  exact List.mem_map_of_mem (List.mem_of_mem_head? hnode)

theorem isCurrent_emptyCodexThreadGraph :
    isCurrentCodexThreadGraph emptyCodexThreadGraph.toJson = some true := by
  have haccepted : isCurrentCodexThreadGraph (graphOfNodes none []).toJson = some true ↔ _ :=
    isCurrent_graphOfNodes (List.forall_mem_nil _) (Nat.zero_le _)
  exact haccepted.mpr fun id hid ↦ absurd hid (Option.some_ne_none id).symm

/-! ### Normalizing -/

/-- The statuses that are read can be converted, and the active thread has a node that is kept
where its id is also the name of something inherited. -/
def NormalizesWell (value : JsonValue) : Prop :=
  ∃ bounded, newestNodes (rawThreadNodes (value.get "nodesById")) = some bounded ∧
    ∀ id, normalizeCodexThreadId (value.get "activeThreadId") = some id →
      id ∈ objectPrototypeKeys → id ∈ bounded.map CodexThreadGraphNode.id

theorem normalizes_iff (value : JsonValue) :
    (∃ graph, normalizeCodexThreadGraph value = some graph ∧
      isCurrentCodexThreadGraph graph.toJson = some true) ↔ NormalizesWell value := by
  have hgraph : ∀ requested bounded, newestNodes (rawThreadNodes (value.get "nodesById")) =
      some bounded → (isCurrentCodexThreadGraph (graphOfNodes requested bounded).toJson = some true ↔
        ∀ id, requested = some id → id ∈ objectPrototypeKeys →
          id ∈ bounded.map CodexThreadGraphNode.id) := by
    intro requested bounded hbounded
    rw [isCurrent_graphOfNodes (newestNodes_isRead hbounded) (length_newestNodes_le hbounded),
      activeThreadId_graphOfNodes]
    cases requested with
    | none => exact ⟨fun _ id hid ↦ absurd hid (Option.some_ne_none id).symm,
        fun _ id hid ↦ head_mem_ids hid⟩
    | some requested =>
      dsimp only
      constructor
      · rintro h id hid hinherited
        obtain rfl := Option.some.inj hid
        exact h requested (if_pos (Or.inr hinherited))
      · intro h id hid
        split at hid
        · next hfound =>
          obtain rfl := Option.some.inj hid
          exact hfound.elim (fun hmem ↦ hmem) (h requested rfl)
        · exact head_mem_ids hid
  unfold NormalizesWell
  cases value with
  | object fields =>
    constructor
    · rintro ⟨graph, hnormalize, hcurrent⟩
      obtain ⟨bounded, hbounded, rfl⟩ := Option.map_eq_some_iff.mp hnormalize
      exact ⟨bounded, hbounded, (hgraph _ bounded hbounded).mp hcurrent⟩
    · rintro ⟨bounded, hbounded, hactive⟩
      exact ⟨_, Option.map_eq_some_iff.mpr ⟨bounded, hbounded, rfl⟩,
        (hgraph _ bounded hbounded).mpr hactive⟩
  | _ =>
    refine ⟨fun _ ↦ ⟨[], newestNodes_nil, fun id hid ↦ absurd hid (Option.some_ne_none id).symm⟩, fun _ ↦ ?_⟩
    exact ⟨emptyCodexThreadGraph, rfl, isCurrent_emptyCodexThreadGraph⟩

/-! ### Merging -/

/-- The statuses of the merged nodes can be converted, and the active thread has a node among the
newest of them. -/
def KeepsActive (graph : CodexThreadGraph) (nodes : List CodexThreadGraphNode) : Prop :=
  ∃ bounded, newestNodes (objectValues ((mergedNodes graph nodes).entries.map fun entry ↦
      (entry.1, entry.2.toJson))) = some bounded ∧
    ∀ id, graph.activeThreadId = some id → id ∈ bounded.map CodexThreadGraphNode.id

theorem merge_eq (graph : CodexThreadGraph) (nodes : List CodexThreadGraphNode) :
    mergeCodexThreadGraph graph nodes =
      (newestNodes (objectValues ((mergedNodes graph nodes).entries.map fun entry ↦
        (entry.1, entry.2.toJson)))).map
          (graphOfNodes (normalizeCodexThreadId (graph.activeThreadId.map JsonValue.string))) := by
  unfold mergeCodexThreadGraph CodexThreadGraph.toJson
  cases graph.activeThreadId <;> rfl

/-- The ids of nodes that were read are normalized. -/
theorem normalize_mem_ids (hread : ∀ node ∈ bounded, node.IsRead)
    (h : id ∈ bounded.map CodexThreadGraphNode.id) :
    normalizeCodexThreadId (some (.string id)) = some id := by
  obtain ⟨node, hnode, rfl⟩ := List.mem_map.mp h
  exact (hread node hnode).id

theorem merge_iff (graph : CodexThreadGraph) (nodes : List CodexThreadGraphNode) :
    (∃ merged, mergeCodexThreadGraph graph nodes = some merged ∧
      isCurrentCodexThreadGraph merged.toJson = some true ∧
      ∀ id, graph.activeThreadId = some id →
        merged.activeThreadId = some id ∧ merged.nodesById.has id = true) ↔
      KeepsActive graph nodes := by
  rw [merge_eq]
  constructor
  · rintro ⟨merged, hmerged, -, hactive⟩
    obtain ⟨bounded, hbounded, rfl⟩ := Option.map_eq_some_iff.mp hmerged
    exact ⟨bounded, hbounded, fun id hid ↦ has_graphOfNodes.mp (hactive id hid).2⟩
  · rintro ⟨bounded, hbounded, hactive⟩
    have hread := newestNodes_isRead hbounded
    refine ⟨_, Option.map_eq_some_iff.mpr ⟨bounded, hbounded, rfl⟩, ?_, fun id hid ↦ ?_⟩
    · refine (isCurrent_graphOfNodes hread (length_newestNodes_le hbounded)).mpr fun id hid ↦ ?_
      rw [activeThreadId_graphOfNodes] at hid
      cases hgraph : graph.activeThreadId with
      | none =>
        rw [hgraph] at hid
        exact head_mem_ids hid
      | some active =>
        have hmem := hactive active hgraph
        rw [hgraph, Option.map_some, normalize_mem_ids hread hmem] at hid
        dsimp only at hid
        rw [if_pos (Or.inl hmem)] at hid
        exact Option.some.inj hid ▸ hmem
    · have hmem := hactive id hid
      refine ⟨?_, has_graphOfNodes.mpr hmem⟩
      rw [activeThreadId_graphOfNodes, hid, Option.map_some, normalize_mem_ids hread hmem]
      exact if_pos (Or.inl hmem)

/-- An inherited name as the active thread, normalized and set before a merge, and a status that
cannot be converted. -/
theorem threadGraph_malformed :
    (¬ ∃ graph, normalizeCodexThreadGraph (.object [("activeThreadId", .string "constructor"),
        ("nodesById", .object [])]) = some graph ∧
      isCurrentCodexThreadGraph graph.toJson = some true) ∧
    (¬ ∃ graph, normalizeCodexThreadGraph (.object [("activeThreadId", .null), ("nodesById",
        .object [("t", .object [("id", .string "t"),
          ("status", .object [("toString", .null)])])])]) = some graph ∧
      isCurrentCodexThreadGraph graph.toJson = some true) ∧
    ¬ ∃ merged, mergeCodexThreadGraph (setCodexThreadId emptyCodexThreadGraph "constructor") [] =
        some merged ∧ isCurrentCodexThreadGraph merged.toJson = some true ∧
      ∀ id, (setCodexThreadId emptyCodexThreadGraph "constructor").activeThreadId = some id →
        merged.activeThreadId = some id ∧ merged.nodesById.has id = true := by
  have hid : normalizeCodexThreadId (some (.string "constructor")) = some "constructor" := by
    decide
  have ht : normalizeCodexThreadId (some (.string "t")) = some "t" := by decide
  refine ⟨?_, ?_, ?_⟩
  · rw [normalizes_iff]
    rintro ⟨bounded, hbounded, hactive⟩
    have hvalues : objectValues ([] : List (String × JsonValue)) = [] :=
      congrArg (List.map Prod.snd) (ownEntries_of_no_index (List.forall_mem_nil _))
    have hnil : bounded = [] := by
      refine Option.some.inj (hbounded.symm.trans ?_)
      show newestNodes (objectValues []) = _
      rw [hvalues, newestNodes_nil]
    have hmem := hactive "constructor" hid (by decide)
    rw [hnil] at hmem
    exact absurd hmem List.not_mem_nil
  · rw [normalizes_iff]
    rintro ⟨bounded, hbounded, -⟩
    have hvalues : objectValues [("t", .object [("id", .string "t"),
        ("status", .object [("toString", .null)])])] =
          [JsonValue.object [("id", .string "t"), ("status", .object [("toString", .null)])]] :=
      congrArg (List.map Prod.snd) (ownEntries_of_no_index
        (List.forall_mem_singleton.mpr (by decide)))
    obtain ⟨nodes, hnodes, -⟩ := Option.map_eq_some_iff.mp hbounded
    change (objectValues [("t", _)]).mapM normalizeNode = _ at hnodes
    rw [hvalues] at hnodes
    simp [normalizeNode, List.lookup, ht, propertyText, toText] at hnodes
  · rw [merge_iff]
    rintro ⟨bounded, hbounded, hactive⟩
    have hvalues : objectValues [("constructor", JsonValue.null)] = [JsonValue.null] :=
      congrArg (List.map Prod.snd) (ownEntries_of_no_index
        (List.forall_mem_singleton.mpr (by decide)))
    have hnil : bounded = [] := by
      refine Option.some.inj (hbounded.symm.trans ?_)
      show newestNodes (objectValues [("constructor", JsonValue.null)]) = _
      rw [hvalues]
      simp [newestNodes, normalizeNode]
    have hmem := hactive "constructor" rfl
    rw [hnil] at hmem
    exact absurd hmem List.not_mem_nil

/-- **Well-formed thread graphs.** A JSON value is normalized to a graph that is accepted exactly
when its statuses can be converted and no inherited name stands in for a missing active thread; a
merge gives an accepted graph that keeps the active thread exactly when that thread is among the
newest of the merged nodes. -/
theorem threadGraph_wellFormed (value : JsonValue) (graph : CodexThreadGraph)
    (nodes : List CodexThreadGraphNode) :
    ((∃ graph, normalizeCodexThreadGraph value = some graph ∧
      isCurrentCodexThreadGraph graph.toJson = some true) ↔ NormalizesWell value) ∧
    ((∃ merged, mergeCodexThreadGraph graph nodes = some merged ∧
      isCurrentCodexThreadGraph merged.toJson = some true ∧
      ∀ id, graph.activeThreadId = some id →
        merged.activeThreadId = some id ∧ merged.nodesById.has id = true) ↔
      KeepsActive graph nodes) :=
  ⟨normalizes_iff value, merge_iff graph nodes⟩

end MultAIplayer.Desktop
