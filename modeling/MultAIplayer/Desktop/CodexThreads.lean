import Mathlib.Data.List.Sort
import MultAIplayer.Lib.InsertionMap
import MultAIplayer.Lib.Text
import Mathlib.Algebra.Ring.Nat
import Mathlib.Algebra.Ring.Int.Defs

/-!
# The graph of Codex threads

The threads of a room, by their ids, with the one that is active (`lib/codex/codexThreadGraph.ts`),
and the check that saved history makes of such a graph (`localRoomHistoryPayload.ts`).

## Values

What is read is a JSON value. The keys of an object are distinct, and are listed as ECMAScript lists
them: array indices in their order, then the others as they were inserted. `String(value)` throws
for an object with a property `toString` of its own, since no JSON value can be called
(`JsonValue.toText`); what throws is `none`.

## Lookups

A lookup `nodesById[id]` also finds what every object inherits from `Object.prototype`
(`objectPrototypeKeys`), while the check asks for properties of the graph's own.
-/

namespace MultAIplayer.Desktop

/-! ### JSON values -/

/-- A JSON value; a number is an integer or stands as its text. -/
inductive JsonValue where
  | null
  | bool (b : Bool)
  | integer (n : ℤ)
  | fraction (text : String)
  | string (s : String)
  | array (items : List JsonValue)
  | object (fields : List (String × JsonValue))

namespace JsonValue

def get (key : String) : JsonValue → Option JsonValue
  | object fields => fields.lookup key
  | _ => none

def asString : JsonValue → Option String
  | string s => some s
  | _ => none

mutual

/-- `String(value)`. -/
def toText : JsonValue → Option String
  | null => some "null"
  | bool true => some "true"
  | bool false => some "false"
  | integer n => some (toString n)
  | fraction text => some text
  | string s => some s
  | array items => (itemTexts items).map (String.intercalate ",")
  | object fields => if (fields.lookup "toString").isSome then none else some "[object Object]"

/-- The texts that an array joins. -/
def itemTexts : List JsonValue → Option (List String)
  | [] => some []
  | item :: items =>
    match item.toText, itemTexts items with
    | some text, some texts => some ((if item matches null then "" else text) :: texts)
    | _, _ => none

end

end JsonValue

/-- `String(value)` of a property that may be missing. -/
def propertyText : Option JsonValue → Option String
  | none => some "undefined"
  | some value => value.toText

/-- The array index that a key is: decimal digits without a leading zero. -/
def arrayIndex (key : String) : Option ℕ :=
  let digits := key.toList
  let index := digits.foldl (fun n c ↦ 10 * n + (c.toNat - 48)) 0
  if digits.isEmpty || !digits.all Char.isDigit then none
  else if digits.head? = some '0' && 1 < digits.length then none
  else if index < 2 ^ 32 - 1 then some index
  else none

/-- The entries of an object in the order in which they are listed. -/
@[grind =] def ownEntries {β : Type} (fields : List (String × β)) : List (String × β) :=
  let indexed := fields.filterMap fun field ↦ (arrayIndex field.1).map (·, field)
  (indexed.mergeSort fun a b ↦ a.1 ≤ b.1).map Prod.snd ++
    fields.filter fun field ↦ (arrayIndex field.1).isNone

def objectValues {β : Type} (fields : List (String × β)) : List β := (ownEntries fields).map Prod.snd

/-- What every object inherits. -/
def objectPrototypeKeys : List String :=
  ["constructor", "__defineGetter__", "__defineSetter__", "hasOwnProperty", "__lookupGetter__",
    "__lookupSetter__", "isPrototypeOf", "propertyIsEnumerable", "toString", "valueOf", "__proto__",
    "toLocaleString"]

/-- Non-negative and `Number.isSafeInteger`. -/
def isSafeTimestamp : Option JsonValue → Bool
  | some (.integer n) => 0 ≤ n && n ≤ 2 ^ 53 - 1
  | _ => false

def safeTimestamp : Option JsonValue → ℕ
  | some (.integer n) => if isSafeTimestamp (some (.integer n)) then n.toNat else 0
  | _ => 0

/-! ### Nodes -/

/-- The status keeps the value that was read. -/
structure CodexThreadGraphNode where
  id : String
  sessionId : Option String := none
  parentThreadId : Option String := none
  title : String
  status : JsonValue
  createdAt : ℕ
  updatedAt : ℕ

def maxCodexThreadGraphNodes : ℕ := 160

/-- The limit of `lib/codex/codexThread.ts`. -/
def maxNormalizedThreadIdChars : ℕ := 200

/-- The limit of the protocol, which titles are cut at. -/
def maxCodexThreadIdChars : ℕ := 512

def codexThreadStatuses : List String := ["notLoaded", "idle", "systemError", "active", "unknown"]

/-- The class `[A-Za-z0-9_.:-]`. -/
def isThreadIdChar (c : Char) : Bool :=
  c.isAlphanum || c = '_' || c = '.' || c = ':' || c = '-'

def normalizeCodexThreadId : Option JsonValue → Option String
  | some (.string value) =>
    let threadId := Text.trim value
    if threadId = "" then none
    else if maxNormalizedThreadIdChars < Text.utf16Length threadId then none
    else if threadId.toList.all isThreadIdChar then some threadId
    else none
  | _ => none

/-- The category `Cc`. -/
def isControlCharacter (c : Char) : Bool :=
  c.toNat < 0x20 || (0x7f ≤ c.toNat && c.toNat ≤ 0x9f)

def normalizeTitle : Option JsonValue → String
  | some (.string value) =>
    let kept := (value.toList.filter fun c ↦ !isControlCharacter c).take maxCodexThreadIdChars
    let title := Text.trim (String.ofList kept)
    if title = "" then "Codex thread" else title
  | _ => "Codex thread"

/-- The node that a value is read as, if any. -/
def normalizeNode : JsonValue → Option (Option CodexThreadGraphNode)
  | .object fields =>
    match normalizeCodexThreadId (fields.lookup "id") with
    | none => some none
    | some id =>
      (propertyText (fields.lookup "status")).map fun text ↦
        some
          { id := id
            sessionId := normalizeCodexThreadId (fields.lookup "sessionId")
            parentThreadId := normalizeCodexThreadId (fields.lookup "parentThreadId")
            title := normalizeTitle (fields.lookup "title")
            status := if text ∈ codexThreadStatuses then (fields.lookup "status").getD .null
              else .string "unknown"
            createdAt := safeTimestamp (fields.lookup "createdAt")
            updatedAt := safeTimestamp (fields.lookup "updatedAt") }
  | _ => some none

def CodexThreadGraphNode.toJson (node : CodexThreadGraphNode) : JsonValue :=
  .object ([("id", .string node.id)] ++
    node.sessionId.toList.map (fun id ↦ ("sessionId", .string id)) ++
    node.parentThreadId.toList.map (fun id ↦ ("parentThreadId", .string id)) ++
    [("title", .string node.title), ("status", node.status), ("createdAt", .integer node.createdAt),
      ("updatedAt", .integer node.updatedAt)])

/-! ### Graphs -/

/-- What stands under an id: a node, or what a lookup has found on `Object.prototype`. -/
inductive ThreadGraphEntry where
  | node (node : CodexThreadGraphNode)
  | inherited

/-- Nothing inherited is read as a node. -/
def ThreadGraphEntry.toJson : ThreadGraphEntry → JsonValue
  | .node known => known.toJson
  | .inherited => .null

structure CodexThreadGraph where
  activeThreadId : Option String
  nodesById : InsertionMap String ThreadGraphEntry

def emptyCodexThreadGraph : CodexThreadGraph := ⟨none, .empty⟩

@[grind =] def CodexThreadGraph.nodeFields (graph : CodexThreadGraph) : List (String × JsonValue) :=
  graph.nodesById.entries.map fun entry ↦ (entry.1, entry.2.toJson)

def CodexThreadGraph.toJson (graph : CodexThreadGraph) : JsonValue :=
  .object [("activeThreadId", (graph.activeThreadId.map JsonValue.string).getD .null),
    ("nodesById", .object graph.nodeFields)]

/-- `nodesById[id]`. -/
def CodexThreadGraph.lookup (graph : CodexThreadGraph) (id : String) : Option ThreadGraphEntry :=
  (graph.nodesById.get id).or (if id ∈ objectPrototypeKeys then some .inherited else none)

/-- The nodes among values, the most recently updated ones of them. -/
def newestNodes (values : List JsonValue) : Option (List CodexThreadGraphNode) :=
  (values.mapM normalizeNode).map fun nodes ↦
    (nodes.reduceOption.mergeSort fun a b ↦ b.updatedAt ≤ a.updatedAt).take maxCodexThreadGraphNodes

/-- The graph of the nodes that are kept. -/
@[grind =]
def graphOfNodes (requestedActive : Option String) (bounded : List CodexThreadGraphNode) :
    CodexThreadGraph :=
  let nodesById := InsertionMap.empty.setAll (bounded.map fun node ↦ (node.id, .node node))
  let graph : CodexThreadGraph := ⟨none, nodesById⟩
  let first := bounded.head?.map CodexThreadGraphNode.id
  { graph with
    activeThreadId :=
      match requestedActive with
      | some id => if (graph.lookup id).isSome then some id else first
      | none => first }

def rawThreadNodes : Option JsonValue → List JsonValue
  | some (.object nodes) => objectValues nodes
  | _ => []

def normalizeCodexThreadGraph : JsonValue → Option CodexThreadGraph
  | .object fields =>
    (newestNodes (rawThreadNodes (fields.lookup "nodesById"))).map
      (graphOfNodes (normalizeCodexThreadId (fields.lookup "activeThreadId")))
  | _ => some emptyCodexThreadGraph

/-! ### Merging -/

/-- What reads as true of an optional text. -/
def truthyText (text : Option String) : Option String := text.filter (· ≠ "")

/-- The updates that belong to the session of the active thread. -/
def eligibleNodes (graph : CodexThreadGraph) (nodes : List CodexThreadGraphNode) :
    List CodexThreadGraphNode :=
  let active := truthyText graph.activeThreadId
  let activeNode := active.bind fun id ↦ nodes.find? (·.id = id)
  let stored := active.bind fun id ↦
    match graph.lookup id with
    | some (.node known) => known.sessionId
    | _ => none
  match truthyText ((activeNode.bind CodexThreadGraphNode.sessionId).or stored) with
  | some sessionId => nodes.filter (·.sessionId = some sessionId)
  | none =>
    match active with
    | some id => nodes.filter (·.id = id)
    | none => []

/-- `{ ...graph.nodesById, ...Object.fromEntries(eligible) }`. -/
def mergedNodes (graph : CodexThreadGraph) (nodes : List CodexThreadGraphNode) :
    InsertionMap String ThreadGraphEntry :=
  let eligible := (eligibleNodes graph nodes).map fun node ↦ (node.id, ThreadGraphEntry.node node)
  graph.nodesById.setAll (InsertionMap.empty.setAll eligible).entries

def mergeCodexThreadGraph (graph : CodexThreadGraph) (nodes : List CodexThreadGraphNode) :
    Option CodexThreadGraph :=
  normalizeCodexThreadGraph (CodexThreadGraph.toJson
    { graph with nodesById := mergedNodes graph nodes })

/-- `setCodexThreadIdForRoom`. -/
def setCodexThreadId (graph : CodexThreadGraph) (threadId : String) : CodexThreadGraph where
  activeThreadId := some threadId
  nodesById := graph.nodesById.set threadId ((graph.lookup threadId).getD
    (.node { id := threadId, title := "Codex thread", status := .string "unknown", createdAt := 0
             updatedAt := 0 }))

/-! ### The check of saved history -/

def isOptionalString (value : Option JsonValue) : Bool :=
  match value with
  | none => true
  | some value => value.asString.isSome

def isCurrentThreadNode (key : String) : JsonValue → Option Bool
  | .object fields =>
    if (fields.lookup "id").bind JsonValue.asString ≠ some key then some false
    else if !(isOptionalString (fields.lookup "sessionId") &&
        isOptionalString (fields.lookup "parentThreadId") &&
        ((fields.lookup "title").bind JsonValue.asString).isSome) then
      some false
    else
      (propertyText (fields.lookup "status")).map fun text ↦
        decide (text ∈ codexThreadStatuses) && isSafeTimestamp (fields.lookup "createdAt") &&
          isSafeTimestamp (fields.lookup "updatedAt")
  | _ => some false

/-- `every`, which stops at the first node that is not accepted. -/
def everyThreadNode : List (String × JsonValue) → Option Bool
  | [] => some true
  | (key, node) :: entries =>
    match isCurrentThreadNode key node with
    | some true => everyThreadNode entries
    | verdict => verdict

def isCurrentCodexThreadGraph : JsonValue → Option Bool
  | .object fields =>
    match fields.lookup "nodesById", fields.lookup "activeThreadId" with
    | some (.object nodes), some .null =>
      if maxCodexThreadGraphNodes < nodes.length then some false
      else everyThreadNode (ownEntries nodes)
    | some (.object nodes), some (.string active) =>
      if maxCodexThreadGraphNodes < nodes.length then some false
      else if (nodes.lookup active).isNone then some false
      else everyThreadNode (ownEntries nodes)
    | _, _ => some false
  | _ => some false

end MultAIplayer.Desktop
