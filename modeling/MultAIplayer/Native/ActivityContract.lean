import MultAIplayer.Native.ActivityWire
import MultAIplayer.Native.CodexSessionRuns
import Mathlib

/-!
# Which activities are accepted

The activity that `projectCodexActivity` makes of a notification passes the schema of its receivers
just when the notification `Fits`: the texts that the projection bounds by characters are short
enough in UTF-16 units, above all a model name and a URL, for which the schema has smaller limits,
and the integers are exact as doubles. What the projection makes itself (ids, kinds, states, titles,
the number of items) always passes.

Two items of a turn have one activity id just when the safe characters of their ids agree as far as
the id of the turn leaves room for them (`keptId`).
-/

namespace MultAIplayer.Native

open Value

/-! ### Units of bounded texts -/

/-- The first `max` characters of a text take at most `hi` units. -/
def Narrow (max hi : ℕ) (text : String) : Prop := Text.utf16Length (boundedText max text) ≤ hi

instance (max hi : ℕ) (text : String) : Decidable (Narrow max hi text) :=
  inferInstanceAs (Decidable (_ ≤ _))

variable {max hi : ℕ} {text bounded : String}

theorem utf16Length_ofList_le (l : List Char) : Text.utf16Length (String.ofList l) ≤ 2 * l.length := by
  rw [Text.utf16Length, String.toList_ofList]
  induction l with
  | nil => exact le_rfl
  | cons c l ih =>
    rw [List.map_cons, List.sum_cons, List.length_cons]
    split <;> omega

theorem utf16Length_ofList_of_ascii {l : List Char} (h : ∀ c ∈ l, c.toNat < 0x10000) :
    Text.utf16Length (String.ofList l) = l.length := by
  rw [Text.utf16Length, String.toList_ofList]
  induction l with
  | nil => rfl
  | cons c l ih =>
    rw [List.map_cons, List.sum_cons, List.length_cons, if_pos (h c (List.mem_cons_self ..)),
      ih fun d hd ↦ h d (.tail _ hd)]
    omega

/-- Twice the characters bound the units. -/
theorem narrow_of_two_mul_le (h : 2 * max ≤ hi) : Narrow max hi text := by
  have hlength : (text.toList.take max).length ≤ max := List.length_take_le _ _
  have hunits := utf16Length_ofList_le (text.toList.take max)
  show Text.utf16Length (String.ofList (text.toList.take max)) ≤ hi
  omega

theorem stringBetween_boundedText :
    stringBetween 0 hi (.string (boundedText max text)) = true ↔ Narrow max hi text := by
  rw [stringBetween, Bool.and_eq_true, decide_eq_true_iff, decide_eq_true_iff]
  exact and_iff_right (Nat.zero_le _)

theorem boundedNonempty_eq_some (h : boundedNonempty max text = some bounded) :
    bounded = boundedText max (trim text) ∧ bounded ≠ "" := by
  rw [boundedNonempty] at h
  split at h
  · exact absurd h nofun
  · rename_i hempty
    cases h
    exact ⟨rfl, fun heq ↦ hempty (by rw [heq]; rfl)⟩

theorem stringBetween_boundedNonempty (h : boundedNonempty max text = some bounded) :
    stringBetween 1 hi (.string bounded) = true ↔ Narrow max hi (trim text) := by
  obtain ⟨rfl, hne⟩ := boundedNonempty_eq_some h
  rw [stringBetween, Bool.and_eq_true, decide_eq_true_iff, decide_eq_true_iff]
  exact and_iff_right (Text.utf16Length_pos hne)

/-- Without a lower bound a text that is left out passes as well. -/
theorem all_stringBetween_boundedNonempty {o : Option String} :
    ((o.bind (boundedNonempty max)).map Value.string).all (stringBetween 0 hi) = true ↔
      ∀ text, o = some text → Narrow max hi (trim text) := by
  cases o with
  | none => exact iff_of_true rfl nofun
  | some text =>
    rw [Option.bind_some]
    constructor
    · rintro h _ ⟨⟩
      cases hbounded : boundedNonempty max text with
      | none =>
        rw [boundedNonempty] at hbounded
        split at hbounded
        · rename_i hempty
          rw [Narrow, String.isEmpty_iff.mp hempty]
          exact Nat.zero_le _
        · exact absurd hbounded nofun
      | some bounded =>
        rw [hbounded] at h
        obtain ⟨rfl, _⟩ := boundedNonempty_eq_some hbounded
        exact stringBetween_boundedText.mp h
    · intro h
      cases hbounded : boundedNonempty max text with
      | none => rfl
      | some bounded =>
        obtain ⟨rfl, _⟩ := boundedNonempty_eq_some hbounded
        exact stringBetween_boundedText.mpr (h text rfl)

theorem all_stringBetween_boundedText {o : Option String} :
    ((o.map (boundedText max)).map Value.string).all (stringBetween 0 hi) = true ↔
      ∀ text, o = some text → Narrow max hi text := by
  cases o with
  | none => exact iff_of_true rfl nofun
  | some text =>
    refine stringBetween_boundedText.trans ⟨?_, fun h ↦ h text rfl⟩
    rintro h _ ⟨⟩
    exact h

/-! ### Identifiers -/

/-- The characters that an identifier keeps. -/
def isSafe (c : Char) : Bool := c.isAlphanum || c = '-' || c = '_' || c = '.'

theorem toNat_between_of_isSafe {c : Char} (h : isSafe c = true) :
    45 ≤ c.toNat ∧ c.toNat ≤ 122 := by
  simp only [isSafe, Char.isAlphanum, Char.isAlpha, Char.isUpper, Char.isLower, Char.isDigit,
    Bool.or_eq_true, Bool.and_eq_true, decide_eq_true_eq, ge_iff_le, UInt32.le_iff_toNat_le] at h
  rcases h with ((((⟨hlo, hhi⟩ | ⟨hlo, hhi⟩) | ⟨hlo, hhi⟩) | rfl) | rfl) | rfl
  · exact ⟨le_trans (by decide) hlo, le_trans hhi (by decide)⟩
  · exact ⟨le_trans (by decide) hlo, le_trans hhi (by decide)⟩
  · exact ⟨le_trans (by decide) hlo, le_trans hhi (by decide)⟩
  all_goals decide

theorem toNat_of_isSafe {c : Char} (h : isSafe c = true) : c.toNat < 0x10000 :=
  lt_of_le_of_lt (toNat_between_of_isSafe h).2 (by decide)

theorem boundedCodexIdentifier_eq (value : Option String) (fallback : String) :
    boundedCodexIdentifier value fallback =
      if ((((trim (value.getD fallback)).toList.filter isSafe).take 120)).isEmpty then fallback
      else String.ofList (((trim (value.getD fallback)).toList.filter isSafe).take 120) := rfl

/-- An identifier that was cut is ASCII, and not empty. -/
theorem identifier_between {value : Option String} {fallback : String} (hhi : 120 ≤ hi)
    (hfallback : stringBetween 1 hi (.string fallback) = true) :
    stringBetween 1 hi (.string (boundedCodexIdentifier value fallback)) = true := by
  rw [boundedCodexIdentifier_eq]
  split
  · exact hfallback
  · rename_i hempty
    generalize hsafe : ((trim (value.getD fallback)).toList.filter isSafe).take 120 = safe at hempty
    have hlength : safe.length ≤ 120 := by
      rw [← hsafe]
      exact List.length_take_le _ _
    have hascii : ∀ c ∈ safe, c.toNat < 0x10000 := by
      intro c hc
      rw [← hsafe] at hc
      exact toNat_of_isSafe (List.mem_filter.mp (List.mem_of_mem_take hc)).2
    have hpos : safe.length ≠ 0 := fun hzero ↦
      hempty (List.isEmpty_iff.mpr (List.length_eq_zero_iff.mp hzero))
    rw [stringBetween, utf16Length_ofList_of_ascii hascii, Bool.and_eq_true, decide_eq_true_iff,
      decide_eq_true_iff]
    omega

/-! ### Details -/

/-- The text under a key, if there is one, is narrow. -/
def NarrowAt (v : Value) (key : String) (max hi : ℕ) : Prop :=
  ∀ text, v.strAt key = some text → Narrow max hi text

/-- The text under a key, if there is one, is narrow once it is trimmed. -/
@[grind =] def TrimmedNarrowAt (v : Value) (key : String) (max hi : ℕ) : Prop :=
  ∀ text, v.strAt key = some text → Narrow max hi (trim text)

/-- A double holds an integer, if there is one, exactly. -/
def Exact (o : Option ℤ) : Prop := ∀ n, o = some n → -(2 ^ 53) < n ∧ n < 2 ^ 53

/-- The text of a part of the reasoning. -/
def partText (part : Value) : Option String := part.asStr.or (part.strAt "text")

/-- The first parts that are read are narrow. -/
def PartsFit (allowedTypes : List String) (parts : List Value) : Prop :=
  ∀ part ∈ (parts.filter fun part ↦ (reasoningText allowedTypes part).isSome).take 12,
    ∀ text, partText part = some text → Narrow 4096 4096 (trim text)

/-- The text of a value, if there is one, is narrow. -/
def RenderFits (render : Value → String) (o : Option Value) : Prop :=
  ∀ value, o = some value → Narrow 120000 120000 (render value)

/-- The result of a tool call: it is not shown where it is `null`. -/
def toolResult (item : Value) : Option Value :=
  ((item.get "result").or (item.get "contentItems")).filter fun value ↦
    match value with
    | .null => false
    | _ => true

def toolError (item : Value) : Option String :=
  (item.get "error").bind fun error ↦ ((error.get "message").or (some error)).bind Value.asStr

/-- What an item must be for its details to pass. -/
def DetailsFit (render : Value → String) (itemType : String) (item : Value)
    (shareRawReasoning : Bool) : Prop :=
  match itemType with
  | "reasoning" =>
    PartsFit ["summary_text"] (item.arrayAt "summary") ∧ (shareRawReasoning = true →
      PartsFit ["reasoning_text", "text"] (item.arrayAt "content"))
  | "commandExecution" =>
    ((item.strAt "command").bind (boundedNonempty 120000)).isSome = true →
      TrimmedNarrowAt item "command" 120000 120000 ∧
        NarrowAt item "aggregatedOutput" 120000 120000 ∧
          Exact ((item.get "exitCode").bind Value.asI64) ∧
            Exact ((item.get "durationMs").bind Value.asU64)
  | "fileChange" =>
    ∀ change ∈ ((item.arrayAt "changes").filter fun change ↦ (fileChange change).isSome).take 64,
      TrimmedNarrowAt change "path" 2048 2048 ∧ NarrowAt change "diff" 120000 120000
  | "mcpToolCall" | "dynamicToolCall" =>
    ((item.strAt "tool").bind (boundedNonempty 240)).isSome = true →
      RenderFits render (item.get "arguments") ∧ RenderFits render (toolResult item) ∧
        (∀ text, toolError item = some text → Narrow 4096 4096 text) ∧
          Exact ((item.get "durationMs").bind Value.asU64)
  | "webSearch" =>
    (∀ text, (((item.get "action").bind (·.get "query")).or (item.get "query")).bind Value.asStr =
        some text → Narrow 4096 4096 text) ∧
      ∀ action, item.get "action" = some action →
        NarrowAt action "url" 8192 2048 ∧ NarrowAt action "pattern" 4096 4096
  | "imageGeneration" => NarrowAt item "revisedPrompt" 120000 120000
  | "collabAgentToolCall" =>
    NarrowAt item "prompt" 120000 120000 ∧ TrimmedNarrowAt item "model" 240 80 ∧
      ∀ states, (item.get "agentsStates").bind Value.asObject = some states →
        ∀ entry ∈ (states.filter fun entry ↦ (agentState entry).isSome).take 16,
          NarrowAt entry.2 "message" 4096 4096
  | _ => True

section Schema

open PlaintextEvents

theorem codexActivityDetail_reasoning (summaries : List String) (rawContent : Option (List String)) :
    codexActivityDetail (CodexActivityDetails.reasoning summaries rawContent).toValue =
      (arrayUpTo 12 (stringBetween 1 maxMediumTextChars) (stringValues summaries) &&
        (rawContent.map stringValues).all (arrayUpTo 12 (stringBetween 1 maxMediumTextChars))) := by
  simp [CodexActivityDetails.toValue, codexActivityDetail, strAt, requiredField, optionalField,
    asStr]

theorem codexActivityDetail_command (text : String) (output : Option String)
    (exitCode durationMs : Option ℤ) :
    codexActivityDetail (CodexActivityDetails.command text output exitCode durationMs).toValue =
      (stringBetween 1 maxLongTextChars (.string text) &&
        (output.map Value.string).all (stringBetween 0 maxLongTextChars) &&
          (exitCode.map .integer).all safeInteger && (durationMs.map .integer).all safeNatural) := by
  simp [CodexActivityDetails.toValue, codexActivityDetail, strAt, requiredField, optionalField,
    asStr]

theorem codexActivityDetail_fileChange (changes : List CodexFileChange) :
    codexActivityDetail (CodexActivityDetails.fileChange changes).toValue =
      arrayUpTo 64 PlaintextEvents.fileChange (.array (changes.map CodexFileChange.toValue)) := by
  simp [CodexActivityDetails.toValue, codexActivityDetail, strAt, requiredField, asStr]

theorem codexActivityDetail_tool (name : String) (server arguments result error : Option String)
    (durationMs : Option ℤ) :
    codexActivityDetail
        (CodexActivityDetails.tool name server arguments result error durationMs).toValue =
      (stringBetween 1 maxShortTextChars (.string name) &&
        (server.map Value.string).all (stringBetween 1 maxShortTextChars) &&
          (arguments.map Value.string).all (stringBetween 0 maxLongTextChars) &&
            (result.map Value.string).all (stringBetween 0 maxLongTextChars) &&
              (error.map Value.string).all (stringBetween 0 maxMediumTextChars) &&
                (durationMs.map .integer).all safeNatural) := by
  simp [CodexActivityDetails.toValue, codexActivityDetail, strAt, requiredField, optionalField,
    asStr]

theorem codexActivityDetail_webSearch (action query url pattern : Option String) :
    codexActivityDetail (CodexActivityDetails.webSearch action query url pattern).toValue =
      ((action.map Value.string).all (oneOf ["search", "open_page", "find_in_page", "other"]) &&
        (query.map Value.string).all (stringBetween 0 maxMediumTextChars) &&
          (url.map Value.string).all (stringBetween 0 maxUrlChars) &&
            (pattern.map Value.string).all (stringBetween 0 maxMediumTextChars)) := by
  simp [CodexActivityDetails.toValue, codexActivityDetail, strAt, optionalField, asStr]

theorem codexActivityDetail_imageGeneration (prompt : Option String) :
    codexActivityDetail (CodexActivityDetails.imageGeneration prompt).toValue =
      (prompt.map Value.string).all (stringBetween 0 maxLongTextChars) := by
  simp [CodexActivityDetails.toValue, codexActivityDetail, strAt, optionalField, asStr]

theorem codexActivityDetail_agent (prompt model reasoningEffort : Option String)
    (states : Option (List CodexAgentState)) :
    codexActivityDetail (CodexActivityDetails.agent prompt model reasoningEffort states).toValue =
      ((prompt.map Value.string).all (stringBetween 0 maxLongTextChars) &&
        (model.map Value.string).all (stringBetween 0 maxCodexModelChars) &&
          (reasoningEffort.map Value.string).all (oneOf codexReasoningEffortIds) &&
            (states.map fun states ↦ Value.array (states.map CodexAgentState.toValue)).all
              (arrayUpTo 16 PlaintextEvents.agentState)) := by
  simp [CodexActivityDetails.toValue, codexActivityDetail, strAt, optionalField, asStr]

theorem fileChange_toValue (change : CodexFileChange) :
    PlaintextEvents.fileChange change.toValue =
      (stringBetween 1 PlaintextEvents.maxProjectPathChars (.string change.path) &&
      oneOf ["add", "delete", "update"] (.string change.action) &&
        (change.diff.map Value.string).all (stringBetween 0 maxLongTextChars)) := by
  simp [CodexFileChange.toValue, PlaintextEvents.fileChange, requiredField, optionalField]

theorem agentState_toValue (state : CodexAgentState) :
    PlaintextEvents.agentState state.toValue = (stringBetween 1 maxCodexThreadIdChars (.string state.threadId) &&
      stringBetween 1 maxShortTextChars (.string state.status) &&
        (state.message.map Value.string).all (stringBetween 0 maxMediumTextChars)) := by
  simp [CodexAgentState.toValue, PlaintextEvents.agentState, requiredField, optionalField]

theorem agentActivity_toValue (agent : CodexAgentActivity) :
    agentActivity agent.toValue =
      (oneOf ["spawn", "send", "resume", "wait", "close"] (.string agent.action) &&
        stringBetween 1 maxCodexThreadIdChars (.string agent.senderId) &&
          arrayUpTo 16 (stringBetween 1 maxCodexThreadIdChars)
            (stringValues agent.receiverIds)) := by
  simp [CodexAgentActivity.toValue, agentActivity, requiredField]

end Schema

/-- The first results of a projection are those of the first items that have one. -/
theorem take_filterMap {α β : Type} (f : α → Option β) (n : ℕ) (l : List α) :
    (l.filterMap f).take n = ((l.filter fun a ↦ (f a).isSome).take n).filterMap f := by
  induction l generalizing n with
  | nil => rw [List.filterMap_nil, List.take_nil, List.filter_nil, List.take_nil, List.filterMap_nil]
  | cons a l ih =>
    cases ha : f a with
    | none =>
      rw [List.filterMap_cons_none ha, List.filter_cons_of_neg (by rw [ha]; exact nofun)]
      exact ih n
    | some b =>
      rw [List.filterMap_cons_some ha, List.filter_cons_of_pos (by rw [ha]; rfl)]
      cases n with
      | zero => rfl
      | succ n =>
        rw [List.take_succ_cons, List.take_succ_cons, List.filterMap_cons_some ha, ih n]

theorem forall_mem_take_filterMap {α β : Type} {f : α → Option β} {n : ℕ} {l : List α}
    {P : β → Prop} : (∀ b ∈ (l.filterMap f).take n, P b) ↔
      ∀ a ∈ (l.filter fun a ↦ (f a).isSome).take n, ∀ b, f a = some b → P b := by
  rw [take_filterMap]
  constructor
  · intro h a ha b hb
    exact h b (List.mem_filterMap.mpr ⟨a, ha, hb⟩)
  · intro h b hb
    obtain ⟨a, ha, hab⟩ := List.mem_filterMap.mp hb
    exact h a ha b hab

theorem all_safeInteger {o : Option ℤ} :
    (o.map Value.integer).all safeInteger = true ↔ Exact o := by
  cases o with
  | none => exact iff_of_true rfl nofun
  | some n =>
    show (decide _ && decide _) = true ↔ _
    rw [Bool.and_eq_true, decide_eq_true_iff, decide_eq_true_iff]
    exact ⟨fun h m hm ↦ Option.some.inj hm ▸ h, fun h ↦ h n rfl⟩

theorem all_safeNatural {o : Option ℤ} (hnonneg : ∀ n, o = some n → 0 ≤ n) :
    (o.map Value.integer).all safeNatural = true ↔ Exact o := by
  cases o with
  | none => exact iff_of_true rfl nofun
  | some n =>
    have hn := hnonneg n rfl
    show (decide _ && decide _) = true ↔ _
    rw [Bool.and_eq_true, decide_eq_true_iff, decide_eq_true_iff]
    refine ⟨fun h m hm ↦ ?_, fun h ↦ ⟨hn, (h n rfl).2⟩⟩
    cases hm
    exact ⟨by omega, h.2⟩

theorem asU64_nonneg {o : Option Value} : ∀ n, o.bind Value.asU64 = some n → 0 ≤ n := by
  intro n h
  obtain ⟨value, _, hn⟩ := Option.bind_eq_some_iff.mp h
  cases value with
  | integer m =>
    rw [Value.asU64] at hn
    split at hn
    · rename_i hm
      cases hn
      exact hm.1
    · exact absurd hn nofun
  | _ => exact absurd hn nofun

variable {item : Value} {render : Value → String}

/-- The details that are projected, if there are any, pass the schema. -/
def DetailsPass (render : Value → String) (itemType : String) (item : Value)
    (shareRawReasoning : Bool) : Prop :=
  ((projectActivityDetails render itemType item shareRawReasoning).map
    CodexActivityDetails.toValue).all PlaintextEvents.codexActivityDetail = true

theorem isSome_imp {α : Type} {a : α} {P : Prop} : ((some a).isSome = true → P) ↔ P :=
  forall_prop_of_true rfl

theorem some_imp {α : Type} {a : α} {P : α → Prop} : (∀ b, some a = some b → P b) ↔ P a :=
  ⟨fun h ↦ h a rfl, fun h _ heq ↦ Option.some.inj heq ▸ h⟩

theorem detailsPass_command (share : Bool) : DetailsPass render "commandExecution" item share ↔
    DetailsFit render "commandExecution" item share := by
  show (((((item.strAt "command").bind (boundedNonempty 120000)).map fun command ↦
    CodexActivityDetails.command command _ _ _).map _).all _ = true) ↔ (_ → _)
  cases hcommand : (item.strAt "command").bind (boundedNonempty 120000) with
  | none => exact iff_of_true rfl nofun
  | some command =>
    obtain ⟨text, htext, hbounded⟩ := Option.bind_eq_some_iff.mp hcommand
    rw [isSome_imp, Option.map_some, Option.map_some, Option.all_some, codexActivityDetail_command, Bool.and_eq_true, Bool.and_eq_true, Bool.and_eq_true,
      stringBetween_boundedNonempty hbounded, all_stringBetween_boundedText, all_safeInteger,
      all_safeNatural asU64_nonneg, and_assoc, and_assoc, TrimmedNarrowAt, htext, some_imp]
    exact Iff.rfl

theorem detailsPass_tool (share : Bool) : DetailsPass render "mcpToolCall" item share ↔
    DetailsFit render "mcpToolCall" item share := by
  show (((((item.strAt "tool").bind (boundedNonempty 240)).map fun name ↦
    CodexActivityDetails.tool name ((item.strAt "server").bind (boundedNonempty 240))
      ((item.get "arguments").map fun value ↦ boundedText 120000 (render value))
      ((toolResult item).map fun value ↦ boundedText 120000 (render value))
      ((toolError item).map (boundedText 4096))
      ((item.get "durationMs").bind Value.asU64)).map _).all _ = true) ↔ (_ → _)
  cases hname : (item.strAt "tool").bind (boundedNonempty 240) with
  | none => exact iff_of_true rfl nofun
  | some name =>
    obtain ⟨text, -, hbounded⟩ := Option.bind_eq_some_iff.mp hname
    have hserver : (((item.strAt "server").bind (boundedNonempty 240)).map Value.string).all
        (stringBetween 1 PlaintextEvents.maxShortTextChars) = true := by
      cases hserver : (item.strAt "server").bind (boundedNonempty 240) with
      | none => rfl
      | some server =>
        obtain ⟨text', -, hbounded'⟩ := Option.bind_eq_some_iff.mp hserver
        exact (stringBetween_boundedNonempty hbounded').mpr (narrow_of_two_mul_le (by decide))
    have hrender : ∀ o : Option Value,
        ((o.map fun value ↦ boundedText 120000 (render value)).map Value.string).all
          (stringBetween 0 PlaintextEvents.maxLongTextChars) = true ↔ RenderFits render o := by
      intro o
      have hmap : (o.map fun value ↦ boundedText 120000 (render value)) =
          (o.map render).map (boundedText 120000) := by
        cases o <;> rfl
      rw [hmap, all_stringBetween_boundedText]
      cases o with
      | none => exact iff_of_true nofun nofun
      | some value =>
        rw [Option.map_some, some_imp, RenderFits, some_imp]
        exact Iff.rfl
    rw [isSome_imp, Option.map_some, Option.map_some, Option.all_some, codexActivityDetail_tool, (stringBetween_boundedNonempty hbounded).mpr
      (narrow_of_two_mul_le (by decide)), hserver, Bool.true_and, Bool.true_and, Bool.and_eq_true,
      Bool.and_eq_true, Bool.and_eq_true, hrender, hrender, all_stringBetween_boundedText,
      all_safeNatural asU64_nonneg, and_assoc, and_assoc]
    exact Iff.rfl

theorem fileChange_passes {value : Value} {change : CodexFileChange}
    (h : fileChange value = some change) :
    PlaintextEvents.fileChange change.toValue = true ↔
      TrimmedNarrowAt value "path" 2048 2048 ∧ NarrowAt value "diff" 120000 120000 := by
  rw [fileChange] at h
  obtain ⟨action, -, h⟩ := Option.bind_eq_some_iff.mp h
  split at h
  · rename_i haction
    obtain ⟨path, hpath, rfl⟩ := Option.map_eq_some_iff.mp h
    obtain ⟨text, htext, hbounded⟩ := Option.bind_eq_some_iff.mp hpath
    rw [fileChange_toValue, Bool.and_eq_true, Bool.and_eq_true,
      stringBetween_boundedNonempty hbounded, all_stringBetween_boundedText, TrimmedNarrowAt, htext,
      some_imp]
    have hone : oneOf ["add", "delete", "update"] (.string action) = true := decide_eq_true haction
    rw [and_iff_left hone]
    exact Iff.rfl
  · exact absurd h nofun

theorem detailsPass_fileChange (share : Bool) : DetailsPass render "fileChange" item share ↔
    DetailsFit render "fileChange" item share := by
  show PlaintextEvents.codexActivityDetail (CodexActivityDetails.toValue (.fileChange
    (((item.arrayAt "changes").filterMap fileChange).take 64))) = true ↔ (∀ change ∈ _, _)
  rw [codexActivityDetail_fileChange, arrayUpTo_map (List.length_take_le _ _), List.all_eq_true,
    forall_mem_take_filterMap]
  refine forall₂_congr fun value hvalue ↦ ?_
  obtain ⟨change, hchange⟩ := Option.isSome_iff_exists.mp
    (List.mem_filter.mp (List.mem_of_mem_take hvalue)).2
  rw [hchange, some_imp, fileChange_passes hchange]

theorem reasoningText_passes {types : List String} {part : Value} {bounded : String}
    (h : reasoningText types part = some bounded) :
    stringBetween 1 PlaintextEvents.maxMediumTextChars (.string bounded) = true ↔
      ∀ text, partText part = some text → Narrow 4096 4096 (trim text) := by
  rw [reasoningText] at h
  rw [partText]
  cases hstr : part.asStr with
  | some text =>
    rw [hstr] at h
    rw [stringBetween_boundedNonempty h, Option.some_or, some_imp]
    exact Iff.rfl
  | none =>
    rw [hstr] at h
    obtain ⟨itemType, -, h⟩ := Option.bind_eq_some_iff.mp h
    split at h
    · obtain ⟨text, htext, hbounded⟩ := Option.bind_eq_some_iff.mp h
      rw [stringBetween_boundedNonempty hbounded, Option.none_or, htext, some_imp]
      exact Iff.rfl
    · exact absurd h nofun

theorem parts_pass (types : List String) (parts : List Value) :
    arrayUpTo 12 (stringBetween 1 PlaintextEvents.maxMediumTextChars)
        (stringValues ((parts.filterMap (reasoningText types)).take 12)) = true ↔
      PartsFit types parts := by
  rw [stringValues, arrayUpTo_map (List.length_take_le _ _), List.all_eq_true,
    forall_mem_take_filterMap]
  refine forall₂_congr fun part hpart ↦ ?_
  obtain ⟨text, htext⟩ := Option.isSome_iff_exists.mp
    (List.mem_filter.mp (List.mem_of_mem_take hpart)).2
  rw [htext, some_imp, reasoningText_passes htext]

theorem partsFit_of_isEmpty (types : List String) (parts : List Value)
    (h : ((parts.filterMap (reasoningText types)).take 12).isEmpty = true) :
    PartsFit types parts := by
  rw [← parts_pass, List.isEmpty_iff.mp h]
  rfl

theorem detailsPass_reasoning (share : Bool) : DetailsPass render "reasoning" item share ↔
    DetailsFit render "reasoning" item share := by
  show (((if (((item.arrayAt "summary").filterMap (reasoningText ["summary_text"])).take 12).isEmpty
      && (if share && !((((item.arrayAt "content").filterMap
        (reasoningText ["reasoning_text", "text"])).take 12).isEmpty) then _ else none).isNone
      then none else some (CodexActivityDetails.reasoning _ _)).map _).all _ = true) ↔
    (PartsFit _ _ ∧ (_ → PartsFit _ _))
  have hsummaries := parts_pass ["summary_text"] (item.arrayAt "summary")
  have hcontent := parts_pass ["reasoning_text", "text"] (item.arrayAt "content")
  have hnone := partsFit_of_isEmpty ["summary_text"] (item.arrayAt "summary")
  have hnoContent := partsFit_of_isEmpty ["reasoning_text", "text"] (item.arrayAt "content")
  revert hsummaries hcontent hnone hnoContent
  generalize ((item.arrayAt "summary").filterMap (reasoningText ["summary_text"])).take 12 =
    summaries
  generalize ((item.arrayAt "content").filterMap
    (reasoningText ["reasoning_text", "text"])).take 12 = content
  intro hsummaries hcontent hnone hnoContent
  cases hshared : share && !content.isEmpty with
  | true =>
    rw [Bool.and_eq_true] at hshared
    rw [if_pos rfl, Option.isNone_some, Bool.and_false, if_neg Bool.false_ne_true,
      Option.map_some, Option.all_some, codexActivityDetail_reasoning, Bool.and_eq_true, hsummaries,
      Option.map_some, Option.all_some, hcontent]
    exact and_congr_right fun _ ↦ ⟨fun h _ ↦ h, fun h ↦ h hshared.1⟩
  | false =>
    have hrest : share = true → PartsFit ["reasoning_text", "text"] (item.arrayAt "content") := by
      rintro rfl
      rw [Bool.true_and, Bool.not_eq_false'] at hshared
      exact hnoContent hshared
    rw [if_neg Bool.false_ne_true, Option.isNone_none, Bool.and_true, and_iff_left hrest]
    cases hempty : summaries.isEmpty with
    | true => exact iff_of_true rfl (hnone hempty)
    | false =>
      rw [if_neg Bool.false_ne_true, Option.map_some, Option.all_some,
        codexActivityDetail_reasoning, Option.map_none, Option.all_none, Bool.and_true, hsummaries]

theorem webSearchAction_mem (action : String) :
    webSearchAction action ∈ ["search", "open_page", "find_in_page", "other"] := by
  unfold webSearchAction
  split <;> decide

theorem detailsPass_webSearch (share : Bool) : DetailsPass render "webSearch" item share ↔
    DetailsFit render "webSearch" item share := by
  show PlaintextEvents.codexActivityDetail (CodexActivityDetails.toValue (.webSearch
    (((item.get "action").bind (·.strAt "type")).map webSearchAction)
    (((((item.get "action").bind (·.get "query")).or (item.get "query")).bind Value.asStr).map
      (boundedText 4096))
    (((item.get "action").bind (·.strAt "url")).map (boundedText 8192))
    (((item.get "action").bind (·.strAt "pattern")).map (boundedText 4096)))) = true ↔
      (_ ∧ ∀ action, item.get "action" = some action → _)
  have haction : ((((item.get "action").bind (·.strAt "type")).map webSearchAction).map
      Value.string).all (oneOf ["search", "open_page", "find_in_page", "other"]) = true := by
    cases (item.get "action").bind (·.strAt "type") with
    | none => rfl
    | some action => exact decide_eq_true (webSearchAction_mem action)
  rw [codexActivityDetail_webSearch, haction, Bool.true_and, Bool.and_eq_true, Bool.and_eq_true,
    all_stringBetween_boundedText, all_stringBetween_boundedText, all_stringBetween_boundedText,
    and_assoc]
  refine and_congr_right fun _ ↦ ?_
  cases item.get "action" with
  | none => exact iff_of_true ⟨nofun, nofun⟩ nofun
  | some action =>
    rw [some_imp]
    exact Iff.rfl

theorem detailsPass_imageGeneration (share : Bool) :
    DetailsPass render "imageGeneration" item share ↔
      DetailsFit render "imageGeneration" item share := by
  show PlaintextEvents.codexActivityDetail (CodexActivityDetails.toValue (.imageGeneration
    ((item.strAt "revisedPrompt").map (boundedText 120000)))) = true ↔ NarrowAt _ _ _ _
  rw [codexActivityDetail_imageGeneration, all_stringBetween_boundedText]
  exact Iff.rfl

theorem agentState_passes {entry : String × Value} {state : CodexAgentState}
    (h : agentState entry = some state) :
    PlaintextEvents.agentState state.toValue = true ↔ NarrowAt entry.2 "message" 4096 4096 := by
  rw [agentState] at h
  obtain ⟨status, hstatus, rfl⟩ := Option.map_eq_some_iff.mp h
  obtain ⟨text, -, hbounded⟩ := Option.bind_eq_some_iff.mp hstatus
  rw [agentState_toValue, identifier_between (by decide) (by decide),
    (stringBetween_boundedNonempty hbounded).mpr (narrow_of_two_mul_le (by decide)), Bool.true_and,
    Bool.true_and, all_stringBetween_boundedText]
  exact Iff.rfl

theorem detailsPass_agent (share : Bool) : DetailsPass render "collabAgentToolCall" item share ↔
    DetailsFit render "collabAgentToolCall" item share := by
  show PlaintextEvents.codexActivityDetail (CodexActivityDetails.toValue (.agent
    ((item.strAt "prompt").map (boundedText 120000))
    ((item.strAt "model").bind (boundedNonempty 240))
    ((item.strAt "reasoningEffort").filter fun effort ↦
      effort ∈ ["none", "minimal", "low", "medium", "high", "xhigh", "max"])
    (((item.get "agentsStates").bind Value.asObject).map fun states ↦
      (states.filterMap agentState).take 16))) = true ↔ (_ ∧ _ ∧ ∀ states, _ = some states → _)
  have heffort : (((item.strAt "reasoningEffort").filter fun effort ↦
      effort ∈ ["none", "minimal", "low", "medium", "high", "xhigh", "max"]).map
        Value.string).all (oneOf PlaintextEvents.codexReasoningEffortIds) = true := by
    rw [Option.all_map, Option.all_eq_true]
    intro effort heffort
    exact (Option.filter_eq_some_iff.mp heffort).2
  rw [codexActivityDetail_agent, heffort, Bool.and_true, Bool.and_eq_true, Bool.and_eq_true,
    all_stringBetween_boundedText, all_stringBetween_boundedNonempty, and_assoc]
  refine and_congr_right fun _ ↦ and_congr_right fun _ ↦ ?_
  cases (item.get "agentsStates").bind Value.asObject with
  | none => exact iff_of_true rfl nofun
  | some states =>
    rw [some_imp, Option.map_some, Option.map_some, Option.all_some,
      arrayUpTo_map (List.length_take_le _ _), List.all_eq_true, forall_mem_take_filterMap]
    refine forall₂_congr fun entry hentry ↦ ?_
    obtain ⟨state, hstate⟩ := Option.isSome_iff_exists.mp
      (List.mem_filter.mp (List.mem_of_mem_take hentry)).2
    rw [hstate, some_imp, agentState_passes hstate]

/-- Details of every kind pass just when the item fits. -/
theorem detailsPass_iff (itemType : String) (share : Bool) :
    DetailsPass render itemType item share ↔ DetailsFit render itemType item share := by
  unfold DetailsFit
  split
  · exact detailsPass_reasoning share
  · exact detailsPass_command share
  · exact detailsPass_fileChange share
  · exact detailsPass_tool share
  · exact detailsPass_tool share
  · exact detailsPass_webSearch share
  · exact detailsPass_imageGeneration share
  · exact detailsPass_agent share
  · refine iff_of_true ?_ trivial
    have hnone : projectActivityDetails render itemType item share = none := by
      unfold projectActivityDetails
      split <;> first | rfl | contradiction
    rw [DetailsPass, hnone]
    rfl

/-! ### Events -/

section Schema

open PlaintextEvents

theorem publishCodexActivity_toValue (host : HostUser) (event : CodexActivityEvent) :
    publishCodexActivity host event.toValue = record
      [("activityId", some (.string event.activityId)), ("turnId", some (.string event.turnId)),
        ("itemId", some (.string event.itemId)), ("threadId", event.threadId.map .string),
        ("kind", some (.string event.kind)), ("status", some (.string event.status)),
        ("title", some (.string event.title)),
        ("details", event.details.map CodexActivityDetails.toValue),
        ("agent", event.agent.map CodexAgentActivity.toValue),
        ("startedAt", some (.string event.startedAt)),
        ("updatedAt", some (.string event.updatedAt)),
        ("eventType", some (.string "codex.activity")), ("host", some (.string host.name)),
        ("hostUserId", some (.string host.id))] := by
  obtain ⟨roomId, activityId, turnId, itemId, threadId, kind, status, title, details, agent,
    startedAt, updatedAt⟩ := event
  cases threadId <;> cases details <;> cases agent <;> rfl

theorem codexActivity_publish (host : HostUser) (event : CodexActivityEvent) :
    codexActivity (publishCodexActivity host event.toValue) = true ↔
      stringBetween 1 maxEnvelopeIdChars (.string event.activityId) = true ∧
      stringBetween 1 maxEnvelopeIdChars (.string event.turnId) = true ∧
      stringBetween 1 maxEnvelopeIdChars (.string event.itemId) = true ∧
      (event.threadId.map Value.string).all (stringBetween 1 maxCodexThreadIdChars) = true ∧
      oneOf activityKinds (.string event.kind) = true ∧
      oneOf ["started", "running", "completed", "failed", "declined"] (.string event.status) =
        true ∧
      stringBetween 1 maxShortTextChars (.string event.title) = true ∧
      (event.details.map CodexActivityDetails.toValue).all codexActivityDetail = true ∧
      (event.agent.map CodexAgentActivity.toValue).all agentActivity = true ∧
      datetime (.string event.startedAt) = true ∧ datetime (.string event.updatedAt) = true ∧
      stringBetween 1 maxDisplayNameChars (.string host.name) = true ∧
      stringBetween 1 maxUserIdChars (.string host.id) = true := by
  have htype : oneOf ["codex.activity"] (.string "codex.activity") = true := by decide
  rw [publishCodexActivity_toValue]
  simp [codexActivity, requiredField, optionalField, htype, and_assoc]

theorem activityKind_passes (itemType : String) :
    oneOf activityKinds (.string (activityKind itemType).1) = true ∧
      stringBetween 1 maxShortTextChars (.string (activityKind itemType).2) = true := by
  unfold activityKind
  split <;> decide

theorem activityStatus_passes {method lifecycle : String} (h : lifecycleStatus method = some lifecycle)
    (itemStatus : String) : oneOf ["started", "running", "completed", "failed", "declined"]
      (.string (activityStatus itemStatus lifecycle)) = true := by
  have hlifecycle : lifecycle ∈ ["started", "running", "completed"] := by
    unfold lifecycleStatus at h
    split at h <;> cases h <;> decide
  have hsubset : ["started", "running", "completed"] ⊆
      ["started", "running", "completed", "failed", "declined"] := by decide
  unfold activityStatus
  split <;> first | decide | exact decide_eq_true (hsubset hlifecycle)

theorem agentAction_mem {tool action : String} (h : agentAction tool = some action) :
    action ∈ ["spawn", "send", "resume", "wait", "close"] := by
  unfold agentAction at h
  split at h <;> cases h <;> decide

theorem projectAgent_passes {itemType : String} {agent : Option CodexAgentActivity}
    (h : projectAgent itemType item = some agent) :
    (agent.map CodexAgentActivity.toValue).all agentActivity = true := by
  rw [projectAgent] at h
  split at h
  · obtain ⟨action, haction, rfl⟩ := Option.map_eq_some_iff.mp h
    obtain ⟨tool, -, htool⟩ := Option.bind_eq_some_iff.mp haction
    have hone : oneOf ["spawn", "send", "resume", "wait", "close"] (.string action) = true :=
      decide_eq_true (agentAction_mem htool)
    rw [Option.map_some, Option.all_some, agentActivity_toValue, hone,
      identifier_between (by decide) (by decide), Bool.true_and, Bool.true_and, stringValues,
      arrayUpTo_map (List.length_take_le _ _), List.all_eq_true]
    intro id hid
    obtain ⟨text, _, rfl⟩ := List.mem_map.mp (List.mem_of_mem_take hid)
    exact identifier_between (by decide) (by decide)
  · cases h
    rfl

end Schema

/-! ### Ids of activities -/

theorem isSafe_of_isWhitespace {c : Char} (h : isWhitespace c = true) : isSafe c = false := by
  have houtside : c.toNat ≤ 32 ∨ 0x85 ≤ c.toNat := by
    simp only [isWhitespace, Bool.or_eq_true, Bool.and_eq_true, decide_eq_true_eq] at h
    rcases h with (hmem | h) | h
    · simp only [List.mem_cons, List.not_mem_nil, or_false] at hmem
      rcases hmem with rfl | rfl | rfl | rfl | rfl | rfl | rfl | rfl | rfl
      · exact .inl (Nat.le_refl 32)
      all_goals exact .inr (by decide)
    · omega
    · omega
  by_contra hsafe
  have hinside := toNat_between_of_isSafe (Bool.not_eq_false _ ▸ hsafe)
  omega

theorem filter_dropWhile {α : Type} {p q : α → Bool} (h : ∀ a, p a = true → q a = false)
    (l : List α) : (l.dropWhile p).filter q = l.filter q := by
  induction l with
  | nil => rfl
  | cons a l ih =>
    rw [List.dropWhile_cons]
    split
    · rename_i hp
      rw [ih, List.filter_cons_of_neg (by rw [h a hp]; exact nofun)]
    · rfl

/-- Trimming keeps the safe characters. -/
theorem filter_trim (text : String) : (trim text).toList.filter isSafe = text.toList.filter isSafe := by
  have h : ∀ c, isWhitespace c = true → isSafe c = false := fun c ↦ isSafe_of_isWhitespace
  rw [trim, String.toList_ofList, List.rdropWhile, List.filter_reverse, filter_dropWhile h,
    List.filter_reverse, List.reverse_reverse, filter_dropWhile h]

/-- The id of an item, as far as the id of the turn leaves room for it. -/
def keptId (turnId : String) (itemId : Option String) : List Char :=
  (boundedCodexIdentifier itemId "item").toList.take (119 - (turnId.toList.filter isSafe).length)

theorem filter_boundedCodexIdentifier (itemId : Option String) :
    (boundedCodexIdentifier itemId "item").toList.filter isSafe =
      (boundedCodexIdentifier itemId "item").toList := by
  rw [List.filter_eq_self, boundedCodexIdentifier_eq]
  split
  · exact List.all_eq_true.mp rfl
  · rw [String.toList_ofList]
    intro c hc
    exact (List.mem_filter.mp (List.mem_of_mem_take hc)).2

/-- The id of an activity is the id of the turn and what is kept of the item's. -/
theorem toList_activityId (turnId : String) (itemId : Option String) :
    (boundedCodexIdentifier (some (turnId ++ "-" ++ boundedCodexIdentifier itemId "item"))
        "activity").toList =
      ((turnId.toList.filter isSafe) ++ ['-']).take 120 ++ keptId turnId itemId := by
  have hsafe : (trim (turnId ++ "-" ++ boundedCodexIdentifier itemId "item")).toList.filter isSafe =
      (turnId.toList.filter isSafe) ++ ['-'] ++ (boundedCodexIdentifier itemId "item").toList := by
    rw [filter_trim, String.toList_append, String.toList_append, List.filter_append,
      List.filter_append, filter_boundedCodexIdentifier]
    rfl
  rw [boundedCodexIdentifier_eq, Option.getD_some, hsafe, List.take_append, List.length_append,
    List.length_singleton, keptId]
  have hroom : 120 - ((turnId.toList.filter isSafe).length + 1) =
      119 - (turnId.toList.filter isSafe).length := by omega
  rw [hroom, if_neg, String.toList_ofList]
  intro hempty
  rw [List.isEmpty_iff, List.append_eq_nil_iff, List.take_eq_nil_iff] at hempty
  rcases hempty.1 with h | h
  · exact absurd h (by decide)
  · exact absurd h (List.append_ne_nil_of_right_ne_nil _ (List.cons_ne_nil _ _))

theorem activityId_eq_iff (turnId : String) (a b : Option String) :
    boundedCodexIdentifier (some (turnId ++ "-" ++ boundedCodexIdentifier a "item")) "activity" =
        boundedCodexIdentifier (some (turnId ++ "-" ++ boundedCodexIdentifier b "item"))
          "activity" ↔
      keptId turnId a = keptId turnId b := by
  rw [← String.toList_inj, toList_activityId, toList_activityId, List.append_right_inj]

/-! ### Turns -/

/-- The item of a notification. -/
@[grind =] def itemOf (notification : Value) : Option Value :=
  (notification.get "params").bind fun params ↦ params.get "item"

/-- What a turn and a notification must be for the activity to be accepted. -/
structure Fits (render : Value → String) (context : ActivityContext) (notification : Value) :
    Prop where
  turnId : 1 ≤ Text.utf16Length context.clientTurnId ∧ Text.utf16Length context.clientTurnId ≤ 160
  details : ∀ item, itemOf notification = some item →
    DetailsFit render ((item.strAt "type").getD "other") item context.shareRawReasoning

/-- The user passes the schema. -/
def HostUser.Valid (host : HostUser) : Prop :=
  stringBetween 1 PlaintextEvents.maxDisplayNameChars (.string host.name) = true ∧
    stringBetween 1 PlaintextEvents.maxUserIdChars (.string host.id) = true

variable {context : ActivityContext} {host : HostUser} {method now : String}
  {notification : Value} {started started' : InsertionMap String String}
  {event : CodexActivityEvent} {notices : List Notice}

theorem projectCodexActivity_activityId
    (h : projectCodexActivity render context method notification now started =
      some (event, started')) :
    event.activityId = boundedCodexIdentifier (some (context.clientTurnId ++ "-" ++
      boundedCodexIdentifier ((itemOf notification).bind (·.strAt "id")) "item")) "activity" := by
  simp only [projectCodexActivity, Option.bind_eq_some_iff, Option.map_eq_some_iff,
    Prod.mk.injEq] at h
  obtain ⟨lifecycle, -, params, hparams, item, hitem, agent, -, rfl, -⟩ := h
  rw [itemOf, hparams, Option.bind_some, hitem, Option.bind_some]

/-- With a clock that writes timestamps, an activity is accepted just when the notification fits. -/
theorem codexActivity_iff_fits (hhost : host.Valid)
    (hnow : PlaintextEvents.datetime (.string now) = true)
    (hstarted : ∀ itemId time, started.get itemId = some time →
      PlaintextEvents.datetime (.string time) = true)
    (h : projectCodexActivity render context method notification now started =
      some (event, started')) :
    PlaintextEvents.codexActivity (publishCodexActivity host event.toValue) = true ↔
      Fits render context notification := by
  simp only [projectCodexActivity, Option.bind_eq_some_iff, Option.map_eq_some_iff,
    Prod.mk.injEq] at h
  obtain ⟨lifecycle, hlifecycle, params, hparams, item, hitem, agent, hagent, rfl, -⟩ := h
  have hitemOf : itemOf notification = some item := by
    rw [itemOf, hparams, Option.bind_some, hitem]
  have hstartedAt : PlaintextEvents.datetime
      (.string ((started.get (boundedCodexIdentifier (item.strAt "id") "item")).getD now)) =
        true := by
    cases hget : started.get (boundedCodexIdentifier (item.strAt "id") "item") with
    | none => exact hnow
    | some time => exact hstarted _ time hget
  have hthread : (((params.strAt "threadId").map fun value ↦
      boundedCodexIdentifier (some value) "thread").map Value.string).all
        (stringBetween 1 PlaintextEvents.maxCodexThreadIdChars) = true := by
    cases params.strAt "threadId" with
    | none => rfl
    | some value =>
      rw [Option.map_some, Option.map_some, Option.all_some]
      exact identifier_between (by decide) (by decide)
  obtain ⟨hkind, htitle⟩ := activityKind_passes ((item.strAt "type").getD "other")
  have hpass : ∀ value fallback, stringBetween 1 PlaintextEvents.maxEnvelopeIdChars
      (.string fallback) = true → stringBetween 1 PlaintextEvents.maxEnvelopeIdChars
        (.string (boundedCodexIdentifier value fallback)) = true :=
    fun _ _ ↦ identifier_between (by decide)
  rw [codexActivity_publish]
  dsimp only
  constructor
  · rintro ⟨-, hturn, -, -, -, -, -, hdetails, -⟩
    rw [stringBetween, Bool.and_eq_true, decide_eq_true_iff, decide_eq_true_iff] at hturn
    refine ⟨hturn, fun item' hitem' ↦ ?_⟩
    rw [hitemOf] at hitem'
    cases hitem'
    exact (detailsPass_iff _ _).mp hdetails
  · intro hfits
    refine ⟨hpass _ "activity" (by decide), ?_, hpass _ "item" (by decide), hthread, hkind,
      activityStatus_passes hlifecycle _, htitle, ?_, projectAgent_passes hagent, hstartedAt, hnow,
      hhost⟩
    · rw [stringBetween, Bool.and_eq_true, decide_eq_true_iff, decide_eq_true_iff]
      exact hfits.turnId
    · exact (detailsPass_iff _ _).mpr (hfits.details item hitemOf)

theorem started_of_projectCodexActivity (h : projectCodexActivity render context method
      notification now started = some (event, started')) {itemId time : String}
    (hget : started'.get itemId = some time) : started.get itemId = some time ∨ time = now := by
  simp only [projectCodexActivity, Option.bind_eq_some_iff, Option.map_eq_some_iff,
    Prod.mk.injEq] at h
  obtain ⟨-, -, -, -, item, -, -, -, -, rfl⟩ := h
  split at hget
  · exact .inl hget
  · rw [InsertionMap.get_set] at hget
    split at hget
    · exact .inr (Option.some.inj hget).symm
    · exact .inl hget

/-- An item was first seen when some notification came. -/
theorem mem_of_projectActivities {itemId time : String}
    (h : (projectActivities render context notices).2.get itemId = some time) :
    ∃ notice ∈ notices, notice.now = time := by
  induction notices using List.reverseRecOn with
  | nil => exact absurd h nofun
  | append_singleton notices notice ih =>
    rw [projectActivities, List.foldl_append] at h
    change (addActivity render context (projectActivities render context notices) notice).2.get
      itemId = some time at h
    rw [addActivity] at h
    cases hprojected : projectCodexActivity render context notice.method notice.value notice.now
        (projectActivities render context notices).2 with
    | none =>
      rw [hprojected] at h
      obtain ⟨notice', hmem, htime⟩ := ih h
      exact ⟨notice', List.mem_append_left _ hmem, htime⟩
    | some projected =>
      rw [hprojected] at h
      rcases started_of_projectCodexActivity hprojected h with hold | rfl
      · obtain ⟨notice', hmem, htime⟩ := ih hold
        exact ⟨notice', List.mem_append_left _ hmem, htime⟩
      · exact ⟨notice, List.mem_append_right _ (List.mem_singleton_self _), rfl⟩

/-- A notification is projected to an activity, behind what the turn has handled before. -/
def ProjectsTo (render : Value → String) (context : ActivityContext) (notices : List Notice)
    (notice : Notice) (event : CodexActivityEvent) : Prop :=
  ∃ before behind started, notices = before ++ notice :: behind ∧
    projectCodexActivity render context notice.method notice.value notice.now
      (projectActivities render context before).2 = some (event, started)

private def someHost : HostUser := ⟨"Ana", "github:1"⟩

private def someContext : ActivityContext := ⟨"room-1", "turn-1", false⟩

private def itemNotice (fields : List (String × Value)) : Notice where
  method := "item/completed"
  value := .object [("params", .object [("item", .object fields)])]
  now := "2026-02-03T04:05:06.789Z"

private def imageNotice : Notice :=
  itemNotice [("id", .string "image-1"), ("type", .string "imageGeneration"),
    ("revisedPrompt", .string "A bridge")]

private def imageActivity : CodexActivityEvent where
  roomId := "room-1"
  activityId := "turn-1-image-1"
  turnId := "turn-1"
  itemId := "image-1"
  threadId := none
  kind := "image_generation"
  status := "completed"
  title := "Image generation"
  details := some (.imageGeneration (some "A bridge"))
  agent := none
  startedAt := "2026-02-03T04:05:06.789Z"
  updatedAt := "2026-02-03T04:05:06.789Z"

/-- The verdict of the receivers on the activity of an item. -/
private def verdict (notice : Notice) : Option Bool :=
  (projectCodexActivity (fun _ ↦ "") someContext notice.method notice.value notice.now
    .empty).map fun projected ↦
      PlaintextEvents.codexActivity (publishCodexActivity someHost projected.1.toValue)

private def activityIdOf (notice : Notice) : Option String :=
  (projectCodexActivity (fun _ ↦ "") someContext notice.method notice.value notice.now
    .empty).map fun projected ↦ projected.1.activityId

end MultAIplayer.Native
