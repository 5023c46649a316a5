import MultAIplayer.Lib.Json
import MultAIplayer.Lib.Text

/-!
# Reading JSON values

Schemas over parsed JSON: a field of an object, then a check of its value. A schema either rejects
the value or returns what it read, so a parsed record is built from checked parts only.

A key that is absent and a key whose value is rejected are told apart (`optional`): an optional
field may be absent, but it may not be `null` or of another type.
-/

namespace Json

/-! ### Parts of a value -/

/-- The value under a key; of several the last one counts. -/
def fieldValue (k : String) : {kind : JsonKind} → JsonTerm kind → Option Json
  | _, .field j v fs => (fieldValue k fs).or (if j = k then some v else none)
  | _, _ => none

/-- The value of an object under a key. -/
def get? (k : String) : Json → Option Json
  | .obj fs => fieldValue k fs
  | _ => none

/-- The values of a list of items. -/
def itemValues : {kind : JsonKind} → JsonTerm kind → List Json
  | _, .item x xs => x :: itemValues xs
  | _, _ => []

theorem fieldValue_fields_of_not_mem {k : String} {l : List (String × Option Json)}
    (h : k ∉ l.map Prod.fst) : fieldValue k (fields l) = none := by
  induction l with
  | nil => rfl
  | cons e l ih =>
    obtain ⟨j, o⟩ := e
    rw [List.map_cons, List.mem_cons, not_or] at h
    cases o with
    | none => exact ih h.2
    | some v =>
      show (fieldValue k (fields l)).or (if j = k then some v else none) = none
      rw [ih h.2, if_neg (Ne.symm h.1)]
      rfl

/-- An object written from distinct keys is read back key by key. -/
theorem get?_obj_fields {k : String} {o : Option Json} {l : List (String × Option Json)}
    (hl : (l.map Prod.fst).Nodup) (h : (k, o) ∈ l) : get? k (.obj (fields l)) = o := by
  show fieldValue k (fields l) = o
  induction l with
  | nil => cases h
  | cons e l ih =>
    obtain ⟨hnot, hnodup⟩ := List.nodup_cons.mp hl
    rcases List.mem_cons.mp h with rfl | hmem
    · cases o with
      | none => exact fieldValue_fields_of_not_mem (l := l) hnot
      | some v =>
        show (fieldValue k (fields l)).or (if k = k then some v else none) = some v
        rw [fieldValue_fields_of_not_mem hnot, if_pos rfl]
        rfl
    · obtain ⟨j, o'⟩ := e
      have hne : ¬j = k := by
        intro he
        exact hnot (he ▸ List.mem_map.mpr ⟨(k, o), hmem, rfl⟩)
      cases o' with
      | none => exact ih hnodup hmem
      | some v =>
        show (fieldValue k (fields l)).or (if j = k then some v else none) = o
        rw [ih hnodup hmem, if_neg hne, Option.or_none]

/-! ### Schemas -/

/-- `z.string().min(lo).max(hi)`. -/
def string? (lo hi : ℕ) : Json → Option String
  | .str s => if lo ≤ Text.utf16Length s ∧ Text.utf16Length s ≤ hi then some s else none
  | _ => none

/-- `z.number().int().min(lo).max(hi)`. -/
def int? (lo hi : ℕ) : Json → Option ℕ
  | .num n => if lo ≤ n ∧ n ≤ hi then some n else none
  | _ => none

/-- One of a list of literals, each with what it stands for. -/
def literal? {α : Type} (choices : List (String × α)) : Json → Option α
  | .str s => (choices.find? fun c ↦ c.1 = s).map Prod.snd
  | _ => none

/-- A list of at most the given length whose items all pass a schema. -/
def array? {α : Type} (hi : ℕ) (schema : Json → Option α) : Json → Option (List α)
  | .arr xs => if (itemValues xs).length ≤ hi then (itemValues xs).mapM schema else none
  | _ => none

/-- A field that must be there. -/
def required {α : Type} (schema : Json → Option α) (k : String) (v : Json) : Option α :=
  (get? k v).bind schema

/-- A field that may be absent, but not wrong. -/
def optional {α : Type} (schema : Json → Option α) (k : String) (v : Json) : Option (Option α) :=
  match get? k v with
  | none => some none
  | some w => (schema w).map some

end Json
