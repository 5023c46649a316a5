import MultAIplayer.Lib.Text
import MultAIplayer.Native.Value

/-!
# Records and their schemas

Objects as serde writes a struct, with the optional fields that have a value (`record`), and the
checks that a zod schema makes of an object. Texts are measured in UTF-16 units. A numeric field is
an integer that a double holds exactly; no float is ever sent.
-/

namespace MultAIplayer.Native.Value

variable {α : Type} {key : String} {o : Option Value} {l : List (String × Option Value)}

/-! ### Records -/

/-- The object of the fields that have a value. -/
@[grind =] def record (l : List (String × Option Value)) : Value :=
  .object (l.filterMap fun e ↦ e.2.map fun value ↦ (e.1, value))

@[simp] theorem get_record_cons (key : String) (e : String × Option Value)
    (l : List (String × Option Value)) :
    (record (e :: l)).get key = if key = e.1 then e.2.or ((record l).get key)
      else (record l).get key := by
  obtain ⟨key', _ | value⟩ := e
  · show (record l).get key = _
    split <;> rfl
  · show List.lookup key ((key', value) :: _) = _
    rw [List.lookup_cons]
    by_cases hkey : key = key'
    · rw [if_pos hkey, beq_iff_eq.mpr hkey]
      rfl
    · rw [if_neg hkey, beq_eq_false_iff_ne.mpr hkey]
      rfl

@[simp] theorem get_record_nil (key : String) : (record []).get key = none := rfl

theorem get_record_of_not_mem (h : key ∉ l.map Prod.fst) : (record l).get key = none := by
  induction l with
  | nil => rfl
  | cons e l ih =>
    rw [List.map_cons, List.mem_cons, not_or] at h
    rw [get_record_cons, if_neg h.1]
    exact ih h.2

theorem get_record (hnodup : (l.map Prod.fst).Nodup) (h : (key, o) ∈ l) :
    (record l).get key = o := by
  induction l with
  | nil => exact absurd h List.not_mem_nil
  | cons e l ih =>
    obtain ⟨hnot, hnodup⟩ := List.nodup_cons.mp hnodup
    rw [get_record_cons]
    rcases List.mem_cons.mp h with rfl | hmem
    · rw [if_pos rfl, get_record_of_not_mem hnot, Option.or_none]
    · have hne : key ≠ e.1 := fun heq ↦ hnot (heq ▸ List.mem_map_of_mem hmem)
      rw [if_neg hne]
      exact ih hnodup hmem

/-! ### Schemas -/

/-- `z.string().min(lo).max(hi)`. -/
@[grind =] def stringBetween (lo hi : ℕ) : Value → Bool
  | .string s => lo ≤ Text.utf16Length s && Text.utf16Length s ≤ hi
  | _ => false

/-- `z.number().int()`. -/
def safeInteger : Value → Bool
  | .integer n => -(2 ^ 53) < n && n < 2 ^ 53
  | _ => false

/-- `z.number().int().nonnegative()`. -/
def safeNatural : Value → Bool
  | .integer n => 0 ≤ n && n < 2 ^ 53
  | _ => false

/-- `z.enum`, or `z.literal` of one text. -/
def oneOf (texts : List String) : Value → Bool
  | .string s => s ∈ texts
  | _ => false

/-- `z.array(schema).max(hi)`. -/
def arrayUpTo (hi : ℕ) (schema : Value → Bool) : Value → Bool
  | .array items => items.length ≤ hi && items.all schema
  | _ => false

def requiredField (key : String) (schema : Value → Bool) (v : Value) : Bool := (v.get key).any schema

/-- A field that may be absent, but not wrong. -/
def optionalField (key : String) (schema : Value → Bool) (v : Value) : Bool := (v.get key).all schema

theorem required_record {schema : Value → Bool} (hnodup : (l.map Prod.fst).Nodup)
    (h : (key, o) ∈ l) : requiredField key schema (record l) = o.any schema := by
  rw [requiredField, get_record hnodup h]

theorem optional_record {schema : Value → Bool} (hnodup : (l.map Prod.fst).Nodup)
    (h : (key, o) ∈ l) : optionalField key schema (record l) = o.all schema := by
  rw [optionalField, get_record hnodup h]

theorem arrayUpTo_map {hi : ℕ} {schema : Value → Bool} {f : α → Value} {items : List α}
    (h : items.length ≤ hi) :
    arrayUpTo hi schema (.array (items.map f)) = items.all fun item ↦ schema (f item) := by
  rw [arrayUpTo, List.length_map, decide_eq_true h, Bool.true_and, List.all_map]
  rfl

end MultAIplayer.Native.Value
