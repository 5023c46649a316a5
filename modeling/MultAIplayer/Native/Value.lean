import Mathlib.Data.Int.Notation
import Mathlib.Algebra.Ring.Nat
import Mathlib.Algebra.Ring.Int.Defs

/-!
# JSON values of the native process

`serde_json::Value`, read through its accessors. A number is an integer of 64 bits or a float; of a
float nothing is read here, and it stands as its text. The keys of an object are distinct.
-/

namespace MultAIplayer.Native

inductive Value where
  | null
  | bool (b : Bool)
  | integer (n : ℤ)
  | float (text : String)
  | string (s : String)
  | array (items : List Value)
  | object (fields : List (String × Value))

namespace Value

def get (key : String) : Value → Option Value
  | object fields => fields.lookup key
  | _ => none

@[grind =] def asStr : Value → Option String
  | string s => some s
  | _ => none

def asBool : Value → Option Bool
  | bool b => some b
  | _ => none

def asArray : Value → Option (List Value)
  | array items => some items
  | _ => none

def asObject : Value → Option (List (String × Value))
  | object fields => some fields
  | _ => none

def asI64 : Value → Option ℤ
  | integer n => if -(2 ^ 63) ≤ n ∧ n < 2 ^ 63 then some n else none
  | _ => none

def asU64 : Value → Option ℤ
  | integer n => if 0 ≤ n ∧ n < 2 ^ 64 then some n else none
  | _ => none

/-- The text under a key. -/
def strAt (v : Value) (key : String) : Option String := (v.get key).bind asStr

def arrayAt (v : Value) (key : String) : List Value := ((v.get key).bind asArray).getD []

/-- `pointer`, along keys of objects. -/
def pointer : List String → Value → Option Value
  | [], v => some v
  | key :: path, v => (v.get key).bind (pointer path)

variable {value : Value} {fields : List (String × Value)}

/-- What is no object holds no field. -/
theorem get_of_asObject_none (h : value.asObject = none) (key : String) : value.get key = none := by
  cases value with
  | object fields => exact absurd h nofun
  | _ => rfl

theorem eq_object_of_asObject (h : value.asObject = some fields) : value = .object fields := by
  cases value with
  | object fields' =>
    cases h
    rfl
  | _ => exact absurd h nofun

/-! ### Equality -/

mutual

def same : Value → Value → Bool
  | null, null => true
  | bool a, bool b => a = b
  | integer a, integer b => a = b
  | float a, float b => a = b
  | string a, string b => a = b
  | array a, array b => sameItems a b
  | object a, object b => sameFields a b
  | _, _ => false

@[grind =] def sameItems : List Value → List Value → Bool
  | [], [] => true
  | a :: l, b :: l' => same a b && sameItems l l'
  | _, _ => false

@[grind =] def sameFields : List (String × Value) → List (String × Value) → Bool
  | [], [] => true
  | (key, a) :: l, (key', b) :: l' => key = key' && same a b && sameFields l l'
  | _, _ => false

end

mutual

theorem eq_of_same : ∀ {a b : Value}, same a b = true → a = b
  | .null, b, h => by cases b <;> first | rfl | exact absurd h Bool.false_ne_true
  | .bool a, b, h => by
    cases b <;> first | exact absurd h Bool.false_ne_true | exact congrArg _ (of_decide_eq_true h)
  | .integer a, b, h => by
    cases b <;> first | exact absurd h Bool.false_ne_true | exact congrArg _ (of_decide_eq_true h)
  | .float a, b, h => by
    cases b <;> first | exact absurd h Bool.false_ne_true | exact congrArg _ (of_decide_eq_true h)
  | .string a, b, h => by
    cases b <;> first | exact absurd h Bool.false_ne_true | exact congrArg _ (of_decide_eq_true h)
  | .array a, b, h => by
    cases b <;> first | exact absurd h Bool.false_ne_true | exact congrArg _ (eq_of_sameItems h)
  | .object a, b, h => by
    cases b <;> first | exact absurd h Bool.false_ne_true | exact congrArg _ (eq_of_sameFields h)

theorem eq_of_sameItems : ∀ {l l' : List Value}, sameItems l l' = true → l = l'
  | [], [], _ => rfl
  | a :: l, b :: l', h => by
    rw [sameItems, Bool.and_eq_true] at h
    rw [eq_of_same h.1, eq_of_sameItems h.2]

theorem eq_of_sameFields : ∀ {l l' : List (String × Value)}, sameFields l l' = true → l = l'
  | [], [], _ => rfl
  | (key, a) :: l, (key', b) :: l', h => by
    rw [sameFields, Bool.and_eq_true, Bool.and_eq_true, decide_eq_true_iff] at h
    rw [h.1.1, eq_of_same h.1.2, eq_of_sameFields h.2]

end

mutual

theorem same_self : ∀ a : Value, same a a = true
  | .null => rfl
  | .bool _ | .integer _ | .float _ | .string _ => decide_eq_true rfl
  | .array a => sameItems_self a
  | .object a => sameFields_self a

theorem sameItems_self : ∀ l : List Value, sameItems l l = true
  | [] => rfl
  | a :: l => by rw [sameItems, same_self a, sameItems_self l]; rfl

theorem sameFields_self : ∀ l : List (String × Value), sameFields l l = true
  | [] => rfl
  | (key, a) :: l => by
    rw [sameFields, same_self a, sameFields_self l, decide_eq_true rfl]
    rfl

end

instance : DecidableEq Value := fun a b ↦
  decidable_of_iff (same a b = true) ⟨eq_of_same, fun h ↦ h ▸ same_self a⟩

end Value

/-- `RpcId`: an integer or a text. -/
inductive RpcId where
  | number (n : ℤ)
  | string (s : String)
  deriving DecidableEq

namespace RpcId

def fromValue : Value → Option RpcId
  | .integer n => if -(2 ^ 63) ≤ n ∧ n < 2 ^ 63 then some (.number n) else none
  | .string s => some (.string s)
  | _ => none

@[grind =] def toValue : RpcId → Value
  | number n => .integer n
  | string s => .string s

end RpcId

end MultAIplayer.Native
