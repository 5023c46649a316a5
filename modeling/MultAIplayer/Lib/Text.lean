import Mathlib.Data.List.DropRight
import Mathlib.Algebra.GroupWithZero.Nat
import Mathlib.Algebra.Ring.Nat

/-!
# Text as ECMAScript sees it

Lengths, trimming and character tests of ECMAScript strings, over Lean strings. `utf16Length` is
`String.prototype.length`: a character outside the Basic Multilingual Plane counts twice.

## Base64

`isCanonicalBase64` says when decoding a text and encoding the bytes again gives the text back:
full groups of the alphabet, one padded group at most, and no bits in the last digit that the
padding throws away. `isPaddedBase64` is the same shape without the last condition, which a regular
expression over characters cannot state.
-/

namespace Text

instance lawfulBEq_listChar : LawfulBEq (List Char) := inferInstance

/-! ### Length and trimming -/

/-- The number of UTF-16 code units. -/
def utf16Length (s : String) : ℕ :=
  (s.toList.map fun c ↦ if c.toNat < 0x10000 then 1 else 2).sum

/-- The UTF-16 code units. -/
def utf16Units (s : String) : List ℕ :=
  s.toList.flatMap fun c ↦
    if c.toNat < 0x10000 then [c.toNat]
    else [0xd800 + (c.toNat - 0x10000) / 0x400, 0xdc00 + (c.toNat - 0x10000) % 0x400]

/-- The code units of a character. -/
@[grind =] def charUnits (c : Char) : List ℕ :=
  if c.toNat < 0x10000 then [c.toNat]
  else [0xd800 + (c.toNat - 0x10000) / 0x400, 0xdc00 + (c.toNat - 0x10000) % 0x400]

/-- The code units of a character end where the next one begins. -/
theorem charUnits_append_inj {c d : Char} {s t : List ℕ}
    (h : charUnits c ++ s = charUnits d ++ t) : c = d ∧ s = t := by
  have hc : c.toNat < 0xd800 ∨ 0xdfff < c.toNat ∧ c.toNat < 0x110000 := c.valid
  have hd : d.toNat < 0xd800 ∨ 0xdfff < d.toNat ∧ d.toNat < 0x110000 := d.valid
  unfold charUnits at h
  split_ifs at h with hcsmall hdsmall hdsmall
  · obtain ⟨hhead, hrest⟩ := List.cons.inj h
    exact ⟨Char.toNat_inj.mp hhead, hrest⟩
  · have hhead := (List.cons.inj h).1
    omega
  · have hhead := (List.cons.inj h).1
    omega
  · obtain ⟨hhigh, hrest⟩ := List.cons.inj h
    obtain ⟨hlow, hrest⟩ := List.cons.inj hrest
    exact ⟨Char.toNat_inj.mp (by omega), hrest⟩

theorem utf16Units_injective : Function.Injective utf16Units := by
  intro a b h
  refine String.toList_inj.mp ?_
  have hunits : a.toList.flatMap charUnits = b.toList.flatMap charUnits := h
  revert hunits
  generalize a.toList = l
  generalize b.toList = l'
  intro hunits
  have hne : ∀ c rest, charUnits c ++ rest ≠ ([] : List ℕ) := by
    intro c rest hnil
    unfold charUnits at hnil
    split_ifs at hnil <;> cases hnil
  induction l generalizing l' with
  | nil =>
    rcases l' with _ | ⟨d, l'⟩
    · rfl
    · exact absurd hunits.symm (hne d _)
  | cons c l ih =>
    rcases l' with _ | ⟨d, l'⟩
    · exact absurd hunits (hne c _)
    · obtain ⟨rfl, hrest⟩ := charUnits_append_inj hunits
      rw [ih l' hrest]

/-- Only the character `\0` has the code unit 0. -/
theorem zero_not_mem_utf16Units {s : String} (h : '\x00' ∉ s.toList) : 0 ∉ utf16Units s := by
  intro hzero
  obtain ⟨c, hc, hunit⟩ := List.mem_flatMap.mp hzero
  split_ifs at hunit with hsmall
  · obtain rfl : c = '\x00' := Char.toNat_inj.mp (List.mem_singleton.mp hunit).symm
    exact h hc
  · simp only [List.mem_cons, List.not_mem_nil, or_false] at hunit
    omega

/-- The number of UTF-8 bytes. -/
@[grind =] def utf8Length (s : String) : ℕ := (s.toList.map Char.utf8Size).sum

theorem utf8Length_ofList (l : List Char) :
    utf8Length (String.ofList l) = (l.map Char.utf8Size).sum := by
  rw [utf8Length, String.toList_ofList]

theorem utf8Length_append (s t : String) : utf8Length (s ++ t) = utf8Length s + utf8Length t := by
  unfold utf8Length
  rw [String.toList_append, List.map_append, List.sum_append]

/-- White space and line terminators. -/
def isWhiteSpace (c : Char) : Bool :=
  c ∈ ['\t', '\n', '\x0b', '\x0c', '\r', ' ', '\u00a0', '\u1680', '\u2028', '\u2029', '\u202f',
    '\u205f', '\u3000', '\ufeff'] || (0x2000 ≤ c.toNat && c.toNat ≤ 0x200a)

/-- `String.prototype.trim`. -/
def trim (s : String) : String :=
  String.ofList ((s.toList.dropWhile isWhiteSpace).rdropWhile isWhiteSpace)

/-- A text that has been trimmed is trimmed. -/
theorem trim_trim (s : String) : trim (trim s) = trim s := by
  let dropped := s.toList.dropWhile isWhiteSpace
  have hhead : (dropped.rdropWhile isWhiteSpace).dropWhile isWhiteSpace =
      dropped.rdropWhile isWhiteSpace := by
    rw [List.dropWhile_eq_self_iff]
    intro hl
    have hstart : dropped.rdropWhile isWhiteSpace <+: dropped := List.rdropWhile_prefix _ _
    rw [hstart.getElem hl]
    exact List.dropWhile_get_zero_not isWhiteSpace s.toList (hl.trans_le hstart.length_le)
  show String.ofList (((String.ofList (dropped.rdropWhile isWhiteSpace)).toList.dropWhile
    isWhiteSpace).rdropWhile isWhiteSpace) = _
  rw [String.toList_ofList, hhead, List.rdropWhile_idempotent]
  rfl

theorem utf16Length_pos {s : String} (h : s ≠ "") : 1 ≤ utf16Length s := by
  unfold utf16Length
  cases hs : s.toList with
  | nil => exact absurd (String.toList_eq_nil_iff.mp hs) h
  | cons c l =>
    rw [List.map_cons, List.sum_cons]
    split_ifs <;> omega

/-- The class `[\u0000-\u001f\u007f]`. -/
def isControl (c : Char) : Bool := c.toNat < 0x20 || c.toNat = 0x7f

/-! ### Base64 -/

/-- The value of a digit of the Base64 alphabet. -/
def base64Value (c : Char) : Option ℕ :=
  if 'A' ≤ c ∧ c ≤ 'Z' then some (c.toNat - 65)
  else if 'a' ≤ c ∧ c ≤ 'z' then some (c.toNat - 71)
  else if '0' ≤ c ∧ c ≤ '9' then some (c.toNat + 4)
  else if c = '+' then some 62
  else if c = '/' then some 63
  else none

def isBase64Char (c : Char) : Bool := (base64Value c).isSome

/-- Whether a digit ends in the given number of zero bits. -/
def endsInZeroBits (bits : ℕ) (c : Char) : Bool :=
  (base64Value c).any fun v ↦ v % 2 ^ bits = 0

/-- Groups of four digits, the last one padded or not; `last₂` and `last₃` test the digit before
the padding. -/
def base64Groups (last₂ last₃ : Char → Bool) : List Char → Bool
  | [] => true
  | [a, b, '=', '='] => isBase64Char a && (isBase64Char b && last₂ b)
  | [a, b, c, '='] => isBase64Char a && isBase64Char b && (isBase64Char c && last₃ c)
  | a :: b :: c :: d :: rest =>
    isBase64Char a && isBase64Char b && isBase64Char c && isBase64Char d &&
      base64Groups last₂ last₃ rest
  | _ => false

/-- `/^(?:[A-Za-z0-9+/]{4})*(?:[A-Za-z0-9+/]{2}==|[A-Za-z0-9+/]{3}=)?$/`. -/
def isPaddedBase64 (s : String) : Bool :=
  base64Groups (fun _ ↦ true) (fun _ ↦ true) s.toList

/-- Decoding and encoding again gives the text back. -/
def isCanonicalBase64 (s : String) : Bool :=
  base64Groups (endsInZeroBits 4) (endsInZeroBits 2) s.toList

end Text
