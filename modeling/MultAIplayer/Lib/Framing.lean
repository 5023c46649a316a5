import Mathlib.Data.List.Basic
import Mathlib.Data.Nat.Digits.Defs

/-!
# Framing

Encodings into bytes that say where they end: what follows an encoded value can be anything, and the
value and what follows can still be told apart (`Delimited`). Such encodings are closed under
writing one after the other, under length prefixes and under tags for what may be missing; a format
is then injective when each of its parts is delimited.
-/

namespace Framing

variable {α β : Type}

/-- An encoding that says where it ends, on the values that satisfy a condition. -/
def Delimited (P : α → Prop) (encode : α → List UInt8) : Prop :=
  ∀ ⦃a b : α⦄ ⦃s t : List UInt8⦄, P a → P b → encode a ++ s = encode b ++ t → a = b ∧ s = t

/-- A value that may be missing, under a tag. -/
def tagged (encode : α → List UInt8) : Option α → List UInt8
  | some a => 1 :: encode a
  | none => [0]

namespace Delimited

variable {P : α → Prop} {Q : β → Prop} {encode : α → List UInt8} {encode' : β → List UInt8}

theorem injective (h : Delimited P encode) {a b : α} (ha : P a) (hb : P b)
    (heq : encode a = encode b) : a = b :=
  (h ha hb (congrArg (· ++ []) heq)).1

theorem mono {P' : α → Prop} (h : Delimited P encode) (hP : ∀ a, P' a → P a) :
    Delimited P' encode :=
  fun a b _ _ ha hb heq ↦ h (hP a ha) (hP b hb) heq

/-- Values of one length. -/
theorem of_length {n : ℕ} (hlength : ∀ a, P a → (encode a).length = n)
    (hinj : ∀ a b, P a → P b → encode a = encode b → a = b) : Delimited P encode := by
  intro a b s t ha hb heq
  obtain ⟨hencoded, hrest⟩ := List.append_inj heq ((hlength a ha).trans (hlength b hb).symm)
  exact ⟨hinj a b ha hb hencoded, hrest⟩

/-- One value after another. -/
theorem append (h : Delimited P encode) (h' : Delimited Q encode') :
    Delimited (fun p : α × β ↦ P p.1 ∧ Q p.2) fun p ↦ encode p.1 ++ encode' p.2 := by
  rintro ⟨a, c⟩ ⟨b, d⟩ s t ⟨ha, hc⟩ ⟨hb, hd⟩ heq
  dsimp only at heq
  rw [List.append_assoc, List.append_assoc] at heq
  obtain ⟨rfl, hrest⟩ := h ha hb heq
  obtain ⟨rfl, rfl⟩ := h' hc hd hrest
  exact ⟨rfl, rfl⟩

/-- What another value is told from. -/
theorem comap {f : β → α} (h : Delimited P encode) (hf : Function.Injective f) :
    Delimited (fun b ↦ P (f b)) fun b ↦ encode (f b) := by
  intro a b s t ha hb heq
  obtain ⟨hab, rfl⟩ := h ha hb heq
  exact ⟨hf hab, rfl⟩

/-- As many values as there are, one after the other. -/
theorem flatMap (h : Delimited P encode) (n : ℕ) :
    Delimited (fun l : List α ↦ l.length = n ∧ ∀ a ∈ l, P a) (List.flatMap encode) := by
  intro l l' s t
  induction l generalizing l' n with
  | nil =>
    rintro ⟨hl, -⟩ ⟨hl', -⟩ heq
    obtain rfl : l' = [] := List.length_eq_zero_iff.mp (hl'.trans hl.symm)
    exact ⟨rfl, heq⟩
  | cons a l ih =>
    rintro ⟨hl, hP⟩ ⟨hl', hP'⟩ heq
    rcases l' with _ | ⟨b, l'⟩
    · rw [← hl] at hl'
      cases hl'
    rw [List.flatMap_cons, List.flatMap_cons, List.append_assoc, List.append_assoc] at heq
    obtain ⟨rfl, hrest⟩ := h (hP a List.mem_cons_self) (hP' b List.mem_cons_self) heq
    rw [List.forall_mem_cons] at hP hP'
    have hlengths : l'.length = l.length := Nat.succ_injective (hl'.trans hl.symm)
    obtain ⟨rfl, rfl⟩ := ih l.length ⟨rfl, hP.2⟩ ⟨hlengths, hP'.2⟩ hrest
    exact ⟨rfl, rfl⟩

theorem tagged (h : Delimited P encode) :
    Delimited (fun o : Option α ↦ ∀ a ∈ o, P a) (Framing.tagged encode) := by
  rintro (_ | a) (_ | b) s t ha hb heq
  · exact ⟨rfl, List.cons_injective heq⟩
  · cases heq
  · cases heq
  · obtain ⟨rfl, rfl⟩ := h (ha a rfl) (hb b rfl) (List.cons_injective heq)
    exact ⟨rfl, rfl⟩

end Delimited

/-! ### Numbers and lengths -/

/-- A number in big-endian bytes, as many as its type has; a number that does not fit loses what is
above them. -/
@[grind =] def beBytes : ℕ → ℕ → List UInt8
  | 0, _ => []
  | width + 1, n => beBytes width (n / 256) ++ [UInt8.ofNat n]

@[simp] theorem length_beBytes (width n : ℕ) : (beBytes width n).length = width := by
  induction width generalizing n with
  | zero => rfl
  | succ width ih => rw [beBytes, List.length_append, ih, List.length_singleton]

/-- What the bytes of a number say of it. -/
theorem beBytes_eq_iff {width n m : ℕ} :
    beBytes width n = beBytes width m ↔ n % 256 ^ width = m % 256 ^ width := by
  induction width generalizing n m with
  | zero => simp [beBytes, Nat.mod_one]
  | succ width ih =>
    have hbyte : UInt8.ofNat n = UInt8.ofNat m ↔ n % 256 = m % 256 := by
      rw [← UInt8.toNat_inj, UInt8.toNat_ofNat', UInt8.toNat_ofNat']
    have hparts (k : ℕ) : k % 256 ^ (width + 1) = k % 256 + 256 * (k / 256 % 256 ^ width) := by
      rw [pow_succ', Nat.mod_mul]
    have hbytes : beBytes (width + 1) n = beBytes (width + 1) m ↔
        beBytes width (n / 256) = beBytes width (m / 256) ∧ UInt8.ofNat n = UInt8.ofNat m := by
      refine ⟨fun h ↦ ?_, fun h ↦ by rw [beBytes, beBytes, h.1, h.2]⟩
      obtain ⟨hhigh, hlow⟩ := List.append_inj' h rfl
      exact ⟨hhigh, List.cons.inj hlow |>.1⟩
    rw [hbytes, ih, hbyte, hparts n, hparts m]
    omega

theorem delimited_beBytes (width : ℕ) : Delimited (· < 256 ^ width) (beBytes width) := by
  refine Delimited.of_length (fun n _ ↦ length_beBytes width n) fun n m hn hm heq ↦ ?_
  rwa [beBytes_eq_iff, Nat.mod_eq_of_lt hn, Nat.mod_eq_of_lt hm] at heq

/-- Bytes after their number. -/
def lengthPrefixed (width : ℕ) (bytes : List UInt8) : List UInt8 :=
  beBytes width bytes.length ++ bytes

theorem delimited_lengthPrefixed (width : ℕ) :
    Delimited (fun bytes ↦ bytes.length < 256 ^ width) (lengthPrefixed width) := by
  intro a b s t ha hb heq
  rw [lengthPrefixed, lengthPrefixed, List.append_assoc, List.append_assoc] at heq
  obtain ⟨hlength, hrest⟩ := delimited_beBytes width ha hb heq
  exact List.append_inj hrest hlength

end Framing
