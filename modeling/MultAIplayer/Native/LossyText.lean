import Mathlib
import MultAIplayer.Native.TerminalRedaction

/-!
# Decoding valid text

`from_utf8_lossy` reads a text from its encoding (`fromUtf8Lossy_encode`), and no character goes on
over an ASCII byte, so what stands between such bytes is read for itself
(`fromUtf8Lossy_append`).
-/

namespace MultAIplayer.Native

/-! ### Characters -/

theorem nextChar_tail {byte low high first : UInt8} {more tail : List UInt8}
    (hbyte : ¬ byte < 0x80) (htail : utf8Tail byte = some (more.length + 1, low, high))
    (hfirst : low ≤ first ∧ first ≤ high) (hmore : ∀ b ∈ more, isContinuation b = true) :
    nextChar byte (first :: (more ++ tail)) =
      (Char.ofNat ((first :: more).foldl (fun code b ↦ code * 64 + b.toNat % 64)
        (leadingBits byte (more.length + 1))), tail) := by
  have hin : (decide (low ≤ first) && decide (first ≤ high)) = true := by
    rw [decide_eq_true hfirst.1, decide_eq_true hfirst.2]
    rfl
  have htake : ((more ++ tail).take (more.length + 1 - 1)).takeWhile isContinuation = more := by
    rw [Nat.add_sub_cancel, List.take_left]
    exact List.takeWhile_eq_self_iff.mpr hmore
  unfold nextChar
  rw [if_neg hbyte, htail]
  dsimp only
  rw [if_pos hin, htake, if_pos (Nat.add_sub_cancel _ _).symm, List.drop_left]

theorem toNat_ofNat {n : ℕ} (h : n < 256) : (UInt8.ofNat n).toNat = n := by
  rw [UInt8.toNat_ofNat', Nat.mod_eq_of_lt h]

theorem ofNat_le_ofNat {n m : ℕ} (hn : n < 256) (hm : m < 256) :
    UInt8.ofNat n ≤ UInt8.ofNat m ↔ n ≤ m := by
  rw [UInt8.le_iff_toNat_le, toNat_ofNat hn, toNat_ofNat hm]

theorem isContinuation_ofNat (n : ℕ) : isContinuation (UInt8.ofNat (n % 64 + 0x80)) = true := by
  unfold isContinuation
  rw [Bool.and_eq_true, decide_eq_true_eq, decide_eq_true_eq]
  have h : n % 64 < 64 := Nat.mod_lt _ (by decide)
  exact ⟨(ofNat_le_ofNat (n := 0x80) (by omega) (by omega)).mpr (by omega),
    (ofNat_le_ofNat (m := 0xbf) (by omega) (by omega)).mpr (by omega)⟩

/-- The first byte of a character, and what may follow it. -/
theorem utf8Tail_ofNat {n : ℕ} (h : 0xc2 ≤ n) (h' : n ≤ 0xf4) :
    utf8Tail (UInt8.ofNat n) =
      if n ≤ 0xdf then some (1, 0x80, 0xbf)
      else if n = 0xe0 then some (2, 0xa0, 0xbf)
      else if n = 0xed then some (2, 0x80, 0x9f)
      else if n ≤ 0xef then some (2, 0x80, 0xbf)
      else if n = 0xf0 then some (3, 0x90, 0xbf)
      else if n ≤ 0xf3 then some (3, 0x80, 0xbf)
      else some (3, 0x80, 0x8f) := by
  interval_cases n <;> rfl

theorem not_ofNat_lt {n : ℕ} (h : 0x80 ≤ n) (h' : n < 256) : ¬ UInt8.ofNat n < 0x80 := by
  rw [UInt8.lt_iff_toNat_lt, toNat_ofNat h']
  exact Nat.not_lt.mpr h

/-- The first byte of a longer character is followed by bytes that continue it. -/
theorem nextChar_ofNat {n m : ℕ} (low high : ℕ) (more : List UInt8) {tail : List UInt8}
    (hn : 0xc2 ≤ n) (hn' : n ≤ 0xf4)
    (htail : utf8Tail (UInt8.ofNat n) =
      some (more.length + 1, UInt8.ofNat low, UInt8.ofNat high))
    (hm : low ≤ m % 64 + 0x80 ∧ m % 64 + 0x80 ≤ high) (hhigh : high < 256)
    (hmore : ∀ b ∈ more, isContinuation b = true) :
    nextChar (UInt8.ofNat n) (UInt8.ofNat (m % 64 + 0x80) :: (more ++ tail)) =
      (Char.ofNat (more.foldl (fun code b ↦ code * 64 + b.toNat % 64)
        (n % 2 ^ (6 - (more.length + 1)) * 64 + m % 64)), tail) := by
  have hlt : m % 64 < 64 := Nat.mod_lt _ (by decide)
  have hfirst : (UInt8.ofNat (m % 64 + 0x80)).toNat % 64 = m % 64 := by
    rw [toNat_ofNat (by omega)]
    omega
  rw [nextChar_tail (not_ofNat_lt (by omega) (by omega)) htail _ hmore, List.foldl_cons, hfirst,
    leadingBits, toNat_ofNat (by omega)]
  exact ⟨(ofNat_le_ofNat (by omega) (by omega)).mpr hm.1,
    (ofNat_le_ofNat (by omega) (by omega)).mpr hm.2⟩

theorem continuation_bits (n : ℕ) : (UInt8.ofNat (n % 64 + 0x80)).toNat % 64 = n % 64 := by
  have hlt : n % 64 < 64 := Nat.mod_lt _ (by decide)
  rw [toNat_ofNat (by omega)]
  omega

/-- A character is read from its bytes, whatever follows. -/
theorem nextChar_encode (c : Char) (tail : List UInt8) :
    ∃ byte rest, String.utf8EncodeChar c = byte :: rest ∧
      nextChar byte (rest ++ tail) = (c, tail) := by
  have hc : Char.ofNat c.val.toNat = c := Char.ofNat_toNat c
  have hrange : c.val.toNat < 0xd800 ∨ 0xdfff < c.val.toNat ∧ c.val.toNat < 0x110000 := c.valid
  unfold String.utf8EncodeChar
  generalize c.val.toNat = v at hc hrange
  dsimp only
  split_ifs with h₁ h₂ h₃
  · refine ⟨_, _, rfl, ?_⟩
    have hlt : UInt8.ofNat v < 0x80 := by
      rw [UInt8.lt_iff_toNat_lt, toNat_ofNat (by omega)]
      exact Nat.lt_succ_of_le h₁
    unfold nextChar
    rw [if_pos hlt, toNat_ofNat (by omega), hc]
    rfl
  · refine ⟨_, _, rfl, ?_⟩
    have htail : utf8Tail (UInt8.ofNat (v / 64 % 0x20 + 0xc0)) = some (1, 0x80, 0xbf) := by
      rw [utf8Tail_ofNat (by omega) (by omega), if_pos (by omega)]
    refine (nextChar_ofNat 0x80 0xbf [] (by omega) (by omega) htail
      (by omega) (by omega) (List.forall_mem_nil _)).trans (Prod.ext ?_ rfl)
    rw [List.foldl_nil]
    refine (congrArg Char.ofNat ?_).trans hc
    show (v / 64 % 0x20 + 0xc0) % 2 ^ 5 * 64 + v % 64 = v
    omega
  · refine ⟨_, _, rfl, ?_⟩
    have htail : utf8Tail (UInt8.ofNat (v / 4096 % 0x10 + 0xe0)) = some (2,
        UInt8.ofNat (if v / 4096 % 0x10 = 0 then 0xa0 else 0x80),
        UInt8.ofNat (if v / 4096 % 0x10 = 13 then 0x9f else 0xbf)) := by
      rw [utf8Tail_ofNat (by omega) (by omega), if_neg (by omega)]
      split_ifs <;> first | rfl | omega
    refine (nextChar_ofNat _ _ [UInt8.ofNat (v % 64 + 0x80)] (by omega) (by omega) htail
      (by split_ifs <;> omega) (by split_ifs <;> omega)
      (List.forall_mem_singleton.mpr (isContinuation_ofNat v))).trans (Prod.ext ?_ rfl)
    rw [List.foldl_cons, List.foldl_nil, continuation_bits]
    refine (congrArg Char.ofNat ?_).trans hc
    show ((v / 4096 % 0x10 + 0xe0) % 2 ^ 4 * 64 + v / 64 % 64) * 64 + v % 64 = v
    omega
  · refine ⟨_, _, rfl, ?_⟩
    have htail : utf8Tail (UInt8.ofNat (v / 262144 % 0x08 + 0xf0)) = some (3,
        UInt8.ofNat (if v / 262144 % 0x08 = 0 then 0x90 else 0x80),
        UInt8.ofNat (if v / 262144 % 0x08 = 4 then 0x8f else 0xbf)) := by
      rw [utf8Tail_ofNat (by omega) (by omega), if_neg (by omega)]
      split_ifs <;> first | rfl | omega
    refine (nextChar_ofNat _ _ [UInt8.ofNat (v / 64 % 64 + 0x80), UInt8.ofNat (v % 64 + 0x80)]
      (by omega) (by omega) htail (by split_ifs <;> omega) (by split_ifs <;> omega)
      (List.forall_mem_cons.mpr ⟨isContinuation_ofNat _,
        List.forall_mem_singleton.mpr (isContinuation_ofNat _)⟩)).trans (Prod.ext ?_ rfl)
    rw [List.foldl_cons, List.foldl_cons, List.foldl_nil, continuation_bits, continuation_bits]
    refine (congrArg Char.ofNat ?_).trans hc
    show (((v / 262144 % 0x08 + 0xf0) % 2 ^ 3 * 64 + v / 4096 % 64) * 64 + v / 64 % 64) * 64 +
      v % 64 = v
    omega

/-! ### Texts -/

theorem length_nextChar (byte : UInt8) (rest : List UInt8) :
    (nextChar byte rest).2.length ≤ rest.length := by
  unfold nextChar
  split
  · exact Nat.le_refl _
  · split
    · exact Nat.le_refl _
    · rcases rest with _ | ⟨first, rest⟩
      · exact Nat.le_refl _
      · dsimp only
        split
        · split <;> · rw [List.length_drop, List.length_cons]; omega
        · exact Nat.le_refl _

theorem decodeLossy_of_le {n : ℕ} {bytes : List UInt8} (h : bytes.length ≤ n) :
    decodeLossy n bytes = fromUtf8Lossy bytes := by
  unfold fromUtf8Lossy
  induction n using Nat.strong_induction_on generalizing bytes with
  | _ n ih =>
    rcases bytes with _ | ⟨byte, rest⟩
    · cases n <;> rfl
    · rw [List.length_cons] at h
      rcases n with _ | n
      · omega
      · have hnext := length_nextChar byte rest
        rw [List.length_cons, decodeLossy, decodeLossy, ih n (Nat.lt_succ_self n) (by omega),
          ih rest.length (by omega) hnext]

theorem fromUtf8Lossy_nil : fromUtf8Lossy [] = [] := rfl

theorem fromUtf8Lossy_cons (byte : UInt8) (rest : List UInt8) : fromUtf8Lossy (byte :: rest) =
    (nextChar byte rest).1 :: fromUtf8Lossy (nextChar byte rest).2 := by
  rw [fromUtf8Lossy, List.length_cons, decodeLossy, decodeLossy_of_le (length_nextChar byte rest)]

/-- **Decoding what was encoded.** -/
theorem fromUtf8Lossy_encode (text : List Char) :
    fromUtf8Lossy (text.flatMap String.utf8EncodeChar) = text := by
  induction text with
  | nil => rfl
  | cons c text ih =>
    obtain ⟨byte, rest, hencode, hnext⟩ := nextChar_encode c (text.flatMap String.utf8EncodeChar)
    rw [List.flatMap_cons, hencode, List.cons_append, fromUtf8Lossy_cons, hnext, ih]

theorem le_low_of_utf8Tail {byte low high : UInt8} {k : ℕ}
    (h : utf8Tail byte = some (k, low, high)) : 0x80 ≤ low := by
  unfold utf8Tail at h
  split_ifs at h <;>
    · obtain ⟨-, rfl, -⟩ : _ ∧ _ ∧ _ := by simpa using h
      decide

theorem takeWhile_take_append {α : Type} {p : α → Bool} {x : α} (hx : p x = false) (m : ℕ)
    (r t : List α) : ((r ++ x :: t).take m).takeWhile p = (r.take m).takeWhile p := by
  induction m generalizing r with
  | zero => rw [List.take_zero, List.take_zero]
  | succ m ih =>
    rcases r with _ | ⟨a, r⟩
    · rw [List.nil_append, List.take_succ_cons, List.takeWhile_cons, hx]
      rfl
    · rw [List.cons_append, List.take_succ_cons, List.take_succ_cons, List.takeWhile_cons,
        List.takeWhile_cons, ih]

/-- No character goes on over an ASCII byte. -/
theorem nextChar_append {x : UInt8} (hx : x < 0x80) (byte : UInt8) (rest tail : List UInt8) :
    nextChar byte (rest ++ x :: tail) =
      ((nextChar byte rest).1, (nextChar byte rest).2 ++ x :: tail) := by
  have hcontinuation : isContinuation x = false := by
    unfold isContinuation
    rw [decide_eq_false (UInt8.not_le.mpr hx)]
    rfl
  unfold nextChar
  split
  · rfl
  · split
    · rfl
    · next k low high htail =>
      rcases rest with _ | ⟨first, rest⟩
      · have hno : ¬ low ≤ x := fun hle ↦
          UInt8.not_le.mpr hx (UInt8.le_trans (le_low_of_utf8Tail htail) hle)
        have hlow : (decide (low ≤ x) && decide (x ≤ high)) = false := by
          rw [decide_eq_false hno]
          rfl
        rw [List.nil_append]
        dsimp only
        rw [if_neg (by rw [hlow]; exact Bool.false_ne_true)]
      · rw [List.cons_append]
        dsimp only
        rw [takeWhile_take_append hcontinuation]
        have hmore : ((rest.take (k - 1)).takeWhile isContinuation).length ≤ rest.length :=
          ((List.takeWhile_prefix _).length_le).trans (List.length_take_le' _ _)
        rw [List.drop_append_of_le_length hmore]
        split_ifs <;> rfl

/-- **Decoding by lines.** An ASCII byte is read as it is, and what stands around it for itself. -/
theorem fromUtf8Lossy_append {x : UInt8} (hx : x < 0x80) (bytes tail : List UInt8) :
    fromUtf8Lossy (bytes ++ x :: tail) =
      fromUtf8Lossy bytes ++ Char.ofNat x.toNat :: fromUtf8Lossy tail := by
  induction hn : bytes.length using Nat.strong_induction_on generalizing bytes with
  | _ n ih =>
    rcases bytes with _ | ⟨byte, rest⟩
    · have hnext : nextChar x tail = (Char.ofNat x.toNat, tail) := if_pos hx
      rw [List.nil_append, fromUtf8Lossy_cons, hnext]
      rfl
    · have hlength := length_nextChar byte rest
      rw [List.length_cons] at hn
      rw [List.cons_append, fromUtf8Lossy_cons, fromUtf8Lossy_cons, nextChar_append hx,
        ih _ (by omega) _ rfl]
      rfl

/-! ### Lines -/

theorem toNat_lineFeed_of_ofNat {n : ℕ} (h : Char.ofNat n = '\n') : n = 10 := by
  unfold Char.ofNat at h
  split at h
  · exact congrArg Char.toNat h
  · exact absurd h (by decide)

theorem le_foldl_bits (more : List UInt8) (n : ℕ) :
    n ≤ more.foldl (fun code b ↦ code * 64 + b.toNat % 64) n := by
  induction more generalizing n with
  | nil => exact Nat.le_refl n
  | cons b more ih =>
    have hstep : n ≤ n * 64 + b.toNat % 64 := by omega
    exact hstep.trans (ih _)

theorem toNat_mem_range {a b byte : UInt8} (h : (decide (a ≤ byte) && decide (byte ≤ b)) = true) :
    a.toNat ≤ byte.toNat ∧ byte.toNat ≤ b.toNat := by
  rw [Bool.and_eq_true, decide_eq_true_eq, decide_eq_true_eq] at h
  exact ⟨UInt8.le_iff_toNat_le.mp h.1, UInt8.le_iff_toNat_le.mp h.2⟩

/-- The bits of a first byte and of the byte behind it are more than those of a line feed. -/
theorem leadingBits_le {byte low high first : UInt8} {k : ℕ}
    (h : utf8Tail byte = some (k, low, high)) (hlow : low ≤ first) (hhigh : first ≤ high) :
    16 ≤ leadingBits byte k * 64 + first.toNat % 64 := by
  rw [UInt8.le_iff_toNat_le] at hlow hhigh
  unfold leadingBits
  unfold utf8Tail at h
  split_ifs at h with h₁ h₂ h₃ h₄ h₅ h₆ h₇ <;>
    obtain ⟨rfl, rfl, rfl⟩ : _ ∧ _ ∧ _ := by simpa using h
  · have hbyte : 194 ≤ byte.toNat ∧ byte.toNat ≤ 223 := toNat_mem_range h₁
    omega
  · have hfirst : 160 ≤ first.toNat ∧ first.toNat ≤ 191 := ⟨hlow, hhigh⟩
    omega
  · rw [h₃]
    show 16 ≤ 237 % 2 ^ (6 - 2) * 64 + first.toNat % 64
    omega
  · have hbyte : 225 ≤ byte.toNat ∧ byte.toNat ≤ 239 := toNat_mem_range h₄
    omega
  · have hfirst : 144 ≤ first.toNat ∧ first.toNat ≤ 191 := ⟨hlow, hhigh⟩
    omega
  · have hbyte : 241 ≤ byte.toNat ∧ byte.toNat ≤ 243 := toNat_mem_range h₆
    omega
  · rw [h₇]
    show 16 ≤ 244 % 2 ^ (6 - 3) * 64 + first.toNat % 64
    omega

/-- Only a line feed is read as a line feed. -/
theorem nextChar_ne_lineFeed {byte : UInt8} (h : byte ≠ 10) (rest : List UInt8) :
    (nextChar byte rest).1 ≠ '\n' := by
  have hreplacement : replacementChar ≠ '\n' := by decide
  unfold nextChar
  split
  · intro hchar
    refine h (UInt8.toNat_inj.mp (toNat_lineFeed_of_ofNat hchar))
  · split
    · exact hreplacement
    · next htail =>
      split
      · exact hreplacement
      · split
        · next hrange =>
          obtain ⟨hlow, hhigh⟩ := (Bool.and_eq_true _ _).mp hrange
          dsimp only
          split
          · intro hchar
            have hcode := toNat_lineFeed_of_ofNat hchar
            rw [List.foldl_cons] at hcode
            have hbits := leadingBits_le htail (of_decide_eq_true hlow) (of_decide_eq_true hhigh)
            exact absurd (hbits.trans ((le_foldl_bits _ _).trans_eq hcode)) (by decide)
          · exact hreplacement
        · exact hreplacement

theorem nextChar_suffix (byte : UInt8) (rest : List UInt8) : (nextChar byte rest).2 <:+ rest := by
  unfold nextChar
  split
  · exact List.suffix_rfl
  · split
    · exact List.suffix_rfl
    · rcases rest with _ | ⟨first, rest⟩
      · exact List.suffix_rfl
      · dsimp only
        split
        · split <;> exact (List.drop_suffix _ _).trans (List.suffix_cons _ _)
        · exact List.suffix_rfl

theorem lineFeed_not_mem_fromUtf8Lossy {bytes : List UInt8} (h : 10 ∉ bytes) :
    '\n' ∉ fromUtf8Lossy bytes := by
  induction hn : bytes.length using Nat.strong_induction_on generalizing bytes with
  | _ n ih =>
    rcases bytes with _ | ⟨byte, rest⟩
    · exact List.not_mem_nil
    · have hlength := length_nextChar byte rest
      rw [List.length_cons] at hn
      rw [List.mem_cons, not_or] at h
      rw [fromUtf8Lossy_cons, List.mem_cons, not_or]
      refine ⟨(nextChar_ne_lineFeed (Ne.symm h.1) rest).symm, ih _ (by omega) ?_ rfl⟩
      exact fun hmem ↦ h.2 ((nextChar_suffix byte rest).mem hmem)

/-- Only a line feed is written as a line feed. -/
theorem eq_lineFeed_of_mem_encode {c : Char} (h : 10 ∈ String.utf8EncodeChar c) : c = '\n' := by
  obtain ⟨byte, rest, hencode, hnext⟩ := nextChar_encode c []
  by_contra hne
  have hdecode : fromUtf8Lossy (String.utf8EncodeChar c) = [c] := by
    have hround := fromUtf8Lossy_encode [c]
    rwa [List.flatMap_singleton] at hround
  obtain ⟨s, t, hsplit⟩ := List.append_of_mem h
  rw [hsplit, fromUtf8Lossy_append (by decide)] at hdecode
  have hmem : '\n' ∈ [c] := hdecode ▸ List.mem_append_right _ List.mem_cons_self
  exact hne (List.mem_singleton.mp hmem).symm

theorem lineFeed_not_mem_encode {text : List Char} (h : '\n' ∉ text) :
    10 ∉ text.flatMap String.utf8EncodeChar := by
  intro hmem
  obtain ⟨c, hc, hbyte⟩ := List.mem_flatMap.mp hmem
  exact h (eq_lineFeed_of_mem_encode hbyte ▸ hc)

/-- Decoding and cutting into lines commute. -/
theorem fromUtf8Lossy_unlines (lines : List (List UInt8)) :
    fromUtf8Lossy (LineStream.unlines 10 lines) =
      LineStream.unlines '\n' (lines.map fromUtf8Lossy) := by
  induction lines with
  | nil => rfl
  | cons line lines ih =>
    rw [List.map_cons, LineStream.unlines_cons, LineStream.unlines_cons,
      fromUtf8Lossy_append (by decide), ih]
    rfl

end MultAIplayer.Native
