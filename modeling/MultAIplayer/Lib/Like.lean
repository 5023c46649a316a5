import Mathlib.Data.List.Infix

/-!
# SQL `LIKE`

`text LIKE pattern ESCAPE c` as SQLite decides it by default: `%` stands for any text, `_` for any
character, and letters of the ASCII range match in either case.

A pattern is read into tokens first, so that an escaped character and a plain one are the same
literal. What escaping is for is `like_escapeLike_append`: an escaped text followed by `%` matches
what begins with that text, **up to the case of its letters**. Escaping takes the meaning of the
wildcards away and leaves the comparison of letters as it was.
-/

namespace Like

inductive Token where
  | any
  | one
  | literal (c : Char)
  deriving DecidableEq

/-- The tokens of a pattern; there are none where the escape character has nothing to escape. -/
def tokens (escape : Char) : List Char → Option (List Token)
  | [] => some []
  | c :: pattern =>
    if c = escape then
      match pattern with
      | [] => none
      | d :: pattern => (tokens escape pattern).map (Token.literal d :: ·)
    else
      (tokens escape pattern).map
        ((if c = '%' then .any else if c = '_' then .one else .literal c) :: ·)

/-- `Char.toLower` changes the letters of the ASCII range and no others. -/
@[grind =] def fold (text : List Char) : List Char := text.map Char.toLower

/-- Whether a text is what the tokens describe. -/
@[grind =] def accepts : List Token → List Char → Bool
  | [], text => text.isEmpty
  | .any :: pattern, text => text.tails.any fun rest ↦ accepts pattern rest
  | .one :: pattern, text =>
    match text with
    | [] => false
    | _ :: text => accepts pattern text
  | .literal c :: pattern, text =>
    match text with
    | [] => false
    | d :: text => c.toLower = d.toLower && accepts pattern text

/-- `text LIKE pattern ESCAPE escape`. -/
def like (escape : Char) (pattern text : List Char) : Bool :=
  (tokens escape pattern).any fun pattern ↦ accepts pattern text

/-- `str::replace` of one character. -/
def replace (c : Char) (replacement text : List Char) : List Char :=
  text.flatMap fun d ↦ if d = c then replacement else [d]

/-- The backslash before each character that means something in a pattern. -/
def escapeLike (text : List Char) : List Char :=
  replace '_' ['\\', '_'] (replace '%' ['\\', '%'] (replace '\\' ['\\', '\\'] text))

@[simp] theorem fold_nil : fold [] = [] := rfl

@[simp] theorem fold_append (text more : List Char) : fold (text ++ more) = fold text ++ fold more :=
  List.map_append

@[simp] theorem fold_cons (c : Char) (text : List Char) : fold (c :: text) = c.toLower :: fold text :=
  rfl

/-- Nothing but a letter becomes another character. -/
theorem eq_of_toLower_eq {c d : Char} (hd : d < 'a' ∨ 'z' < d) (h : c.toLower = d) : c = d := by
  unfold Char.toLower at h
  split at h
  · rename_i hupper
    obtain ⟨hlow, hhigh⟩ := hupper
    have hlow : 65 ≤ c.val.toNat := hlow
    have hhigh : c.val.toNat ≤ 90 := hhigh
    have hval : (c.val + 32).toNat = d.val.toNat := congrArg (fun d ↦ d.val.toNat) h
    have hshift : (32 : UInt32).toNat = 32 := rfl
    rw [UInt32.toNat_add, Nat.mod_eq_of_lt (by omega)] at hval
    exfalso
    rcases hd with hd | hd
    · have hd : d.val.toNat < 97 := hd
      omega
    · have hd : 122 < d.val.toNat := hd
      omega
  · exact h

/-! ### Escaping -/

/-- The three replacements do not get in one another's way. -/
theorem escapeLike_eq_flatMap (text : List Char) :
    escapeLike text =
      text.flatMap fun c ↦ if c = '\\' ∨ c = '%' ∨ c = '_' then ['\\', c] else [c] := by
  unfold escapeLike replace
  rw [List.flatMap_assoc, List.flatMap_assoc]
  refine congrArg (text.flatMap ·) (funext fun c ↦ ?_)
  by_cases hslash : c = '\\'
  · subst hslash
    rfl
  by_cases hpercent : c = '%'
  · subst hpercent
    rfl
  by_cases hlow : c = '_'
  · subst hlow
    rfl
  simp [hslash, hpercent, hlow]

@[simp] theorem escapeLike_nil : escapeLike [] = [] := rfl

theorem escapeLike_append (text more : List Char) :
    escapeLike (text ++ more) = escapeLike text ++ escapeLike more := by
  simp only [escapeLike_eq_flatMap, List.flatMap_append]

theorem tokens_cons_of_ne {escape c : Char} (h : c ≠ escape) (pattern : List Char) :
    tokens escape (c :: pattern) = (tokens escape pattern).map
      ((if c = '%' then .any else if c = '_' then .one else .literal c) :: ·) := by
  rw [tokens.eq_def]
  simp only [if_neg h]

/-- Every character of an escaped text is read as itself. -/
theorem tokens_escapeLike_append (text pattern : List Char) :
    tokens '\\' (escapeLike text ++ pattern) =
      (tokens '\\' pattern).map (text.map Token.literal ++ ·) := by
  induction text with
  | nil => simp
  | cons c text ih =>
    rw [show c :: text = [c] ++ text from rfl, escapeLike_append, List.append_assoc]
    have hfirst : tokens '\\' (escapeLike [c] ++ (escapeLike text ++ pattern)) =
        (tokens '\\' (escapeLike text ++ pattern)).map (Token.literal c :: ·) := by
      rw [escapeLike_eq_flatMap]
      by_cases hspecial : c = '\\' ∨ c = '%' ∨ c = '_'
      · simp [hspecial, tokens]
      · obtain ⟨hslash, hpercent, hlow⟩ := by simpa using hspecial
        simp [tokens_cons_of_ne hslash, hslash, hpercent, hlow]
    rw [hfirst, ih, Option.map_map]
    rfl

/-! ### What a pattern accepts -/

/-- Literals accept their text in any case. -/
theorem accepts_literals_append (text : List Char) (pattern : List Token) (target : List Char) :
    accepts (text.map Token.literal ++ pattern) target = true ↔
      ∃ front rest, target = front ++ rest ∧ fold front = fold text ∧ accepts pattern rest = true := by
  induction text generalizing target with
  | nil =>
    refine ⟨fun h ↦ ⟨[], target, rfl, rfl, h⟩, ?_⟩
    rintro ⟨front, rest, rfl, hfront, h⟩
    obtain rfl : front = [] := by simpa [fold] using hfront
    exact h
  | cons c text ih =>
    rcases target with _ | ⟨d, target⟩
    · simp only [List.map_cons, List.cons_append, accepts, Bool.false_eq_true, false_iff]
      rintro ⟨front, rest, htarget, hfront, -⟩
      obtain ⟨rfl, -⟩ := List.append_eq_nil_iff.mp htarget.symm
      simp [fold] at hfront
    · simp only [List.map_cons, List.cons_append, accepts, Bool.and_eq_true, decide_eq_true_eq]
      rw [ih]
      constructor
      · rintro ⟨hc, front, rest, rfl, hfront, h⟩
        exact ⟨d :: front, rest, rfl, by simp only [fold, List.map_cons] at hfront ⊢; rw [hfront, hc],
          h⟩
      · rintro ⟨front, rest, htarget, hfront, h⟩
        rcases front with _ | ⟨e, front⟩
        · simp [fold] at hfront
        · obtain ⟨rfl, rfl⟩ := by simpa using htarget
          obtain ⟨hd, hfront⟩ := by simpa [fold] using hfront
          exact ⟨hd.symm, front, rest, rfl, by simpa [fold] using hfront, h⟩

theorem accepts_any (target : List Char) : accepts [.any] target = true := by
  simp only [accepts, List.any_eq_true]
  exact ⟨[], (List.mem_tails _ _).mpr (List.nil_suffix), rfl⟩

/-- **An escaped text before `%`** matches what begins with it, in any case. -/
theorem like_escapeLike_append (text target : List Char) :
    like '\\' (escapeLike text ++ ['%']) target = true ↔ fold text <+: fold target := by
  have htokens : tokens '\\' ['%'] = some [.any] := rfl
  unfold like
  rw [tokens_escapeLike_append, htokens]
  simp only [Option.map_some, Option.any_some]
  rw [accepts_literals_append]
  constructor
  · rintro ⟨front, rest, rfl, hfront, -⟩
    exact ⟨fold rest, by rw [← hfront]; simp [fold]⟩
  · rintro ⟨suffix, hsuffix⟩
    refine ⟨target.take text.length, target.drop text.length, (List.take_append_drop ..).symm, ?_,
      accepts_any _⟩
    have htake := congrArg (List.take text.length) hsuffix
    simpa [fold, List.map_take] using htake.symm

end Like
