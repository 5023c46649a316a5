import MultAIplayer.Lib.IsoDate
import MultAIplayer.Relay.Capacity
import MultAIplayer.Relay.Limits

/-!
# Account restrictions across a restart

What the operator tool stores (`validateAccountRestriction`, `manage-account-restriction.ts`) and
what the loader makes of it (`normalizeAccountRestriction`, `applyStoredRows`), with the times as the
texts that they are. The tool asks `Date.parse` whether a time is one; the loader asks the schema's
date and time format first. The two are parameters: `Date.parse` reads more forms than the standard
names, and the format is the schema library's.

The loader refuses to start when a restriction that has not expired fails its schema.
-/

namespace MultAIplayer

/-- How times are read. -/
structure TimeReaders where
  /-- `Date.parse`, where it gives a number. -/
  dateParse : String → Option Instant
  /-- `z.string().datetime({ offset: true })`. -/
  isoDateTime : String → Bool

/-- An account restriction as it is written. -/
structure StoredRestriction where
  userId : String
  reasonCode : String
  createdAt : String
  expiresAt : Option String := none
  deriving DecidableEq

/-- `/^[a-z0-9_]{1,64}$/`. -/
def isReasonCode (s : String) : Bool :=
  s.toList ≠ [] && s.toList.length ≤ 64 && s.toList.all fun c ↦ c.isLower || c.isDigit || c = '_'

/-- The stored restrictions, under their user ids. -/
abbrev Restrictions := InsertionMap String StoredRestriction

namespace TimeReaders

variable (D : TimeReaders)

/-- The time of an expiry that is given and not empty. -/
@[grind =]
def expiry (r : StoredRestriction) : Option Instant := (truthy r.expiresAt).bind D.dateParse

/-! ### Storing -/

/-- `validateAccountRestriction`: the error that it throws, if any. -/
def validateAccountRestriction (now : Instant) (r : StoredRestriction) : Option String :=
  if r.userId = "" ∨ r.userId ≠ Text.trim r.userId ∨ 512 < Text.utf16Length r.userId ∨
      r.userId.toList.any Text.isControl then
    some "Account restriction user id must be non-empty, bounded, and control-character free."
  else if !isReasonCode r.reasonCode then
    some "Account restriction reason code must use 1-64 lowercase letters, digits, or underscores."
  else if (D.dateParse r.createdAt).isNone then
    some "Account restriction createdAt is invalid."
  else if (truthy r.expiresAt).any fun text ↦ (D.dateParse text).all (· ≤ now) then
    some "Account restriction expiry must be a valid future timestamp."
  else none

/-- What the tool writes back when it restricts an account. -/
@[grind =]
def restrict (r : StoredRestriction) (rows : Restrictions) : Restrictions := rows.set r.userId r

/-! ### Loading -/

/-- `StoredAccountRestriction.safeParse`. -/
@[grind =] def parseRestriction (r : StoredRestriction) : Option StoredRestriction :=
  if isReasonCode r.reasonCode && D.isoDateTime r.createdAt && r.expiresAt.all D.isoDateTime then
    some r
  else none

/-- `normalizeAccountRestriction`. -/
@[grind =] def normalizeAccountRestriction (now : Instant) (r : StoredRestriction) :
    Option StoredRestriction :=
  (D.parseRestriction r).bind fun parsed ↦
    (normalizeMetadataText parsed.userId maxUserIdChars).bind fun userId ↦
      if (D.expiry parsed).any (· ≤ now) then none
      else some { parsed with userId, expiresAt := truthy parsed.expiresAt }

/-- `isExpiredStoredAccountRestriction`. -/
def isExpiredStoredAccountRestriction (now : Instant) (r : StoredRestriction) : Bool :=
  (D.parseRestriction r).any fun parsed ↦
    parsed.expiresAt.any fun text ↦ (D.dateParse text).any (· ≤ now)

/-- A row that the loader takes or drops on purpose. -/
@[grind =] def loadable (now : Instant) (r : StoredRestriction) : Bool :=
  (D.normalizeAccountRestriction now r).isSome || D.isExpiredStoredAccountRestriction now r

/-- `applyStoredRows` of the restrictions, `none` where it throws. -/
@[grind =]
def loadRows (now : Instant) : Restrictions → List StoredRestriction → Option Restrictions
  | loaded, [] => some loaded
  | loaded, r :: rows =>
    match D.normalizeAccountRestriction now r with
    | some restriction => loadRows now (loaded.set restriction.userId restriction) rows
    | none => if D.isExpiredStoredAccountRestriction now r then loadRows now loaded rows else none

/-- The loader reads the rows and has the restriction, for the same user, with its reason and its
expiry. -/
def Honours (now : Instant) (rows : Restrictions) (r : StoredRestriction) : Prop :=
  ∃ loaded, D.loadRows now .empty rows.values = some loaded ∧
    ∃ restriction, loaded.get r.userId = some restriction ∧ restriction.userId = r.userId ∧
      restriction.reasonCode = r.reasonCode ∧ restriction.expiresAt = r.expiresAt

/-- Rows that the loader reads, each under its own user id. -/
def Loads (now : Instant) (rows : Restrictions) : Prop :=
  ∀ k row, rows.get k = some row → row.userId = k ∧ Text.trim k = k ∧ D.loadable now row = true

/-! ### What the loader makes of a row -/

variable {D} {now later : Instant} {r restriction : StoredRestriction} {rows : Restrictions}

/-- What the tool has checked. -/
theorem validateAccountRestriction_eq_none (h : D.validateAccountRestriction now r = none) :
    r.userId ≠ "" ∧ Text.trim r.userId = r.userId ∧ r.userId.toList.any Text.isControl = false ∧
      isReasonCode r.reasonCode = true ∧
      ∀ text, truthy r.expiresAt = some text → ∃ t, D.dateParse text = some t ∧ now < t := by
  unfold validateAccountRestriction at h
  split_ifs at h with huser hreason hcreated hexpiry
  simp only [not_or, ne_eq, not_not, Bool.not_eq_true] at huser
  rw [Bool.not_eq_true, Bool.not_eq_false'] at hreason
  refine ⟨huser.1, huser.2.1.symm, huser.2.2.2, hreason, fun text htext ↦ ?_⟩
  rw [htext, Option.any_some, Bool.not_eq_true] at hexpiry
  cases hparse : D.dateParse text with
  | none =>
    rw [hparse] at hexpiry
    cases hexpiry
  | some t =>
    rw [hparse, Option.all_some, decide_eq_false_iff_not] at hexpiry
    exact ⟨t, rfl, lt_of_not_ge hexpiry⟩

/-- What the schema and the loader's bound ask of a restriction, beyond what the tool asks. -/
def Readable (D : TimeReaders) (r : StoredRestriction) : Prop :=
  D.isoDateTime r.createdAt = true ∧
    (∀ text, r.expiresAt = some text → text ≠ "" ∧ D.isoDateTime text = true) ∧
    Text.utf16Length r.userId ≤ maxUserIdChars

/-- **A restriction of the tool that has not expired is read as it is, or not at all.** -/
theorem normalizeAccountRestriction_of_valid (hvalid : D.validateAccountRestriction now r = none)
    (hlive : ∀ t, D.expiry r = some t → later < t) (hreadable : D.Readable r) :
    D.normalizeAccountRestriction later r = some r := by
  obtain ⟨hne, htrim, hcontrol, hreason, -⟩ := validateAccountRestriction_eq_none hvalid
  obtain ⟨hcreated, hexpires, hlength⟩ := hreadable
  have hall : r.expiresAt.all D.isoDateTime = true := by
    cases hexp : r.expiresAt with
    | none => rfl
    | some text => exact (hexpires text hexp).2
  have htruthy : truthy r.expiresAt = r.expiresAt := by
    cases hexp : r.expiresAt with
    | none => rfl
    | some text => exact Option.filter_some_pos (by simpa using (hexpires text hexp).1)
  have hparse : D.parseRestriction r = some r := by
    rw [parseRestriction, hreason, hcreated, hall]
    rfl
  have huser : normalizeMetadataText r.userId maxUserIdChars = some r.userId := by
    rw [normalizeMetadataText, htrim, if_neg (not_or.mpr ⟨hne, not_lt.mpr hlength⟩), hcontrol]
    rfl
  have hexpiry : (D.expiry r).any (· ≤ later) = false := by
    cases hexp : D.expiry r with
    | none => rfl
    | some t => exact decide_eq_false (not_le.mpr (hlive t hexp))
  rw [normalizeAccountRestriction, hparse, Option.bind_some, huser, Option.bind_some, hexpiry,
    htruthy]
  rfl

/-- What a row has passed that the loader takes as it is. -/
theorem normalizeAccountRestriction_eq_some (htrim : Text.trim r.userId = r.userId)
    (h : D.normalizeAccountRestriction now r = some restriction) :
    restriction.userId = r.userId ∧ (restriction.expiresAt = r.expiresAt → D.Readable r) := by
  rw [normalizeAccountRestriction, Option.bind_eq_some_iff] at h
  obtain ⟨parsed, hparsed, h⟩ := h
  rw [Option.bind_eq_some_iff] at h
  obtain ⟨userId, huser, h⟩ := h
  unfold parseRestriction at hparsed
  split_ifs at hparsed with hschema
  cases hparsed
  rw [normalizeMetadataText, htrim] at huser
  split_ifs at huser with hbound
  cases huser
  split_ifs at h
  cases h
  rw [Bool.and_eq_true, Bool.and_eq_true] at hschema
  obtain ⟨⟨-, hcreated⟩, hexpires⟩ := hschema
  refine ⟨rfl, fun hsame ↦ ⟨hcreated, fun text htext ↦ ⟨?_, ?_⟩, not_lt.mp (not_or.mp hbound).2⟩⟩
  · change truthy r.expiresAt = r.expiresAt at hsame
    rw [htext] at hsame
    simpa using (Option.filter_eq_some_iff.mp hsame).2
  · rw [htext] at hexpires
    exact hexpires

/-- What can be loaded can be loaded later: by then it may have expired. -/
theorem loadable_mono (hle : now ≤ later) (h : D.loadable now r = true) :
    D.loadable later r = true := by
  rw [loadable, Bool.or_eq_true] at h ⊢
  rcases h with h | h
  · obtain ⟨restriction, h⟩ := Option.isSome_iff_exists.mp h
    rw [normalizeAccountRestriction, Option.bind_eq_some_iff] at h
    obtain ⟨parsed, hparsed, h⟩ := h
    rw [Option.bind_eq_some_iff] at h
    obtain ⟨userId, huser, -⟩ := h
    cases hexpired : (D.expiry parsed).any (· ≤ later) with
    | false =>
      left
      rw [normalizeAccountRestriction, hparsed, Option.bind_some, huser, Option.bind_some, hexpired]
      rfl
    | true =>
      right
      rw [Option.any_eq_true] at hexpired
      obtain ⟨t, ht, hpassed⟩ := hexpired
      rw [expiry, Option.bind_eq_some_iff] at ht
      obtain ⟨text, htext, ht⟩ := ht
      rw [isExpiredStoredAccountRestriction, hparsed, Option.any_some,
        (Option.filter_eq_some_iff.mp htext).1, Option.any_some, ht, Option.any_some]
      exact hpassed
  · right
    rw [isExpiredStoredAccountRestriction, Option.any_eq_true] at h ⊢
    obtain ⟨parsed, hparsed, h⟩ := h
    rw [Option.any_eq_true] at h
    obtain ⟨text, htext, h⟩ := h
    rw [Option.any_eq_true] at h
    obtain ⟨t, ht, hpassed⟩ := h
    refine ⟨parsed, hparsed, ?_⟩
    rw [htext, Option.any_some, ht, Option.any_some]
    exact decide_eq_true (le_trans (of_decide_eq_true hpassed) hle)

/-! ### Loading the rows -/

theorem loadRows_isSome_iff {loaded : Restrictions} {l : List StoredRestriction} :
    (D.loadRows now loaded l).isSome ↔ ∀ row ∈ l, D.loadable now row = true := by
  induction l generalizing loaded with
  | nil => simp [loadRows]
  | cons row l ih =>
    rw [loadRows, List.forall_mem_cons, loadable]
    cases hrow : D.normalizeAccountRestriction now row with
    | some restriction => rw [ih, Option.isSome_some, Bool.true_or, and_iff_right rfl]
    | none =>
      rw [Option.isSome_none, Bool.false_or]
      dsimp only
      split_ifs with hexpired
      · rw [ih, and_iff_right hexpired]
      · simp [hexpired]

/-- Rows of other users do not touch a user's restriction. -/
theorem get_loadRows_of_ne {loaded loaded' : Restrictions} {l : List StoredRestriction}
    {userId : String} (hl : ∀ row ∈ l, Text.trim row.userId = row.userId ∧ row.userId ≠ userId)
    (h : D.loadRows now loaded l = some loaded') : loaded'.get userId = loaded.get userId := by
  induction l generalizing loaded with
  | nil => rw [← Option.some.inj h]
  | cons row l ih =>
    obtain ⟨⟨htrim, hne⟩, hl⟩ := List.forall_mem_cons.mp hl
    rw [loadRows] at h
    cases hrow : D.normalizeAccountRestriction now row with
    | some restriction =>
      rw [hrow] at h
      have huser := (normalizeAccountRestriction_eq_some htrim hrow).1
      rw [ih hl h, InsertionMap.get_set_of_ne _ _ (huser ▸ hne.symm)]
    | none =>
      rw [hrow] at h
      dsimp only at h
      split_ifs at h
      exact ih hl h

theorem loadRows_append {loaded : Restrictions} (l l' : List StoredRestriction) :
    D.loadRows now loaded (l ++ l') = (D.loadRows now loaded l).bind (D.loadRows now · l') := by
  induction l generalizing loaded with
  | nil => rfl
  | cons row l ih =>
    rw [List.cons_append, loadRows, loadRows]
    split
    · exact ih
    · split_ifs
      · exact ih
      · rfl

/-- **What the loader has of a user is what it makes of the user's row.** -/
theorem get_loadRows {loaded' : Restrictions} {l l' : List StoredRestriction}
    (htrim : Text.trim r.userId = r.userId)
    (hl : ∀ row ∈ l, Text.trim row.userId = row.userId ∧ row.userId ≠ r.userId)
    (hl' : ∀ row ∈ l', Text.trim row.userId = row.userId ∧ row.userId ≠ r.userId)
    (h : D.loadRows now .empty (l ++ r :: l') = some loaded') :
    loaded'.get r.userId = D.normalizeAccountRestriction now r := by
  rw [loadRows_append, Option.bind_eq_some_iff] at h
  obtain ⟨loaded, hloaded, h⟩ := h
  have hbefore := get_loadRows_of_ne hl hloaded
  rw [loadRows] at h
  cases hrow : D.normalizeAccountRestriction now r with
  | some restriction =>
    rw [hrow] at h
    rw [get_loadRows_of_ne hl' h, (normalizeAccountRestriction_eq_some htrim hrow).1,
      InsertionMap.get_set_self]
  | none =>
    rw [hrow] at h
    dsimp only at h
    split_ifs at h
    rw [get_loadRows_of_ne hl' h, hbefore, InsertionMap.get_empty]

/-! ### When a restriction is honoured -/

/-- A set entry among the values, with what is beside it. -/
theorem values_set_eq (rows : Restrictions) (r : StoredRestriction)
    (hrows : ∀ k row, rows.get k = some row → row.userId = k ∧ Text.trim k = k) :
    ∃ l l', (restrict r rows).values = l ++ r :: l' ∧ ∀ row ∈ l ++ l',
      Text.trim row.userId = row.userId ∧ row.userId ≠ r.userId ∧ row ∈ rows.values := by
  have hmem : (r.userId, r) ∈ (restrict r rows).entries :=
    InsertionMap.mem_entries_iff.mpr (InsertionMap.get_set_self _ _ _)
  obtain ⟨l, l', hentries⟩ := List.append_of_mem hmem
  have hnodup : ((l ++ (r.userId, r) :: l').map Prod.fst).Nodup :=
    hentries ▸ (restrict r rows).nodup_keys
  refine ⟨l.map Prod.snd, l'.map Prod.snd, ?_, fun row hrow ↦ ?_⟩
  · rw [InsertionMap.values, hentries, List.map_append, List.map_cons]
  · rw [← List.map_append, List.mem_map] at hrow
    obtain ⟨⟨k, row⟩, he, rfl⟩ := hrow
    have hne : k ≠ r.userId := by
      rintro rfl
      rw [List.map_append, List.map_cons, List.nodup_middle, List.nodup_cons,
        ← List.map_append] at hnodup
      exact hnodup.1 (List.mem_map.mpr ⟨_, he, rfl⟩)
    have hstored : (restrict r rows).get k = some row := by
      refine InsertionMap.mem_entries_iff.mp ?_
      rw [hentries]
      rcases List.mem_append.mp he with he | he
      · exact List.mem_append_left _ he
      · exact List.mem_append_right _ (List.mem_cons_of_mem _ he)
    rw [restrict, InsertionMap.get_set_of_ne _ _ hne] at hstored
    obtain ⟨hk, htrim⟩ := hrows k row hstored
    exact ⟨by rw [hk, htrim], hk ▸ hne, InsertionMap.mem_values_iff.mpr ⟨k, hstored⟩⟩

/-- `Date.parse` of a date without a time, and of the texts that `toISOString` writes; the format of
the schema has a time. -/
def sampleReaders : TimeReaders where
  dateParse text := if text = "2030-01-01" then some 1893456000000 else IsoDate.parse text
  isoDateTime text := (IsoDate.parse text).isSome

def sampleRestriction (expiresAt : String) : StoredRestriction where
  userId := "github:1"
  reasonCode := "operator_restriction"
  createdAt := "2026-02-03T04:05:06.789Z"
  expiresAt := some expiresAt

end TimeReaders

end MultAIplayer
