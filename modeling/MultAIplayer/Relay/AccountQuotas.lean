import MultAIplayer.Lib.Machine
import MultAIplayer.Lib.Tally
import MultAIplayer.Relay.Keys
import Mathlib.Tactic.Linarith

/-!
# Durable account quotas

`auth/account-quotas.ts`: what an account may still do in the current window of a quota is one record
of the store, which is saved with the store and loaded when the relay starts.

## Windows

A window is known by its end: a reservation that finds a live record joins its window, and one that
does not opens a window that ends at the next midnight, or after the upload window. The clock does
not go back, so a window that is over is never met again.

## What a restart takes back

A reservation and its rollback are made in memory and saved with the rest of the store. A restart
goes back to the last save, and `QuotaRelay.reservations`, the reservations that were made and not
rolled back, goes back with it.
-/

namespace MultAIplayer

def AccountQuota.name : AccountQuota → String
  | .dailyTeamCreations => "daily_team_creations"
  | .dailyRoomCreations => "daily_room_creations"
  | .attachmentUploadBytes => "attachment_upload_bytes"

/-- `${quota}:${userId}`. -/
def quotaKey (quota : AccountQuota) (userId : String) : String := quota.name ++ ":" ++ userId

abbrev AccountQuotaRecords := InsertionMap String AccountQuotaRecord

/-- What `reserveDurableQuota` grants. -/
structure Reservation where
  amount : ℕ
  record : AccountQuotaRecord
  deriving DecidableEq

/-- What `reserveDurableQuota` returns. -/
inductive ReserveOutcome
  | refused (used : ℕ) (resetAt : Instant)
  | allowed (reservation : Reservation)
  deriving DecidableEq

/-- The record of a live window. -/
def liveQuotaRecord (quotas : AccountQuotaRecords) (key : String) (now : Instant) :
    Option AccountQuotaRecord :=
  (quotas.get key).filter fun stored ↦ now < stored.resetAt

/-- `reserveDurableQuota`. -/
def reserveDurableQuota (quotas : AccountQuotaRecords) (quota : AccountQuota) (userId : String)
    (amount limit : ℕ) (resetAt now : Instant) : AccountQuotaRecords × ReserveOutcome :=
  let key := quotaKey quota userId
  let current := liveQuotaRecord quotas key now
  let used := (current.map (·.used)).getD 0
  let resetAt := (current.map (·.resetAt)).getD resetAt
  if limit < used + amount then (quotas, .refused used resetAt)
  else
    let record : AccountQuotaRecord := { key, userId, quota, used := used + amount, resetAt }
    (quotas.set key record, .allowed ⟨amount, record⟩)

/-- `rollbackDurableQuota`. -/
@[grind =] def rollbackDurableQuota (quotas : AccountQuotaRecords) (reservation : Reservation) :
    AccountQuotaRecords :=
  match quotas.get reservation.record.key with
  | none => quotas
  | some current =>
    if current.resetAt ≠ reservation.record.resetAt then quotas
    else if current.used ≤ reservation.amount then quotas.delete current.key
    else quotas.set current.key { current with used := current.used - reservation.amount }

/-- `nextUtcMidnight`. -/
def nextUtcMidnight (now : Instant) : Instant := (now / millisecondsPerDay + 1) * millisecondsPerDay

/-- The quotas of `config.ts`. -/
structure QuotaOptions where
  teamsPerUser : ℕ := 25
  roomsPerUser : ℕ := 100
  attachmentBlobUploadBytesPerWindow : ℕ := 50000000
  attachmentBlobUploadWindowMs : ℕ := 3600000
  /-- The smallest window that the configuration accepts is a minute. -/
  window_ge : 60000 ≤ attachmentBlobUploadWindowMs := by decide

namespace QuotaOptions

variable (o : QuotaOptions)

def limit : AccountQuota → ℕ
  | .dailyTeamCreations => o.teamsPerUser
  | .dailyRoomCreations => o.roomsPerUser
  | .attachmentUploadBytes => o.attachmentBlobUploadBytesPerWindow

/-- The end of a window that opens now, as the routes give it. -/
def resetAt (now : Instant) : AccountQuota → Instant
  | .dailyTeamCreations | .dailyRoomCreations => nextUtcMidnight now
  | .attachmentUploadBytes => now + o.attachmentBlobUploadWindowMs

end QuotaOptions

/-! ### Loading -/

/-- `StoredAccountQuotaRecord`. -/
def isStoredAccountQuotaRecord (record : AccountQuotaRecord) : Bool :=
  record.key = quotaKey record.quota record.userId && 0 ≤ record.resetAt

/-- The quota records that the loader applies: live ones are taken, expired ones are left out, and
a row that is malformed or stored under another key makes the load fail. -/
def loadAccountQuotaRecords (stored : AccountQuotaRecords) (now : Instant) :
    Option AccountQuotaRecords :=
  if stored.entries.all fun e ↦ e.1 = e.2.key && isStoredAccountQuotaRecord e.2 then
    some (stored.filter fun _ record ↦ now < record.resetAt)
  else none

/-! ### Runs -/

/-- The records and the reservations that count, in memory and as of the last save. -/
structure QuotaRelay where
  quotas : AccountQuotaRecords := .empty
  /-- The reservations that were made and not rolled back. -/
  reservations : InsertionMap ℕ Reservation := .empty
  savedQuotas : AccountQuotaRecords := .empty
  savedReservations : InsertionMap ℕ Reservation := .empty
  nextId : ℕ := 0
  now : ℕ

inductive QuotaAction
  | pass (duration : ℕ)
  /-- Whether a new record fits the durable capacity is up to the rest of the store. -/
  | reserve (quota : AccountQuota) (userId : String) (amount : ℕ) (fits : Bool)
  | rollback (id : ℕ)
  | prune
  | save
  | restart
  deriving DecidableEq

inductive QuotaEvent
  | reserved (id : ℕ) (reservation : Reservation)
  | refused (used : ℕ) (resetAt : Instant)
  | capacityExceeded
  | loadFailed
  deriving DecidableEq

namespace QuotaRelay

variable (o : QuotaOptions) (s : QuotaRelay)

def reserve (quota : AccountQuota) (userId : String) (amount : ℕ) (fits : Bool) :
    QuotaRelay × List QuotaEvent :=
  match reserveDurableQuota s.quotas quota userId amount (o.limit quota) (o.resetAt s.now quota)
      s.now with
  | (_, .refused used resetAt) => (s, [.refused used resetAt])
  | (quotas, .allowed reservation) =>
    if s.quotas.has (quotaKey quota userId) || fits then
      ({ s with
        quotas
        reservations := s.reservations.set s.nextId reservation
        nextId := s.nextId + 1 }, [.reserved s.nextId reservation])
    else (s, [.capacityExceeded])

/-- The rollback of a reservation that was not rolled back before. -/
@[grind =] def rollback (id : ℕ) : QuotaRelay :=
  match s.reservations.get id with
  | none => s
  | some reservation =>
    { s with
      quotas := rollbackDurableQuota s.quotas reservation
      reservations := s.reservations.delete id }

/-- `pruneExpiredState`, for the quota records. -/
def prune : QuotaRelay :=
  { s with quotas := s.quotas.filter fun _ record ↦ !decide (record.resetAt ≤ s.now) }

def save : QuotaRelay :=
  { s with savedQuotas := s.quotas, savedReservations := s.reservations }

@[grind =] def restart : QuotaRelay × List QuotaEvent :=
  match loadAccountQuotaRecords s.savedQuotas s.now with
  | none => (s, [.loadFailed])
  | some quotas => ({ s with quotas, reservations := s.savedReservations }, [])

@[grind =] def step : QuotaAction → QuotaRelay × List QuotaEvent
  | .pass duration => ({ s with now := s.now + duration }, [])
  | .reserve quota userId amount fits => s.reserve o quota userId amount fits
  | .rollback id => (s.rollback id, [])
  | .prune => (s.prune, [])
  | .save => (s.save, [])
  | .restart => s.restart

end QuotaRelay

/-- What a reservation counts for in the window of a key that ends at a time. -/
@[grind =]
def Reservation.amountIn (key : String) (resetAt : Instant) (_ : ℕ) (reservation : Reservation) :
    ℤ :=
  if reservation.record.key = key ∧ reservation.record.resetAt = resetAt then reservation.amount
  else 0

/-- The reservations of a window, added up. -/
@[grind =]
def reservedIn (reservations : InsertionMap ℕ Reservation) (key : String) (resetAt : Instant) : ℤ :=
  reservations.tally (Reservation.amountIn key resetAt)

/-- What the records say was used of a window. -/
@[grind =] def usedIn (quotas : AccountQuotaRecords) (key : String) (resetAt : Instant) : ℕ :=
  (((quotas.get key).filter fun record ↦ record.resetAt = resetAt).map (·.used)).getD 0

/-! ### Keys and windows -/

theorem colon_not_mem_quotaName (quota : AccountQuota) : ':' ∉ quota.name.toList := by
  cases quota <;> decide

theorem quotaKey_inj {quota quota' : AccountQuota} {userId userId' : String}
    (h : quotaKey quota userId = quotaKey quota' userId') : quota = quota' ∧ userId = userId' := by
  have hlist : ∀ (q : AccountQuota) (id : String),
      (quotaKey q id).toList = q.name.toList ++ ':' :: id.toList := by
    intro q id
    simp [quotaKey]
  have heq := congrArg String.toList h
  rw [hlist, hlist] at heq
  obtain ⟨hname, huser⟩ :=
    append_separator_inj (colon_not_mem_quotaName quota) (colon_not_mem_quotaName quota') heq
  refine ⟨?_, String.toList_inj.mp huser⟩
  have hnames : quota.name = quota'.name := String.toList_inj.mp hname
  revert hnames
  cases quota <;> cases quota' <;> decide

/-- A new window ends later. -/
theorem lt_resetAt (o : QuotaOptions) (now : Instant) (quota : AccountQuota) :
    now < o.resetAt now quota := by
  have hday : now < nextUtcMidnight now := by
    have h := Int.lt_ediv_add_one_mul_self now (b := (millisecondsPerDay : ℤ)) (by decide)
    exact h
  cases quota with
  | dailyTeamCreations => exact hday
  | dailyRoomCreations => exact hday
  | attachmentUploadBytes =>
    have hwindow := o.window_ge
    have hpos : (0 : ℤ) < o.attachmentBlobUploadWindowMs := by omega
    exact Int.lt_add_of_pos_right now hpos

/-! ### What is used of a window -/

section UsedIn

variable {quotas : AccountQuotaRecords} {key : String} {resetAt now : Instant}

theorem usedIn_congr {quotas' : AccountQuotaRecords} (h : quotas'.get key = quotas.get key) :
    usedIn quotas' key resetAt = usedIn quotas key resetAt := by
  rw [usedIn, usedIn, h]

theorem usedIn_of_get {record : AccountQuotaRecord} (h : quotas.get key = some record) :
    usedIn quotas key resetAt = if record.resetAt = resetAt then record.used else 0 := by
  rw [usedIn, h, Option.filter_some]
  simp only [decide_eq_true_eq]
  split_ifs <;> rfl

theorem usedIn_of_none (h : quotas.get key = none) : usedIn quotas key resetAt = 0 := by
  rw [usedIn, h]
  rfl

/-- Nothing is used of a live window when the record of its key is not live. -/
theorem usedIn_of_not_live (h : liveQuotaRecord quotas key now = none) (hlive : now < resetAt) :
    usedIn quotas key resetAt = 0 := by
  cases hget : quotas.get key with
  | none => exact usedIn_of_none hget
  | some record =>
    rw [usedIn_of_get hget, if_neg]
    rintro rfl
    rw [liveQuotaRecord, hget, Option.filter_some_pos (by simpa using hlive)] at h
    cases h

/-- A prune takes nothing from a live window. -/
theorem usedIn_filter_live (p : AccountQuotaRecord → Bool)
    (hp : ∀ record : AccountQuotaRecord, now < record.resetAt → p record = true)
    (hlive : now < resetAt) :
    usedIn (quotas.filter fun _ record ↦ p record) key resetAt = usedIn quotas key resetAt := by
  cases hget : quotas.get key with
  | none => rw [usedIn_of_none hget, usedIn_of_none (by rw [InsertionMap.get_filter, hget]; rfl)]
  | some record =>
    cases hrecord : p record with
    | true =>
      refine usedIn_congr ?_
      rw [InsertionMap.get_filter, hget, Option.filter_some_pos hrecord]
    | false =>
      rw [usedIn_of_get hget, if_neg, usedIn_of_none]
      · rw [InsertionMap.get_filter, hget, Option.filter_some_neg (by rw [hrecord])]
      · rintro rfl
        rw [hp record hlive] at hrecord
        cases hrecord

end UsedIn

/-! ### Reservations and records agree -/

/-- What is used of every live window is what was reserved in it. -/
def Balanced (quotas : AccountQuotaRecords) (reservations : InsertionMap ℕ Reservation)
    (now : Instant) : Prop :=
  ∀ key resetAt, now < resetAt → reservedIn reservations key resetAt = usedIn quotas key resetAt

/-- What a record always is. -/
def SoundQuotas (o : QuotaOptions) (quotas : AccountQuotaRecords) : Prop :=
  ∀ key record, quotas.get key = some record →
    record.key = key ∧ isStoredAccountQuotaRecord record = true ∧ record.used ≤ o.limit record.quota

section Balanced

variable {quotas : AccountQuotaRecords} {reservations : InsertionMap ℕ Reservation}
  {now now' : Instant} {o : QuotaOptions}

theorem Balanced.later (h : Balanced quotas reservations now) (hlater : now ≤ now') :
    Balanced quotas reservations now' :=
  fun key resetAt hlive ↦ h key resetAt (lt_of_le_of_lt hlater hlive)

/-- The record that an allowed reservation writes is that of a live window, which has counted as
much as is reserved in it. -/
theorem reserveDurableQuota_allowed {quota : AccountQuota} {userId : String}
    {amount limit : ℕ} {resetAt : Instant} {quotas' : AccountQuotaRecords}
    {reservation : Reservation} (hreset : now < resetAt)
    (h : reserveDurableQuota quotas quota userId amount limit resetAt now =
      (quotas', .allowed reservation)) :
    reservation.amount = amount ∧ reservation.record.key = quotaKey quota userId ∧
      reservation.record.userId = userId ∧ reservation.record.quota = quota ∧
      reservation.record.used ≤ limit ∧ now < reservation.record.resetAt ∧
      quotas' = quotas.set (quotaKey quota userId) reservation.record ∧
      ∀ end_, now < end_ → usedIn quotas (quotaKey quota userId) end_ +
        (if reservation.record.resetAt = end_ then amount else 0) =
        if reservation.record.resetAt = end_ then reservation.record.used else 0 := by
  unfold reserveDurableQuota at h
  dsimp only at h
  by_cases hfull : limit <
      ((liveQuotaRecord quotas (quotaKey quota userId) now).map (·.used)).getD 0 + amount
  · rw [if_pos hfull] at h
    cases (Prod.mk.inj h).2
  rw [if_neg hfull] at h
  obtain ⟨rfl, hreservation⟩ := Prod.mk.inj h
  obtain rfl := ReserveOutcome.allowed.inj hreservation
  cases hcurrent : liveQuotaRecord quotas (quotaKey quota userId) now with
  | none =>
    rw [hcurrent] at hfull
    refine ⟨rfl, rfl, rfl, rfl, not_lt.mp hfull, hreset, rfl, fun end_ hlive ↦ ?_⟩
    rw [usedIn_of_not_live hcurrent hlive, Nat.zero_add]
    show (if resetAt = end_ then amount else 0) = if resetAt = end_ then 0 + amount else 0
    rw [Nat.zero_add]
  | some current =>
    rw [hcurrent] at hfull
    obtain ⟨hget, hlive⟩ := Option.filter_eq_some_iff.mp hcurrent
    refine ⟨rfl, rfl, rfl, rfl, not_lt.mp hfull, by simpa using hlive, rfl, fun end_ _ ↦ ?_⟩
    rw [usedIn_of_get hget]
    show _ + (if current.resetAt = end_ then amount else 0) =
      if current.resetAt = end_ then current.used + amount else 0
    split_ifs <;> rfl

theorem SoundQuotas.set (h : SoundQuotas o quotas) {key : String} {record : AccountQuotaRecord}
    (hkey : record.key = key) (hstored : isStoredAccountQuotaRecord record = true)
    (hused : record.used ≤ o.limit record.quota) : SoundQuotas o (quotas.set key record) := by
  intro other stored hget
  rw [InsertionMap.get_set] at hget
  split_ifs at hget with hother
  · obtain rfl := Option.some.inj hget
    exact ⟨hkey.trans hother.symm, hstored, hused⟩
  · exact h other stored hget

theorem SoundQuotas.filter (h : SoundQuotas o quotas) (p : String → AccountQuotaRecord → Bool) :
    SoundQuotas o (quotas.filter p) := by
  intro key record hget
  rw [InsertionMap.get_filter] at hget
  exact h key record (Option.filter_eq_some_iff.mp hget).1

theorem SoundQuotas.delete (h : SoundQuotas o quotas) (key : String) :
    SoundQuotas o (quotas.delete key) := by
  intro other record hget
  rw [InsertionMap.get_delete] at hget
  split_ifs at hget
  exact h other record hget

/-- **A reservation is added on both sides.** -/
theorem Balanced.reserve (h : Balanced quotas reservations now) {id : ℕ}
    (hid : reservations.get id = none) {reservation : Reservation}
    (hused : ∀ end_, now < end_ →
      usedIn quotas reservation.record.key end_ +
        (if reservation.record.resetAt = end_ then reservation.amount else 0) =
        if reservation.record.resetAt = end_ then reservation.record.used else 0) :
    Balanced (quotas.set reservation.record.key reservation.record)
      (reservations.set id reservation) now := by
  intro key end_ hlive
  have hweight : reservations.weightAt (Reservation.amountIn key end_) id = 0 := by
    rw [InsertionMap.weightAt, hid]
    rfl
  rw [reservedIn, InsertionMap.tally_set, hweight, sub_zero]
  show reservedIn reservations key end_ + _ = _
  rw [h key end_ hlive]
  by_cases hkey : key = reservation.record.key
  · subst hkey
    have hsum := hused end_ hlive
    rw [usedIn_of_get (InsertionMap.get_set_self _ _ _), ← hsum, Int.natCast_add]
    by_cases hend : reservation.record.resetAt = end_
    · rw [if_pos hend, Reservation.amountIn, if_pos ⟨rfl, hend⟩]
    · rw [if_neg hend, Reservation.amountIn, if_neg fun hin ↦ hend hin.2]
      rfl
  · rw [usedIn_congr (InsertionMap.get_set_of_ne _ _ hkey), Reservation.amountIn,
      if_neg fun hin ↦ hkey hin.1.symm, add_zero]

/-- A reservation is part of what is reserved in its window. -/
theorem amountIn_le_reservedIn {id : ℕ} {reservation : Reservation}
    (hid : reservations.get id = some reservation) (key : String) (end_ : Instant) :
    Reservation.amountIn key end_ id reservation ≤ reservedIn reservations key end_ := by
  have hnonneg : ∀ (j : ℕ) (r : Reservation), 0 ≤ Reservation.amountIn key end_ j r := by
    intro j r
    unfold Reservation.amountIn
    split_ifs
    · exact Int.natCast_nonneg _
    · exact le_refl 0
  have hrest : 0 ≤ reservedIn (reservations.delete id) key end_ := InsertionMap.tally_nonneg hnonneg
  rw [reservedIn, InsertionMap.tally_delete, InsertionMap.weightAt, hid] at hrest
  exact Int.sub_nonneg.mp hrest

/-- **A rollback takes its amount from its own window** and from no other. -/
theorem usedIn_rollbackDurableQuota {reservation : Reservation}
    (hkeyed : ∀ current, quotas.get reservation.record.key = some current →
      current.key = reservation.record.key) (key : String) (end_ : Instant) :
    usedIn (rollbackDurableQuota quotas reservation) key end_ = usedIn quotas key end_ -
      if reservation.record.key = key ∧ reservation.record.resetAt = end_ then reservation.amount
      else 0 := by
  unfold rollbackDurableQuota
  cases hget : quotas.get reservation.record.key with
  | none =>
    dsimp only
    split_ifs with hin
    · rw [← hin.1, usedIn_of_none hget, Nat.zero_sub]
    · rw [Nat.sub_zero]
  | some current =>
    have hcurrent := hkeyed current hget
    dsimp only
    rw [hcurrent]
    by_cases hkey : reservation.record.key = key
    · subst hkey
      rw [usedIn_of_get hget]
      simp only [true_and]
      by_cases hreset : current.resetAt = reservation.record.resetAt
      · rw [if_neg (not_not.mpr hreset), ← hreset]
        by_cases hused : current.used ≤ reservation.amount
        · rw [if_pos hused, usedIn_of_none (InsertionMap.get_delete_self _ _)]
          split_ifs <;> omega
        · rw [if_neg hused, usedIn_of_get (InsertionMap.get_set_self _ _ _)]
          dsimp only
          split_ifs <;> omega
      · rw [if_pos hreset, usedIn_of_get hget]
        split_ifs with hend hin
        · exact (hreset (hend.trans hin.symm)).elim
        · rw [Nat.sub_zero]
        · rw [Nat.zero_sub]
        · rw [Nat.sub_zero]
    · have hout : ¬(reservation.record.key = key ∧ reservation.record.resetAt = end_) :=
        fun hin ↦ hkey hin.1
      rw [if_neg hout, Nat.sub_zero]
      split_ifs
      · rfl
      · exact usedIn_congr (InsertionMap.get_delete_of_ne _ (Ne.symm hkey))
      · exact usedIn_congr (InsertionMap.get_set_of_ne _ _ (Ne.symm hkey))

/-- **A rollback takes its reservation away on both sides.** -/
theorem Balanced.rollback (h : Balanced quotas reservations now) (hsound : SoundQuotas o quotas)
    {id : ℕ} {reservation : Reservation} (hid : reservations.get id = some reservation) :
    Balanced (rollbackDurableQuota quotas reservation) (reservations.delete id) now := by
  intro key end_ hlive
  have hbefore := h key end_ hlive
  have hle := amountIn_le_reservedIn hid key end_
  rw [hbefore, Reservation.amountIn] at hle
  rw [reservedIn, InsertionMap.tally_delete, InsertionMap.weightAt, hid,
    usedIn_rollbackDurableQuota fun current hget ↦ (hsound _ _ hget).1]
  show reservedIn reservations key end_ - Reservation.amountIn key end_ id reservation = _
  rw [hbefore, Reservation.amountIn]
  split_ifs at hle ⊢ <;> omega

theorem SoundQuotas.rollback (h : SoundQuotas o quotas) (reservation : Reservation) :
    SoundQuotas o (rollbackDurableQuota quotas reservation) := by
  unfold rollbackDurableQuota
  cases hget : quotas.get reservation.record.key with
  | none => exact h
  | some current =>
    obtain ⟨hkey, hstored, hused⟩ := h _ _ hget
    dsimp only
    split_ifs
    · exact h
    · exact h.delete _
    · exact h.set rfl hstored (Nat.le_trans (Nat.sub_le _ _) hused)

end Balanced

namespace QuotaRelay

variable {o : QuotaOptions} {s : QuotaRelay}

/-! ### The invariant -/

/-- Records and reservations are sound and agree, in memory and as of the last save. -/
structure Inv (o : QuotaOptions) (s : QuotaRelay) : Prop where
  quotas : SoundQuotas o s.quotas
  savedQuotas : SoundQuotas o s.savedQuotas
  balanced : Balanced s.quotas s.reservations s.now
  savedBalanced : Balanced s.savedQuotas s.savedReservations s.now
  fresh : ∀ id, s.nextId ≤ id → s.reservations.get id = none
  savedFresh : ∀ id, s.nextId ≤ id → s.savedReservations.get id = none

/-- What a reservation does, when it is allowed. -/
theorem reserve_cases (o : QuotaOptions) (s : QuotaRelay) (quota : AccountQuota) (userId : String)
    (amount : ℕ) (fits : Bool) :
    (s.reserve o quota userId amount fits).1 = s ∨
    ∃ quotas reservation, reserveDurableQuota s.quotas quota userId amount (o.limit quota)
        (o.resetAt s.now quota) s.now = (quotas, .allowed reservation) ∧
      s.reserve o quota userId amount fits =
        ({ s with
          quotas
          reservations := s.reservations.set s.nextId reservation
          nextId := s.nextId + 1 }, [.reserved s.nextId reservation]) := by
  unfold reserve
  cases hreserve : reserveDurableQuota s.quotas quota userId amount (o.limit quota)
      (o.resetAt s.now quota) s.now with
  | mk quotas outcome =>
    cases outcome with
    | refused used resetAt => exact .inl rfl
    | allowed reservation =>
      dsimp only
      split_ifs
      · exact .inr ⟨quotas, reservation, rfl, rfl⟩
      · exact .inl rfl

theorem Inv.reserve (h : s.Inv o) (quota : AccountQuota) (userId : String) (amount : ℕ)
    (fits : Bool) : (s.reserve o quota userId amount fits).1.Inv o := by
  obtain heq | ⟨quotas, reservation, hreserve, heq⟩ := reserve_cases o s quota userId amount fits
  · rw [heq]
    exact h
  · obtain ⟨hamount, hkey, huser, hquota, hused, hlive, rfl, hsum⟩ :=
      reserveDurableQuota_allowed (lt_resetAt o s.now quota) hreserve
    have hstored : isStoredAccountQuotaRecord reservation.record = true := by
      rw [isStoredAccountQuotaRecord, hkey, hquota, huser]
      have hnow : (0 : ℤ) ≤ s.now := Int.natCast_nonneg _
      simpa using hnow.trans hlive.le
    have hfresh : s.reservations.get s.nextId = none := h.fresh _ (Nat.le_refl _)
    rw [heq]
    refine ⟨h.quotas.set hkey hstored (by rw [hquota]; exact hused), h.savedQuotas, ?_,
      h.savedBalanced, fun id hid ↦ ?_, fun id hid ↦ h.savedFresh id (Nat.le_of_succ_le hid)⟩
    · rw [← hkey] at hsum ⊢
      refine h.balanced.reserve hfresh fun end_ hend ↦ ?_
      rw [hamount]
      exact hsum end_ hend
    · have hne : id ≠ s.nextId := Nat.ne_of_gt hid
      rw [InsertionMap.get_set_of_ne _ _ hne]
      exact h.fresh id (Nat.le_of_succ_le hid)

theorem Inv.rollback (h : s.Inv o) (id : ℕ) : (s.rollback id).Inv o := by
  unfold QuotaRelay.rollback
  cases hget : s.reservations.get id with
  | none => exact h
  | some reservation =>
    refine ⟨h.quotas.rollback reservation, h.savedQuotas, h.balanced.rollback h.quotas hget,
      h.savedBalanced, fun other hother ↦ ?_, h.savedFresh⟩
    rw [InsertionMap.get_delete, h.fresh other hother, ite_self]

theorem Inv.prune (h : s.Inv o) : s.prune.Inv o := by
  refine ⟨h.quotas.filter _, h.savedQuotas, fun key end_ hlive ↦ ?_, h.savedBalanced, h.fresh,
    h.savedFresh⟩
  have hused : usedIn s.prune.quotas key end_ = usedIn s.quotas key end_ :=
    usedIn_filter_live _ (fun record hrecord ↦ by
      rw [Bool.not_eq_true']
      exact decide_eq_false (not_le.mpr hrecord)) hlive
  rw [hused]
  exact h.balanced key end_ hlive

/-- The records that were saved load again. -/
theorem loadAccountQuotaRecords_eq (h : SoundQuotas o s.savedQuotas) (now : Instant) :
    loadAccountQuotaRecords s.savedQuotas now =
      some (s.savedQuotas.filter fun _ record ↦ now < record.resetAt) := by
  rw [loadAccountQuotaRecords, if_pos]
  refine List.all_eq_true.mpr fun e he ↦ ?_
  obtain ⟨hkey, hstored, -⟩ := h e.1 e.2 (InsertionMap.mem_entries_iff.mp he)
  rw [hstored, Bool.and_true, decide_eq_true_eq]
  exact hkey.symm

theorem Inv.restart (h : s.Inv o) : s.restart.1.Inv o := by
  unfold QuotaRelay.restart
  rw [loadAccountQuotaRecords_eq h.savedQuotas]
  refine ⟨h.savedQuotas.filter _, h.savedQuotas, fun key end_ hlive ↦ ?_, h.savedBalanced,
    h.savedFresh, h.savedFresh⟩
  have hused : usedIn (s.savedQuotas.filter fun _ record ↦ s.now < record.resetAt) key end_ =
      usedIn s.savedQuotas key end_ :=
    usedIn_filter_live _ (fun record hrecord ↦ decide_eq_true hrecord) hlive
  dsimp only
  rw [hused]
  exact h.savedBalanced key end_ hlive

theorem Inv.step (h : s.Inv o) (a : QuotaAction) : (s.step o a).1.Inv o := by
  cases a with
  | pass duration =>
    have hlater : (s.now : ℤ) ≤ ((s.now + duration : ℕ) : ℤ) := by omega
    exact ⟨h.quotas, h.savedQuotas, h.balanced.later hlater, h.savedBalanced.later hlater, h.fresh,
      h.savedFresh⟩
  | reserve quota userId amount fits => exact h.reserve quota userId amount fits
  | rollback id => exact h.rollback id
  | prune => exact h.prune
  | save => exact ⟨h.quotas, h.quotas, h.balanced, h.balanced, h.fresh, h.fresh⟩
  | restart => exact h.restart

theorem Inv.start (o : QuotaOptions) (now : ℕ) : ({ now } : QuotaRelay).Inv o where
  quotas := fun _ _ hget ↦ (Option.some_ne_none _ hget.symm).elim
  savedQuotas := fun _ _ hget ↦ (Option.some_ne_none _ hget.symm).elim
  balanced := fun _ _ _ ↦ rfl
  savedBalanced := fun _ _ _ ↦ rfl
  fresh := fun _ _ ↦ rfl
  savedFresh := fun _ _ ↦ rfl

theorem inv_run (o : QuotaOptions) (now : ℕ) (as : List QuotaAction) :
    (Machine.run (fun s a ↦ step o s a) { now } as).1.Inv o := by
  have hstep : ∀ (s : QuotaRelay) (a : QuotaAction), s.Inv o → True → (s.step o a).1.Inv o :=
    fun s a h _ ↦ h.step a
  exact Machine.run_state_invariant hstep (Inv.start o now) (Machine.along_true _ as)

/-- A reservation that is refused changes nothing. -/
theorem step_refused {a : QuotaAction} {used : ℕ} {resetAt : Instant}
    (h : .refused used resetAt ∈ (s.step o a).2) : (s.step o a).1 = s := by
  cases a with
  | reserve quota userId amount fits =>
    obtain heq | ⟨quotas, reservation, -, heq⟩ := reserve_cases o s quota userId amount fits
    · exact heq
    · have hmem : QuotaEvent.refused used resetAt ∈ (s.reserve o quota userId amount fits).2 := h
      rw [heq] at hmem
      cases List.mem_singleton.mp hmem
  | restart =>
    have hmem : QuotaEvent.refused used resetAt ∈ s.restart.2 := h
    unfold QuotaRelay.restart at hmem
    split at hmem
    · cases List.mem_singleton.mp hmem
    · exact (List.not_mem_nil hmem).elim
  | pass duration => exact (List.not_mem_nil h).elim
  | rollback id => exact (List.not_mem_nil h).elim
  | prune => exact (List.not_mem_nil h).elim
  | save => exact (List.not_mem_nil h).elim

/-- **Account quotas are exact.** In every run: what the record of a live window says was used is
the sum of the reservations made in that window and not rolled back, and is within the limit;
nothing was reserved in a live window that has no record; a refused reservation changes nothing; a
rollback leaves what is used of every other window of its key as it is; and a restart finds its
records again. -/
theorem quotas_exact (o : QuotaOptions) (now : ℕ) (as : List QuotaAction) :
    let s := (Machine.run (fun s a ↦ step o s a) { now } as).1
    (∀ quota userId record, s.quotas.get (quotaKey quota userId) = some record →
      s.now < record.resetAt →
        record.used = reservedIn s.reservations (quotaKey quota userId) record.resetAt ∧
        record.used ≤ o.limit quota) ∧
    (∀ quota userId (resetAt : Instant), s.now < resetAt →
      (∀ record, s.quotas.get (quotaKey quota userId) = some record → record.resetAt ≠ resetAt) →
        reservedIn s.reservations (quotaKey quota userId) resetAt = 0) ∧
    (∀ a used resetAt, .refused used resetAt ∈ (s.step o a).2 → (s.step o a).1 = s) ∧
    (∀ id reservation record, s.reservations.get id = some reservation →
      s.quotas.get reservation.record.key = some record →
      record.resetAt ≠ reservation.record.resetAt →
        (s.step o (.rollback id)).1.quotas = s.quotas) ∧
    .loadFailed ∉ (s.step o .restart).2 := by
  intro s
  have hinv : s.Inv o := inv_run o now as
  refine ⟨fun quota userId record hget hlive ↦ ?_, fun quota userId resetAt hlive hnone ↦ ?_,
    fun a used resetAt hmem ↦ step_refused hmem, fun id reservation record hid hget hother ↦ ?_,
    ?_⟩
  · obtain ⟨hkey, hstored, hused⟩ := hinv.quotas _ _ hget
    have hquota : record.quota = quota := by
      rw [isStoredAccountQuotaRecord, Bool.and_eq_true, decide_eq_true_eq] at hstored
      exact (quotaKey_inj (hstored.1.symm.trans hkey)).1
    rw [hinv.balanced _ _ hlive, usedIn_of_get hget, if_pos rfl]
    exact ⟨rfl, hquota ▸ hused⟩
  · rw [hinv.balanced _ _ hlive]
    cases hget : s.quotas.get (quotaKey quota userId) with
    | none => rw [usedIn_of_none hget, Nat.cast_zero]
    | some record => rw [usedIn_of_get hget, if_neg (hnone record hget), Nat.cast_zero]
  · show (s.rollback id).quotas = s.quotas
    unfold QuotaRelay.rollback
    rw [hid]
    show rollbackDurableQuota s.quotas reservation = s.quotas
    rw [rollbackDurableQuota, hget]
    exact if_pos hother
  · show QuotaEvent.loadFailed ∉ s.restart.2
    unfold QuotaRelay.restart
    rw [loadAccountQuotaRecords_eq hinv.savedQuotas]
    exact List.not_mem_nil

end QuotaRelay

end MultAIplayer
