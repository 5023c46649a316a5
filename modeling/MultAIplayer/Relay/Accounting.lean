import MultAIplayer.Relay.Capacity
import Mathlib.Algebra.BigOperators.Group.Finset.Piecewise
import Mathlib.Algebra.Ring.Int.Defs

/-!
# Accounting

The counters of the two capacities are what they count, and they stay below their ceilings, after
any operations on the durable collections, refused ones included.

## Accounts

An account is a counter: the entries of the relay or of a team, the bytes of one kind of content for
the relay, a team or a room. An entry of a collection charges some accounts (`ByteAccount.charges`,
`Entity.teamIdForEntry`), and the ledger value of an account is the sum over all entries that charge
it (`Records.total`). A step of the store moves both sides by the same difference: what the new entry
charges less what the old one did.
-/

namespace MultAIplayer

/-! ### Sums over the collections -/

instance : Fintype Entity where
  elems := {.authSessions, .accountRestrictions, .accountQuotaRecords, .teams, .rooms, .invites,
    .inviteRequests, .inviteResponses, .inviteAckReceipts, .acceptedMessageReceipts, .devices,
    .keyPackages, .consumedKeyPackages, .attachmentBlobs, .teamMembers, .mlsBacklog}
  complete e := by cases e <;> decide

namespace Records

variable (r : Records) (w : (e : Entity) → String → e.Value → ℤ)

/-- The sum of the weights of all entries of all collections. -/
def total : ℤ := ∑ e, (r.collection e).tally (w e)

theorem total_withCollection (e : Entity) (m : InsertionMap String e.Value) :
    (r.withCollection e m).total w =
      r.total w + (m.tally (w e) - (r.collection e).tally (w e)) := by
  have hterm : ∀ f, ((r.withCollection e m).collection f).tally (w f) =
      (r.collection f).tally (w f) +
        if f = e then m.tally (w e) - (r.collection e).tally (w e) else 0 := by
    intro f
    by_cases hf : f = e
    · subst hf
      rw [if_pos rfl, collection_withCollection_self]
      omega
    · rw [if_neg hf, add_zero, collection_withCollection_of_ne r m hf]
  rw [total, Finset.sum_congr rfl fun f _ ↦ hterm f, Finset.sum_add_distrib,
    Finset.sum_ite_eq' Finset.univ e]
  simp [total]

theorem total_set (e : Entity) (k : String) (v : e.Value) :
    (r.withCollection e ((r.collection e).set k v)).total w =
      r.total w + w e k v - (r.collection e).weightAt (w e) k := by
  rw [total_withCollection, InsertionMap.tally_set]
  omega

theorem total_delete (e : Entity) (k : String) :
    (r.withCollection e ((r.collection e).delete k)).total w =
      r.total w - (r.collection e).weightAt (w e) k := by
  rw [total_withCollection, InsertionMap.tally_delete]
  omega

theorem total_clear (e : Entity) :
    (r.withCollection e .empty).total w = r.total w - (r.collection e).tally (w e) := by
  rw [total_withCollection, InsertionMap.tally_empty]
  omega

theorem total_empty : ({} : Records).total w = 0 :=
  Finset.sum_eq_zero fun e _ ↦ by cases e <;> rfl

end Records

/-! ### Entries -/

/-- The number of durable entries, a membership map counted as one plus its members. -/
@[grind =] def Records.durableEntries (r : Records) : ℤ := r.total fun e _ v ↦ e.units v

/-- What an entry counts for a team. -/
def Entity.teamUnits (teamId : String) (e : Entity) (k : String) (v : e.Value) : ℤ :=
  if e.teamIdForEntry k v = some teamId then e.units v else 0

/-- The number of durable entries that are attributed to a team. -/
@[grind =]
def Records.teamEntries (r : Records) (teamId : String) : ℤ := r.total (Entity.teamUnits teamId)

namespace DurableEntryCapacity

/-- No counter exceeds its ceiling. -/
def Within (c : DurableEntryCapacity) : Prop :=
  c.used ≤ c.maximum ∧ ∀ teamId, teamId ≠ "" → c.usedByTeam.count teamId ≤ c.maximumPerTeam

/-- The counters of one capacity are those of another, moved by given differences. -/
structure Moves (c c' : DurableEntryCapacity) (delta : ℤ) (teamDelta : String → ℤ) : Prop where
  used : c'.used = c.used + delta
  usedByTeam : ∀ teamId, teamId ≠ "" →
    c'.usedByTeam.count teamId = c.usedByTeam.count teamId + teamDelta teamId
  maximum : c'.maximum = c.maximum
  maximumPerTeam : c'.maximumPerTeam = c.maximumPerTeam
  within : c.Within → c'.Within

/-- What an amount adds to a team. -/
@[grind =] def forTeam (amount : ℤ) (attributed : Option String) (teamId : String) : ℤ :=
  if attributed = some teamId then amount else 0

theorem truthy_eq_none {teamId : Option String} (h : truthy teamId = none) {t : String}
    (ht : t ≠ "") : teamId ≠ some t := by
  rintro rfl
  rw [truthy, Option.filter_some_pos (by simpa using ht)] at h
  cases h

theorem truthy_eq_some {teamId : Option String} {t : String} (h : truthy teamId = some t) :
    teamId = some t ∧ t ≠ "" := by
  obtain ⟨h, ht⟩ := Option.filter_eq_some_iff.mp h
  exact ⟨h, by simpa using ht⟩

variable {c c' : DurableEntryCapacity}

theorem adjust_moves {delta : ℤ} {teamId : Option String} (h : c.adjust delta teamId = .ok c') :
    c.Moves c' delta (forTeam delta teamId) := by
  unfold adjust at h
  split at h
  · cases h
  rename_i hrelay
  rw [not_and_or, not_lt, not_lt] at hrelay
  split at h
  · rename_i hteam
    cases h
    have hnot : ∀ t, t ≠ "" → forTeam delta teamId t = 0 := fun t ht ↦
      if_neg (truthy_eq_none hteam ht)
    refine ⟨rfl, fun t ht ↦ by rw [hnot t ht, add_zero], rfl, rfl, fun hwithin ↦ ⟨?_, hwithin.2⟩⟩
    have hused := hwithin.1
    change c.used + delta ≤ c.maximum
    omega
  · rename_i team hteam
    obtain ⟨rfl, hne⟩ := truthy_eq_some hteam
    split at h
    · cases h
    rename_i hlimit
    cases h
    rw [not_and_or, not_lt, not_lt] at hlimit
    have hcount : ∀ t, (c.usedByTeam.adjustCounter team delta).count t =
        c.usedByTeam.count t + forTeam delta (some team) t := by
      intro t
      rw [Counters.count_adjustCounter, forTeam]
      simp only [Option.some.injEq, eq_comm]
    refine ⟨rfl, fun t _ ↦ hcount t, rfl, rfl, fun hwithin ↦ ⟨?_, fun t ht ↦ ?_⟩⟩
    · have hused := hwithin.1
      change c.used + delta ≤ c.maximum
      omega
    · have hteam := hwithin.2 t ht
      change (c.usedByTeam.adjustCounter team delta).count t ≤ c.maximumPerTeam
      rw [Counters.count_adjustCounter]
      split_ifs with heq
      · subst heq
        omega
      · omega

/-- An adjustment that takes away is never refused. -/
theorem giveBack_moves (c : DurableEntryCapacity) {amount : ℤ} (h : 0 ≤ amount)
    (teamId : Option String) :
    c.Moves (c.giveBack amount teamId) (-amount) (forTeam (-amount) teamId) := by
  have hnot : ¬0 < -amount := by omega
  have hok : c.adjust (-amount) teamId = .ok (c.giveBack amount teamId) := by
    unfold giveBack
    cases hadjust : c.adjust (-amount) teamId with
    | ok c' => rfl
    | error error =>
      unfold adjust at hadjust
      rw [if_neg fun hpos ↦ hnot hpos.1] at hadjust
      split at hadjust
      · cases hadjust
      · rw [if_neg fun hpos ↦ hnot hpos.1] at hadjust
        cases hadjust
  exact adjust_moves hok

theorem count_usedWithout (c : DurableEntryCapacity) (fromTeamId : Option String) {t : String}
    (ht : t ≠ "") :
    (c.usedWithout fromTeamId).count t = c.usedByTeam.count t - forTeam 1 fromTeamId t := by
  unfold usedWithout
  cases hfrom : truthy fromTeamId with
  | none =>
    rw [forTeam, if_neg (truthy_eq_none hfrom ht)]
    exact (sub_zero _).symm
  | some team =>
    obtain ⟨rfl, -⟩ := truthy_eq_some hfrom
    change (c.usedByTeam.adjustCounter team (-1)).count t = _
    rw [Counters.count_adjustCounter, forTeam]
    simp only [Option.some.injEq, @eq_comm _ t team]
    split_ifs <;> omega

theorem move_moves {fromTeamId toTeamId : Option String} (h : c.move fromTeamId toTeamId = .ok c') :
    c.Moves c' 0 fun teamId ↦ forTeam 1 toTeamId teamId - forTeam 1 fromTeamId teamId := by
  unfold move at h
  split at h
  · rename_i heq
    cases h
    subst heq
    exact ⟨by omega, fun t _ ↦ by omega, rfl, rfl, id⟩
  rename_i hne
  dsimp only at h
  split at h
  · cases h
  rename_i hlimit
  cases h
  cases hto : truthy toTeamId with
  | none =>
    have hzero : ∀ t, t ≠ "" → forTeam 1 toTeamId t = 0 := fun t ht ↦
      if_neg (truthy_eq_none hto ht)
    refine ⟨(add_zero _).symm, fun t ht ↦ ?_, rfl, rfl, fun hwithin ↦ ⟨hwithin.1, fun t ht ↦ ?_⟩⟩
    · rw [hzero t ht]
      exact (count_usedWithout c fromTeamId ht).trans (by omega)
    · have hcount := count_usedWithout c fromTeamId ht
      have hteam := hwithin.2 t ht
      have hnonneg : 0 ≤ forTeam 1 fromTeamId t := by
        unfold forTeam
        split_ifs <;> omega
      change (c.usedWithout fromTeamId).count t ≤ c.maximumPerTeam
      omega
  | some team =>
    obtain ⟨rfl, hteamne⟩ := truthy_eq_some hto
    rw [hto] at hlimit
    have hroom : c.usedByTeam.count team + 1 ≤ c.maximumPerTeam := by
      simpa using hlimit
    have hfrom : forTeam 1 fromTeamId team = 0 := if_neg hne
    have hset : ∀ t, t ≠ "" → Counters.count (InsertionMap.set (c.usedWithout fromTeamId) team
        (c.usedByTeam.count team + 1)) t =
          c.usedByTeam.count t + (forTeam 1 (some team) t - forTeam 1 fromTeamId t) := by
      intro t ht
      rw [Counters.count, InsertionMap.get_set]
      split_ifs with heq
      · subst heq
        rw [hfrom, forTeam, if_pos rfl]
        rfl
      · rw [forTeam, if_neg fun hsome ↦ heq (Option.some.inj hsome).symm]
        exact (count_usedWithout c fromTeamId ht).trans (by omega)
    refine ⟨(add_zero _).symm, hset, rfl, rfl, fun hwithin ↦ ⟨hwithin.1, fun t ht ↦ ?_⟩⟩
    have hcount := hset t ht
    have hteam := hwithin.2 t ht
    change Counters.count (InsertionMap.set (c.usedWithout fromTeamId) team
      (c.usedByTeam.count team + 1)) t ≤ c.maximumPerTeam
    unfold forTeam at hcount
    split_ifs at hcount with hthis hold hold
    · omega
    · rw [← Option.some.inj hthis] at hcount ⊢
      omega
    · omega
    · omega

theorem Moves.trans {c'' : DurableEntryCapacity} {d d' : ℤ} {t t' : String → ℤ}
    (h : c.Moves c' d t) (h' : c'.Moves c'' d' t') :
    c.Moves c'' (d + d') fun teamId ↦ t teamId + t' teamId where
  used := by rw [h'.used, h.used, add_assoc]
  usedByTeam teamId hne := by rw [h'.usedByTeam teamId hne, h.usedByTeam teamId hne, add_assoc]
  maximum := h'.maximum.trans h.maximum
  maximumPerTeam := h'.maximumPerTeam.trans h.maximumPerTeam
  within hwithin := h'.within (h.within hwithin)

theorem Moves.refl (c : DurableEntryCapacity) : c.Moves c 0 fun _ ↦ 0 :=
  ⟨(add_zero _).symm, fun _ _ ↦ (add_zero _).symm, rfl, rfl, id⟩

end DurableEntryCapacity

/-! ### Bytes -/

/-- The byte totals: of the relay, of a team and of a room. -/
inductive ByteAccount
  | relay (resource : ByteResource)
  | team (resource : ByteResource) (teamId : String)
  | room (roomId : String)

namespace ByteAccount

/-- Whether content of a kind, team and room is charged to an account. -/
@[grind =] def charges (resource : ByteResource) (teamId : String) (roomId : Option String) :
    ByteAccount → Bool
  | .relay r => r = resource
  | .team r t => r = resource && t = teamId
  | .room k => resource = .mlsBacklog && truthy roomId = some k

/-- What an entry with a weight adds to an account. -/
def charge (a : ByteAccount) : Option RetainedByteWeight → ℤ
  | some w => if a.charges w.resource w.teamId w.roomId then w.bytes else 0
  | none => 0

@[simp] theorem charge_none (a : ByteAccount) : a.charge none = 0 := rfl

@[simp] theorem charge_some (a : ByteAccount) (w : RetainedByteWeight) :
    a.charge (some w) = if a.charges w.resource w.teamId w.roomId then (w.bytes : ℤ) else 0 := rfl

/-- What an entry adds to an account. -/
def chargeOf (a : ByteAccount) (e : Entity) (k : String) (v : e.Value) : ℤ :=
  a.charge (e.byteWeight k v)

theorem charge_nonneg (a : ByteAccount) (w : Option RetainedByteWeight) : 0 ≤ a.charge w := by
  cases w with
  | none => exact le_rfl
  | some w =>
    rw [charge_some]
    split_ifs <;> omega

end ByteAccount

/-- The bytes of all entries that are charged to an account. -/
@[grind =] def Records.retainedBytes (r : Records) (a : ByteAccount) : ℤ := r.total a.chargeOf

/-- The ceiling of an account. -/
def RelayStoreByteLimits.limit (l : RelayStoreByteLimits) : ByteAccount → ℕ
  | .relay .mlsBacklog => l.mlsBacklogGlobal
  | .relay .attachmentBlobs => l.attachmentBlobsGlobal
  | .team .mlsBacklog _ => l.mlsBacklogPerTeam
  | .team .attachmentBlobs _ => l.attachmentBlobsPerTeam
  | .room _ => l.mlsBacklogPerRoom

namespace DurableByteCapacity

/-- The total of an account. -/
def balance (b : DurableByteCapacity) : ByteAccount → ℤ
  | .relay .mlsBacklog => b.mlsBacklogBytes
  | .relay .attachmentBlobs => b.attachmentBlobBytes
  | .team .mlsBacklog teamId => b.mlsByTeam.count teamId
  | .team .attachmentBlobs teamId => b.attachmentsByTeam.count teamId
  | .room roomId => b.mlsByRoom.count roomId

/-- No total exceeds its ceiling. -/
def Within (b : DurableByteCapacity) : Prop := ∀ a, b.balance a ≤ b.limits.limit a

/-- The same limits and the same totals. -/
def SameTotals (b b' : DurableByteCapacity) : Prop :=
  b'.limits = b.limits ∧ ∀ a, b'.balance a = b.balance a

variable {b b' : DurableByteCapacity} {resource : ByteResource} {delta : ℤ} {teamId : String}
  {roomId : Option String}

theorem balance_adjusted (a : ByteAccount) :
    (b.adjusted resource delta teamId roomId).balance a =
      b.balance a + if a.charges resource teamId roomId then delta else 0 := by
  cases a with
  | relay r =>
    cases r <;> cases resource <;> simp [adjusted, balance, ByteAccount.charges]
  | team r t =>
    cases r <;> cases resource <;>
      simp [adjusted, balance, ByteAccount.charges, Counters.count_adjustCounter]
  | room k =>
    cases resource with
    | attachmentBlobs => simp [adjusted, balance, ByteAccount.charges]
    | mlsBacklog =>
      cases hroom : truthy roomId with
      | none => simp [adjusted, balance, ByteAccount.charges, hroom]
      | some roomId =>
        simp only [adjusted, balance, ByteAccount.charges, hroom, Counters.count_adjustCounter,
          Option.some.injEq, decide_true, Bool.true_and, decide_eq_true_eq]
        simp only [@eq_comm _ k roomId]

@[simp] theorem limits_adjusted : (b.adjusted resource delta teamId roomId).limits = b.limits := by
  cases resource <;> rfl

/-- **What the assertion checks**: an adjustment takes away, or every account that it charges has
room for it. -/
theorem assertCanAdjust_eq_none_iff :
    b.assertCanAdjust resource delta teamId roomId = none ↔
      delta ≤ 0 ∨ ∀ a : ByteAccount, a.charges resource teamId roomId = true →
        b.balance a + delta ≤ b.limits.limit a := by
  unfold assertCanAdjust
  by_cases hdelta : delta ≤ 0
  · simp [hdelta]
  rw [if_neg hdelta, or_iff_right hdelta]
  cases resource with
  | attachmentBlobs =>
    dsimp only
    constructor
    · intro h a ha
      split_ifs at h with hrelay hteam
      cases a with
      | relay r =>
        obtain rfl : r = .attachmentBlobs := by simpa [ByteAccount.charges] using ha
        exact not_lt.mp hrelay
      | team r t =>
        obtain ⟨rfl, rfl⟩ : r = .attachmentBlobs ∧ t = teamId := by
          simpa [ByteAccount.charges] using ha
        exact not_lt.mp hteam
      | room k => simp [ByteAccount.charges] at ha
    · intro h
      have hrelay : b.attachmentBlobBytes + delta ≤ b.limits.attachmentBlobsGlobal :=
        h (.relay .attachmentBlobs) (by simp [ByteAccount.charges])
      have hteam : b.attachmentsByTeam.count teamId + delta ≤ b.limits.attachmentBlobsPerTeam :=
        h (.team .attachmentBlobs teamId) (by simp [ByteAccount.charges])
      rw [if_neg (not_lt.mpr hrelay), if_neg (not_lt.mpr hteam)]
  | mlsBacklog =>
    dsimp only
    constructor
    · intro h a ha
      split_ifs at h with hrelay hteam
      cases a with
      | relay r =>
        obtain rfl : r = .mlsBacklog := by simpa [ByteAccount.charges] using ha
        exact not_lt.mp hrelay
      | team r t =>
        obtain ⟨rfl, rfl⟩ : r = .mlsBacklog ∧ t = teamId := by
          simpa [ByteAccount.charges] using ha
        exact not_lt.mp hteam
      | room k =>
        have hroom : truthy roomId = some k := by simpa [ByteAccount.charges] using ha
        rw [hroom] at h
        by_contra hlt
        have hlt : (b.limits.mlsBacklogPerRoom : ℤ) < b.mlsByRoom.count k + delta :=
          not_le.mp hlt
        rw [Option.filter_some_pos (by simpa using hlt)] at h
        cases h
    · intro h
      have hrelay : b.mlsBacklogBytes + delta ≤ b.limits.mlsBacklogGlobal :=
        h (.relay .mlsBacklog) (by simp [ByteAccount.charges])
      have hteam : b.mlsByTeam.count teamId + delta ≤ b.limits.mlsBacklogPerTeam :=
        h (.team .mlsBacklog teamId) (by simp [ByteAccount.charges])
      rw [if_neg (not_lt.mpr hrelay), if_neg (not_lt.mpr hteam)]
      cases hroom : truthy roomId with
      | none => rfl
      | some k =>
        have hfits : b.mlsByRoom.count k + delta ≤ b.limits.mlsBacklogPerRoom :=
          h (.room k) (by simp [ByteAccount.charges, hroom])
        rw [Option.filter_some_neg (by simpa using hfits)]

/-- Whether every account has room for an adjustment. -/
def Fits (b : DurableByteCapacity) (resource : ByteResource) (delta : ℤ) (teamId : String)
    (roomId : Option String) : Prop :=
  delta ≤ 0 ∨ ∀ a : ByteAccount, a.charges resource teamId roomId = true →
    b.balance a + delta ≤ b.limits.limit a

theorem adjust_of_fits (h : b.Fits resource delta teamId roomId) :
    b.adjust resource delta teamId roomId = (b.adjusted resource delta teamId roomId, none) := by
  rw [adjust, assertCanAdjust_eq_none_iff.mpr h]

theorem Within.adjusted (hwithin : b.Within) (h : b.Fits resource delta teamId roomId) :
    (b.adjusted resource delta teamId roomId).Within := by
  intro a
  rw [balance_adjusted, limits_adjusted]
  have ha := hwithin a
  rcases h with hdelta | hfits
  · split_ifs <;> omega
  · split_ifs with hcharges
    · exact hfits a hcharges
    · omega

/-- An adjustment moves the totals that it charges, or is refused. -/
theorem adjust_cases (b : DurableByteCapacity) (resource : ByteResource) (delta : ℤ)
    (teamId : String) (roomId : Option String) :
    b.Fits resource delta teamId roomId ∨
      ∃ error, b.adjust resource delta teamId roomId = (b, some error) := by
  cases hassert : b.assertCanAdjust resource delta teamId roomId with
  | none => exact .inl (assertCanAdjust_eq_none_iff.mp hassert)
  | some error => exact .inr ⟨error, by rw [adjust, hassert]⟩

/-- The totals moved by the difference of two weights. -/
def Replaces (b b' : DurableByteCapacity) (previous next : Option RetainedByteWeight) : Prop :=
  b'.limits = b.limits ∧ ∀ a, b'.balance a = b.balance a + a.charge next - a.charge previous

theorem SameTotals.refl (b : DurableByteCapacity) : b.SameTotals b := ⟨rfl, fun _ ↦ rfl⟩

theorem balance_adjusted_weight (a : ByteAccount) (w : RetainedByteWeight) :
    (b.adjusted w.resource w.bytes w.teamId w.roomId).balance a = b.balance a + a.charge (some w) :=
  balance_adjusted a

theorem balance_adjusted_neg_weight (a : ByteAccount) (w : RetainedByteWeight) :
    (b.adjusted w.resource (-w.bytes) w.teamId w.roomId).balance a =
      b.balance a - a.charge (some w) := by
  rw [balance_adjusted, ByteAccount.charge_some]
  split_ifs <;> omega

/-- A replacement is carried out, or it is refused and the totals are as they were. -/
theorem replace_cases (hwithin : b.Within) (previous next : Option RetainedByteWeight) :
    ((b.replace previous next).2 = none ∧ b.Replaces (b.replace previous next).1 previous next ∧
      (b.replace previous next).1.Within) ∨
    ∃ error, (b.replace previous next).2 = some error ∧
      b.SameTotals (b.replace previous next).1 := by
  unfold replace
  split
  · exact .inl ⟨rfl, ⟨rfl, fun a ↦ by simp⟩, hwithin⟩
  · rename_i w
    have hfits : b.Fits w.resource (-w.bytes) w.teamId w.roomId := .inl (by omega)
    rw [adjust_of_fits hfits]
    refine .inl ⟨rfl, ⟨limits_adjusted, fun a ↦ ?_⟩, hwithin.adjusted hfits⟩
    rw [balance_adjusted_neg_weight, ByteAccount.charge_none, add_zero]
  · rename_i w
    rcases adjust_cases b w.resource w.bytes w.teamId w.roomId with hfits | ⟨error, herror⟩
    · rw [adjust_of_fits hfits]
      refine .inl ⟨rfl, ⟨limits_adjusted, fun a ↦ ?_⟩, hwithin.adjusted hfits⟩
      rw [balance_adjusted_weight, ByteAccount.charge_none, sub_zero]
    · rw [herror]
      exact .inr ⟨error, rfl, SameTotals.refl b⟩
  · rename_i w w'
    split_ifs with hscope
    · obtain ⟨hresource, hteam, hroom⟩ := hscope
      rcases adjust_cases b w'.resource (w'.bytes - w.bytes) w'.teamId w'.roomId with
        hfits | ⟨error, herror⟩
      · rw [adjust_of_fits hfits]
        refine .inl ⟨rfl, ⟨limits_adjusted, fun a ↦ ?_⟩, hwithin.adjusted hfits⟩
        rw [balance_adjusted]
        simp only [ByteAccount.charge_some, hresource, hteam, hroom]
        split_ifs <;> omega
      · rw [herror]
        exact .inr ⟨error, rfl, SameTotals.refl b⟩
    · have hfirst : b.Fits w.resource (-w.bytes) w.teamId w.roomId := .inl (by omega)
      rw [adjust_of_fits hfirst]
      dsimp only
      rcases adjust_cases (b.adjusted w.resource (-w.bytes) w.teamId w.roomId) w'.resource
        w'.bytes w'.teamId w'.roomId with hfits | ⟨error, herror⟩
      · rw [adjust_of_fits hfits]
        refine .inl ⟨rfl, ⟨limits_adjusted.trans limits_adjusted, fun a ↦ ?_⟩,
          (hwithin.adjusted hfirst).adjusted hfits⟩
        rw [balance_adjusted_weight, balance_adjusted_neg_weight]
        omega
      · -- the bytes that were released fit again
        have hundo : (b.adjusted w.resource (-w.bytes) w.teamId w.roomId).Fits w.resource w.bytes
            w.teamId w.roomId := by
          refine .inr fun a ha ↦ ?_
          rw [balance_adjusted_neg_weight, limits_adjusted, ByteAccount.charge_some, if_pos ha]
          have hroom := hwithin a
          omega
        rw [herror]
        dsimp only
        rw [adjust_of_fits hundo]
        refine .inr ⟨error, rfl, limits_adjusted.trans limits_adjusted, fun a ↦ ?_⟩
        rw [balance_adjusted_weight, balance_adjusted_neg_weight]
        omega

/-- **A replacement that every account has room for is carried out.** -/
theorem replace_of_fits {previous next : Option RetainedByteWeight}
    (h : ∀ a : ByteAccount, b.balance a + a.charge next - a.charge previous ≤ b.limits.limit a) :
    (b.replace previous next).2 = none := by
  unfold replace
  split
  · rfl
  · rw [adjust_of_fits (.inl (by omega))]
  · rename_i w
    rw [adjust_of_fits (.inr fun a ha ↦ ?_)]
    have hfits := h a
    rw [ByteAccount.charge_some, if_pos ha, ByteAccount.charge_none] at hfits
    omega
  · rename_i w w'
    split_ifs with hscope
    · obtain ⟨hresource, hteam, hroom⟩ := hscope
      rw [adjust_of_fits (.inr fun a ha ↦ ?_)]
      have hfits := h a
      rw [ByteAccount.charge_some, ByteAccount.charge_some, hresource, hteam, hroom, if_pos ha,
        if_pos ha] at hfits
      omega
    · rw [adjust_of_fits (.inl (by omega))]
      dsimp only
      rw [adjust_of_fits (.inr fun a ha ↦ ?_)]
      have hfits := h a
      rw [ByteAccount.charge_some, if_pos ha] at hfits
      rw [balance_adjusted_neg_weight, limits_adjusted]
      omega

/-- **A replacement can be undone.** -/
theorem Replaces.undo (hwithin : b.Within) (hwithin' : b'.Within) {previous next : Option RetainedByteWeight}
    (h : b.Replaces b' previous next) :
    (b'.replace next previous).2 = none ∧ b.SameTotals (b'.replace next previous).1 := by
  obtain ⟨hlimits, hbalance⟩ := h
  have hnone : (b'.replace next previous).2 = none := replace_of_fits fun a ↦ by
    have ha := hwithin a
    rw [hbalance a, hlimits]
    omega
  rcases replace_cases hwithin' next previous with ⟨-, ⟨hlimits', hbalance'⟩, -⟩ | ⟨error, herror, -⟩
  · refine ⟨hnone, hlimits'.trans hlimits, fun a ↦ ?_⟩
    rw [hbalance' a, hbalance a]
    omega
  · rw [hnone] at herror
    cases herror

end DurableByteCapacity

/-! ### Steps of the store -/

theorem Entity.units_of_ne {e : Entity} (h : e ≠ .teamMembers) (v : e.Value) : e.units v = 1 := by
  cases e <;> first | rfl | exact absurd rfl h

theorem Entity.teamUnits_of_ne {e : Entity} (h : e ≠ .teamMembers) (teamId k : String)
    (v : e.Value) :
    e.teamUnits teamId k v = DurableEntryCapacity.forTeam 1 (e.teamIdForEntry k v) teamId := by
  rw [teamUnits, units_of_ne h, DurableEntryCapacity.forTeam]

namespace BoundedStore

/-- The counters of a store are those of another, moved by given differences. -/
structure Shifts (s s' : BoundedStore) (delta : ℤ) (teamDelta : String → ℤ)
    (byteDelta : ByteAccount → ℤ) : Prop where
  entries : s.capacity.Moves s'.capacity delta teamDelta
  limits : s'.byteCapacity.limits = s.byteCapacity.limits
  bytes : ∀ a, s'.byteCapacity.balance a = s.byteCapacity.balance a + byteDelta a
  within : s.byteCapacity.Within → s'.byteCapacity.Within

/-- **The accounts are right**: every counter is what it counts, below its ceiling. -/
structure Accounted (s : BoundedStore) : Prop where
  used : s.capacity.used = s.store.durableEntries
  usedByTeam : ∀ teamId, teamId ≠ "" →
    s.capacity.usedByTeam.count teamId = s.store.teamEntries teamId
  within : s.capacity.Within
  bytes : ∀ a, s.byteCapacity.balance a = s.store.retainedBytes a
  bytesWithin : s.byteCapacity.Within

/-- The ceilings of a store are those of another. -/
def SameCeilings (s s' : BoundedStore) : Prop :=
  s'.capacity.maximum = s.capacity.maximum ∧
    s'.capacity.maximumPerTeam = s.capacity.maximumPerTeam ∧
    s'.byteCapacity.limits = s.byteCapacity.limits

/-- The collections and all counters are as they were. -/
def Unchanged (s s' : BoundedStore) : Prop :=
  s'.store = s.store ∧ s'.capacity = s.capacity ∧ s.byteCapacity.SameTotals s'.byteCapacity

variable {s s' s'' : BoundedStore}

theorem Shifts.sameCeilings {d : ℤ} {t : String → ℤ} {w : ByteAccount → ℤ}
    (h : s.Shifts s' d t w) : s.SameCeilings s' :=
  ⟨h.entries.maximum, h.entries.maximumPerTeam, h.limits⟩

theorem Shifts.refl (s : BoundedStore) : s.Shifts s 0 (fun _ ↦ 0) fun _ ↦ 0 :=
  ⟨.refl _, rfl, fun _ ↦ (add_zero _).symm, id⟩

theorem Shifts.trans {d d' : ℤ} {t t' : String → ℤ} {w w' : ByteAccount → ℤ}
    (h : s.Shifts s' d t w) (h' : s'.Shifts s'' d' t' w') :
    s.Shifts s'' (d + d') (fun teamId ↦ t teamId + t' teamId) fun a ↦ w a + w' a where
  entries := h.entries.trans h'.entries
  limits := h'.limits.trans h.limits
  bytes a := by rw [h'.bytes a, h.bytes a, add_assoc]
  within hwithin := h'.within (h.within hwithin)

/-- **The accounting rule**: a step that moves the counters as it moves the sums keeps the accounts
right. -/
theorem Accounted.of_shifts (h : s.Accounted) {d : ℤ} {t : String → ℤ} {w : ByteAccount → ℤ}
    (hshifts : s.Shifts s' d t w) (hentries : s'.store.durableEntries = s.store.durableEntries + d)
    (hteams : ∀ teamId, s'.store.teamEntries teamId = s.store.teamEntries teamId + t teamId)
    (hbytes : ∀ a, s'.store.retainedBytes a = s.store.retainedBytes a + w a) : s'.Accounted where
  used := by rw [hshifts.entries.used, h.used, hentries]
  usedByTeam teamId hne := by
    rw [hshifts.entries.usedByTeam teamId hne, h.usedByTeam teamId hne, hteams]
  within := hshifts.entries.within h.within
  bytes a := by rw [hshifts.bytes a, h.bytes a, hbytes]
  bytesWithin := hshifts.within h.bytesWithin

theorem Accounted.unchanged (h : s.Accounted) (hs : s.Unchanged s') : s'.Accounted := by
  obtain ⟨hstore, hcapacity, hlimits, hbalance⟩ := hs
  refine ⟨?_, ?_, ?_, fun a ↦ ?_, fun a ↦ ?_⟩
  · rw [hstore, hcapacity]
    exact h.used
  · rw [hstore, hcapacity]
    exact h.usedByTeam
  · rw [hcapacity]
    exact h.within
  · rw [hbalance a, hstore]
    exact h.bytes a
  · rw [hbalance a, hlimits]
    exact h.bytesWithin a

theorem Unchanged.sameCeilings (h : s.Unchanged s') : s.SameCeilings s' := by
  obtain ⟨-, hcapacity, hlimits, -⟩ := h
  exact ⟨by rw [hcapacity], by rw [hcapacity], hlimits⟩

/-! ### Tracked maps -/

theorem charge_previous (a : ByteAccount) (s : BoundedStore) (e : Entity) (k : String) :
    a.charge (((s.store.collection e).get k).bind (e.byteWeight k)) =
      (s.store.collection e).weightAt (a.chargeOf e) k := by
  unfold InsertionMap.weightAt
  cases (s.store.collection e).get k <;> rfl

/-- How a `set` ends: with the entry set and the accounts right, or refused and unchanged. -/
def Settles (s : BoundedStore) (store : RelayStore) (ended : BoundedStore × Option CapacityError) :
    Prop :=
  (ended.2 = none ∧ ended.1.store = store ∧ ended.1.Accounted ∧ s.SameCeilings ended.1) ∨
    ((∃ error, ended.2 = some error) ∧ s.Unchanged ended.1)

theorem setTracked_settles (h : s.Accounted) {e : Entity} (he : e ≠ .teamMembers) (k : String)
    (v : e.Value) : s.Settles (s.store.set e k v) (s.setTracked e k v) := by
  unfold setTracked
  dsimp only
  rcases DurableByteCapacity.replace_cases h.bytesWithin
    (((s.store.collection e).get k).bind (e.byteWeight k)) (e.byteWeight k v) with
    ⟨hnone, hreplaces, hwithin⟩ | ⟨error, herror, hsame⟩
  · cases hbytes : s.byteCapacity.replace
        (((s.store.collection e).get k).bind (e.byteWeight k)) (e.byteWeight k v) with
    | mk bytes refused =>
      rw [hbytes] at hnone hreplaces hwithin
      obtain rfl : refused = none := hnone
      dsimp only
      cases hclaimed : s.claimEntry e k v ((s.store.collection e).get k) with
      | ok capacity =>
        have hshifts : s.Shifts ⟨s.store.set e k v, capacity, bytes⟩
            (e.units v - (s.store.collection e).weightAt (fun _ v ↦ e.units v) k)
            (fun t ↦ e.teamUnits t k v - (s.store.collection e).weightAt (e.teamUnits t) k)
            fun a ↦ a.chargeOf e k v - (s.store.collection e).weightAt (a.chargeOf e) k := by
          refine ⟨?_, hreplaces.1, fun a ↦ ?_, fun _ ↦ hwithin⟩
          · unfold InsertionMap.weightAt
            cases hget : (s.store.collection e).get k with
            | none =>
              rw [hget] at hclaimed
              have hmoves := DurableEntryCapacity.adjust_moves hclaimed
              simp only [Entity.units_of_ne he, Entity.teamUnits_of_ne he, Option.elim, sub_zero]
              exact hmoves
            | some previous =>
              rw [hget] at hclaimed
              have hmoves := DurableEntryCapacity.move_moves hclaimed
              simp only [Entity.units_of_ne he, Entity.teamUnits_of_ne he, Option.elim, sub_self]
              exact hmoves
          · rw [hreplaces.2 a, charge_previous]
            exact add_sub_assoc _ _ _
        refine .inl ⟨rfl, rfl, h.of_shifts hshifts ?_ (fun t ↦ ?_) fun a ↦ ?_,
          hshifts.sameCeilings⟩
        · exact (Records.total_set _ _ e k v).trans (add_sub_assoc _ _ _)
        · exact (Records.total_set _ _ e k v).trans (add_sub_assoc _ _ _)
        · exact (Records.total_set _ _ e k v).trans (add_sub_assoc _ _ _)
      | error error =>
        obtain ⟨-, hsame⟩ := hreplaces.undo h.bytesWithin hwithin
        exact .inr ⟨⟨_, rfl⟩, rfl, rfl, hsame⟩
  · cases hbytes : s.byteCapacity.replace
        (((s.store.collection e).get k).bind (e.byteWeight k)) (e.byteWeight k v) with
    | mk bytes refused =>
      rw [hbytes] at herror hsame
      obtain rfl : refused = some error := herror
      exact .inr ⟨⟨error, rfl⟩, rfl, rfl, hsame⟩

/-- Bytes are given back without asking. -/
theorem replace_none (b : DurableByteCapacity) (w : Option RetainedByteWeight) :
    b.Replaces (b.replace w none).1 w none ∧ (b.Within → (b.replace w none).1.Within) := by
  cases w with
  | none => exact ⟨⟨rfl, fun a ↦ by simp [DurableByteCapacity.replace]⟩, id⟩
  | some w =>
    have hfits : b.Fits w.resource (-w.bytes) w.teamId w.roomId := .inl (by omega)
    unfold DurableByteCapacity.replace
    dsimp only
    rw [DurableByteCapacity.adjust_of_fits hfits]
    refine ⟨⟨DurableByteCapacity.limits_adjusted, fun a ↦ ?_⟩, fun hwithin ↦ hwithin.adjusted hfits⟩
    rw [DurableByteCapacity.balance_adjusted_neg_weight, ByteAccount.charge_none, add_zero]

/-- What an entry that is deleted gives back. -/
theorem releaseEntry_shifts (s : BoundedStore) {e : Entity} (he : e ≠ .teamMembers) (k : String)
    (v : e.Value) : s.Shifts (s.releaseEntry e k v) (-e.units v) (fun t ↦ -e.teamUnits t k v)
      fun a ↦ -a.chargeOf e k v := by
  have hteams : ∀ t, -e.teamUnits t k v =
      DurableEntryCapacity.forTeam (-1) (e.teamIdForEntry k v) t := by
    intro t
    rw [Entity.teamUnits_of_ne he, DurableEntryCapacity.forTeam, DurableEntryCapacity.forTeam]
    split_ifs <;> rfl
  obtain ⟨⟨hlimits, hbalance⟩, hwithin⟩ := replace_none s.byteCapacity (e.byteWeight k v)
  simp only [hteams, Entity.units_of_ne he]
  refine ⟨DurableEntryCapacity.giveBack_moves _ (by omega) _, hlimits, fun a ↦ ?_, hwithin⟩
  refine (hbalance a).trans ?_
  rw [ByteAccount.charge_none, add_zero]
  exact sub_eq_add_neg _ _

theorem deleteTracked_accounted (h : s.Accounted) {e : Entity} (he : e ≠ .teamMembers)
    (k : String) : (s.deleteTracked e k).Accounted ∧ s.SameCeilings (s.deleteTracked e k) := by
  unfold deleteTracked
  cases hget : (s.store.collection e).get k with
  | none => exact ⟨h, rfl, rfl, rfl⟩
  | some v =>
    have hrelease := releaseEntry_shifts s he k v
    have hshifts : s.Shifts { s.releaseEntry e k v with store := s.store.delete e k } _ _ _ :=
      ⟨hrelease.entries, hrelease.limits, hrelease.bytes, hrelease.within⟩
    have hweight : ∀ w : String → e.Value → ℤ, (s.store.collection e).weightAt w k = w k v :=
      fun w ↦ by rw [InsertionMap.weightAt, hget, Option.elim]
    have htotal : ∀ w : (e : Entity) → String → e.Value → ℤ,
        (s.store.toRecords.withCollection e ((s.store.collection e).delete k)).total w =
          s.store.total w + -w e k v := by
      intro w
      rw [Records.total_delete, hweight]
      exact sub_eq_add_neg _ _
    exact ⟨h.of_shifts hshifts (htotal _) (fun _ ↦ htotal _) fun _ ↦ htotal _,
      hshifts.sameCeilings⟩

/-- What all entries of a list give back. -/
theorem releaseAll_shifts {e : Entity} (he : e ≠ .teamMembers) (l : List (String × e.Value))
    (s : BoundedStore) : s.Shifts (l.foldl (fun s p ↦ s.releaseEntry e p.1 p.2) s)
      (-(l.map fun p ↦ e.units p.2).sum) (fun t ↦ -(l.map fun p ↦ e.teamUnits t p.1 p.2).sum)
      fun a ↦ -(l.map fun p ↦ a.chargeOf e p.1 p.2).sum := by
  induction l generalizing s with
  | nil => exact Shifts.refl s
  | cons p l ih =>
    have hshifts := (releaseEntry_shifts s he p.1 p.2).trans (ih (s.releaseEntry e p.1 p.2))
    simp only [List.map_cons, List.sum_cons, neg_add]
    exact hshifts

theorem clearTracked_accounted (h : s.Accounted) {e : Entity} (he : e ≠ .teamMembers) :
    (s.clearTracked e).Accounted ∧ s.SameCeilings (s.clearTracked e) := by
  have hrelease := releaseAll_shifts he (s.store.collection e).entries s
  have hshifts : s.Shifts (s.clearTracked e) _ _ _ :=
    ⟨hrelease.entries, hrelease.limits, hrelease.bytes, hrelease.within⟩
  have htotal : ∀ w : (e : Entity) → String → e.Value → ℤ,
      (s.store.toRecords.withCollection e .empty).total w =
        s.store.total w + -(s.store.collection e).tally (w e) := by
    intro w
    rw [Records.total_clear]
    exact sub_eq_add_neg _ _
  exact ⟨h.of_shifts hshifts (htotal _) (fun _ ↦ htotal _) fun _ ↦ htotal _, hshifts.sameCeilings⟩

/-! ### Membership maps -/

/-- What a membership map weighs, and what the map that it replaces weighed. -/
theorem weightAt_units (s : BoundedStore) (teamId : String) :
    s.store.teamMembers.weightAt (fun _ members ↦ Entity.units .teamMembers members) teamId =
      (((s.store.teamMembers.get teamId).map (·.size)).getD 0 : ℕ) +
        if s.store.teamMembers.has teamId then 1 else 0 := by
  unfold InsertionMap.weightAt InsertionMap.has
  cases s.store.teamMembers.get teamId with
  | none => rfl
  | some members =>
    change 1 + (members.size : ℤ) = members.size + 1
    omega

/-- A new membership map under a capacity that was adjusted by the difference. -/
theorem Accounted.setTeamMembers (h : s.Accounted) {teamId : String} {members : TeamMembers}
    {store : RelayStore} {capacity : DurableEntryCapacity}
    (hstore : store.toRecords =
      s.store.withCollection .teamMembers (s.store.teamMembers.set teamId members))
    (hmoves : s.capacity.Moves capacity (1 + members.size - s.store.teamMembers.weightAt
      (fun _ members ↦ Entity.units .teamMembers members) teamId)
      (DurableEntryCapacity.forTeam (1 + members.size - s.store.teamMembers.weightAt
        (fun _ members ↦ Entity.units .teamMembers members) teamId) (some teamId))) :
    BoundedStore.Accounted { s with store := store, capacity := capacity } ∧
      s.SameCeilings { s with store := store, capacity := capacity } := by
  have hshifts : s.Shifts { s with store := store, capacity := capacity } _ _ fun _ ↦ 0 :=
    ⟨hmoves, rfl, fun _ ↦ (add_zero _).symm, id⟩
  have hteam : ∀ t, s.store.teamMembers.weightAt (Entity.teamUnits t .teamMembers) teamId =
      if some teamId = some t then s.store.teamMembers.weightAt
        (fun _ members ↦ Entity.units .teamMembers members) teamId else 0 := by
    intro t
    unfold InsertionMap.weightAt
    cases s.store.teamMembers.get teamId with
    | none => simp
    | some members => rfl
  have hcharge : ∀ a : ByteAccount,
      s.store.teamMembers.weightAt (a.chargeOf .teamMembers) teamId = 0 := by
    intro a
    unfold InsertionMap.weightAt
    cases s.store.teamMembers.get teamId <;> rfl
  refine ⟨h.of_shifts hshifts ?_ (fun t ↦ ?_) fun a ↦ ?_, hshifts.sameCeilings⟩
  · change Records.total store.toRecords _ = _
    rw [hstore]
    exact (Records.total_set _ _ .teamMembers teamId members).trans (add_sub_assoc _ _ _)
  · change Records.total store.toRecords _ = _
    rw [hstore]
    refine (Records.total_set _ _ .teamMembers teamId members).trans ?_
    change _ + (if some teamId = some t then (1 + members.size : ℤ) else 0) -
      s.store.teamMembers.weightAt _ teamId = _
    rw [hteam, DurableEntryCapacity.forTeam, Records.teamEntries]
    split_ifs <;> omega
  · change Records.total store.toRecords _ = _
    rw [hstore]
    refine (Records.total_set _ _ .teamMembers teamId members).trans ?_
    change _ + 0 - s.store.teamMembers.weightAt _ teamId = _
    rw [hcharge, Records.retainedBytes]
    omega

theorem setTeamMembers_settles (h : s.Accounted) (teamId : String) (members : TeamMembers) :
    s.Settles (s.store.set .teamMembers teamId members) (s.setTeamMembers teamId members) := by
  unfold setTeamMembers
  dsimp only
  cases hadjust : s.capacity.adjust (members.size -
      (((s.store.teamMembers.get teamId).map (·.size)).getD 0 : ℕ) +
        if s.store.teamMembers.has teamId then 0 else 1) (some teamId) with
  | error error => exact .inr ⟨⟨error, rfl⟩, rfl, rfl, .refl _⟩
  | ok capacity =>
    have hdelta : (members.size - (((s.store.teamMembers.get teamId).map (·.size)).getD 0 : ℕ) +
        if s.store.teamMembers.has teamId then 0 else 1 : ℤ) = 1 + members.size -
          s.store.teamMembers.weightAt (fun _ members ↦ Entity.units .teamMembers members)
            teamId := by
      rw [weightAt_units]
      split_ifs <;> omega
    have hmoves := DurableEntryCapacity.adjust_moves hadjust
    rw [hdelta] at hmoves
    exact .inl ⟨rfl, rfl, h.setTeamMembers rfl hmoves⟩

theorem deleteTeamMembers_accounted (h : s.Accounted) (teamId : String) :
    (s.deleteTeamMembers teamId).Accounted ∧ s.SameCeilings (s.deleteTeamMembers teamId) := by
  unfold deleteTeamMembers
  cases hget : s.store.teamMembers.get teamId with
  | none => exact ⟨h, rfl, rfl, rfl⟩
  | some members =>
    dsimp only
    have hmoves := DurableEntryCapacity.giveBack_moves s.capacity
      (show (0 : ℤ) ≤ 1 + members.size by omega) (some teamId)
    have hshifts : s.Shifts { s with
        store := s.store.delete .teamMembers teamId
        capacity := s.capacity.giveBack (1 + members.size) (some teamId) } _ _ fun _ ↦ 0 :=
      ⟨hmoves, rfl, fun _ ↦ (add_zero _).symm, id⟩
    have hweight : ∀ w : String → TeamMembers → ℤ,
        s.store.teamMembers.weightAt w teamId = w teamId members :=
      fun w ↦ by rw [InsertionMap.weightAt, hget, Option.elim]
    have htotal : ∀ w : (e : Entity) → String → e.Value → ℤ,
        (s.store.toRecords.withCollection .teamMembers (s.store.teamMembers.delete teamId)).total w =
          s.store.total w - w .teamMembers teamId members := by
      intro w
      rw [← hweight (w .teamMembers)]
      exact Records.total_delete _ w .teamMembers teamId
    refine ⟨h.of_shifts hshifts ?_ (fun t ↦ ?_) fun a ↦ ?_, hshifts.sameCeilings⟩
    · exact (htotal _).trans (sub_eq_add_neg _ _)
    · refine (htotal _).trans ?_
      change _ - (if some teamId = some t then (1 + members.size : ℤ) else 0) = _
      rw [DurableEntryCapacity.forTeam, Records.teamEntries]
      split_ifs <;> omega
    · refine (htotal _).trans ?_
      change _ - (0 : ℤ) = _
      rw [Records.retainedBytes]
      omega

theorem SameCeilings.trans (h : s.SameCeilings s') (h' : s'.SameCeilings s'') :
    s.SameCeilings s'' :=
  ⟨h'.1.trans h.1, h'.2.1.trans h.2.1, h'.2.2.trans h.2.2⟩

theorem clearTeamMembers_accounted (h : s.Accounted) :
    s.clearTeamMembers.Accounted ∧ s.SameCeilings s.clearTeamMembers := by
  unfold clearTeamMembers
  generalize s.store.teamMembers.keys = teamIds
  induction teamIds generalizing s with
  | nil => exact ⟨h, rfl, rfl, rfl⟩
  | cons teamId teamIds ih =>
    obtain ⟨haccounted, hceilings⟩ := deleteTeamMembers_accounted h teamId
    obtain ⟨hrest, hceilings'⟩ := ih haccounted
    exact ⟨hrest, hceilings.trans hceilings'⟩

/-! ### Members -/

/-- The membership map of a team, weighed. -/
theorem weightAt_units_of_get {teamId : String} {members : TeamMembers}
    (hget : s.store.teamMembers.get teamId = some members) :
    s.store.teamMembers.weightAt (fun _ members ↦ Entity.units .teamMembers members) teamId =
      1 + members.size := by
  rw [InsertionMap.weightAt, hget]
  rfl

theorem setMember_settles (h : s.Accounted) (teamId userId : String) (member : TeamMemberRecord) :
    (∃ error, (s.setMember teamId userId member).2 = some error ∧
      s.Unchanged (s.setMember teamId userId member).1) ∨
    ((s.setMember teamId userId member).2 = none ∧ (s.setMember teamId userId member).1.Accounted ∧
      s.SameCeilings (s.setMember teamId userId member).1) := by
  unfold setMember
  cases hget : s.store.teamMembers.get teamId with
  | none => exact .inr ⟨rfl, h, rfl, rfl, rfl⟩
  | some members =>
    dsimp only
    have hweight := weightAt_units_of_get hget
    cases hclaimed : (if members.has userId then s.capacity.move (some teamId) (some teamId)
        else s.capacity.claim (some teamId)) with
    | error error => exact .inl ⟨error, rfl, rfl, rfl, .refl _⟩
    | ok capacity =>
      refine .inr ⟨rfl, h.setTeamMembers rfl ?_⟩
      rw [hweight]
      split_ifs at hclaimed with hhas
      · -- the member was there: nothing is claimed
        rw [DurableEntryCapacity.move, if_pos rfl, Except.ok.injEq] at hclaimed
        have hzero : (1 + (members.set userId member).size - (1 + members.size) : ℤ) = 0 := by
          rw [InsertionMap.size_set_of_has _ hhas]
          omega
        rw [hzero, ← hclaimed]
        refine ⟨(add_zero _).symm, fun t _ ↦ ?_, rfl, rfl, id⟩
        rw [DurableEntryCapacity.forTeam]
        split_ifs <;> omega
      · have hone : (1 + (members.set userId member).size - (1 + members.size) : ℤ) = 1 := by
          rw [InsertionMap.size_set_of_not_has _ (by simpa using hhas)]
          omega
        rw [hone]
        exact DurableEntryCapacity.adjust_moves hclaimed

theorem deleteMember_accounted (h : s.Accounted) (teamId userId : String) :
    (s.deleteMember teamId userId).Accounted ∧ s.SameCeilings (s.deleteMember teamId userId) := by
  unfold deleteMember
  cases hget : s.store.teamMembers.get teamId with
  | none => exact ⟨h, rfl, rfl, rfl⟩
  | some members =>
    dsimp only
    split_ifs with hhas
    · refine h.setTeamMembers rfl ?_
      have hsize : ((members.delete userId).size : ℤ) = members.size - 1 := by
        obtain ⟨member, hmember⟩ := InsertionMap.has_iff.mp hhas
        have hdelete := InsertionMap.tally_delete members (fun _ _ ↦ 1) userId
        rw [InsertionMap.tally_one, InsertionMap.tally_one, InsertionMap.weightAt, hmember] at hdelete
        exact hdelete
      have hdelta : (1 + (members.delete userId).size - (1 + members.size) : ℤ) = -1 := by omega
      rw [weightAt_units_of_get hget, hdelta]
      exact DurableEntryCapacity.giveBack_moves s.capacity (by omega) (some teamId)
    · exact ⟨h, rfl, rfl, rfl⟩

/-- What as many members as a list has give back. -/
theorem releaseMembers_moves (teamId : String) (l : List String) (c : DurableEntryCapacity) :
    c.Moves (l.foldl (fun c _ ↦ c.release (some teamId)) c) (-l.length)
      (DurableEntryCapacity.forTeam (-l.length) (some teamId)) := by
  induction l generalizing c with
  | nil =>
    refine ⟨(add_zero _).symm, fun t _ ↦ ?_, rfl, rfl, id⟩
    rw [DurableEntryCapacity.forTeam]
    split_ifs <;> simp
  | cons userId l ih =>
    have hmoves := (DurableEntryCapacity.giveBack_moves c (by omega) (some teamId)).trans
      (ih (c.release (some teamId)))
    have hlength : (-1 + -(l.length : ℤ)) = -((userId :: l).length : ℤ) := by
      rw [List.length_cons]
      omega
    refine ⟨hmoves.used.trans (by rw [hlength]), fun t ht ↦ ?_, hmoves.maximum,
      hmoves.maximumPerTeam, hmoves.within⟩
    refine (hmoves.usedByTeam t ht).trans ?_
    rw [← hlength]
    unfold DurableEntryCapacity.forTeam
    split_ifs <;> omega

theorem clearMembers_accounted (h : s.Accounted) (teamId : String) :
    (s.clearMembers teamId).Accounted ∧ s.SameCeilings (s.clearMembers teamId) := by
  unfold clearMembers
  cases hget : s.store.teamMembers.get teamId with
  | none => exact ⟨h, rfl, rfl, rfl⟩
  | some members =>
    dsimp only
    refine h.setTeamMembers rfl ?_
    have hmoves := releaseMembers_moves teamId members.keys s.capacity
    have hdelta : (1 + (InsertionMap.empty : TeamMembers).size - (1 + members.size) : ℤ) =
        -members.keys.length := by
      change (1 + 0 - (1 + members.entries.length) : ℤ) = -((members.entries.map Prod.fst).length)
      rw [List.length_map]
      omega
    rw [weightAt_units_of_get hget, hdelta]
    exact hmoves

/-! ### Runs -/

/-- **One operation**: it keeps the accounts right, and when it throws nothing has changed. -/
theorem apply_accounted (h : s.Accounted) (op : StoreOp) :
    (s.apply op).1.Accounted ∧ s.SameCeilings (s.apply op).1 ∧
      ∀ error, (s.apply op).2 = some error → s.Unchanged (s.apply op).1 := by
  have hsettles : ∀ {store ended}, s.Settles store ended → ended.1.Accounted ∧
      s.SameCeilings ended.1 ∧ ∀ error, ended.2 = some error → s.Unchanged ended.1 := by
    rintro store ended (⟨hnone, -, haccounted, hceilings⟩ | ⟨-, hunchanged⟩)
    · refine ⟨haccounted, hceilings, fun error herror ↦ ?_⟩
      rw [hnone] at herror
      cases herror
    · exact ⟨h.unchanged hunchanged, hunchanged.sameCeilings, fun _ _ ↦ hunchanged⟩
  cases op with
  | set e k v =>
    by_cases he : e = .teamMembers
    · subst he
      exact hsettles (setTeamMembers_settles h k v)
    · have happly : s.apply (.set e k v) = s.setTracked e k v := by
        cases e <;> first | rfl | exact absurd rfl he
      rw [happly]
      exact hsettles (setTracked_settles h he k v)
  | delete e k =>
    by_cases he : e = .teamMembers
    · subst he
      obtain ⟨haccounted, hceilings⟩ := deleteTeamMembers_accounted h k
      exact ⟨haccounted, hceilings, nofun⟩
    · have happly : s.apply (.delete e k) = (s.deleteTracked e k, none) := by
        cases e <;> first | rfl | exact absurd rfl he
      obtain ⟨haccounted, hceilings⟩ := deleteTracked_accounted h he k
      rw [happly]
      exact ⟨haccounted, hceilings, nofun⟩
  | clear e =>
    by_cases he : e = .teamMembers
    · subst he
      obtain ⟨haccounted, hceilings⟩ := clearTeamMembers_accounted h
      exact ⟨haccounted, hceilings, nofun⟩
    · have happly : s.apply (.clear e) = (s.clearTracked e, none) := by
        cases e <;> first | rfl | exact absurd rfl he
      obtain ⟨haccounted, hceilings⟩ := clearTracked_accounted h he
      rw [happly]
      exact ⟨haccounted, hceilings, nofun⟩
  | setMember teamId userId member =>
    rcases setMember_settles h teamId userId member with
      ⟨error, -, hunchanged⟩ | ⟨hnone, haccounted, hceilings⟩
    · exact ⟨h.unchanged hunchanged, hunchanged.sameCeilings, fun _ _ ↦ hunchanged⟩
    · refine ⟨haccounted, hceilings, fun error herror ↦ ?_⟩
      have hsome := hnone.symm.trans herror
      cases hsome
  | deleteMember teamId userId =>
    obtain ⟨haccounted, hceilings⟩ := deleteMember_accounted h teamId userId
    exact ⟨haccounted, hceilings, nofun⟩
  | clearMembers teamId =>
    obtain ⟨haccounted, hceilings⟩ := clearMembers_accounted h teamId
    exact ⟨haccounted, hceilings, nofun⟩

/-- The operations as a machine, with the errors that they throw. -/
@[grind =] def step (s : BoundedStore) (op : StoreOp) : BoundedStore × List CapacityError :=
  ((s.apply op).1, (s.apply op).2.toList)

/-- The store at its creation. -/
def empty (maximum maximumPerTeam : ℕ) (limits : RelayStoreByteLimits) : BoundedStore where
  capacity := { maximum, maximumPerTeam }
  byteCapacity := { limits }

variable (maximum maximumPerTeam : ℕ) (limits : RelayStoreByteLimits)

theorem accounted_empty : (empty maximum maximumPerTeam limits).Accounted where
  used := (Records.total_empty _).symm
  usedByTeam _ _ := (Records.total_empty _).symm
  within := ⟨Int.natCast_nonneg _, fun _ _ ↦ Int.natCast_nonneg _⟩
  bytes a := by
    refine Eq.trans ?_ (Records.total_empty a.chargeOf).symm
    cases a with
    | relay r => cases r <;> rfl
    | team r t => cases r <;> rfl
    | room k => rfl
  bytesWithin a := by
    refine le_trans (le_of_eq ?_) (Int.natCast_nonneg _)
    cases a with
    | relay r => cases r <;> rfl
    | team r t => cases r <;> rfl
    | room k => rfl

/-- **The accounts are right after every run**, and the ceilings are those of the creation. -/
theorem accounted_run (ops : List StoreOp) :
    (Machine.run step (empty maximum maximumPerTeam limits) ops).1.Accounted ∧
      (empty maximum maximumPerTeam limits).SameCeilings
        (Machine.run step (empty maximum maximumPerTeam limits) ops).1 := by
  have hstep : ∀ (s : BoundedStore) (op : StoreOp),
      (s.Accounted ∧ (empty maximum maximumPerTeam limits).SameCeilings s) → True →
        (step s op).1.Accounted ∧
          (empty maximum maximumPerTeam limits).SameCeilings (step s op).1 := by
    intro s op ⟨haccounted, hceilings⟩ _
    obtain ⟨hnext, hsame, -⟩ := apply_accounted haccounted op
    exact ⟨hnext, hceilings.trans hsame⟩
  exact Machine.run_state_invariant hstep ⟨accounted_empty _ _ _, rfl, rfl, rfl⟩
    (Machine.along_true _ ops)

/-- **Entry accounting.** After any operations, refused ones included, the counts are the numbers of
entries that the store holds, below their ceilings; and an operation that throws a capacity error
has changed no collection and no counter. -/
theorem entries_counted (ops : List StoreOp) :
    let s := (Machine.run step (empty maximum maximumPerTeam limits) ops).1
    s.capacity.used = s.store.durableEntries ∧
      (∀ teamId, teamId ≠ "" →
        s.capacity.usedByTeam.count teamId = s.store.teamEntries teamId) ∧
      s.capacity.used ≤ maximum ∧
      (∀ teamId, teamId ≠ "" → s.capacity.usedByTeam.count teamId ≤ maximumPerTeam) ∧
      ∀ op error, (s.apply op).2 = some error → s.Unchanged (s.apply op).1 := by
  obtain ⟨haccounted, hmaximum, hmaximumPerTeam, -⟩ :=
    accounted_run maximum maximumPerTeam limits ops
  obtain ⟨hused, hteams⟩ := haccounted.within
  rw [hmaximum] at hused
  rw [hmaximumPerTeam] at hteams
  exact ⟨haccounted.used, haccounted.usedByTeam, hused, hteams,
    fun op ↦ (apply_accounted haccounted op).2.2⟩

/-- **Byte accounting.** After any operations, refused ones included, every retained byte total is
the sum of the weights of the entries that the store holds, below its ceiling; and a write that any
limit rejects has changed no total and no collection. -/
theorem bytes_counted (ops : List StoreOp) :
    let s := (Machine.run step (empty maximum maximumPerTeam limits) ops).1
    (∀ a, s.byteCapacity.balance a = s.store.retainedBytes a ∧
      s.byteCapacity.balance a ≤ limits.limit a) ∧
      ∀ op error, (s.apply op).2 = some error →
        s.byteCapacity.SameTotals (s.apply op).1.byteCapacity ∧ (s.apply op).1.store = s.store := by
  obtain ⟨haccounted, -, -, hlimits⟩ := accounted_run maximum maximumPerTeam limits ops
  have hwithin := haccounted.bytesWithin
  unfold DurableByteCapacity.Within at hwithin
  rw [hlimits] at hwithin
  refine ⟨fun a ↦ ⟨haccounted.bytes a, hwithin a⟩, fun op error herror ↦ ?_⟩
  obtain ⟨hstore, -, htotals⟩ := (apply_accounted haccounted op).2.2 error herror
  exact ⟨htotals, hstore⟩

end BoundedStore

end MultAIplayer
