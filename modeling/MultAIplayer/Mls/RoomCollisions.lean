import MultAIplayer.Lib.Machine
import MultAIplayer.Mls.RoomOperations

/-!
# Where rooms of one table meet

The operations that find their rows by a pattern, and with them every operation. `Collides` is where
one of the three meets a row of another room that it changes. The records of the other room are the
same after an operation exactly when it does not collide with it (`sameRecords_perform_iff`), and so
after every run without a collision (`sameRecords_run`).
-/

namespace MultAIplayer.Mls

variable {K : Type}

/-- Every row that one of the patterns selects is a retained secret. -/
@[grind =] def SecretsDecode (db : Database K) (kinds : List String) (roomId : String) : Prop :=
  ∀ kind ∈ kinds, ∀ key value, db.kvs.get key = some value → likeRoom kind roomId key = true →
    ∃ retained, value = .retainedSecret retained

/-- **An operation changes a row of another room**, whose id differs from its own in nothing but the
case of letters. -/
def Collides (call : StorageCall) (db : Database K) (other : String) : StorageOp K → Prop
  | .setHistoryRetention roomId days =>
    SameLetters roomId other ∧ validRetention days = true ∧ call.fault 0 = false ∧
      ∃ now, call.unixSeconds = some now ∧ SecretsDecode db ["history-secret"] roomId ∧
        ∃ key retained, startsWith key (roomKeys "history-secret" other) = true ∧
          db.kvs.get key = some (.retainedSecret retained) ∧
            retained.expiresAtUnixSeconds ≠ expiry now days
  | .deleteHistoryRecords roomId =>
    SameLetters roomId other ∧ call.fault 0 = false ∧
      ∃ kind ∈ ["history-secret", "history"], ∃ key value,
        startsWith key (roomKeys kind other) = true ∧ db.kvs.get key = some value
  | .pruneExpiredMaterial roomId =>
    SameLetters roomId other ∧ call.fault 0 = false ∧ call.fault 1 = false ∧
      ∃ now, call.unixSeconds = some now ∧
        SecretsDecode db ["history-secret", "blob-key"] roomId ∧
          ∃ kind ∈ ["history-secret", "blob-key"], ∃ key retained,
            startsWith key (roomKeys kind other) = true ∧
              db.kvs.get key = some (.retainedSecret retained) ∧
                retained.expiresAtUnixSeconds ≤ now
  | _ => False

/-! ### Decoding every row -/

section MapM

variable {α β : Type} {f : α → Option β} {l : List α} {l' : List β}

theorem mapM_cons_eq_some {a : α} (h : (a :: l).mapM f = some l') :
    ∃ first rest, f a = some first ∧ l.mapM f = some rest ∧ l' = first :: rest := by
  rw [List.mapM_cons] at h
  cases hfirst : f a with
  | none => simp [hfirst] at h
  | some first =>
    cases hrest : l.mapM f with
    | none => simp [hfirst, hrest] at h
    | some rest =>
      simp only [hfirst, hrest, Option.bind_eq_bind, Option.bind_some, Option.pure_def,
        Option.some.injEq] at h
      exact ⟨first, rest, rfl, rfl, h.symm⟩

theorem mem_of_mapM_eq_some (h : l.mapM f = some l') (b : β) :
    b ∈ l' ↔ ∃ a ∈ l, f a = some b := by
  induction l generalizing l' with
  | nil =>
    obtain rfl : l' = [] := by simpa using h.symm
    simp
  | cons a l ih =>
    obtain ⟨first, rest, hfirst, hrest, rfl⟩ := mapM_cons_eq_some h
    simp [ih hrest, hfirst, eq_comm]

theorem map_of_mapM_eq_some {γ : Type} {g : β → γ} {k : α → γ}
    (hf : ∀ a b, f a = some b → g b = k a) (h : l.mapM f = some l') : l'.map g = l.map k := by
  induction l generalizing l' with
  | nil =>
    obtain rfl : l' = [] := by simpa using h.symm
    rfl
  | cons a l ih =>
    obtain ⟨first, rest, hfirst, hrest, rfl⟩ := mapM_cons_eq_some h
    simp [ih hrest, hf a first hfirst]

theorem exists_mapM_eq_some_iff : (∃ l', l.mapM f = some l') ↔ ∀ a ∈ l, ∃ b, f a = some b := by
  constructor
  · rintro ⟨l', h⟩
    induction l generalizing l' with
    | nil => simp
    | cons a l ih =>
      obtain ⟨first, rest, hfirst, hrest, -⟩ := mapM_cons_eq_some h
      exact List.forall_mem_cons.mpr ⟨⟨first, hfirst⟩, ih rest hrest⟩
  · intro hf
    induction l with
    | nil => exact ⟨[], rfl⟩
    | cons a l ih =>
      obtain ⟨b, hb⟩ := hf a (List.mem_cons_self ..)
      obtain ⟨l', hl'⟩ := ih fun a ha ↦ hf a (List.mem_cons_of_mem _ ha)
      exact ⟨b :: l', by simp [hb, hl']⟩

end MapM

theorem RowValue.asRetainedSecret_eq_some {value : RowValue} {retained : RetainedSecret} :
    value.asRetainedSecret = some retained ↔ value = .retainedSecret retained := by
  cases value <;> simp [RowValue.asRetainedSecret]

section Operations

variable {packages : Packages} {encodedLength : OutboxMetadata → ℕ} {call : StorageCall}
  {db : Database K} {a b : String}

/-! ### The operations that select by a pattern -/

theorem rowOf_of_startsWith {kind key : String} (hkind : kind ∈ roomKinds)
    (h : startsWith key (roomKeys kind b) = true) (value : RowValue) : RowOf b key value :=
  rowOf_iff.mpr (.inl (isDirect_of_startsWith hkind h))

theorem sameRecords_deleteHistoryRecords_iff (ha : validateComponent a = true)
    (hb : validateComponent b = true) :
    SameRecords b db (db.deleteHistoryRecords call a).2 ↔
      ¬Collides call db b (.deleteHistoryRecords a) := by
  have hkinds : ∀ kind ∈ ["history-secret", "history"], kind ∈ roomKinds := by decide
  have hpattern {kind key : String} {value : RowValue} (hkind : kind ∈ roomKinds)
      (hrow : RowOf b key value) :=
    likeRoom_iff_of_rowOf (colon_not_mem ha) (colon_not_mem hb) hkind hrow
  unfold Database.deleteHistoryRecords Database.change
  rw [ha]
  simp only [Bool.not_true, Bool.false_eq_true, if_false]
  constructor
  · rintro hsame ⟨hletters, hfault, kind, hkind, key, value, hstarts, hget⟩
    have hrow := rowOf_of_startsWith (hkinds kind hkind) hstarts value
    have hlike := (hpattern (hkinds kind hkind) hrow).mpr ⟨hstarts, hletters⟩
    have hafter := (hsame.rows key value hrow).mp hget
    simp only [hfault, Bool.false_eq_true, if_false, InsertionMap.get_filter, hget,
      Option.filter_eq_some_iff, Bool.not_eq_true', true_and] at hafter
    rcases List.mem_pair.mp hkind with rfl | rfl
    · rw [hlike] at hafter
      exact absurd hafter.1 (by decide)
    · rw [hlike] at hafter
      exact absurd hafter.2 (by decide)
  · intro hfree
    split
    · exact .refl b db
    rename_i hfault
    have hmissed {kind key : String} {value : RowValue}
        (hkind : kind ∈ ["history-secret", "history"]) (hget : db.kvs.get key = some value)
        (hrow : RowOf b key value) : likeRoom kind a key = false := by
      rw [Bool.eq_false_iff]
      intro hlike
      obtain ⟨hstarts, hletters⟩ := (hpattern (hkinds kind hkind) hrow).mp hlike
      exact hfree ⟨hletters, by simpa using hfault, kind, hkind, key, value, hstarts, hget⟩
    refine .of_rows (SameRows.trans (SameRows.filter fun key value hget hrow ↦ ?_)
      (SameRows.filter fun key value hget hrow ↦ ?_))
    · rw [hmissed (by decide) hget hrow]
      rfl
    · rw [InsertionMap.get_filter, Option.filter_eq_some_iff] at hget
      rw [hmissed (by decide) hget.1 hrow]
      rfl

/-- What is found to have expired. -/
theorem mem_expiredKeys {now : ℕ} {kind key : String} {keys : List String}
    (h : db.expiredKeys a now kind = some keys) :
    key ∈ keys ↔ ∃ retained, db.kvs.get key = some (.retainedSecret retained) ∧
      likeRoom kind a key = true ∧ retained.expiresAtUnixSeconds ≤ now := by
  unfold Database.expiredKeys at h
  dsimp only at h
  obtain ⟨secrets, hsecrets, rfl⟩ := Option.map_eq_some_iff.mp h
  simp only [List.mem_map, List.mem_filter, mem_of_mapM_eq_some hsecrets, Option.map_eq_some_iff,
    decide_eq_true_eq, RowValue.asRetainedSecret_eq_some]
  constructor
  · rintro ⟨secret, ⟨⟨⟨found, value⟩, ⟨hmem, hlike⟩, retained, rfl, rfl⟩, hexpired⟩, rfl⟩
    exact ⟨retained, InsertionMap.mem_entries_iff.mp hmem, hlike, hexpired⟩
  · rintro ⟨retained, hget, hlike, hexpired⟩
    exact ⟨(key, retained.expiresAtUnixSeconds), ⟨⟨(key, .retainedSecret retained),
      ⟨InsertionMap.mem_entries_iff.mpr hget, hlike⟩, retained, rfl, rfl⟩, hexpired⟩, rfl⟩

/-- The search for what has expired fails where a row is no retained secret, and nowhere else. -/
theorem exists_expiredKeys_iff (now : ℕ) (kind : String) :
    (∃ keys, db.expiredKeys a now kind = some keys) ↔ SecretsDecode db [kind] a := by
  unfold Database.expiredKeys SecretsDecode
  dsimp only
  simp only [Option.map_eq_some_iff, List.mem_singleton, forall_eq]
  rw [exists_comm]
  simp only [exists_and_left, exists_eq', and_true]
  rw [exists_mapM_eq_some_iff]
  constructor
  · intro hdecode key value hget hlike
    obtain ⟨secret, hsecret⟩ := hdecode (key, value)
      (List.mem_filter.mpr ⟨InsertionMap.mem_entries_iff.mpr hget, hlike⟩)
    obtain ⟨retained, hretained, -⟩ := Option.map_eq_some_iff.mp hsecret
    exact ⟨retained, RowValue.asRetainedSecret_eq_some.mp hretained⟩
  · rintro hdecode ⟨key, value⟩ hrow
    obtain ⟨hmem, hlike⟩ := List.mem_filter.mp hrow
    obtain ⟨retained, rfl⟩ := hdecode key value (InsertionMap.mem_entries_iff.mp hmem) hlike
    exact ⟨_, rfl⟩

theorem sameRecords_pruneExpiredMaterial_iff (ha : validateComponent a = true)
    (hb : validateComponent b = true) :
    SameRecords b db (db.pruneExpiredMaterial call a).2 ↔
      ¬Collides call db b (.pruneExpiredMaterial a) := by
  have hkinds : ∀ kind ∈ ["history-secret", "blob-key"], kind ∈ roomKinds := by decide
  have hpattern {kind key : String} {value : RowValue} (hkind : kind ∈ roomKinds)
      (hrow : RowOf b key value) :=
    likeRoom_iff_of_rowOf (colon_not_mem ha) (colon_not_mem hb) hkind hrow
  unfold Database.pruneExpiredMaterial
  rw [ha]
  simp only [Bool.not_true, Bool.false_eq_true, if_false]
  constructor
  · rintro hsame ⟨hletters, hfault, hfault', now, hnow, hdecode, kind, hkind, key, retained,
      hstarts, hget, hexpired⟩
    obtain ⟨secrets, hsecrets⟩ := (exists_expiredKeys_iff now "history-secret").mpr
      fun kind hkind ↦ hdecode kind (List.mem_cons.mpr (.inl (List.mem_singleton.mp hkind)))
    obtain ⟨blobKeys, hblobKeys⟩ := (exists_expiredKeys_iff now "blob-key").mpr
      fun kind hkind ↦ hdecode kind (List.mem_cons_of_mem _ hkind)
    have hrow := rowOf_of_startsWith (hkinds kind hkind) hstarts (.retainedSecret retained)
    have hlike := (hpattern (hkinds kind hkind) hrow).mpr ⟨hstarts, hletters⟩
    have hexpiredKey : key ∈ secrets ++ blobKeys := by
      rw [List.mem_append]
      rcases List.mem_pair.mp hkind with rfl | rfl
      · exact .inl ((mem_expiredKeys hsecrets).mpr ⟨retained, hget, hlike, hexpired⟩)
      · exact .inr ((mem_expiredKeys hblobKeys).mpr ⟨retained, hget, hlike, hexpired⟩)
    have hafter := (hsame.rows key _ hrow).mp hget
    simp only [hnow, hfault, hfault', hsecrets, hblobKeys, Bool.false_eq_true, if_false,
      InsertionMap.get_deleteAll, if_pos hexpiredKey] at hafter
    cases hafter
  · intro hfree
    split
    · exact .refl b db
    rename_i now hnow
    split
    · exact .refl b db
    rename_i hfault
    split
    · rename_i secrets blobKeys hsecrets hblobKeys
      split
      · exact .refl b db
      rename_i hfault'
      refine .of_rows (SameRows.deleteAll _ fun key hkey value hget hrow ↦ ?_)
      have hdecode : SecretsDecode db ["history-secret", "blob-key"] a := by
        intro kind hkind
        rcases List.mem_pair.mp hkind with rfl | rfl
        · exact (exists_expiredKeys_iff now _).mp ⟨secrets, hsecrets⟩ _ (List.mem_singleton_self _)
        · exact (exists_expiredKeys_iff now _).mp ⟨blobKeys, hblobKeys⟩ _
            (List.mem_singleton_self _)
      have hfound : ∃ kind ∈ ["history-secret", "blob-key"], ∃ retained,
          db.kvs.get key = some (.retainedSecret retained) ∧ likeRoom kind a key = true ∧
            retained.expiresAtUnixSeconds ≤ now := by
        rcases List.mem_append.mp hkey with hkey | hkey
        · exact ⟨_, by decide, (mem_expiredKeys hsecrets).mp hkey⟩
        · exact ⟨_, by decide, (mem_expiredKeys hblobKeys).mp hkey⟩
      obtain ⟨kind, hkind, retained, hget', hlike, hexpired⟩ := hfound
      obtain ⟨hstarts, hletters⟩ := (hpattern (hkinds kind hkind) hrow).mp hlike
      exact hfree ⟨hletters, by simpa using hfault, by simpa using hfault', now, hnow, hdecode, kind,
        hkind, key, retained, hstarts, hget', hexpired⟩
    · exact .refl b db

/-- The policy of a room is no row that a pattern for its secrets selects. -/
theorem ne_historyRetentionKey_of_like {key : String} (ha : validateComponent a = true)
    (hlike : likeRoom "history-secret" a key = true) : key ≠ historyRetentionKey a := by
  rintro rfl
  have hkind := (fold_of_likeRoom (by decide) (colon_not_mem ha) hlike).1
  rw [(directRoom_of_eq (.inl rfl) (rfl : historyRetentionKey a = "history-retention" ++ ":" ++ a)).1]
    at hkind
  exact absurd hkind (by decide)

/-- The rows of the secrets of a room, once its policy is written. -/
theorem mem_secretRows {days : ℕ} (ha : validateComponent a = true) {row : String × RowValue} :
    row ∈ ((db.kvs.set (historyRetentionKey a) (.retentionDays days)).entries.filter fun row ↦
      likeEscaped (roomKeys "history-secret" a) row.1) ↔
        db.kvs.get row.1 = some row.2 ∧ likeRoom "history-secret" a row.1 = true := by
  rw [List.mem_filter, ← likeRoom_eq_likeEscaped (by decide), InsertionMap.mem_entries_iff]
  refine and_congr_left fun hlike ↦ ?_
  rw [InsertionMap.get_set_of_ne _ _ (ne_historyRetentionKey_of_like ha hlike)]

theorem exists_rescheduled_iff (ha : validateComponent a = true) (days expiresAt : ℕ) :
    (∃ updates, Database.rescheduled (db.kvs.set (historyRetentionKey a) (.retentionDays days)) a
      expiresAt = some updates) ↔ SecretsDecode db ["history-secret"] a := by
  unfold Database.rescheduled SecretsDecode
  dsimp only
  rw [exists_mapM_eq_some_iff]
  simp only [List.mem_singleton, forall_eq]
  constructor
  · intro hdecode key value hget hlike
    obtain ⟨updated, hupdated⟩ := hdecode (key, value) ((mem_secretRows ha).mpr ⟨hget, hlike⟩)
    obtain ⟨retained, hretained, -⟩ := Option.map_eq_some_iff.mp hupdated
    exact ⟨retained, RowValue.asRetainedSecret_eq_some.mp hretained⟩
  · rintro hdecode ⟨key, value⟩ hrow
    obtain ⟨hget, hlike⟩ := (mem_secretRows ha).mp hrow
    obtain ⟨retained, rfl⟩ := hdecode key value hget hlike
    exact ⟨_, rfl⟩

/-- **The secrets that a change of retention writes**: those that the pattern selects. -/
theorem lookupEntry_rescheduled {days expiresAt : ℕ} {updates : List (String × RowValue)}
    (key : String) (value : RowValue) (ha : validateComponent a = true)
    (h : Database.rescheduled (db.kvs.set (historyRetentionKey a) (.retentionDays days)) a
      expiresAt = some updates) :
    (updates.map Prod.fst).Nodup ∧
      ((key, value) ∈ updates ↔ likeRoom "history-secret" a key = true ∧
        ∃ retained, db.kvs.get key = some (.retainedSecret retained) ∧
          value = .retainedSecret { retained with expiresAtUnixSeconds := expiresAt }) := by
  unfold Database.rescheduled at h
  dsimp only at h
  constructor
  · rw [map_of_mapM_eq_some (k := Prod.fst) ?_ h]
    · exact (InsertionMap.nodup_keys _).sublist ((List.filter_sublist).map _)
    · rintro row updated hupdated
      obtain ⟨retained, -, rfl⟩ := Option.map_eq_some_iff.mp hupdated
      rfl
  · rw [mem_of_mapM_eq_some h]
    constructor
    · rintro ⟨row, hrow, hupdated⟩
      obtain ⟨hget, hlike⟩ := (mem_secretRows ha).mp hrow
      obtain ⟨retained, hretained, heq⟩ := Option.map_eq_some_iff.mp hupdated
      obtain ⟨rfl, rfl⟩ := Prod.mk.inj heq
      rw [RowValue.asRetainedSecret_eq_some.mp hretained] at hget
      exact ⟨hlike, retained, hget, rfl⟩
    · rintro ⟨hlike, retained, hget, rfl⟩
      exact ⟨(key, .retainedSecret retained), (mem_secretRows ha).mpr ⟨hget, hlike⟩, rfl⟩

theorem sameRecords_setHistoryRetention_iff {days : ℕ} (ha : validateComponent a = true)
    (hb : validateComponent b = true) (hne : a ≠ b) :
    SameRecords b db (db.setHistoryRetention call a days).2 ↔
      ¬Collides call db b (.setHistoryRetention a days) := by
  have hpattern {key : String} {value : RowValue} (hrow : RowOf b key value) :
      likeRoom "history-secret" a key = true ↔
        startsWith key (roomKeys "history-secret" b) = true ∧ SameLetters a b :=
    likeRoom_iff_of_rowOf (colon_not_mem ha) (colon_not_mem hb) (by decide) hrow
  have hpolicy := foreign_historyRetentionKey ha hb hne
  unfold Database.setHistoryRetention
  rw [ha]
  simp only [Bool.not_true, Bool.false_or]
  constructor
  · rintro hsame ⟨hletters, hdays, hfault, now, hnow, hdecode, key, retained, hstarts, hget, hexpiry⟩
    have hrow := rowOf_of_startsWith (by decide) hstarts (.retainedSecret retained)
    have hlike := (hpattern hrow).mpr ⟨hstarts, hletters⟩
    obtain ⟨updates, hupdates⟩ := (exists_rescheduled_iff ha days (expiry now days)).mpr hdecode
    obtain ⟨hnodup, hmem⟩ := lookupEntry_rescheduled key
      (.retainedSecret { retained with expiresAtUnixSeconds := expiry now days }) ha hupdates
    have hafter := (hsame.rows key _ hrow).mp hget
    have hwritten := (InsertionMap.lookupEntry_eq_some_iff hnodup).mpr
      (hmem.mpr ⟨hlike, retained, hget, rfl⟩)
    simp only [hdays, hfault, hnow, hupdates, Bool.not_true, Bool.false_eq_true, if_false,
      InsertionMap.get_setAll _ hnodup, hwritten, Option.some_or] at hafter
    have hsecret := RowValue.retainedSecret.inj (Option.some.inj hafter)
    exact hexpiry (congrArg RetainedSecret.expiresAtUnixSeconds hsecret).symm
  · intro hfree
    split
    · exact .refl b db
    rename_i hdays
    split
    · exact .refl b db
    rename_i hfault
    split
    · exact .refl b db
    rename_i now hnow
    split
    · exact .refl b db
    rename_i updates hupdates
    have hset := SameRows.set (hpolicy.noRow db.kvs) (hpolicy.notRow (.retentionDays days))
    refine .of_rows (hset.trans fun key value hrow ↦ ?_)
    obtain ⟨hnodup, -⟩ := lookupEntry_rescheduled key value ha hupdates
    rw [InsertionMap.get_setAll _ hnodup]
    cases hlookup : InsertionMap.lookupEntry key updates with
    | none => rw [Option.none_or]
    | some written =>
      obtain ⟨-, hmem⟩ := lookupEntry_rescheduled key written ha hupdates
      obtain ⟨hlike, retained, hget, rfl⟩ :=
        hmem.mp ((InsertionMap.lookupEntry_eq_some_iff hnodup).mp hlookup)
      obtain ⟨hstarts, hletters⟩ := (hpattern hrow).mp hlike
      have hsame : retained.expiresAtUnixSeconds = expiry now days := by
        by_contra hexpiry
        exact hfree ⟨hletters, by simpa using hdays, by simpa using hfault, now, hnow,
          (exists_rescheduled_iff ha days _).mp ⟨updates, hupdates⟩, key, retained, hstarts, hget,
          hexpiry⟩
      rw [InsertionMap.get_set_of_ne _ _ (ne_historyRetentionKey_of_like ha hlike), hget,
        Option.some_or, ← hsame]

/-! ### Every operation -/

/-- **The records of another room are unchanged exactly when the operation does not collide with
it.** -/
theorem sameRecords_perform_iff {op : StorageOp K} (hpackages : packages.SelectsByPrefix)
    (ha : validateComponent a = true) (hb : validateComponent b = true) (hne : a ≠ b)
    (hop : op.AddressedTo db a b) :
    SameRecords b db (op.perform packages encodedLength call db) ↔ ¬Collides call db b op := by
  have hroom : ∀ room ∈ op.roomIds, room = a := hop.rooms
  cases hpattern : op.selectsByPattern with
  | false =>
    refine iff_of_true
      (sameRecords_of_not_selectsByPattern hpackages ha hb hne hop hpattern) fun hcollides ↦ ?_
    unfold Collides at hcollides
    split at hcollides <;> first | cases hpattern | exact hcollides
  | true =>
    cases op with
    | setHistoryRetention room days =>
      obtain rfl := hroom room (List.mem_singleton_self _)
      exact sameRecords_setHistoryRetention_iff ha hb hne
    | deleteHistoryRecords room =>
      obtain rfl := hroom room (List.mem_singleton_self _)
      exact sameRecords_deleteHistoryRecords_iff ha hb
    | pruneExpiredMaterial room =>
      obtain rfl := hroom room (List.mem_singleton_self _)
      exact sameRecords_pruneExpiredMaterial_iff ha hb
    | _ => cases hpattern

/-! ### Runs -/

/-- One operation of a run. -/
@[grind =]
def StorageOp.step (packages : Packages) (encodedLength : OutboxMetadata → ℕ) (db : Database K)
    (action : StorageOp K × StorageCall) : Database K × List Unit :=
  (action.1.perform packages encodedLength action.2 db, [])

/-- An operation on some other room that does not collide with this one. -/
def ActsElsewhere (other : String) (db : Database K) (action : StorageOp K × StorageCall) : Prop :=
  (∃ roomId, validateComponent roomId = true ∧ roomId ≠ other ∧
    action.1.AddressedTo db roomId other) ∧ ¬Collides action.2 db other action.1

/-- **A run of operations on other rooms**, as one operation of the engine makes on its room: without
a collision, the records of this room come out as they were. -/
theorem sameRecords_run (hpackages : packages.SelectsByPrefix) (hb : validateComponent b = true)
    {actions : List (StorageOp K × StorageCall)}
    (h : Machine.Along (StorageOp.step packages encodedLength) (ActsElsewhere b) db actions) :
    SameRecords b db (Machine.run (StorageOp.step packages encodedLength) db actions).1 := by
  have hstep : ∀ (s : Database K) (action : StorageOp K × StorageCall), SameRecords b db s →
      ActsElsewhere b s action →
        SameRecords b db (StorageOp.step packages encodedLength s action).1 := by
    rintro s ⟨op, call⟩ hsame ⟨⟨roomId, hroom, hne, hop⟩, hfree⟩
    exact hsame.trans ((sameRecords_perform_iff hpackages hroom hb hne hop).mpr hfree)
  exact Machine.run_state_invariant hstep (.refl b db) h

end Operations

/-! ### Two rooms of one name -/

/-- What the provider documents, and a digest. -/
def documentedPackages : Packages where
  selects text key := startsWith key text
  sha256 _ := "00"

/-- The database with a history secret and a message of one room. -/
def siblingDatabase : Database Unit where
  kvs := (InsertionMap.empty.set "history-secret:room-1:3"
    (.retainedSecret ⟨100, List.replicate 32 7⟩)).set "history:room-1:3"
      (.historyCiphertext ⟨100, [1, 2, 3]⟩)

/-- The history of `room-1` is gone after the deletion of the history of `Room-1`. -/
theorem sibling_history_deleted :
    validateComponent "Room-1" = true ∧ validateComponent "room-1" = true ∧
      "Room-1" ≠ "room-1" ∧ documentedPackages.SelectsByPrefix ∧
        (StorageOp.deleteHistoryRecords "Room-1").AddressedTo siblingDatabase "Room-1" "room-1" ∧
          ¬SameRecords "room-1" siblingDatabase
            ((StorageOp.deleteHistoryRecords "Room-1").perform documentedPackages (fun _ ↦ 0) {}
              siblingDatabase) := by
  refine ⟨by decide, by decide, by decide, fun _ _ ↦ rfl, ⟨by decide, nofun⟩, fun hsame ↦ ?_⟩
  have hgone := (hsame.rows "history-secret:room-1:3" (.retainedSecret ⟨100, List.replicate 32 7⟩)
    (by decide +kernel)).mp (by decide +kernel)
  exact absurd hgone (by decide +kernel)

theorem sameRecords_perform_iff_longerId :
    SameRecords "room-1" siblingDatabase
        ((StorageOp.setHistoryRetention "room-12" 90).perform documentedPackages (fun _ ↦ 0) {}
          siblingDatabase) ↔
      ¬Collides {} siblingDatabase "room-1" (.setHistoryRetention "room-12" 90) :=
  sameRecords_perform_iff (a := "room-12") (fun _ _ ↦ rfl) (by decide) (by decide) (by decide)
    ⟨by decide, nofun⟩

end MultAIplayer.Mls
