import MultAIplayer.Mls.KeyedStorage

/-!
# Rooms in one table

What an operation on one room does to the records of another. The text before the first colon of a
key is its kind, and a room id has no colon in it, so that a row belongs to one room at most
(`RowOf.unique`). Operations that find their rows by the exact key, by the text before it, or by the
room that a value names stay inside their room.

The three that find them by a pattern need not: a pattern compares letters in either case, and
`likeRoom_iff_of_rowOf` says which rows of another room it selects.
-/

namespace MultAIplayer.Mls

/-! ### Keys and their rooms -/

/-- What stands before the first colon. -/
def beforeColon (text : List Char) : List Char := text.takeWhile (· ≠ ':')

theorem beforeColon_append {text : List Char} (h : ':' ∉ text) (rest : List Char) :
    beforeColon (text ++ ':' :: rest) = text := by
  have hall : ∀ c ∈ text, decide (c ≠ ':') = true := by
    intro c hc
    simpa using fun heq : c = ':' ↦ h (heq ▸ hc)
  unfold beforeColon
  rw [List.takeWhile_append_of_pos hall]
  simp

/-- The kind of a key, and what comes after it. -/
def kindOf (key : String) : List Char := beforeColon key.toList

def afterKind (key : String) : List Char := key.toList.drop ((kindOf key).length + 1)

theorem kindOf_eq {key : String} {kind rest : List Char} (hkind : ':' ∉ kind)
    (h : key.toList = kind ++ ':' :: rest) : kindOf key = kind ∧ afterKind key = rest := by
  have hkindOf : kindOf key = kind := by
    unfold kindOf
    rw [h, beforeColon_append hkind]
  refine ⟨hkindOf, ?_⟩
  unfold afterKind
  rw [hkindOf, h]
  simp [List.drop_append]

theorem colon_not_mem {roomId : String} (h : validateComponent roomId = true) :
    ':' ∉ roomId.toList := by
  intro hmem
  simp only [validateComponent, asciiIdChars, Bool.and_eq_true, List.all_eq_true] at h
  exact absurd (h.2 ':' hmem) (by decide)

/-- The rows of a room under a kind, by their keys. -/
theorem startsWith_roomKeys {key kind roomId : String} (hkind : ':' ∉ kind.toList)
    (hroom : ':' ∉ roomId.toList) (h : startsWith key (roomKeys kind roomId) = true) :
    kindOf key = kind.toList ∧ beforeColon (afterKind key) = roomId.toList := by
  obtain ⟨rest, hrest⟩ := startsWith_iff.mp h
  have hkey : key.toList = kind.toList ++ ':' :: (roomId.toList ++ ':' :: rest) := by
    rw [← hrest]
    simp [roomKeys]
  obtain ⟨hkindOf, hafter⟩ := kindOf_eq hkind hkey
  exact ⟨hkindOf, by rw [hafter, beforeColon_append hroom]⟩

/-- The kinds whose keys hold the room and more. -/
def roomKinds : List String := ["history-secret", "blob-key", "history"]

/-- The room of a key that holds one. -/
@[grind =] def directRoom (key : String) : Option (List Char) :=
  if kindOf key ∈ roomKinds.map String.toList then some (beforeColon (afterKind key))
  else if kindOf key ∈ ["history-retention".toList, "room-config".toList] then some (afterKind key)
  else none

theorem directRoom_of_roomKeys {key kind roomId : String} (hkind : kind ∈ roomKinds)
    (hroom : ':' ∉ roomId.toList) (h : startsWith key (roomKeys kind roomId) = true) :
    directRoom key = some roomId.toList := by
  have hcolon : ∀ k ∈ roomKinds, ':' ∉ k.toList := by decide
  obtain ⟨hkindOf, hafter⟩ := startsWith_roomKeys (hcolon kind hkind) hroom h
  unfold directRoom
  rw [hkindOf, if_pos (List.mem_map.mpr ⟨kind, hkind, rfl⟩), hafter]

theorem directRoom_of_eq {key kind roomId : String}
    (hkind : kind = "history-retention" ∨ kind = "room-config") (h : key = kind ++ ":" ++ roomId) :
    kindOf key = kind.toList ∧ directRoom key = some roomId.toList := by
  have hkey : key.toList = kind.toList ++ ':' :: roomId.toList := by simp [h]
  have hcolon : ':' ∉ kind.toList := by
    rcases hkind with rfl | rfl <;> decide
  obtain ⟨hkindOf, hafter⟩ := kindOf_eq hcolon hkey
  refine ⟨hkindOf, ?_⟩
  unfold directRoom
  rw [hkindOf, hafter]
  rcases hkind with rfl | rfl
  · rw [if_neg (by decide), if_pos (by decide)]
  · rw [if_neg (by decide), if_pos (by decide)]

/-- A key that tells its room does so in one way. -/
theorem isDirect_cases {roomId key : String} (h : isDirect .exact roomId key = true) :
    (∃ kind ∈ roomKinds, startsWith key (roomKeys kind roomId) = true) ∨
      ∃ kind, (kind = "history-retention" ∨ kind = "room-config") ∧
        key = kind ++ ":" ++ roomId := by
  simp only [isDirect, Bool.or_eq_true, Bool.and_eq_true, decide_eq_true_eq] at h
  rcases h with ((h | h) | h) | ⟨-, h | h⟩
  · exact .inr ⟨_, .inl rfl, h⟩
  · exact .inl ⟨_, by decide, h⟩
  · exact .inl ⟨_, by decide, h⟩
  · exact .inl ⟨_, by decide, h⟩
  · exact .inr ⟨_, .inr rfl, h⟩

theorem isDirect_of_startsWith {kind roomId key : String} (hkind : kind ∈ roomKinds)
    (h : startsWith key (roomKeys kind roomId) = true) : isDirect .exact roomId key = true := by
  have hkinds : kind = "history-secret" ∨ kind = "blob-key" ∨ kind = "history" := by
    simpa [roomKinds] using hkind
  rcases hkinds with rfl | rfl | rfl <;> simp [isDirect, h]

theorem directRoom_of_isDirect {roomId key : String} (hroom : ':' ∉ roomId.toList)
    (h : isDirect .exact roomId key = true) : directRoom key = some roomId.toList := by
  rcases isDirect_cases h with ⟨kind, hkind, h⟩ | ⟨kind, hkind, h⟩
  · exact directRoom_of_roomKeys hkind hroom h
  · exact (directRoom_of_eq hkind h).2

/-- The kinds whose values name the room. -/
def relatedKinds : List String :=
  ["outbox", "join-receipt", "invite-receipt", "invite-denial-receipt", "pending-invite"]

theorem kindOf_of_startsWith {key kind : String} (hkind : ':' ∉ kind.toList)
    (h : startsWith key (kind ++ ":") = true) : kindOf key = kind.toList := by
  obtain ⟨rest, hrest⟩ := startsWith_iff.mp h
  have hkey : key.toList = kind.toList ++ ':' :: rest := by
    rw [← hrest]
    simp
  exact (kindOf_eq hkind hkey).1

theorem relatedKind_of_relatedRoom {key room : String} {value : RowValue}
    (h : relatedRoom .exact key value = .ok (some room)) :
    ∃ kind ∈ relatedKinds, kindOf key = kind.toList := by
  have hcolon : ∀ k ∈ relatedKinds, ':' ∉ k.toList := by decide
  have found : ∀ kind ∈ relatedKinds, startsWith key (kind ++ ":") = true →
      ∃ kind ∈ relatedKinds, kindOf key = kind.toList :=
    fun kind hkind hstarts ↦ ⟨kind, hkind, kindOf_of_startsWith (hcolon kind hkind) hstarts⟩
  unfold relatedRoom at h
  dsimp only at h
  split at h
  · exact found "outbox" (by decide) ‹_›
  split at h
  · exact found "join-receipt" (by decide) ‹_›
  split at h
  · exact found "invite-receipt" (by decide) ‹_›
  split at h
  · exact found "invite-denial-receipt" (by decide) ‹_›
  split at h
  · rename_i hpending
    exact found "pending-invite" (by decide) (by simpa using hpending)
  · cases h

theorem directRoom_of_relatedRoom {key room : String} {value : RowValue}
    (h : relatedRoom .exact key value = .ok (some room)) : directRoom key = none := by
  obtain ⟨kind, hkind, hkindOf⟩ := relatedKind_of_relatedRoom h
  unfold directRoom
  rw [hkindOf]
  have hnone : ∀ kind ∈ relatedKinds, kind.toList ∉ roomKinds.map String.toList ∧
      kind.toList ∉ ["history-retention".toList, "room-config".toList] := by decide
  rw [if_neg (hnone kind hkind).1, if_neg (hnone kind hkind).2]

theorem rowOf_iff {roomId key : String} {value : RowValue} :
    RowOf roomId key value ↔
      isDirect .exact roomId key = true ∨ relatedRoom .exact key value = .ok (some roomId) := by
  unfold RowOf isRowOf
  rw [Bool.or_eq_true]
  refine or_congr Iff.rfl ?_
  split
  · rename_i room hroom
    simp [hroom]
  · rename_i hother
    simp only [Bool.false_eq_true, false_iff]
    exact hother roomId

/-- **A row belongs to one room at most.** -/
theorem RowOf.unique {a b key : String} {value : RowValue} (ha : validateComponent a = true)
    (hb : validateComponent b = true) (hrowA : RowOf a key value) (hrowB : RowOf b key value) :
    a = b := by
  rcases rowOf_iff.mp hrowA with hrowA | hrowA <;> rcases rowOf_iff.mp hrowB with hrowB | hrowB
  · have hsame := (directRoom_of_isDirect (colon_not_mem ha) hrowA).symm.trans
      (directRoom_of_isDirect (colon_not_mem hb) hrowB)
    exact String.toList_inj.mp (Option.some.inj hsame)
  · have hdirect := directRoom_of_isDirect (colon_not_mem ha) hrowA
    rw [directRoom_of_relatedRoom hrowB] at hdirect
    cases hdirect
  · have hdirect := directRoom_of_isDirect (colon_not_mem hb) hrowB
    rw [directRoom_of_relatedRoom hrowA] at hdirect
    cases hdirect
  · rw [hrowA] at hrowB
    cases hrowB
    rfl

/-! ### What leaves the rows of a room as they are -/

/-- The rows of a room are the same in two tables. -/
def SameRows (roomId : String) (m n : InsertionMap String RowValue) : Prop :=
  ∀ key value, RowOf roomId key value → (m.get key = some value ↔ n.get key = some value)

/-- There is no row of a room under a key. -/
def NoRow (roomId : String) (m : InsertionMap String RowValue) (key : String) : Prop :=
  ∀ value, m.get key = some value → ¬RowOf roomId key value

namespace SameRows

variable {roomId key : String} {value : RowValue} {m n o : InsertionMap String RowValue}

theorem refl (roomId : String) (m : InsertionMap String RowValue) : SameRows roomId m m :=
  fun _ _ _ ↦ Iff.rfl

theorem trans (h : SameRows roomId m n) (h' : SameRows roomId n o) : SameRows roomId m o :=
  fun key value hrow ↦ (h key value hrow).trans (h' key value hrow)

theorem noRow (h : SameRows roomId m n) (hkey : NoRow roomId m key) : NoRow roomId n key :=
  fun value hvalue hrow ↦ hkey value ((h key value hrow).mpr hvalue) hrow

/-- Tables that differ only under keys without a row of the room. -/
theorem of_get (h : ∀ key, n.get key = m.get key ∨ NoRow roomId m key ∧ NoRow roomId n key) :
    SameRows roomId m n := by
  intro key value hrow
  rcases h key with hsame | ⟨hm, hn⟩
  · rw [hsame]
  · exact ⟨fun h ↦ (hm value h hrow).elim, fun h ↦ (hn value h hrow).elim⟩

theorem set (hkey : NoRow roomId m key) (hvalue : ¬RowOf roomId key value) :
    SameRows roomId m (m.set key value) := by
  refine of_get fun other ↦ ?_
  by_cases hother : other = key
  · subst hother
    refine .inr ⟨hkey, fun written hwritten ↦ ?_⟩
    rw [InsertionMap.get_set_self] at hwritten
    exact Option.some.inj hwritten ▸ hvalue
  · exact .inl (InsertionMap.get_set_of_ne m value hother)

theorem delete (hkey : NoRow roomId m key) : SameRows roomId m (m.delete key) := by
  refine of_get fun other ↦ ?_
  by_cases hother : other = key
  · subst hother
    exact .inr ⟨hkey, fun value hvalue ↦ by simp at hvalue⟩
  · exact .inl (InsertionMap.get_delete_of_ne m hother)

/-- Rows of other rooms are left out. -/
theorem filter {p : String → RowValue → Bool}
    (hp : ∀ key value, m.get key = some value → RowOf roomId key value → p key value = true) :
    SameRows roomId m (m.filter p) := by
  intro key value hrow
  rw [InsertionMap.get_filter, Option.filter_eq_some_iff]
  exact ⟨fun h ↦ ⟨h, hp key value h hrow⟩, fun h ↦ h.1⟩

theorem deleteAll (keys : List String) (hkeys : ∀ key ∈ keys, NoRow roomId m key) :
    SameRows roomId m (m.deleteAll keys) := by
  refine of_get fun other ↦ ?_
  rw [InsertionMap.get_deleteAll]
  by_cases hother : other ∈ keys
  · refine .inr ⟨hkeys other hother, fun value hvalue ↦ ?_⟩
    rw [InsertionMap.get_deleteAll, if_pos hother] at hvalue
    cases hvalue
  · exact .inl (if_neg hother)

theorem setAll {rows : List (String × RowValue)}
    (hrows : ∀ row ∈ rows, NoRow roomId m row.1 ∧ ¬RowOf roomId row.1 row.2) :
    SameRows roomId m (m.setAll rows) := by
  induction rows generalizing m with
  | nil => exact refl roomId m
  | cons row rows ih =>
    have hfirst : SameRows roomId m (m.set row.1 row.2) :=
      set (hrows row (List.mem_cons_self ..)).1 (hrows row (List.mem_cons_self ..)).2
    refine hfirst.trans (ih fun other hother ↦ ?_)
    have hold := hrows other (List.mem_cons_of_mem _ hother)
    exact ⟨hfirst.noRow hold.1, hold.2⟩

/-- A record that is there already is kept. -/
theorem insertMissing (rows : List (String × RowValue))
    (hrows : ∀ row ∈ rows, ¬RowOf roomId row.1 row.2) :
    SameRows roomId m (Storage.insertMissing m rows) := by
  induction rows generalizing m with
  | nil => exact refl roomId m
  | cons row rows ih =>
    have hrest := fun other hother ↦ hrows other (List.mem_cons_of_mem _ hother)
    obtain ⟨key, value⟩ := row
    unfold Storage.insertMissing
    by_cases hhas : m.has key = true
    · rw [if_pos hhas]
      exact ih hrest
    · rw [if_neg hhas]
      refine trans (set ?_ (hrows _ (List.mem_cons_self ..))) (ih hrest)
      intro found hfound
      exact absurd (InsertionMap.has_iff.mpr ⟨found, hfound⟩) hhas

end SameRows

/-- The epochs of a group, under its id. -/
def SameEpochs (groupId : String) (m n : InsertionMap (String × ℕ) Bytes) : Prop :=
  ∀ epoch, n.get (groupId, epoch) = m.get (groupId, epoch)

theorem sameEpochs_of_insertEpochs {groupId other : String} (hne : other ≠ groupId)
    {epochs : List EpochRecord} {m n : InsertionMap (String × ℕ) Bytes}
    (h : Storage.insertEpochs groupId m epochs = .ok n) : SameEpochs other m n := by
  induction epochs generalizing m with
  | nil =>
    cases h
    exact fun _ ↦ rfl
  | cons epoch epochs ih =>
    unfold Storage.insertEpochs at h
    split at h
    · cases h
    · intro n
      rw [ih h n, InsertionMap.get_set_of_ne _ _ (by simp [hne])]

theorem sameEpochs_of_updateEpochs {groupId other : String} (hne : other ≠ groupId)
    {epochs : List EpochRecord} {m n : InsertionMap (String × ℕ) Bytes}
    (h : Storage.updateEpochs groupId m epochs = .ok n) : SameEpochs other m n := by
  induction epochs generalizing m with
  | nil =>
    cases h
    exact fun _ ↦ rfl
  | cons epoch epochs ih =>
    unfold Storage.updateEpochs at h
    split at h
    · cases h
    · intro n
      rw [ih h n]
      split
      · rw [InsertionMap.get_set_of_ne _ _ (by simp [hne])]
      · rfl

theorem sameEpochs_pruneEpochs {groupId other : String} (hne : other ≠ groupId)
    (inserts : List EpochRecord) (m : InsertionMap (String × ℕ) Bytes) :
    SameEpochs other m (Storage.pruneEpochs groupId inserts m) := by
  intro n
  unfold Storage.pruneEpochs
  split
  · rfl
  split
  · rw [InsertionMap.get_filter]
    cases m.get (other, n) <;> simp [hne]
  · rfl

/-! ### What a pattern selects -/

/-- Two ids with the same letters, in either case. -/
def SameLetters (a b : String) : Prop := Like.fold a.toList = Like.fold b.toList

instance (a b : String) : Decidable (SameLetters a b) :=
  inferInstanceAs (Decidable (Like.fold a.toList = Like.fold b.toList))

/-- Folding the case of letters moves no colon. -/
theorem beforeColon_fold (text : List Char) :
    beforeColon (Like.fold text) = Like.fold (beforeColon text) := by
  have hcolon : ∀ c : Char, decide (c.toLower ≠ ':') = decide (c ≠ ':') := by
    intro c
    refine decide_eq_decide.mpr (not_congr ⟨Like.eq_of_toLower_eq (.inl (by decide)), ?_⟩)
    rintro rfl
    rfl
  unfold beforeColon Like.fold
  rw [List.takeWhile_map]
  exact congrArg (List.map Char.toLower ·)
    (congrArg (fun p ↦ text.takeWhile p) (funext hcolon))

theorem escapeLike_of_mem {kind : String} (h : kind ∈ roomKinds) :
    Like.escapeLike kind.toList = kind.toList := by
  have hall : ∀ kind ∈ roomKinds, Like.escapeLike kind.toList = kind.toList := by decide
  exact hall kind h

/-- The two ways to write a pattern are the same pattern. -/
theorem likeRoom_eq_likeEscaped {kind : String} (h : kind ∈ roomKinds) (roomId key : String) :
    likeRoom kind roomId key = likeEscaped (roomKeys kind roomId) key := by
  have hpattern : Like.escapeLike (roomKeys kind roomId).toList ++ ['%'] =
      kind.toList ++ ':' :: (Like.escapeLike roomId.toList ++ [':', '%']) := by
    have hcolon : Like.escapeLike ":".toList = [':'] := by decide
    simp only [roomKeys, String.toList_append, Like.escapeLike_append, escapeLike_of_mem h, hcolon]
    simp
  unfold likeRoom likeEscaped
  rw [hpattern]

theorem likeRoom_iff {kind : String} (h : kind ∈ roomKinds) {roomId key : String} :
    likeRoom kind roomId key = true ↔
      Like.fold (roomKeys kind roomId).toList <+: Like.fold key.toList := by
  rw [likeRoom_eq_likeEscaped h]
  exact Like.like_escapeLike_append _ _

/-- What a pattern selects is of its kind and room, up to the case of letters. -/
theorem fold_of_likeRoom {kind roomId key : String} (hkind : kind ∈ roomKinds)
    (hroom : ':' ∉ roomId.toList) (h : likeRoom kind roomId key = true) :
    Like.fold (kindOf key) = Like.fold kind.toList ∧
      Like.fold (beforeColon (afterKind key)) = Like.fold roomId.toList := by
  have hcolon : ∀ k ∈ roomKinds, ':' ∉ Like.fold k.toList := by decide
  obtain ⟨rest, hrest⟩ := (likeRoom_iff hkind).mp h
  have hkey : Like.fold key.toList =
      Like.fold kind.toList ++ ':' :: (Like.fold roomId.toList ++ ':' :: rest) := by
    have hlower : ':'.toLower = ':' := rfl
    rw [← hrest]
    simp [roomKeys, hlower]
  have hkindOf : Like.fold (kindOf key) = Like.fold kind.toList := by
    unfold kindOf
    rw [← beforeColon_fold, hkey, beforeColon_append (hcolon kind hkind)]
  refine ⟨hkindOf, ?_⟩
  have hlength : (kindOf key).length = (Like.fold kind.toList).length := by
    rw [← hkindOf]
    simp [Like.fold]
  have hafter : Like.fold (afterKind key) = Like.fold roomId.toList ++ ':' :: rest := by
    unfold afterKind
    rw [hlength]
    unfold Like.fold at hkey ⊢
    rw [List.map_drop, hkey]
    simp [List.drop_append]
  rw [← beforeColon_fold, hafter, beforeColon_append]
  intro hmem
  obtain ⟨c, hc, hlower⟩ := List.mem_map.mp hmem
  exact hroom (Like.eq_of_toLower_eq (.inl (by decide)) hlower ▸ hc)

/-- **Where a pattern meets the rows of another room**: at the rows of its kind, when the ids differ
in nothing but the case of letters. -/
theorem likeRoom_iff_of_rowOf {a b kind key : String} {value : RowValue}
    (ha : ':' ∉ a.toList) (hb : ':' ∉ b.toList) (hkind : kind ∈ roomKinds)
    (hrow : RowOf b key value) :
    likeRoom kind a key = true ↔ startsWith key (roomKeys kind b) = true ∧ SameLetters a b := by
  have hcolon : ∀ k ∈ roomKinds, ':' ∉ k.toList := by decide
  constructor
  · intro h
    obtain ⟨hkindOf, hroom⟩ := fold_of_likeRoom hkind ha h
    rcases rowOf_iff.mp hrow with hdirect | hrelated
    · rcases isDirect_cases hdirect with ⟨other, hother, hstarts⟩ | ⟨other, hother, hkey⟩
      · obtain ⟨hkindOf', hroom'⟩ := startsWith_roomKeys (hcolon other hother) hb hstarts
        rw [hkindOf'] at hkindOf
        have hsame : ∀ k ∈ roomKinds, ∀ k' ∈ roomKinds,
            Like.fold k.toList = Like.fold k'.toList → k = k' := by decide
        obtain rfl := hsame other hother kind hkind hkindOf
        rw [hroom'] at hroom
        exact ⟨hstarts, hroom.symm⟩
      · have hnot : ∀ k ∈ roomKinds, ∀ k', k' = "history-retention" ∨ k' = "room-config" →
            Like.fold k'.toList ≠ Like.fold k.toList := by
          rintro k hk k' (rfl | rfl)
          · exact (by decide : ∀ k ∈ roomKinds,
              Like.fold "history-retention".toList ≠ Like.fold k.toList) k hk
          · exact (by decide : ∀ k ∈ roomKinds,
              Like.fold "room-config".toList ≠ Like.fold k.toList) k hk
        rw [(directRoom_of_eq hother hkey).1] at hkindOf
        exact absurd hkindOf (hnot kind hkind other hother)
    · obtain ⟨other, hother, hkindOf'⟩ := relatedKind_of_relatedRoom hrelated
      have hnot : ∀ k ∈ roomKinds, ∀ k' ∈ relatedKinds,
          Like.fold k'.toList ≠ Like.fold k.toList := by decide
      rw [hkindOf'] at hkindOf
      exact absurd hkindOf (hnot kind hkind other hother)
  · rintro ⟨hstarts, hletters⟩
    have hfold : Like.fold (roomKeys kind a).toList = Like.fold (roomKeys kind b).toList := by
      unfold roomKeys
      simp only [String.toList_append, Like.fold_append]
      rw [hletters]
    obtain ⟨rest, hrest⟩ := startsWith_iff.mp hstarts
    rw [likeRoom_iff hkind, hfold, ← hrest, Like.fold_append]
    exact List.prefix_append _ _

end MultAIplayer.Mls
