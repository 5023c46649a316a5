import MultAIplayer.Relay.Persistence

/-!
# Transactions

What a handler does to the store between two awaits, as data: the mutations that it stages, the
save, and the mutations that it makes when the save throws. A handler computes both lists from the
records that it has read, and `Coordinator.perform` carries them out in one step, because a save
returns or throws at once.

## What a failed save leaves behind

A handler without a rollback leaves what it staged (`rollback` is empty). A handler with one puts
every key back (`Transaction.Undoes`), which follows from two facts about its lists: each rollback
mutation restores what its key held, and each key that was changed is restored.
-/

namespace MultAIplayer

/-- One mutation of the store. -/
inductive StoreEdit
  | set (e : Entity) (k : String) (v : e.Value)
  | delete (e : Entity) (k : String)
  | deleteWhere (e : Entity) (p : String → e.Value → Bool)

namespace StoreEdit

/-- The collection that an edit touches. -/
def entity : StoreEdit → Entity
  | .set e _ _ | .delete e _ | .deleteWhere e _ => e

/-- An edit that names its key. -/
def Mentions (e : Entity) (k : String) : StoreEdit → Prop
  | .set f j _ | .delete f j => f = e ∧ j = k
  | .deleteWhere _ _ => False

end StoreEdit

/-- `edit` on the records alone. -/
@[grind =] def Records.edit (r : Records) : StoreEdit → Records
  | .set e k v => r.withCollection e ((r.collection e).set k v)
  | .delete e k => r.withCollection e ((r.collection e).delete k)
  | .deleteWhere e p => r.withCollection e ((r.collection e).filter fun k v ↦ !p k v)

def Records.editAll (r : Records) (l : List StoreEdit) : Records := l.foldl Records.edit r

/-- Carry out an edit, with its reports. -/
@[grind =] def RelayStore.edit (s : RelayStore) : StoreEdit → RelayStore
  | .set e k v => s.set e k v
  | .delete e k => s.delete e k
  | .deleteWhere e p => s.deleteWhere e p

def RelayStore.editAll (s : RelayStore) (l : List StoreEdit) : RelayStore := l.foldl edit s

/-- What a handler stages, and what it puts back when the save throws. -/
structure Transaction where
  stage : List StoreEdit
  rollback : List StoreEdit := []

/-- Stage, save, and put back what could not be saved. -/
def Coordinator.perform (c : RelayConfig) (now : Instant) (fault : WriteFault) (t : Transaction)
    (b : Coordinator) : Coordinator × Option SaveError :=
  match { b with store := b.store.editAll t.stage }.savePendingChanges c now fault with
  | (saved, none) => (saved, none)
  | (saved, some error) => ({ saved with store := saved.store.editAll t.rollback }, some error)

/-! ### Edits of the records -/

namespace Records

variable {r : Records}

@[simp] theorem editAll_nil : r.editAll [] = r := rfl

@[simp] theorem editAll_cons (d : StoreEdit) (l : List StoreEdit) :
    r.editAll (d :: l) = (r.edit d).editAll l := rfl

theorem editAll_append (l l' : List StoreEdit) :
    r.editAll (l ++ l') = (r.editAll l).editAll l' :=
  List.foldl_append

theorem collection_edit_of_ne {d : StoreEdit} {e : Entity} (h : d.entity ≠ e) :
    (r.edit d).collection e = r.collection e := by
  cases d <;> exact collection_withCollection_of_ne _ _ h.symm

/-- Collections that no edit touches are as they were. -/
theorem collection_editAll_of_ne {l : List StoreEdit} {e : Entity} (h : ∀ d ∈ l, d.entity ≠ e) :
    (r.editAll l).collection e = r.collection e := by
  induction l generalizing r with
  | nil => rfl
  | cons d l ih =>
    rw [editAll_cons, ih fun d hd ↦ h d (List.mem_cons_of_mem _ hd),
      collection_edit_of_ne (h d List.mem_cons_self)]

/-- Deleting keys one by one. -/
theorem collection_editAll_deletes {e : Entity} (keys : List String) :
    (r.editAll (keys.map (.delete e))).collection e = (r.collection e).deleteAll keys := by
  induction keys generalizing r with
  | nil => exact (InsertionMap.deleteAll_nil _).symm
  | cons k keys ih =>
    rw [List.map_cons, editAll_cons, ih, edit, collection_withCollection_self,
      InsertionMap.deleteAll_delete]

/-- Setting keys one by one. -/
theorem collection_editAll_sets {e : Entity} (l : List (String × e.Value)) :
    (r.editAll (l.map fun p ↦ .set e p.1 p.2)).collection e = (r.collection e).setAll l := by
  induction l generalizing r with
  | nil => rfl
  | cons p l ih =>
    rw [List.map_cons, editAll_cons, ih, edit, collection_withCollection_self]
    rfl

end Records

namespace RelayStore

variable (s : RelayStore)

@[simp] theorem toRecords_edit (d : StoreEdit) : (s.edit d).toRecords = s.toRecords.edit d := by
  cases d <;> rfl

@[simp] theorem toRecords_editAll (l : List StoreEdit) :
    (s.editAll l).toRecords = s.toRecords.editAll l := by
  induction l generalizing s with
  | nil => rfl
  | cons d l ih =>
    rw [Records.editAll_cons, ← toRecords_edit, ← ih]
    rfl

theorem tracks_edit (d : StoreEdit) : Tracks s (s.edit d) := by
  cases d with
  | set e k v => exact tracks_set s e k v
  | delete e k => exact tracks_delete s e k
  | deleteWhere e p => exact tracks_deleteWhere s e p

/-- Edits are reported. -/
theorem tracks_editAll (l : List StoreEdit) : Tracks s (s.editAll l) := by
  induction l generalizing s with
  | nil => exact Tracks.refl s
  | cons d l ih => exact (tracks_edit s d).trans (ih (s.edit d))

end RelayStore

/-! ### Putting back -/

namespace StoreEdit

/-- An edit that puts back what its keys held. -/
def Restores (before : Records) : StoreEdit → Prop
  | .set e k v => (before.collection e).get k = some v
  | .delete e k => (before.collection e).get k = none
  | .deleteWhere e p => ∀ k v, (before.collection e).get k = some v → p k v = false

/-- An edit that leaves a key alone, as long as the key holds what it held. -/
def Leaves (before : Records) (e : Entity) (k : String) : StoreEdit → Prop
  | .set f j _ | .delete f j => ¬(f = e ∧ j = k)
  | .deleteWhere f p => ∀ h : f = e, ∀ v, (before.collection e).get k = some v → p k (h ▸ v) = false

variable {before r : Records} {e : Entity} {k : String}

theorem Leaves.get_edit {d : StoreEdit} (h : d.Leaves before e k)
    (hr : (r.collection e).get k = (before.collection e).get k) :
    ((r.edit d).collection e).get k = (before.collection e).get k := by
  by_cases hentity : d.entity = e
  · subst hentity
    cases d with
    | set f j v =>
      have hk : k ≠ j := fun hk ↦ h ⟨rfl, hk.symm⟩
      change ((r.withCollection f _).collection f).get k = (before.collection f).get k
      rw [Records.collection_withCollection_self, InsertionMap.get_set_of_ne _ _ hk]
      exact hr
    | delete f j =>
      have hk : k ≠ j := fun hk ↦ h ⟨rfl, hk.symm⟩
      change ((r.withCollection f _).collection f).get k = (before.collection f).get k
      rw [Records.collection_withCollection_self, InsertionMap.get_delete_of_ne _ hk]
      exact hr
    | deleteWhere f p =>
      change ((r.withCollection f _).collection f).get k = (before.collection f).get k
      rw [Records.collection_withCollection_self, InsertionMap.get_filter,
        show (r.collection f).get k = (before.collection f).get k from hr]
      cases hget : (before.collection f).get k with
      | none => rfl
      | some v =>
        have hp : p k v = false := h rfl v hget
        rw [Option.filter_some_pos (by rw [hp]; rfl)]
  · rw [Records.collection_edit_of_ne hentity, hr]

theorem Leaves.get_editAll {l : List StoreEdit} (h : ∀ d ∈ l, d.Leaves before e k)
    (hr : (r.collection e).get k = (before.collection e).get k) :
    ((r.editAll l).collection e).get k = (before.collection e).get k := by
  induction l generalizing r with
  | nil => exact hr
  | cons d l ih =>
    exact ih (fun d hd ↦ h d (List.mem_cons_of_mem _ hd)) ((h d List.mem_cons_self).get_edit hr)

/-- An edit that restores never takes a key away from what it held. -/
theorem Restores.get_edit {d : StoreEdit} (h : d.Restores before)
    (hr : (r.collection e).get k = (before.collection e).get k ∨ d.Mentions e k) :
    ((r.edit d).collection e).get k = (before.collection e).get k := by
  by_cases hentity : d.entity = e
  · subst hentity
    cases d with
    | set f j v =>
      change ((r.withCollection f _).collection f).get k = (before.collection f).get k
      rw [Records.collection_withCollection_self, InsertionMap.get_set]
      split_ifs with hk
      · rw [hk]
        exact Eq.symm h
      · exact hr.resolve_right fun hm ↦ hk hm.2.symm
    | delete f j =>
      change ((r.withCollection f _).collection f).get k = (before.collection f).get k
      rw [Records.collection_withCollection_self, InsertionMap.get_delete]
      split_ifs with hk
      · rw [hk]
        exact Eq.symm h
      · exact hr.resolve_right fun hm ↦ hk hm.2.symm
    | deleteWhere f p =>
      have hleaves : (StoreEdit.deleteWhere f p).Leaves before f k := fun _ v hv ↦ h k v hv
      exact hleaves.get_edit (hr.resolve_right id)
  · rw [Records.collection_edit_of_ne hentity]
    refine hr.resolve_right fun hm ↦ hentity ?_
    cases d with
    | set f j v => exact hm.1
    | delete f j => exact hm.1
    | deleteWhere f p => exact hm.elim

theorem Restores.get_editAll {l : List StoreEdit} (h : ∀ d ∈ l, d.Restores before)
    (hr : (r.collection e).get k = (before.collection e).get k ∨ ∃ d ∈ l, d.Mentions e k) :
    ((r.editAll l).collection e).get k = (before.collection e).get k := by
  induction l generalizing r with
  | nil => exact hr.resolve_right fun ⟨_, hd, _⟩ ↦ List.not_mem_nil hd
  | cons d l ih =>
    refine ih (fun d hd ↦ h d (List.mem_cons_of_mem _ hd)) ?_
    rcases hr with hr | ⟨d', hd', hm⟩
    · exact .inl ((h d List.mem_cons_self).get_edit (.inl hr))
    · rcases List.mem_cons.mp hd' with rfl | hd'
      · exact .inl ((h d' List.mem_cons_self).get_edit (.inr hm))
      · exact .inr ⟨d', hd', hm⟩

end StoreEdit

namespace Transaction

/-- The rollback puts back whatever was staged. -/
def Undoes (t : Transaction) (r : Records) : Prop :=
  ((r.editAll t.stage).editAll t.rollback).Agrees r

/-- **A rollback undoes** when each of its edits restores a key and every key that was staged is
among them. -/
theorem undoes_of_restores {t : Transaction} {r : Records}
    (hrestores : ∀ d ∈ t.rollback, d.Restores r)
    (hcovers : ∀ e k, (∀ d ∈ t.stage, d.Leaves r e k) ∨ ∃ d ∈ t.rollback, d.Mentions e k) :
    t.Undoes r := by
  intro e k
  refine StoreEdit.Restores.get_editAll hrestores ?_
  exact (hcovers e k).imp_left fun hleaves ↦ StoreEdit.Leaves.get_editAll hleaves rfl

end Transaction

/-! ### Performing -/

namespace Coordinator

variable {c : RelayConfig} {now : Instant} {fault : WriteFault} {t : Transaction}
  {b : Coordinator}

/-- What `perform` does: the staged records are saved, or the save throws and the rollback runs. -/
theorem toRecords_perform :
    ((b.perform c now fault t).2 = none ∧
      (b.perform c now fault t).1.store.toRecords = b.store.toRecords.editAll t.stage) ∨
    (∃ error, (b.perform c now fault t).2 = some error ∧
      (b.perform c now fault t).1.store.toRecords =
        (b.store.toRecords.editAll t.stage).editAll t.rollback) := by
  have hrecords := toRecords_savePendingChanges c now fault
    { b with store := b.store.editAll t.stage }
  rw [RelayStore.toRecords_editAll] at hrecords
  unfold perform
  cases hsave : savePendingChanges c now fault { b with store := b.store.editAll t.stage } with
  | mk saved result =>
    rw [hsave] at hrecords
    cases result with
    | none => exact .inl ⟨rfl, hrecords⟩
    | some error =>
      refine .inr ⟨error, rfl, ?_⟩
      change (saved.store.editAll t.rollback).toRecords = _
      rw [RelayStore.toRecords_editAll, hrecords]

/-- A transaction that undoes leaves the staged records or the records from before. -/
theorem toRecords_perform_of_undoes (h : t.Undoes b.store.toRecords) :
    ((b.perform c now fault t).2 = none ∧
      (b.perform c now fault t).1.store.toRecords = b.store.toRecords.editAll t.stage) ∨
    (∃ error, (b.perform c now fault t).2 = some error ∧
      (b.perform c now fault t).1.store.toRecords.Agrees b.store.toRecords) := by
  refine toRecords_perform.imp_right fun ⟨error, herror, hrecords⟩ ↦ ⟨error, herror, ?_⟩
  rw [hrecords]
  exact h

end Coordinator

end MultAIplayer
