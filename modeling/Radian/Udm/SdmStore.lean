import Radian.Keyed.Basic

/-!
# Subscriptions to data changes

The UDM's store of the subscriptions to subscriber data changes.

- `SdmStore.subscribe`, `SdmStore.unsubscribe` — its operations.
- `SdmStore.of` — the subscriptions for a subscriber, and what each operation does to them.
-/

open Keyed (Map)

namespace Radian.Udm

/-- A subscription: its id, and the AMF that its callback leads to. -/
structure SdmSub where
  id : UInt64
  callback : String
  deriving DecidableEq, Repr

structure SdmStore where
  subs : Map String (List SdmSub) := ∅
  nextId : UInt64 := 0

namespace SdmStore

/-- The subscriptions for a subscriber. -/
def of (store : SdmStore) (supi : String) : List SdmSub := (store.subs.lookup supi).getD []

def subscribe (supi callback : String) (store : SdmStore) : UInt64 × SdmStore :=
  (store.nextId,
    { subs := store.subs.insert supi (store.of supi ++ [{ id := store.nextId, callback }])
      nextId := store.nextId + 1 })

def unsubscribe (supi : String) (id : UInt64) (store : SdmStore) : Bool × SdmStore :=
  match store.subs.lookup supi with
  | none => (false, store)
  | some list =>
      let left := list.filter fun s => s.id != id
      (left.length != list.length,
        { store with
          subs := if left.isEmpty then store.subs.erase supi else store.subs.insert supi left })

variable {store : SdmStore} {supi : String}

@[simp] theorem of_empty (supi : String) : ({} : SdmStore).of supi = [] := rfl

theorem of_subscribe (supi callback supi' : String) (store : SdmStore) :
    (store.subscribe supi callback).2.of supi' =
      if supi' = supi then store.of supi ++ [{ id := store.nextId, callback }] else store.of supi' := by
  simp only [of, subscribe, Keyed.Map.lookup_insert_eq]
  split <;> rfl

/-- Only the one id goes, and for the one subscriber. -/
theorem of_unsubscribe (supi : String) (id : UInt64) (supi' : String) (store : SdmStore) :
    (store.unsubscribe supi id).2.of supi' =
      if supi' = supi then (store.of supi).filter fun s => s.id != id else store.of supi' := by
  unfold unsubscribe
  cases hlist : store.subs.lookup supi with
  | none =>
    dsimp only
    split
    · rename_i hsame
      rw [hsame, of, hlist]
      rfl
    · rfl
  | some list =>
    have hof : store.of supi = list := by rw [of, hlist, Option.getD_some]
    rw [hof]
    dsimp only
    by_cases hleft : (list.filter fun s => s.id != id).isEmpty
    · rw [if_pos hleft, List.isEmpty_iff.mp hleft, of]
      simp only [Keyed.Map.lookup_erase_eq]
      split <;> rfl
    · rw [if_neg hleft, of]
      simp only [Keyed.Map.lookup_insert_eq]
      split <;> rfl

end SdmStore

end Radian.Udm
