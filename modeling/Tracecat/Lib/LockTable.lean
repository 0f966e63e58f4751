import Mathlib.Logic.Function.Basic

/-!
# Row locks

A table that records the transaction that holds each key.  A transaction may
take a key that is free or its own, and gives all of its keys back when it
ends, so a key never has two owners.
-/

namespace Tracecat

abbrev LockTable (Key Tx : Type*) : Type _ := Key → Option Tx

namespace LockTable

variable {Key Tx : Type*} [DecidableEq Key] [DecidableEq Tx]
  {locks : LockTable Key Tx} {tx other : Tx} {key taken : Key}

def empty : LockTable Key Tx := fun _ => none

/-- The key is free, or the transaction has it already. -/
def FreeFor (locks : LockTable Key Tx) (tx : Tx) (key : Key) : Prop :=
  locks key = none ∨ locks key = some tx

instance : Decidable (locks.FreeFor tx key) :=
  inferInstanceAs (Decidable (_ ∨ _))

def take (locks : LockTable Key Tx) (tx : Tx) (key : Key) : LockTable Key Tx :=
  Function.update locks key (some tx)

def release (locks : LockTable Key Tx) (tx : Tx) : LockTable Key Tx :=
  fun key => if locks key = some tx then none else locks key

omit [DecidableEq Tx] in
@[simp] theorem take_self : locks.take tx key key = some tx :=
  Function.update_self ..

omit [DecidableEq Key] [DecidableEq Tx] in
theorem FreeFor.owner_ne (hFree : locks.FreeFor tx key) (hOwner : locks key = some other) :
    other = tx := by
  rcases hFree with hNone | hOwn
  · rw [hNone] at hOwner
    cases hOwner
  · rw [hOwn] at hOwner
    exact (Option.some.inj hOwner).symm

omit [DecidableEq Tx] in
theorem FreeFor.owner_take (hFree : locks.FreeFor tx taken) (hOwner : locks key = some other) :
    locks.take tx taken key = some other := by
  unfold take
  by_cases hKey : key = taken
  · subst hKey
    rw [Function.update_self, hFree.owner_ne hOwner]
  · rwa [Function.update_of_ne hKey]

omit [DecidableEq Key] in
theorem owner_release (hOther : other ≠ tx) (hOwner : locks key = some other) :
    locks.release tx key = some other := by
  unfold release
  rw [if_neg, hOwner]
  rw [hOwner]
  exact fun h => hOther (Option.some.inj h)

end LockTable

end Tracecat
