import RanGame.App.Players

/-!
# The registry of the actor engine

`internal/actor/registry.go`: which actor a user and a room have, kept by the same code. A bind
deletes what it replaces on either side, so the late `Unbind` of an actor that has been replaced
takes nothing away.
-/

namespace RanGame.Actor

open App

/-- The four maps: `byUID` and `idToUID`, and `byRoom` and `idToRoom`. -/
structure Registry where
  users : PlayerRegistry
  rooms : PlayerRegistry

inductive RegistryAct
  | bindUID (uid : String) (id : ℕ)
  | bindRoom (roomID : String) (id : ℕ)
  | unbind (id : ℕ)

namespace Registry

def newRegistry : Registry := ⟨⟨fun _ => none, fun _ => none⟩, ⟨fun _ => none, fun _ => none⟩⟩

def bindUID (r : Registry) (uid : String) (id : ℕ) : Registry :=
  { r with users := r.users.bindUID uid id }

def bindRoom (r : Registry) (roomID : String) (id : ℕ) : Registry :=
  { r with rooms := r.rooms.bindUID roomID id }

def unbind (r : Registry) (id : ℕ) : Registry := ⟨r.users.unbind id, r.rooms.unbind id⟩

def step (r : Registry) : RegistryAct → Registry
  | .bindUID uid id => r.bindUID uid id
  | .bindRoom roomID id => r.bindRoom roomID id
  | .unbind id => r.unbind id

def Inverse (r : Registry) : Prop := r.users.Inverse ∧ r.rooms.Inverse

theorem Inverse.step {r : Registry} (h : r.Inverse) (a : RegistryAct) : (r.step a).Inverse := by
  cases a with
  | bindUID uid id => exact ⟨h.1.bindUID uid id, h.2⟩
  | bindRoom roomID id => exact ⟨h.1, h.2.bindUID roomID id⟩
  | unbind id => exact ⟨h.1.unbind id, h.2.unbind id⟩

/-- **The registry holds two partial bijections**, and `Unbind` of an actor leaves every user and
room with the actor that has replaced it. -/
theorem inverse_of_calls (acts : List RegistryAct) :
    (acts.foldl step newRegistry).Inverse ∧ ∀ old id, id ≠ old →
      (∀ uid, (acts.foldl step newRegistry).users.byUID uid = some id →
        ((acts.foldl step newRegistry).unbind old).users.byUID uid = some id) ∧
      ∀ roomID, (acts.foldl step newRegistry).rooms.byUID roomID = some id →
        ((acts.foldl step newRegistry).unbind old).rooms.byUID roomID = some id := by
  have hinverse : (acts.foldl step newRegistry).Inverse := by
    refine List.foldlRecOn acts step ?_ fun r h a _ => h.step a
    exact ⟨fun u id => by simp [newRegistry], fun u id => by simp [newRegistry]⟩
  refine ⟨hinverse, fun old id hne => ⟨fun uid huid => ?_, fun roomID hroom => ?_⟩⟩
  · exact hinverse.1.unbind_byUID huid hne
  · exact hinverse.2.unbind_byUID hroom hne

/-- A user logs in again before the first actor has stopped. -/
theorem inverse_of_calls_replaced : ((([.bindUID "u1" 10, .bindRoom "r1" 10, .bindUID "u1" 30,
    .bindRoom "r1" 40].foldl step newRegistry).unbind 10).users.byUID "u1" = some 30) :=
  ((inverse_of_calls _).2 10 30 (by decide)).1 "u1" (by decide)

end Registry

end RanGame.Actor
