import RanGame.Room.Join
import Mathlib.Data.Finset.Card

/-!
# The member map, the order list and the callbacks

`internal/room/room.go` keeps the members of a room in a map and in a list that remembers their
order. The handlers change both and call the game logic in between, which may call back (`Kick`,
`Close`). Whatever a callback does is a chain of five changes.
-/

namespace RanGame.Room

open List Machine Script
open Relation (ReflTransGen)

inductive Callback
  | onCreate
  | onJoin (uid : String)
  | onMessage (uid : String)
  | tick
  | onTimeout
  /-- The callback of a timer that the game logic has set itself. -/
  | timer
  | onLeave (uid : String)
  | onEmpty
  | onDestroy
  deriving DecidableEq

def Callback.isDestroy : Callback → Bool
  | .onDestroy => true
  | _ => false

/-- A callback, and what it finds when it begins. -/
structure Entry where
  callback : Callback
  members : Finset String
  order : List String
  closing : Bool
  deriving DecidableEq

/-- `roomActor`, and the callbacks that its game logic has received. -/
structure Roster where
  maxPlayers : ℕ
  /-- The game logic has `OnTimeout`. -/
  timeoutLogic : Bool
  /-- The keys of the member map. -/
  members : Finset String
  order : List String
  closing : Bool
  stops : Bool
  log : List Entry

/-- The room as a callback leaves it, and whether the callback panicked. -/
abbrev RosterOutcome := Roster × Bool

def RosterOutcome.andThen (o : RosterOutcome) (f : Roster → RosterOutcome) : RosterOutcome :=
  if o.2 then o else f o.1

namespace Roster

variable (r : Roster)

/-- The game logic receives a callback. -/
def note (cb : Callback) : Roster :=
  { r with log := r.log ++ [⟨cb, r.members, r.order, r.closing⟩] }

def add (uid : String) : Roster :=
  { r with members := insert uid r.members, order := r.order ++ [uid] }

/-- `delete` and `removeOrder` -/
def remove (uid : String) : Roster :=
  { r with members := r.members.erase uid, order := r.order.erase uid }

def beginClose : Roster := { r with closing := true }

/-- The end of `doClose`. -/
def clear : Roster := { r with members := ∅, order := [], stops := true }

def handleLeave (onLeave onEmpty : Roster → RosterOutcome) (uid : String) : RosterOutcome :=
  if r.closing then (r, false)
  else if uid ∈ r.members then
    RosterOutcome.andThen (onLeave ((r.remove uid).note (.onLeave uid))) fun r =>
      if r.members = ∅ then onEmpty (r.note .onEmpty) else (r, false)
  else (r, false)

def doClose (onDestroy : Roster → RosterOutcome) : RosterOutcome :=
  if r.closing then (r, false)
  else RosterOutcome.andThen (onDestroy (r.beginClose.note .onDestroy)) fun r => (r.clear, false)

/-- `handleJoin`: the outcome, and the reply, if there is one. -/
def handleJoin (onJoin : Roster → RosterOutcome) (uid : String) :
    RosterOutcome × Option (Option JoinErr) :=
  if r.closing then ((r, false), some (some .errNotInRoom))
  else if uid ∈ r.members then ((r, false), some none)
  else if r.maxPlayers ≤ r.members.card then ((r, false), some (some .errRoomFull))
  else
    let o := onJoin ((r.add uid).note (.onJoin uid))
    (o, if o.2 then none else some none)

end Roster

def Script.play : Script → Roster → RosterOutcome
  | .done, r => (r, false)
  | .panic, r => (r, true)
  | .kick uid onLeave onEmpty rest, r =>
    RosterOutcome.andThen (r.handleLeave onLeave.play onEmpty.play uid) rest.play
  | .close onDestroy rest, r => RosterOutcome.andThen (r.doClose onDestroy.play) rest.play

/-- What a timer leads to. -/
inductive Invocation
  | tick
  /-- `MaxDuration` is over. -/
  | timeout
  | timer
  deriving DecidableEq

/-- What a room finds in its mailbox. -/
inductive Mail
  | join (uid : String)
  | leave (uid : String)
  | close
  | message (uid : String)
  | invoke (f : Invocation)
  deriving DecidableEq

namespace Roster

/-- `OnMessage`, and what timers lead to. The callback does `cb`, `OnEmpty` or `OnDestroy` after it
`cb'`. -/
def handle (r : Roster) (cb cb' : Script) : Mail → RosterOutcome
  | .join uid => (r.handleJoin cb.play uid).1
  | .leave uid => r.handleLeave cb.play cb'.play uid
  | .close => r.doClose cb.play
  | .message uid => if uid ∈ r.members then cb.play (r.note (.onMessage uid)) else (r, false)
  | .invoke .tick => cb.play (r.note .tick)
  | .invoke .timer => cb.play (r.note .timer)
  | .invoke .timeout =>
    RosterOutcome.andThen (if r.timeoutLogic then cb.play (r.note .onTimeout) else (r, false))
      fun r => r.doClose cb'.play

def init (r : Roster) (onCreate : Script) : RosterOutcome := onCreate.play (r.note .onCreate)

end Roster

/-- The room starts, or handles something. -/
inductive RosterAct
  | init (onCreate : Script)
  | handle (mail : Mail) (cb cb' : Script)

/-- `CreateRoom`: a number of players that is not positive becomes eight. -/
def newRoster (maxPlayers : ℤ) (timeoutLogic : Bool) : Roster where
  maxPlayers := if maxPlayers ≤ 0 then 8 else maxPlayers.toNat
  timeoutLogic := timeoutLogic
  members := ∅
  order := []
  closing := false
  stops := false
  log := []

namespace Roster

/-- The engine catches panics, so the room goes on with what a handler has left. -/
def step (r : Roster) : RosterAct → Option Roster
  | .init onCreate => some (r.init onCreate).1
  | .handle mail cb cb' => some (r.handle cb cb' mail).1

/-! ### What can happen to a room -/

inductive Change : Roster → Roster → Prop
  | call (r : Roster) (cb : Callback) (hcb : cb.isDestroy = false) : Change r (r.note cb)
  | add (r : Roster) (uid : String) (hopen : r.closing = false) (hnew : uid ∉ r.members)
    (hroom : r.members.card < r.maxPlayers) : Change r (r.add uid)
  | remove (r : Roster) (uid : String) : Change r (r.remove uid)
  | close (r : Roster) (hopen : r.closing = false) : Change r (r.beginClose.note .onDestroy)
  | clear (r : Roster) : Change r r.clear

abbrev Changes : Roster → Roster → Prop := ReflTransGen Change

variable {r r' : Roster}

theorem changes_andThen {o : RosterOutcome} {f : Roster → RosterOutcome} (h : Changes r o.1)
    (hf : ∀ r, Changes r (f r).1) : Changes r (o.andThen f).1 := by
  unfold RosterOutcome.andThen
  split
  · exact h
  · exact h.trans (hf o.1)

theorem changes_call {f : Roster → RosterOutcome} (hf : ∀ r, Changes r (f r).1) (r : Roster)
    {cb : Callback} (hcb : cb.isDestroy = false) : Changes r (f (r.note cb)).1 :=
  .head (.call r cb hcb) (hf _)

theorem handleLeave_changes {onLeave onEmpty : Roster → RosterOutcome}
    (hl : ∀ r, Changes r (onLeave r).1) (he : ∀ r, Changes r (onEmpty r).1) (r : Roster)
    (uid : String) : Changes r (r.handleLeave onLeave onEmpty uid).1 := by
  unfold handleLeave
  split
  · exact .refl
  · split
    · refine changes_andThen (.head (.remove r uid) (changes_call hl _ rfl)) fun r => ?_
      split
      · exact changes_call he r rfl
      · exact .refl
    · exact .refl

theorem doClose_changes {onDestroy : Roster → RosterOutcome}
    (hd : ∀ r, Changes r (onDestroy r).1) (r : Roster) : Changes r (r.doClose onDestroy).1 := by
  unfold doClose
  split
  · exact .refl
  next hopen =>
    exact changes_andThen (.head (.close r (Bool.eq_false_iff.mpr hopen)) (hd _)) fun r =>
      .single (.clear r)

theorem handleJoin_changes {onJoin : Roster → RosterOutcome} (hj : ∀ r, Changes r (onJoin r).1)
    (r : Roster) (uid : String) : Changes r (r.handleJoin onJoin uid).1.1 := by
  unfold handleJoin
  split
  · exact .refl
  next hopen =>
    split
    · exact .refl
    next hnew =>
      split
      · exact .refl
      next hroom =>
        exact .head (.add r uid (Bool.eq_false_iff.mpr hopen) hnew (Nat.lt_of_not_le hroom))
          (changes_call hj _ rfl)

end Roster

open Roster in
/-- **Whatever a callback does is a chain of changes.** -/
theorem Script.play_changes (s : Script) (r : Roster) : Changes r (s.play r).1 := by
  -- the handlers that a script runs are given the scripts that are parts of it
  induction s generalizing r with
  | done | panic => exact .refl
  | kick uid onLeave onEmpty rest ihl ihe ih =>
    exact changes_andThen (handleLeave_changes ihl ihe r uid) ih
  | close onDestroy rest ihd ih => exact changes_andThen (doClose_changes ihd r) ih

namespace Roster

variable {r r' : Roster}

theorem handle_changes (r : Roster) (cb cb' : Script) (mail : Mail) :
    Changes r (r.handle cb cb' mail).1 := by
  cases mail with
  | join uid => exact handleJoin_changes cb.play_changes r uid
  | leave uid => exact handleLeave_changes cb.play_changes cb'.play_changes r uid
  | close => exact doClose_changes cb.play_changes r
  | message uid =>
    simp only [handle]
    split
    · exact changes_call cb.play_changes r rfl
    · exact .refl
  | invoke f =>
    cases f with
    | tick | timer => exact changes_call cb.play_changes r rfl
    | timeout =>
      refine changes_andThen ?_ (doClose_changes cb'.play_changes)
      split
      · exact changes_call cb.play_changes r rfl
      · exact .refl

theorem changes_of_step {a : RosterAct} (h : r.step a = some r') : Changes r r' := by
  cases a with
  | init onCreate =>
    cases h
    exact changes_call onCreate.play_changes r rfl
  | handle mail cb cb' =>
    cases h
    exact handle_changes r cb cb' mail

theorem Changes.preserves {I : Roster → Prop} (hI : ∀ r r', Change r r' → I r → I r')
    (h : Changes r r') (hr : I r) : I r' := by
  induction h with
  | refl => exact hr
  | tail _ hlast ih => exact hI _ _ hlast ih

/-! ### Map and list -/

/-- The map and the list hold the same members, each once, and not too many. -/
structure Sound (maxPlayers : ℕ) (members : Finset String) (order : List String) : Prop where
  same : members = order.toFinset
  nodup : order.Nodup
  le : members.card ≤ maxPlayers

instance (maxPlayers : ℕ) (members : Finset String) (order : List String) :
    Decidable (Sound maxPlayers members order) :=
  decidable_of_iff (members = order.toFinset ∧ order.Nodup ∧ members.card ≤ maxPlayers)
    ⟨fun h => ⟨h.1, h.2.1, h.2.2⟩, fun h => ⟨h.same, h.nodup, h.le⟩⟩

namespace Sound

variable {maxPlayers : ℕ} {members : Finset String} {order : List String}

theorem mem_iff (h : Sound maxPlayers members order) {uid : String} :
    uid ∈ members ↔ uid ∈ order := by
  rw [h.same, mem_toFinset]

theorem card_eq (h : Sound maxPlayers members order) : members.card = order.length := by
  rw [h.same]
  exact toFinset_card_of_nodup h.nodup

theorem empty (maxPlayers : ℕ) : Sound maxPlayers ∅ [] :=
  ⟨toFinset_nil.symm, nodup_nil, Nat.zero_le _⟩

theorem add (h : Sound maxPlayers members order) {uid : String} (hnew : uid ∉ members)
    (hroom : members.card < maxPlayers) :
    Sound maxPlayers (insert uid members) (order ++ [uid]) where
  same := by
    rw [h.same, toFinset_append]
    ext u
    simp only [Finset.mem_insert, Finset.mem_union, mem_toFinset, mem_singleton]
    exact or_comm
  nodup := by
    rw [← concat_eq_append]
    exact h.nodup.concat fun hmem => hnew (h.mem_iff.mpr hmem)
  le := by
    rw [Finset.card_insert_of_notMem hnew]
    exact hroom

theorem remove (h : Sound maxPlayers members order) (uid : String) :
    Sound maxPlayers (members.erase uid) (order.erase uid) where
  same := by
    ext u
    rw [Finset.mem_erase, mem_toFinset, h.nodup.mem_erase_iff, h.mem_iff]
  nodup := h.nodup.erase uid
  le := (Finset.card_le_card (Finset.erase_subset uid members)).trans h.le

end Sound

/-- The room as it is, and as every callback has found it. -/
structure Kept (r : Roster) : Prop where
  now : Sound r.maxPlayers r.members r.order
  entries : ∀ e ∈ r.log, Sound r.maxPlayers e.members e.order

theorem Kept.note (h : r.Kept) (cb : Callback) : (r.note cb).Kept where
  __ := h
  entries := forall_mem_append.mpr ⟨h.entries, forall_mem_singleton.mpr h.now⟩

theorem Kept.change (hc : Change r r') (h : r.Kept) : r'.Kept := by
  cases hc with
  | call cb => exact h.note cb
  | add uid hopen hnew hroom => exact ⟨h.now.add hnew hroom, h.entries⟩
  | remove uid => exact ⟨h.now.remove uid, h.entries⟩
  | close hopen => exact Kept.note (r := r.beginClose) ⟨h.now, h.entries⟩ .onDestroy
  | clear => exact ⟨Sound.empty _, h.entries⟩

theorem Kept.changes (hc : Changes r r') (h : r.Kept) : r'.Kept :=
  hc.preserves (fun _ _ => Kept.change) h

/-! ### The room of `RanGame.Room.Join` -/

/-- The room without the map and the callbacks. -/
def state (r : Roster) : State := ⟨r.maxPlayers, r.order, r.closing, r.stops⟩

/-- An outcome, for that room. -/
def stateOf (o : RosterOutcome) : Outcome := (o.1.state, o.2)

/-- The callback `g` does to the list what `f` does to list and map. -/
structure Follows (g : State → Outcome) (f : Roster → RosterOutcome) : Prop where
  eq : ∀ r : Roster, r.Kept → g r.state = stateOf (f r)
  changes : ∀ r, Changes r (f r).1

theorem Follows.andThen {g : State → Outcome} {f : Roster → RosterOutcome} (h : Follows g f)
    {p : Outcome} {o : RosterOutcome} (hp : p = stateOf o) (ho : o.1.Kept) :
    p.andThen g = stateOf (o.andThen f) := by
  subst hp
  unfold Outcome.andThen RosterOutcome.andThen
  by_cases hpanic : o.2 = true
  · rw [if_pos hpanic, if_pos (show (stateOf o).2 = true from hpanic)]
  · rw [if_neg hpanic, if_neg (show ¬ (stateOf o).2 = true from hpanic)]
    exact h.eq o.1 ho

variable {onJoin' onLeave' onEmpty' onDestroy' : State → Outcome}
  {onJoin onLeave onEmpty onDestroy : Roster → RosterOutcome}

theorem handleLeave_follows (hl : Follows onLeave' onLeave) (he : Follows onEmpty' onEmpty)
    (uid : String) : Follows (fun r => r.handleLeave onLeave' onEmpty' uid)
      (fun r => r.handleLeave onLeave onEmpty uid) where
  changes r := handleLeave_changes hl.changes he.changes r uid
  eq r h := by
    by_cases hc : r.closing = true
    · simp [handleLeave, State.handleLeave, state, hc, stateOf]
    · by_cases hu : uid ∈ r.members
      · have hu' : uid ∈ r.order := h.now.mem_iff.mp hu
        have hk : ((r.remove uid).note (.onLeave uid)).Kept :=
          Kept.note (r := r.remove uid) ⟨h.now.remove uid, h.entries⟩ _
        -- the callback `OnEmpty` is called for an empty map, or for an empty list
        have hempty : Follows (fun r => if r.members = [] then onEmpty' r else (r, false))
            (fun r => if r.members = ∅ then onEmpty (r.note .onEmpty) else (r, false)) := by
          refine ⟨fun r hr => ?_, fun r => ?_⟩
          · have hiff : r.members = ∅ ↔ r.order = [] := by
              rw [hr.now.same, toFinset_eq_empty_iff]
            by_cases hm : r.members = ∅
            · rw [if_pos hm, if_pos (show r.state.members = [] from hiff.mp hm)]
              exact he.eq (r.note .onEmpty) (hr.note _)
            · rw [if_neg hm, if_neg (show ¬ r.state.members = [] from fun h => hm (hiff.mpr h))]
              rfl
          · split
            · exact changes_call he.changes r rfl
            · exact .refl
        rw [handleLeave, if_neg hc, if_pos hu, State.handleLeave,
          if_neg (show ¬ r.state.closing = true from hc),
          if_pos (show uid ∈ r.state.members from hu')]
        exact hempty.andThen (hl.eq _ hk) (hk.changes (hl.changes _))
      · have hu' : uid ∉ r.order := fun hmem => hu (h.now.mem_iff.mpr hmem)
        simp [handleLeave, State.handleLeave, state, hc, hu, hu', stateOf]

theorem doClose_follows (hd : Follows onDestroy' onDestroy) :
    Follows (fun r => r.doClose onDestroy') (fun r => r.doClose onDestroy) where
  changes := doClose_changes hd.changes
  eq r h := by
    by_cases hc : r.closing = true
    · simp [doClose, State.doClose, state, hc, stateOf]
    · have hk : (r.beginClose.note .onDestroy).Kept :=
        Kept.note (r := r.beginClose) ⟨h.now, h.entries⟩ _
      have hclear : Follows (fun r => ({ r with members := [], stops := true }, false))
          (fun r => (r.clear, false)) := ⟨fun _ _ => rfl, fun r => .single (.clear r)⟩
      simp only [doClose, State.doClose, state, hc, Bool.false_eq_true, if_false]
      exact hclear.andThen (hd.eq _ hk) (hk.changes (hd.changes _))

theorem handleJoin_state (hj : Follows onJoin' onJoin) (h : r.Kept) (uid : String) :
    r.state.handleJoin onJoin' uid =
      (stateOf (r.handleJoin onJoin uid).1, (r.handleJoin onJoin uid).2) := by
  by_cases hc : r.closing = true
  · simp [handleJoin, State.handleJoin, state, hc, stateOf]
  · by_cases hu : uid ∈ r.members
    · have hu' : uid ∈ r.order := h.now.mem_iff.mp hu
      simp [handleJoin, State.handleJoin, state, hc, hu, hu', stateOf]
    · have hu' : uid ∉ r.order := fun hmem => hu (h.now.mem_iff.mpr hmem)
      by_cases hm : r.maxPlayers ≤ r.members.card
      · have hm' : r.maxPlayers ≤ r.order.length := h.now.card_eq ▸ hm
        simp [handleJoin, State.handleJoin, state, hc, hu, hu', hm, hm', stateOf]
      · have hm' : ¬ r.maxPlayers ≤ r.order.length := h.now.card_eq ▸ hm
        have hk : ((r.add uid).note (.onJoin uid)).Kept :=
          Kept.note (r := r.add uid) ⟨h.now.add hu (Nat.lt_of_not_le hm), h.entries⟩ _
        have hcall : onJoin' { r.state with members := r.state.members ++ [uid] } = _ := hj.eq _ hk
        rw [handleJoin, if_neg hc, if_neg hu, if_neg hm, State.handleJoin,
          if_neg (show ¬ r.state.closing = true from hc),
          if_neg (show uid ∉ r.state.members from hu'),
          if_neg (show ¬ r.state.maxPlayers ≤ r.state.members.length from hm'), hcall]
        rfl

end Roster

/-- **A callback goes the same way in both models.** -/
theorem Script.play_follows (s : Script) : Roster.Follows s.exec s.play := by
  induction s with
  | done | panic => exact ⟨fun _ _ => rfl, fun _ => .refl⟩
  | kick uid onLeave onEmpty rest ihl ihe ih =>
    have hleave := Roster.handleLeave_follows ihl ihe uid
    refine ⟨fun r h => ?_, play_changes _⟩
    exact ih.andThen (hleave.eq r h) (h.changes (hleave.changes r))
  | close onDestroy rest ihd ih =>
    have hclose := Roster.doClose_follows ihd
    refine ⟨fun r h => ?_, play_changes _⟩
    exact ih.andThen (hclose.eq r h) (h.changes (hclose.changes r))

/-- One callback after the other, as one. -/
def Script.append : Script → Script → Script
  | .done, t => t
  | .panic, _ => .panic
  | .kick uid onLeave onEmpty rest, t => .kick uid onLeave onEmpty (rest.append t)
  | .close onDestroy rest, t => .close onDestroy (rest.append t)

theorem Outcome.andThen_assoc (o : Outcome) (f g : State → Outcome) :
    (o.andThen f).andThen g = o.andThen fun r => (f r).andThen g := by
  by_cases hpanic : o.2 = true <;> simp [Outcome.andThen, hpanic]

theorem Script.exec_append (s t : Script) (r : State) :
    (s.append t).exec r = (s.exec r).andThen t.exec := by
  induction s generalizing r with
  | done | panic => rfl
  | kick uid onLeave onEmpty rest _ _ ih =>
    rw [append, exec, exec, Outcome.andThen_assoc, funext ih]
  | close onDestroy rest _ ih =>
    rw [append, exec, exec, Outcome.andThen_assoc, funext ih]

theorem Script.exec_close_done (onDestroy : Script) (r : State) :
    (close onDestroy .done).exec r = r.doClose onDestroy.exec := by
  have hdone : (done.exec : State → Outcome) = fun r => (r, false) := rfl
  rw [exec, hdone]
  rcases h : r.doClose onDestroy.exec with ⟨r', _ | _⟩ <;> rfl

/-- What the envelope carries. -/
def Mail.payload : Mail → Payload
  | .join uid => .join uid
  | .leave uid => .leave uid
  | .close => .close
  | .message uid => .message uid
  | .invoke _ => .invoke

namespace Roster

variable {r r' : Roster}

/-- What a room of `RanGame.Room.Join` runs for a piece of mail. -/
def script (r : Roster) (cb cb' : Script) : Mail → Script
  | .invoke .timeout => (if r.timeoutLogic then cb else .done).append (.close cb' .done)
  | _ => cb

theorem handle_state (h : r.Kept) (cb cb' : Script) (mail : Mail) :
    (r.state.handle (r.script cb cb' mail) cb' mail.payload).1 =
      stateOf (r.handle cb cb' mail) := by
  cases mail with
  | join uid => exact congrArg Prod.fst (handleJoin_state cb.play_follows h uid)
  | leave uid => exact (handleLeave_follows cb.play_follows cb'.play_follows uid).eq r h
  | close => exact (doClose_follows cb.play_follows).eq r h
  | message uid =>
    by_cases hu : uid ∈ r.members
    · have hu' : uid ∈ r.state.members := h.now.mem_iff.mp hu
      simp only [State.handle, handle, Mail.payload, script, hu, hu', if_true]
      exact cb.play_follows.eq (r.note (.onMessage uid)) (h.note _)
    · have hu' : uid ∉ r.state.members := fun hmem => hu (h.now.mem_iff.mpr hmem)
      simp only [State.handle, handle, Mail.payload, hu, hu', if_false]
      rfl
  | invoke f =>
    cases f with
    | tick | timer => exact cb.play_follows.eq (r.note _) (h.note _)
    | timeout =>
      have hclose := doClose_follows cb'.play_follows
      simp only [State.handle, handle, Mail.payload, script, exec_append]
      rw [funext (exec_close_done cb')]
      split
      · have hk := h.note .onTimeout
        exact hclose.andThen (cb.play_follows.eq _ hk) (hk.changes (cb.play_changes _))
      · exact hclose.andThen rfl h

/-! ### Closing -/

def destroyed (r : Roster) : ℕ := r.log.countP fun e => e.callback.isDestroy

theorem destroyed_note (r : Roster) (cb : Callback) :
    (r.note cb).destroyed = r.destroyed + if cb.isDestroy then 1 else 0 := by
  simp [destroyed, note, countP_append, countP_singleton]

/-- `OnDestroy` is called once, when the room begins to close. -/
def DestroyedOnce (r : Roster) : Prop := r.destroyed = if r.closing then 1 else 0

theorem DestroyedOnce.change (hc : Change r r') (h : r.DestroyedOnce) : r'.DestroyedOnce := by
  unfold DestroyedOnce at h ⊢
  cases hc with
  | call cb hcb =>
    rw [destroyed_note, hcb]
    exact h
  | add uid hopen hnew hroom | remove uid => exact h
  | close hopen =>
    rw [hopen] at h
    rw [destroyed_note]
    change r.destroyed + 1 = 1
    rw [h]
    rfl
  | clear => exact h

theorem DestroyedOnce.le (h : r.DestroyedOnce) : r.destroyed ≤ 1 := by
  rw [h]
  split <;> decide

/-- Who has seen the room closing sees it closing later, and nobody new. -/
def Shrinks (closing : Bool) (members : Finset String) (closing' : Bool)
    (members' : Finset String) : Prop :=
  closing = true → closing' = true ∧ members' ⊆ members

theorem Shrinks.trans {c c' c'' : Bool} {m m' m'' : Finset String} (h : Shrinks c m c' m')
    (h' : Shrinks c' m' c'' m'') : Shrinks c m c'' m'' := by
  intro hc
  obtain ⟨hc', hm⟩ := h hc
  obtain ⟨hc'', hm'⟩ := h' hc'
  exact ⟨hc'', hm'.trans hm⟩

theorem Change.shrinks (hc : Change r r') : Shrinks r.closing r.members r'.closing r'.members := by
  intro hclosing
  cases hc with
  | call cb => exact ⟨hclosing, subset_rfl⟩
  | add uid hopen =>
    rw [hopen] at hclosing
    cases hclosing
  | remove uid => exact ⟨hclosing, Finset.erase_subset uid r.members⟩
  | close hopen => exact ⟨rfl, subset_rfl⟩
  | clear => exact ⟨hclosing, Finset.empty_subset r.members⟩

theorem Changes.shrinks (h : Changes r r') : Shrinks r.closing r.members r'.closing r'.members := by
  induction h with
  | refl => exact fun hc => ⟨hc, subset_rfl⟩
  | tail _ hlast ih => exact ih.trans hlast.shrinks

/-- Nobody is added to a closing room, as far as the callbacks can tell. -/
structure Dwindling (r : Roster) : Prop where
  now : ∀ e ∈ r.log, Shrinks e.closing e.members r.closing r.members
  entries : r.log.Pairwise fun e f => Shrinks e.closing e.members f.closing f.members

theorem Dwindling.note (h : r.Dwindling) (cb : Callback) : (r.note cb).Dwindling where
  now := by
    refine forall_mem_append.mpr ⟨h.now, forall_mem_singleton.mpr ?_⟩
    exact fun hc => ⟨hc, subset_rfl⟩
  entries := by
    refine pairwise_append.mpr ⟨h.entries, pairwise_singleton _ _, ?_⟩
    intro e he f hf
    rw [mem_singleton.mp hf]
    exact h.now e he

theorem Dwindling.of_log_eq (h : r.Dwindling) (hlog : r'.log = r.log)
    (hs : Shrinks r.closing r.members r'.closing r'.members) : r'.Dwindling where
  now := by
    rw [hlog]
    exact fun e he => (h.now e he).trans hs
  entries := by
    rw [hlog]
    exact h.entries

theorem Dwindling.change (hc : Change r r') (h : r.Dwindling) : r'.Dwindling := by
  have hs := hc.shrinks
  cases hc with
  | call cb => exact h.note cb
  | add uid hopen hnew hroom | remove uid => exact h.of_log_eq rfl hs
  | close hopen =>
    have hbegun : r.beginClose.Dwindling := h.of_log_eq rfl hs
    exact hbegun.note .onDestroy
  | clear => exact h.of_log_eq rfl hs

/-! ### Runs -/

variable {acts : List RosterAct} {maxPlayers : ℤ} {timeoutLogic : Bool}

theorem of_run {I : Roster → Prop} (hI : ∀ r r', Change r r' → I r → I r') (hr : I r)
    (hrun : run step r acts = some r') : I r' :=
  invariant_of_run (fun _ _ _ hs _ hstep => (changes_of_step hstep).preserves hI hs) hr
    along_true hrun

/-- **Map and list together are one list**: a room goes the way of one that has only the list,
whatever mail it takes and whatever its callbacks do. -/
theorem handle_of_run (hrun : run step (newRoster maxPlayers timeoutLogic) acts = some r)
    (cb cb' : Script) (mail : Mail) :
    (r.state.handle (r.script cb cb' mail) cb' mail.payload).1 = stateOf (r.handle cb cb' mail) :=
  handle_state (of_run (fun _ _ => Kept.change) ⟨Sound.empty _, by simp [newRoster]⟩ hrun) ..

theorem changes_of_run (hrun : run step r acts = some r') : Changes r r' :=
  of_run (I := Changes r) (fun _ _ hc h => h.tail hc) .refl hrun

theorem maxPlayers_of_run (hrun : run step r acts = some r') : r'.maxPlayers = r.maxPlayers := by
  refine of_run (I := fun q => q.maxPlayers = r.maxPlayers) ?_ rfl hrun
  intro q q' hc hq
  cases hc <;> exact hq

/-- **Map and list hold the same members, and a closing room takes no one in**: each member once,
and at most as many as configured, now and at every callback; `OnDestroy` has been called at most
once; and once a callback has found the room closing, it stays so, with no one added. -/
theorem members_in_step (hrun : run step (newRoster maxPlayers timeoutLogic) acts = some r) :
    let max := (newRoster maxPlayers timeoutLogic).maxPlayers
    (Sound max r.members r.order ∧ ∀ e ∈ r.log, Sound max e.members e.order) ∧ r.destroyed ≤ 1 ∧
      (r.log.Pairwise fun e f => Shrinks e.closing e.members f.closing f.members) ∧
      (∀ e ∈ r.log, Shrinks e.closing e.members r.closing r.members) ∧
      ∀ acts' r', run step r acts' = some r' →
        Shrinks r.closing r.members r'.closing r'.members := by
  have hkept : r.Kept := of_run (fun _ _ => Kept.change) ⟨Sound.empty _, by simp [newRoster]⟩ hrun
  have hnever : (newRoster maxPlayers timeoutLogic).DestroyedOnce := rfl
  have honce : r.DestroyedOnce := of_run (fun _ _ => DestroyedOnce.change) hnever hrun
  have hdwindling : r.Dwindling :=
    of_run (fun _ _ => Dwindling.change) ⟨by simp [newRoster], List.Pairwise.nil⟩ hrun
  have hmax := maxPlayers_of_run hrun
  refine ⟨?_, honce.le, hdwindling.entries, hdwindling.now, ?_⟩
  · rw [← hmax]
    exact ⟨hkept.now, hkept.entries⟩
  · intro acts' r' hrun'
    exact (changes_of_run hrun').shrinks

/-- Bob takes the place of Alice, and is kicked when the time is over; then the room is closed. -/
def replacedActs : List RosterAct :=
  [.init .done, .handle (.join "alice") .done .done,
    .handle (.join "bob") (.kick "alice" .done .done .done) .done,
    .handle (.invoke .timeout) (.kick "bob" (.close .done .done) .done .done) .done]

theorem handle_of_run_replaced : ∃ r, run step (newRoster 2 true) (replacedActs.take 3) = some r ∧
    r.order = ["bob"] ∧ (r.state.handle .done .done (.leave "bob")).1 =
      stateOf (r.handle .done .done (.leave "bob")) :=
  exists_of_run_and (by decide +kernel) fun _ hrun _ =>
    handle_of_run hrun .done .done (.leave "bob")

theorem members_in_step_replaced : ∃ r,
    run step (newRoster 2 true) replacedActs = some r ∧ r.log.length = 8 ∧
      r.destroyed ≤ 1 ∧ ∀ e ∈ r.log, Sound 2 e.members e.order := by
  refine exists_of_run_and (by decide +kernel) fun r hrun _ => ?_
  have h := members_in_step hrun
  exact ⟨h.2.1, h.1.2⟩

end Roster

end RanGame.Room
