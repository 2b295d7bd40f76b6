import RanGame.Room.Join

/-!
# Members and their sessions

The handlers of `internal/room/room.go` once more, now with what they do to sessions. A room keeps
for each member the session that the member joined with, and writes the `RoomID` of that session.
All a callback can do to members and sessions is to send members away (`Thins`).
-/

namespace RanGame.Room

open Function

/-- What the goroutine of a room can reach. Sessions and rooms are numbered. -/
structure View where
  room : State
  sess : String → ℕ
  /-- `Session.RoomID`, of every session. -/
  roomID : ℕ → Option ℕ

/-- The view that a callback leaves, and whether it panicked. -/
abbrev ViewOutcome := View × Bool

def ViewOutcome.andThen (o : ViewOutcome) (f : View → ViewOutcome) : ViewOutcome :=
  if o.2 then o else f o.1

namespace View

variable (v : View)

def setRoomID (x : ℕ) (r : Option ℕ) : View := { v with roomID := update v.roomID x r }

def setMembers (members : List String) : View :=
  { v with room := { v.room with members := members } }

def handleLeave (onLeave onEmpty : View → ViewOutcome) (uid : String) : ViewOutcome :=
  if v.room.closing then (v, false)
  else if uid ∈ v.room.members then
    ViewOutcome.andThen (onLeave
      ((v.setMembers (v.room.members.erase uid)).setRoomID (v.sess uid) none)) fun v =>
        if v.room.members = [] then onEmpty v else (v, false)
  else (v, false)

/-- The loop at the end of `doClose`. -/
def unbindAll : View :=
  { v with
    room := { v.room with members := [], stops := true }
    roomID := v.room.members.foldl (fun f u => update f (v.sess u) none) v.roomID }

def doClose (onDestroy : View → ViewOutcome) : ViewOutcome :=
  if v.room.closing then (v, false)
  else ViewOutcome.andThen (onDestroy { v with room := { v.room with closing := true } }) fun v =>
    (v.unbindAll, false)

/-- The view when a member has come in. -/
def takeIn (r x : ℕ) (uid : String) : View where
  room := { v.room with members := v.room.members ++ [uid] }
  sess := update v.sess uid x
  roomID := update v.roomID x (some r)

/-- `handleJoin` of room `r` for session `x` of a player. -/
def handleJoin (onJoin : View → ViewOutcome) (r x : ℕ) (uid : String) :
    ViewOutcome × Option (Option JoinErr) :=
  if v.room.closing then ((v, false), some (some .errNotInRoom))
  else if uid ∈ v.room.members then ((v, false), some none)
  else if v.room.maxPlayers ≤ v.room.members.length then ((v, false), some (some .errRoomFull))
  else
    let o := onJoin (v.takeIn r x uid)
    (o, if o.2 then none else some none)

end View

def Script.act : Script → View → ViewOutcome
  | .done, v => (v, false)
  | .panic, v => (v, true)
  | .kick uid onLeave onEmpty rest, v =>
    ViewOutcome.andThen (v.handleLeave onLeave.act onEmpty.act uid) rest.act
  | .close onDestroy rest, v => ViewOutcome.andThen (v.doClose onDestroy.act) rest.act

/-! ### The room goes the same way -/

def ViewOutcome.toRoom (o : ViewOutcome) : Outcome := (o.1.room, o.2)

theorem ViewOutcome.toRoom_andThen (o : ViewOutcome) {f : View → ViewOutcome}
    {g : State → Outcome} (hfg : ∀ v, (f v).toRoom = g v.room) :
    (o.andThen f).toRoom = o.toRoom.andThen g := by
  rcases o with ⟨v, _ | _⟩
  · exact hfg v
  · rfl

theorem View.toRoom_handleLeave {onLeave onEmpty : View → ViewOutcome}
    {onLeave' onEmpty' : State → Outcome} (hl : ∀ v, (onLeave v).toRoom = onLeave' v.room)
    (he : ∀ v, (onEmpty v).toRoom = onEmpty' v.room) (v : View) (uid : String) :
    (v.handleLeave onLeave onEmpty uid).toRoom = v.room.handleLeave onLeave' onEmpty' uid := by
  rw [View.handleLeave, State.handleLeave]
  by_cases hc : v.room.closing = true
  · rw [if_pos hc, if_pos hc]
    rfl
  · rw [if_neg hc, if_neg hc]
    by_cases hu : uid ∈ v.room.members
    · rw [if_pos hu, if_pos hu, ViewOutcome.toRoom_andThen _ (g := fun r =>
        if r.members = [] then onEmpty' r else (r, false)), hl]
      · rfl
      · intro w
        by_cases hw : w.room.members = []
        · rw [if_pos hw, if_pos hw, he]
        · rw [if_neg hw, if_neg hw]
          rfl
    · rw [if_neg hu, if_neg hu]
      rfl

theorem View.toRoom_doClose {onDestroy : View → ViewOutcome} {onDestroy' : State → Outcome}
    (hd : ∀ v, (onDestroy v).toRoom = onDestroy' v.room) (v : View) :
    (v.doClose onDestroy).toRoom = v.room.doClose onDestroy' := by
  rw [View.doClose, State.doClose]
  by_cases hc : v.room.closing = true
  · rw [if_pos hc, if_pos hc]
    rfl
  · rw [if_neg hc, if_neg hc, ViewOutcome.toRoom_andThen _ (g := fun r =>
      ({ r with members := [], stops := true }, false)), hd]
    exact fun _ => rfl

/-- **A callback does to the room what it does without sessions.** -/
theorem Script.room_act (cb : Script) (v : View) : (cb.act v).toRoom = cb.exec v.room := by
  induction cb generalizing v with
  | done | panic => rfl
  | kick uid onLeave onEmpty rest ihl ihe ih =>
    rw [Script.act, Script.exec, ViewOutcome.toRoom_andThen _ ih, View.toRoom_handleLeave ihl ihe]
  | close onDestroy rest ihd ih =>
    rw [Script.act, Script.exec, ViewOutcome.toRoom_andThen _ ih, View.toRoom_doClose ihd]

/-! ### What a callback can do -/

namespace View

variable {v w z : View}

/-- Members have been sent away: their sessions carry no `RoomID`, and no other session is touched.
-/
structure Thins (v w : View) : Prop where
  sess : w.sess = v.sess
  members : List.Sublist w.room.members v.room.members
  gone : ∀ u ∈ v.room.members, u ∉ w.room.members → w.roomID (v.sess u) = none
  kept : ∀ x, (∀ u ∈ v.room.members, v.sess u = x → u ∈ w.room.members) → w.roomID x = v.roomID x
  closing : v.room.closing = true → w.room.closing = true
  stops : w.room.stops = true → v.room.stops = true ∨ w.room.closing = true ∧ w.room.members = []
  stopped : v.room.stops = true → w.room.stops = true

theorem Thins.refl (v : View) : Thins v v where
  sess := rfl
  members := List.Sublist.refl _
  gone := fun _ hu hnot => absurd hu hnot
  kept := fun _ _ => rfl
  closing := id
  stops := .inl
  stopped := id

theorem Thins.roomID_eq (h : Thins v w) (x : ℕ) : w.roomID x = none ∨ w.roomID x = v.roomID x := by
  by_cases hx : ∀ u ∈ v.room.members, v.sess u = x → u ∈ w.room.members
  · exact .inr (h.kept x hx)
  · push Not at hx
    obtain ⟨u, hu, rfl, hnot⟩ := hx
    exact .inl (h.gone u hu hnot)

theorem Thins.trans (h : Thins v w) (h' : Thins w z) : Thins v z where
  sess := h'.sess.trans h.sess
  members := h'.members.trans h.members
  gone := by
    intro u hu hnot
    by_cases hw : u ∈ w.room.members
    · rw [← h.sess]
      exact h'.gone u hw hnot
    · rcases h'.roomID_eq (v.sess u) with hz | hz
      · exact hz
      · rw [hz]
        exact h.gone u hu hw
  kept := by
    intro x hx
    rw [h'.kept x fun u hu hux => ?_, h.kept x fun u hu hux => ?_]
    · exact h'.members.subset (hx u hu hux)
    · rw [h.sess] at hux
      exact hx u (h.members.subset hu) hux
  closing := fun hc => h'.closing (h.closing hc)
  stops := by
    intro hs
    rcases h'.stops hs with hs | hs
    · rcases h.stops hs with hs | ⟨hc, hm⟩
      · exact .inl hs
      · refine .inr ⟨h'.closing hc, ?_⟩
        have := h'.members
        rw [hm] at this
        exact List.sublist_nil.mp this
    · exact .inr hs
  stopped := fun hs => h'.stopped (h.stopped hs)

theorem Thins.nodup (h : Thins v w) (hn : v.room.members.Nodup) : w.room.members.Nodup :=
  h.members.nodup hn

theorem thins_andThen {o : ViewOutcome} {f : View → ViewOutcome} (ho : Thins v o.1)
    (hn : v.room.members.Nodup) (hf : ∀ w : View, w.room.members.Nodup → Thins w (f w).1) :
    Thins v (o.andThen f).1 := by
  rw [ViewOutcome.andThen]
  split
  · exact ho
  · exact ho.trans (hf o.1 (ho.nodup hn))

theorem thins_erase (v : View) (uid : String) (hu : uid ∈ v.room.members)
    (hnodup : v.room.members.Nodup) :
    Thins v ((v.setMembers (v.room.members.erase uid)).setRoomID (v.sess uid) none) where
  sess := rfl
  members := List.erase_sublist
  gone := by
    intro u hu hnot
    have : u = uid := by
      by_contra hne
      exact hnot ((List.mem_erase_of_ne hne).mpr hu)
    rw [this]
    exact update_self ..
  kept := by
    intro x hx
    refine update_of_ne ?_ _ _
    rintro rfl
    exact hnodup.not_mem_erase (hx uid hu rfl)
  closing := id
  stops := .inl
  stopped := id

theorem handleLeave_thins {onLeave onEmpty : View → ViewOutcome}
    (hl : ∀ w : View, w.room.members.Nodup → Thins w (onLeave w).1)
    (he : ∀ w : View, w.room.members.Nodup → Thins w (onEmpty w).1) (hn : v.room.members.Nodup)
    (uid : String) : Thins v (v.handleLeave onLeave onEmpty uid).1 := by
  rw [handleLeave]
  split
  · exact Thins.refl v
  · split
    next hu =>
      have herase := thins_erase v uid hu hn
      refine thins_andThen (herase.trans (hl _ (herase.nodup hn))) hn fun w hw => ?_
      split
      · exact he w hw
      · exact Thins.refl w
    · exact Thins.refl v

theorem foldl_update_none (l : List String) (g : String → ℕ) (f : ℕ → Option ℕ) (x : ℕ) :
    (l.foldl (fun f u => update f (g u) none) f) x = if ∃ u ∈ l, g u = x then none else f x := by
  induction l generalizing f with
  | nil => simp
  | cons u l ih =>
    rw [List.foldl_cons, ih]
    by_cases hx : g u = x
    · simp [hx]
    · simp [hx, update_of_ne (Ne.symm hx)]

theorem unbindAll_thins (v : View) (hc : v.room.closing = true) : Thins v v.unbindAll where
  sess := rfl
  members := List.nil_sublist _
  gone := by
    intro u hu _
    refine (foldl_update_none ..).trans ?_
    rw [if_pos ⟨u, hu, rfl⟩]
  kept := by
    intro x hx
    refine (foldl_update_none ..).trans ?_
    rw [if_neg]
    rintro ⟨u, hu, hux⟩
    exact List.not_mem_nil (hx u hu hux)
  closing := id
  stops := fun _ => .inr ⟨hc, rfl⟩
  stopped := fun _ => rfl

theorem doClose_thins {onDestroy : View → ViewOutcome}
    (hd : ∀ w : View, w.room.members.Nodup → Thins w (onDestroy w).1)
    (hn : v.room.members.Nodup) : Thins v (v.doClose onDestroy).1 := by
  rw [doClose]
  split
  · exact Thins.refl v
  · have hclosing : Thins v { v with room := { v.room with closing := true } } :=
      ⟨rfl, List.Sublist.refl _, fun _ hu hnot => absurd hu hnot, fun _ _ => rfl, fun _ => rfl,
        .inl, id⟩
    have hdestroy := hd { v with room := { v.room with closing := true } } hn
    rw [ViewOutcome.andThen]
    split
    · exact hclosing.trans hdestroy
    · exact (hclosing.trans hdestroy).trans (unbindAll_thins _ (hdestroy.closing rfl))

end View

/-- **All a callback does is to send members away.** -/
theorem Script.act_thins (cb : Script) {v : View} (hn : v.room.members.Nodup) :
    View.Thins v (cb.act v).1 := by
  induction cb generalizing v with
  | done | panic => exact View.Thins.refl v
  | kick uid onLeave onEmpty rest ihl ihe ih =>
    exact View.thins_andThen
      (View.handleLeave_thins (fun _ hw => ihl hw) (fun _ hw => ihe hw) hn uid) hn fun _ hw => ih hw
  | close onDestroy rest ihd ih =>
    exact View.thins_andThen (View.doClose_thins (fun _ hw => ihd hw) hn) hn fun _ hw => ih hw

namespace View

variable {v : View} {r x : ℕ} {uid : String}

/-- The room takes the player in. -/
def Admits (v : View) (uid : String) : Prop :=
  v.room.closing = false ∧ uid ∉ v.room.members ∧ v.room.members.length < v.room.maxPlayers

instance : Decidable (v.Admits uid) := inferInstanceAs (Decidable (_ ∧ _))

theorem handleJoin_of_admits (h : v.Admits uid) (onJoin : View → ViewOutcome) :
    v.handleJoin onJoin r x uid = (onJoin (v.takeIn r x uid),
      if (onJoin (v.takeIn r x uid)).2 then none else some none) := by
  obtain ⟨hc, hu, hm⟩ := h
  rw [handleJoin, if_neg (by simp [hc]), if_neg hu, if_neg (by omega)]

theorem handleJoin_of_not_admits (h : ¬ v.Admits uid) (onJoin : View → ViewOutcome) :
    (v.handleJoin onJoin r x uid).1 = (v, false) ∧
      ((∃ err, (v.handleJoin onJoin r x uid).2 = some (some err)) ∧
          (v.room.closing = true ∨ uid ∉ v.room.members) ∨
        uid ∈ v.room.members ∧ (v.handleJoin onJoin r x uid).2 = some none) := by
  rw [handleJoin]
  split
  next hc => exact ⟨rfl, .inl ⟨⟨_, rfl⟩, .inl hc⟩⟩
  next hc =>
    split
    next hu => exact ⟨rfl, .inr ⟨hu, rfl⟩⟩
    next hu =>
      split
      · exact ⟨rfl, .inl ⟨⟨_, rfl⟩, .inr hu⟩⟩
      next hm => exact absurd ⟨by simpa using hc, hu, by omega⟩ h

theorem nodup_takeIn (h : v.Admits uid) (hn : v.room.members.Nodup) :
    (v.takeIn r x uid).room.members.Nodup := by
  show (v.room.members ++ [uid]).Nodup
  rw [← List.concat_eq_append]
  exact hn.concat h.2.1

theorem not_mem_handleLeave {onLeave onEmpty : View → ViewOutcome}
    (hl : ∀ w : View, w.room.members.Nodup → Thins w (onLeave w).1)
    (he : ∀ w : View, w.room.members.Nodup → Thins w (onEmpty w).1) (hn : v.room.members.Nodup)
    (hc : v.room.closing = false) : uid ∉ (v.handleLeave onLeave onEmpty uid).1.room.members := by
  rw [handleLeave, if_neg (by simp [hc])]
  split
  next hu =>
    have herase := thins_erase v uid hu hn
    have hthin : Thins ((v.setMembers (v.room.members.erase uid)).setRoomID (v.sess uid) none) _ :=
      thins_andThen (hl _ (herase.nodup hn)) (herase.nodup hn)
        (f := fun w => if w.room.members = [] then onEmpty w else (w, false)) fun w hw => by
          split
          · exact he w hw
          · exact Thins.refl w
    exact fun hmem => hn.not_mem_erase (hthin.members.subset hmem)
  · assumption

end View

end RanGame.Room
