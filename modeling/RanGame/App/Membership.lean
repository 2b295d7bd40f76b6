import RanGame.App.Seating

/-!
# Who is in which room

A player in a room may ask for another table; the second room writes its name over that of the
first, and the first clears it when it closes. `Orderly` excludes this, rooms that do not get to the
end of `doClose`, and leave messages that a live room refuses.
-/

namespace RanGame.App

open Function Machine Match Room

/-- The session that a letter is about. -/
def Letter.sess? : Letter → Option ℕ
  | .join _ x => some x
  | .leave _ => none

/-- The room that a release sends a leave message to. -/
def Stage.room? : Stage → Option ℕ
  | .called r => r
  | _ => none

namespace World

variable {defs : Modules} {s s' : World}

/-- No settlement, no message and no release is under way. -/
def Quiet (s : World) : Prop :=
  (∀ i < s.tables, (s.settling i).returned = true) ∧ (∀ r < s.nrooms, (s.rooms r).mailbox = []) ∧
    ∀ x < s.nsess, (s.sess x).stage = .online ∨ (s.sess x).stage = .released

instance : Decidable s.Quiet := inferInstanceAs (Decidable (_ ∧ _))

/-- What the next step must not do. -/
def Calm (s : World) : WorldAct → Prop
  | .handle r _ _ => ∀ l ∈ (s.rooms r).mailbox.head?, ∀ x ∈ l.sess?,
      (s.view r).Admits (s.sess x).uid → s.roomID x = none ∧ (s.sess x).stage.early = true
  | .crash _ => False
  | .leave x ok => ∀ r ∈ (s.sess x).stage.room?, ok = true ∨ (s.rooms r).alive = false
  | _ => True

instance decidableCalm (a : WorldAct) : Decidable (s.Calm a) := by
  cases a <;> unfold Calm <;> infer_instance

/-- Players come in without a `RoomID`, and before the release has read it; a room that begins to
close closes; no room crashes, and leave messages are accepted. -/
def Orderly (defs : Modules) (s : World) (a : WorldAct) : Prop :=
  s.Calm a ∧ ∀ s' ∈ s.step defs a, ∀ r ∈ a.room?,
    (s'.rooms r).state.closing = true → (s'.rooms r).state.stops = true

instance (a : WorldAct) : Decidable (s.Orderly defs a) := inferInstanceAs (Decidable (_ ∧ _))

/-! ### The session of a player -/

/-- The session in the index is the one that nobody has begun to release. -/
def Current (byUID : PartialMap String ℕ) (sess : ℕ → Sess) : Prop :=
  ∀ u x, byUID u = some x ↔ (sess x).stage = .online ∧ (sess x).uid = u

namespace Current

variable {byUID : PartialMap String ℕ} {sess : ℕ → Sess} {x : ℕ}

variable (h : Current byUID sess)

include h

theorem unlink (hx : (sess x).stage = .online) :
    Current (byUID.erase (sess x).uid) (update sess x ⟨(sess x).uid, .unlinked⟩) := by
  intro u y
  rw [PartialMap.erase_eq_some, h u y]
  by_cases hyx : y = x
  · subst hyx
    rw [update_self]
    refine ⟨?_, fun hy => by cases hy.1⟩
    rintro ⟨hne, -, huid⟩
    exact absurd huid.symm hne
  · rw [update_of_ne hyx]
    refine ⟨And.right, fun hy => ⟨?_, hy⟩⟩
    rintro rfl
    -- two sessions of one player would both be in the index
    have hind := ((h _ x).mpr ⟨hx, rfl⟩).symm.trans ((h _ y).mpr hy)
    exact hyx (Option.some.inj hind).symm

theorem addSess {uid : String} (hnone : byUID uid = none) (hx : ∀ u, byUID u ≠ some x) :
    Current (byUID.insert uid x) (update sess x ⟨uid, .online⟩) := by
  intro u y
  rw [PartialMap.insert_eq_some]
  by_cases hyx : y = x
  · subst hyx
    rw [update_self]
    refine ⟨?_, fun hy => .inl ⟨hy.2.symm, rfl⟩⟩
    rintro (⟨rfl, -⟩ | ⟨-, hy⟩)
    · exact ⟨rfl, rfl⟩
    · exact absurd hy (hx u)
  · rw [update_of_ne hyx, ← h u y]
    refine ⟨?_, fun hy => .inr ⟨?_, hy⟩⟩
    · rintro (⟨-, rfl⟩ | ⟨-, hy⟩)
      · exact absurd rfl hyx
      · exact hy
    · rintro rfl
      rw [hnone] at hy
      cases hy

theorem release {t : Stage} (hx : (sess x).stage ≠ .online) (ht : t ≠ .online) :
    Current byUID (update sess x ⟨(sess x).uid, t⟩) := by
  intro u y
  rw [h u y]
  by_cases hyx : y = x
  · subst hyx
    rw [update_self]
    exact ⟨fun hy => absurd hy.1 hx, fun hy => absurd hy.1 ht⟩
  · rw [update_of_ne hyx]

theorem login {uid : String} {n : ℕ} (hx : byUID uid = some x) (hn : ∀ u, byUID u ≠ some n) :
    Current (byUID.insert uid n)
      (update (update sess x ⟨(sess x).uid, .unlinked⟩) n ⟨uid, .online⟩) := by
  obtain ⟨honline, rfl⟩ := (h uid x).mp hx
  have hins : byUID.insert (sess x).uid n = (byUID.erase (sess x).uid).insert (sess x).uid n := by
    simp [PartialMap.insert, PartialMap.erase]
  rw [hins]
  exact (h.unlink honline).addSess PartialMap.erase_self
    fun u hu => hn u (PartialMap.erase_eq_some.mp hu).2

end Current

theorem sess_sendLeave (s : World) (r : ℕ) (uid : String) (ok : Bool) :
    (s.sendLeave r uid ok).sess = s.sess ∧ (s.sendLeave r uid ok).byUID = s.byUID := by
  rw [sendLeave]
  split
  · exact ⟨rfl, rfl⟩
  · exact ⟨rfl, rfl⟩

theorem sess_handleLetter (s : World) (r : ℕ) (cb cb' : Script) (rest : List Letter) (l : Letter) :
    (s.handleLetter r cb cb' rest l).sess = s.sess ∧
      (s.handleLetter r cb cb' rest l).byUID = s.byUID := by
  cases l with
  | join i x =>
    rw [handleLetter]
    obtain ⟨t, ht, -⟩ := reply_eq_settle
      (s.write r ((s.view r).handleJoin cb.act r x (s.sess x).uid).1.1 rest) i
      ((s.view r).handleJoin cb.act r x (s.sess x).uid).2
    rw [ht]
    exact ⟨rfl, rfl⟩
  | leave uid => exact ⟨rfl, rfl⟩

theorem current_step (hcarried : s.Carried) (h : Current s.byUID s.sess) {a : WorldAct}
    (hstep : s.step defs a = some s') : Current s'.byUID s'.sess := by
  have hfresh : ∀ u, s.byUID u ≠ some s.nsess := fun u hu =>
    Nat.lt_irrefl _ (hcarried.index u _ hu).1
  cases happens_of_step hstep with
  | @rolledBack i ok r table e todo =>
    have hsame := sess_sendLeave s r e.uid ok
    show Current (s.sendLeave r e.uid ok).byUID (s.sendLeave r e.uid ok).sess
    rw [hsame.1, hsame.2]
    exact h
  | @handled r cb cb' l rest =>
    have hsame := sess_handleLetter s r cb cb' rest l
    rw [hsame.1, hsame.2]
    exact h
  | loginAgain hx => exact h.login hx hfresh
  | loginFirst hx => exact h.addSess hx hfresh
  | expired hx => exact h.unlink hx
  | marked hx => exact h.release (by rw [hx]; decide) (by decide)
  | called hx => exact h.release (by rw [hx]; decide) nofun
  | @left x ok r hx =>
    have hsame := sess_sendLeave s r (s.sess x).uid ok
    show Current (s.sendLeave r (s.sess x).uid ok).byUID
      (update (s.sendLeave r (s.sess x).uid ok).sess x
        ⟨((s.sendLeave r (s.sess x).uid ok).sess x).uid, .released⟩)
    rw [hsame.1, hsame.2]
    exact h.release (by rw [hx]; nofun) (by decide)
  | leftNone hx => exact h.release (by rw [hx]; nofun) (by decide)
  | _ => exact h

/-! ### The members of a room -/

/-- Session `x` is that of the member `u` of room `r`. Once its release has read the `RoomID`, a
leave message is on its way. -/
structure Sits (sess : ℕ → Sess) (roomID : ℕ → Option ℕ) (r : ℕ) (l : List Letter) (x : ℕ)
    (u : String) : Prop where
  uid : (sess x).uid = u
  roomID : roomID x = some r
  stage : (sess x).stage.early = true ∨ (sess x).stage = .called (some r) ∨ .leave u ∈ l

/-- Every member of a room has a session with its name, rooms with members live, and a closing room
has closed. -/
structure Sound (s : World) : Prop where
  sits : ∀ r, ∀ u ∈ (s.rooms r).state.members,
    Sits s.sess s.roomID r (s.rooms r).mailbox ((s.rooms r).sess u) u
  live : ∀ r, (s.rooms r).state.members ≠ [] → (s.rooms r).alive = true
  closed : ∀ r, (s.rooms r).state.closing = true → (s.rooms r).state.stops = true

theorem sound_newWorld : Sound newWorld := ⟨nofun, fun _ hne => absurd rfl hne, nofun⟩

namespace Sound

variable {r x : ℕ}

variable (h : Sound s)

include h

theorem setRoom {n : ℕ} {p : RoomProc} {roomID : ℕ → Option ℕ}
    (hself : ∀ u ∈ p.state.members, Sits s.sess roomID r p.mailbox (p.sess u) u)
    (hlive : p.state.members ≠ [] → p.alive = true)
    (hclosed : p.state.closing = true → p.state.stops = true)
    (hother : ∀ x q, q ≠ r → s.roomID x = some q → roomID x = some q) :
    Sound { s with nrooms := n, rooms := update s.rooms r p, roomID := roomID } where
  sits := by
    refine (forall_update_iff s.rooms fun q p => ∀ u ∈ p.state.members,
      Sits s.sess roomID q p.mailbox (p.sess u) u).mpr ⟨hself, fun q hq u hu => ?_⟩
    have hsits := h.sits q u hu
    exact ⟨hsits.uid, hother _ q hq hsits.roomID, hsits.stage⟩
  live := (forall_update_iff s.rooms fun _ p => p.state.members ≠ [] →
    p.alive = true).mpr ⟨hlive, fun q _ => h.live q⟩
  closed := (forall_update_iff s.rooms fun _ p => p.state.closing = true →
    p.state.stops = true).mpr ⟨hclosed, fun q _ => h.closed q⟩

theorem post (r : ℕ) (l : Letter) : Sound (s.post r l) := by
  refine h.setRoom (fun u hu => ?_) (h.live r) (h.closed r) fun _ _ _ => id
  obtain ⟨huid, hroomID, hstage⟩ := h.sits r u hu
  refine ⟨huid, hroomID, ?_⟩
  rcases hstage with hstage | hstage | hmem
  · exact .inl hstage
  · exact .inr (.inl hstage)
  · exact .inr (.inr (List.mem_append_left _ hmem))

theorem sendLeave (r : ℕ) (uid : String) (ok : Bool) : Sound (s.sendLeave r uid ok) := by
  rw [World.sendLeave]
  split
  · exact h.post r _
  · exact h

theorem endRoom (hempty : (s.rooms r).state.members = []) : Sound (s.endRoom r) := by
  refine h.setRoom (fun u hu => ?_) (fun hne => absurd hempty hne) (h.closed r) fun _ _ _ => id
  rw [show (s.rooms r).state.members = [] from hempty] at hu
  cases hu

theorem addRoom (i : ℕ) (maxPlayers : ℤ) : Sound (s.addRoom i maxPlayers) :=
  h.setRoom nofun (fun _ => rfl) nofun fun _ _ _ => id

theorem roomID_thin {w : View} (hw : (s.view r).Thins w) {q : ℕ} (hq : q ≠ r)
    (hx : s.roomID x = some q) : w.roomID x = some q := by
  refine (hw.kept x fun u hu hux => ?_).trans hx
  have hname := (h.sits r u hu).roomID
  rw [show (s.rooms r).sess u = x from hux, hx] at hname
  exact absurd (Option.some.inj hname) hq

theorem thin {w : View} {l : List Letter} (halive : (s.rooms r).alive = true)
    (hw : (s.view r).Thins w) (hclosed : w.room.closing = true → w.room.stops = true)
    (hl : ∀ u ∈ w.room.members, .leave u ∈ (s.rooms r).mailbox → .leave u ∈ l) :
    Sound (s.write r w l) := by
  refine h.setRoom (fun u hu => ?_) (fun _ => halive) hclosed fun x q hq => h.roomID_thin hw hq
  obtain ⟨huid, hroomID, hstage⟩ := h.sits r u (hw.members.subset hu)
  show Sits s.sess w.roomID r l (w.sess u) u
  rw [show w.sess u = (s.rooms r).sess u from congrFun hw.sess u]
  refine ⟨huid, (hw.kept _ fun v hv hvu => ?_).trans hroomID, ?_⟩
  · -- two members do not share a session
    have hv' := (h.sits r v hv).uid
    rw [show (s.rooms r).sess v = (s.rooms r).sess u from hvu, huid] at hv'
    exact hv' ▸ hu
  · rcases hstage with hstage | hstage | hmem
    · exact .inl hstage
    · exact .inr (.inl hstage)
    · exact .inr (.inr (hl u hu hmem))

theorem takeIn {l : List Letter} (halive : (s.rooms r).alive = true)
    (hyes : (s.view r).Admits (s.sess x).uid) (hnone : s.roomID x = none)
    (hearly : (s.sess x).stage.early = true)
    (hl : ∀ u, .leave u ∈ (s.rooms r).mailbox → .leave u ∈ l) :
    Sound (s.write r ((s.view r).takeIn r x (s.sess x).uid) l) := by
  have hother : ∀ y q, s.roomID y = some q →
      ((s.view r).takeIn r x (s.sess x).uid).roomID y = some q := by
    intro y q hy
    refine (update_of_ne ?_ _ _).trans hy
    rintro rfl
    rw [hnone] at hy
    cases hy
  refine h.setRoom (fun u hu => ?_) (fun _ => halive) (fun hc => ?_) fun y q _ => hother y q
  · show Sits s.sess ((s.view r).takeIn r x (s.sess x).uid).roomID r l
      (((s.view r).takeIn r x (s.sess x).uid).sess u) u
    by_cases hux : u = (s.sess x).uid
    · subst hux
      rw [show ((s.view r).takeIn r x (s.sess x).uid).sess (s.sess x).uid = x from
        update_self ..]
      exact ⟨rfl, update_self .., .inl hearly⟩
    · rcases List.mem_append.mp hu with hu | hu
      · rw [show ((s.view r).takeIn r x (s.sess x).uid).sess u = (s.rooms r).sess u from
          update_of_ne hux ..]
        obtain ⟨huid, hroomID, hstage⟩ := h.sits r u hu
        refine ⟨huid, hother _ r hroomID, ?_⟩
        rcases hstage with hstage | hstage | hmem
        · exact .inl hstage
        · exact .inr (.inl hstage)
        · exact .inr (.inr (hl u hmem))
      · exact absurd (List.mem_singleton.mp hu) hux
  · rw [show ((s.view r).takeIn r x (s.sess x).uid).room.closing = false from hyes.1] at hc
    cases hc

theorem setStage {t : Stage}
    (ht : ∀ r u, u ∈ (s.rooms r).state.members → (s.rooms r).sess u = x → t.early = true ∨
      t = .called (some r) ∨ .leave u ∈ (s.rooms r).mailbox) :
    Sound (s.setStage x t) where
  __ := h
  sits := by
    intro r u hu
    obtain ⟨huid, hroomID, hstage⟩ := h.sits r u hu
    by_cases hux : (s.rooms r).sess u = x
    · refine ⟨?_, hroomID, ?_⟩
      · rw [setStage_sess, setStage_rooms, hux, update_self, ← hux]
        exact huid
      · rw [setStage_sess, setStage_rooms, hux, update_self]
        exact ht r u hu hux
    · refine ⟨?_, hroomID, ?_⟩
      · rw [setStage_sess, setStage_rooms, update_of_ne hux]
        exact huid
      · rw [setStage_sess, setStage_rooms, update_of_ne hux]
        exact hstage

theorem addSess (hcarried : s.Carried) (uid : String) : Sound (s.addSess uid) where
  __ := h
  sits := by
    intro r u hu
    obtain ⟨huid, hroomID, hstage⟩ := h.sits r u hu
    have hux : (s.rooms r).sess u ≠ s.nsess := by
      intro heq
      rw [heq, hcarried.unborn _ le_rfl] at hroomID
      cases hroomID
    refine ⟨?_, hroomID, ?_⟩
    · rw [addSess_sess, addSess_rooms, update_of_ne hux]
      exact huid
    · rw [addSess_sess, addSess_rooms, update_of_ne hux]
      exact hstage

theorem reply (i : ℕ) (answer : Option (Option JoinErr)) : Sound (s.reply i answer) := by
  obtain ⟨t, ht, -⟩ := reply_eq_settle s i answer
  rw [ht]
  exact { h with }

theorem handle (hcarried : s.Carried) {l : Letter} {rest : List Letter}
    (hmail : (s.rooms r).mailbox = l :: rest) (halive : (s.rooms r).alive = true)
    (hcalm : ∀ x ∈ l.sess?, (s.view r).Admits (s.sess x).uid → s.roomID x = none ∧
      (s.sess x).stage.early = true)
    (hclosed : (s'.rooms r).state.closing = true → (s'.rooms r).state.stops = true)
    (hhandles : Handles s r rest l s') : Sound s' := by
  cases hhandles with
  | @declined i x answer hno =>
    exact (h.thin halive (View.Thins.refl _) (h.closed r) fun _ _ =>
      leave_mem_of_join hmail).reply i answer
  | @tookIn i x answer w hyes hw =>
    obtain ⟨hnone, hearly⟩ := hcalm x rfl hyes
    rw [rooms_reply, write_rooms, update_self] at hclosed
    refine ((h.takeIn halive hyes hnone hearly fun _ => leave_mem_of_join hmail).thin ?_ ?_ hclosed
      fun u _ => ?_).reply i answer
    · rw [write_rooms, update_self]
      exact halive
    · rwa [view_write]
    · rw [write_rooms, update_self]
      exact id
  | @left uid w hw hgone =>
    rw [write_rooms, update_self] at hclosed
    refine h.thin halive hw hclosed fun u hu hmem => ?_
    exact hcarried.leave_mem hmail hw (h.closed r) hgone hu hmem

theorem leave {ok : Bool} (hx : (s.sess x).stage = .called (some r))
    (hok : ok = true ∨ (s.rooms r).alive = false) :
    Sound ((s.sendLeave r (s.sess x).uid ok).setStage x .released) := by
  have hsent := h.sendLeave r (s.sess x).uid ok
  have hsess := (sess_sendLeave s r (s.sess x).uid ok).1
  refine hsent.setStage fun q u hu hux => ?_
  obtain ⟨huid, -, hstage⟩ := hsent.sits q u hu
  have hlive := hsent.live q (List.ne_nil_of_mem hu)
  rw [hux, hsess] at huid
  rw [hux, hsess, hx] at hstage
  rcases hstage with hstage | hstage | hmem
  · cases hstage
  · obtain rfl : r = q := by
      cases hstage
      rfl
    rw [alive_sendLeave] at hlive
    rcases hok with rfl | hdead
    · exact .inr (.inr (huid ▸ leave_mem_sendLeave hlive))
    · rw [hdead] at hlive
      cases hlive
  · exact .inr (.inr hmem)

/-- **Rooms and sessions agree**, along every run of orderly steps. -/
theorem step (hcarried : s.Carried) {a : WorldAct} (horderly : s.Orderly defs a)
    (hstep : s.step defs a = some s') : Sound s' := by
  obtain ⟨hcalm, hcloses⟩ := horderly
  have hclosed := hcloses s' hstep
  cases happens_of_step hstep with
  | rejected => exact h
  | created => exact { h.addRoom _ _ with }
  | told => exact { h.post _ _ with }
  | rolledBack => exact { h.sendLeave _ _ _ with }
  | @handled r cb cb' l rest hmail halive =>
    refine h.handle hcarried hmail halive (fun x hx => hcalm l ?_ x hx) (hclosed r rfl)
      (handles_handleLetter (hcarried.nodup r) cb cb' rest l)
    rw [hmail]
    rfl
  | @ran r cb halive =>
    have hroom := hclosed r rfl
    rw [write_rooms, update_self] at hroom
    exact h.thin halive (cb.act_thins (hcarried.nodup r)) hroom fun _ _ => id
  | @finished r halive hstops => exact h.endRoom (hcarried.stops r hstops).2
  | crashed => exact hcalm.elim
  | @loginAgain uid x hx =>
    exact (h.setStage fun _ _ _ _ => .inl rfl).addSess (hcarried.setStage x _) uid
  | loginFirst => exact h.addSess hcarried _
  | @expired x hx => exact { h.setStage (x := x) (t := .unlinked) fun _ _ _ _ => .inl rfl with }
  | marked => exact h.setStage fun _ _ _ _ => .inl rfl
  | @called x hx =>
    refine { h.setStage (x := x) (t := .called (s.roomID x)) fun r u hu hux => ?_ with }
    exact .inr (.inl (congrArg Stage.called (hux ▸ (h.sits r u hu).roomID)))
  | @left x ok r hx =>
    refine h.leave hx (hcalm r ?_)
    rw [hx]
    rfl
  | @leftNone x ok hx =>
    refine h.setStage fun r u hu hux => ?_
    have hstage := (h.sits r u hu).stage
    rw [hux, hx] at hstage
    rcases hstage with hstage | hstage | hmem
    · cases hstage
    · cases hstage
    · exact .inr (.inr hmem)
  | _ => exact { h with }

end Sound

/-! ### Names and members -/

/-- All that is known at the end of an orderly run. -/
structure Agrees (s : World) : Prop where
  carried : s.Carried
  current : Current s.byUID s.sess
  sound : s.Sound

theorem agrees_newWorld : Agrees newWorld :=
  ⟨carried_newWorld, fun _ _ => ⟨nofun, fun h => by cases h.1⟩, sound_newWorld⟩

theorem Agrees.step (h : Agrees s) {a : WorldAct} (horderly : s.Orderly defs a)
    (hstep : s.step defs a = some s') : Agrees s' :=
  ⟨h.carried.step hstep, current_step h.carried h.current hstep,
    h.sound.step h.carried horderly hstep⟩

theorem Agrees.byUID_of_mem (h : Agrees s) (hquiet : s.Quiet) {r : ℕ} {u : String}
    (hu : u ∈ (s.rooms r).state.members) : s.byUID u = some ((s.rooms r).sess u) := by
  obtain ⟨-, hmail, hstages⟩ := hquiet
  obtain ⟨huid, hroomID, hstage⟩ := h.sound.sits r u hu
  have hr : r < s.nrooms := h.carried.lt_of_alive (h.sound.live r (List.ne_nil_of_mem hu))
  have hx : (s.rooms r).sess u < s.nsess := by
    by_contra hle
    rw [h.carried.unborn _ (Nat.not_lt.mp hle)] at hroomID
    cases hroomID
  refine (h.current u _).mpr ⟨?_, huid⟩
  refine (hstages _ hx).resolve_right fun hreleased => ?_
  rw [hreleased, hmail r hr] at hstage
  rcases hstage with hstage | hstage | hmem
  · cases hstage
  · cases hstage
  · cases hmem

theorem Agrees.roomID_step (h : Agrees s) {a : WorldAct} (horderly : s.Orderly defs a)
    (hstep : s.step defs a = some s') {x q : ℕ} (hx : s.roomID x = some q)
    (hq : a.room? ≠ some q) : s'.roomID x = some q := by
  cases happens_of_step hstep with
  | @rolledBack i ok r table e todo =>
    show (s.sendLeave r e.uid ok).roomID x = some q
    rw [roomID_sendLeave]
    exact hx
  | @left y ok r hy =>
    show (s.sendLeave r (s.sess y).uid ok).roomID x = some q
    rw [roomID_sendLeave]
    exact hx
  | @ran r cb halive =>
    exact h.sound.roomID_thin (cb.act_thins (h.carried.nodup r)) (fun hqr => hq (hqr ▸ rfl)) hx
  | @handled r cb cb' l rest hmail halive =>
    have hqr : q ≠ r := fun hqr => hq (hqr ▸ rfl)
    have hcalm := horderly.1 l (by rw [hmail]; rfl)
    have hhandles := handles_handleLetter (h.carried.nodup r) cb cb' rest l
    generalize s.handleLetter r cb cb' rest l = s' at hhandles
    cases hhandles with
    | declined =>
      rw [roomID_reply]
      exact hx
    | @tookIn i y answer w hyes hw =>
      obtain ⟨hnone, hearly⟩ := hcalm y rfl hyes
      have hin := h.sound.takeIn halive hyes hnone hearly fun _ => leave_mem_of_join hmail
      rw [roomID_reply]
      refine hin.roomID_thin (by rwa [view_write]) hqr ((update_of_ne ?_ _ _).trans hx)
      rintro rfl
      rw [hnone] at hx
      cases hx
    | left hw => exact h.sound.roomID_thin hw hqr hx
  | _ => exact hx

/-- **A session carries the name of the room that its player is in**, and no player is in two live
rooms, when nothing is going on; and only the room changes a `RoomID` it has written. -/
theorem roomID_iff_member (defs : Modules) {acts : List WorldAct}
    (horderly : Along (step defs) (Orderly defs) newWorld acts)
    (hrun : run (step defs) newWorld acts = some s) :
    (s.Quiet →
      (∀ x r, s.roomID x = some r ↔ s.byUID (s.sess x).uid = some x ∧ (s.rooms r).alive = true ∧
        (s.sess x).uid ∈ (s.rooms r).state.members) ∧
      ∀ u q r, (s.rooms q).alive = true → u ∈ (s.rooms q).state.members →
        (s.rooms r).alive = true → u ∈ (s.rooms r).state.members → q = r) ∧
    ∀ a s', s.Orderly defs a → s.step defs a = some s' → ∀ x q, s.roomID x = some q →
      a.room? ≠ some q → s'.roomID x = some q := by
  have h : Agrees s := invariant_of_run
    (fun _ _ _ hs hok hstep => hs.step hok hstep) agrees_newWorld horderly hrun
  refine ⟨fun hquiet => ⟨fun x r => ⟨fun hx => ?_, ?_⟩, fun u q r _ huq _ hur => ?_⟩,
    fun a s' hok hstep x q hx hq => h.roomID_step hok hstep hx hq⟩
  · obtain ⟨hmem, hsess⟩ := h.carried.back x r hx
    have hindex := h.byUID_of_mem hquiet hmem
    rw [hsess] at hindex
    exact ⟨hindex, h.sound.live r (List.ne_nil_of_mem hmem), hmem⟩
  · rintro ⟨hindex, -, hmem⟩
    have hsess := Option.some.inj (hindex.symm.trans (h.byUID_of_mem hquiet hmem))
    rw [hsess]
    exact (h.sound.sits r _ (hsess ▸ hmem)).roomID
  · have hsess := (h.byUID_of_mem hquiet huq).symm.trans (h.byUID_of_mem hquiet hur)
    have hq := (h.sound.sits q u huq).roomID
    rw [Option.some.inj hsess, (h.sound.sits r u hur).roomID] at hq
    exact (Option.some.inj hq).symm

def duel : Rule := ⟨"snake", "ranked", 2, 0, 0⟩

/-- Alice and Bob ask for a table, and are seated in room `i`. -/
def seatBoth (i : ℕ) : List WorldAct :=
  [.enqueue "alice" duel 1, .enqueue "bob" duel 1, .createRoom i true,
    .find i, .tell i true, .handle i .done .done, .find i, .tell i true, .handle i .done .done]

theorem roomID_iff_member_duel : ∃ s, run (step Lobby.sampleModules) newWorld
        (.login "alice" :: .login "bob" :: seatBoth 0) = some s ∧
      (s.Quiet ∧ s.roomID 0 = some 0 ∧ (s.rooms 0).state.members = ["alice", "bob"]) ∧
      s.byUID (s.sess 0).uid = some 0 := by
  refine exists_of_run_and (by decide +kernel) fun s hrun hs => ?_
  have hmember := ((roomID_iff_member Lobby.sampleModules (by decide +kernel) hrun).1 hs.1).1 0 0
  exact (hmember.mp hs.2.1).1

/-- Both ask again while they sit in room 0, and are seated in room 1. Room 0 closes and clears the
name of room 1. -/
theorem roomID_cleared_by_other_room : (∃ s, run (step Lobby.sampleModules) newWorld
        (.login "alice" :: .login "bob" :: seatBoth 0 ++ seatBoth 1) = some s ∧
      s.Quiet ∧ s.byUID "alice" = some 0 ∧ s.roomID 0 = some 1 ∧
      (s.rooms 0).alive = true ∧ "alice" ∈ (s.rooms 0).state.members ∧
      (s.rooms 1).alive = true ∧ "alice" ∈ (s.rooms 1).state.members) ∧
    ∃ s, run (step Lobby.sampleModules) newWorld
        (.login "alice" :: .login "bob" :: seatBoth 0 ++ seatBoth 1 ++
          [.callback 0 (.close .done .done), .finish 0]) = some s ∧
      s.Quiet ∧ s.byUID "alice" = some 0 ∧ s.roomID 0 = none ∧
      (s.rooms 1).alive = true ∧ "alice" ∈ (s.rooms 1).state.members :=
  ⟨exists_of_run (step Lobby.sampleModules) newWorld _ (fun s => s.Quiet ∧ _) (by decide +kernel),
    exists_of_run (step Lobby.sampleModules) newWorld _ (fun s => s.Quiet ∧ _) (by decide +kernel)⟩

end World

end RanGame.App
