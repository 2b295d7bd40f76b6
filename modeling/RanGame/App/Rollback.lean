import RanGame.App.Seating

/-!
# When a table fails

If a `Join` fails, `settle` sends a leave message to everyone who has joined before. If the first
`Join` fails, nobody leaves; a leave message that is refused is not sent again; and a room that has
begun to close takes none. `Reclaims` excludes these, and games that do not close an empty room.
-/

namespace RanGame.App

open Function List Machine Match Room

namespace Settling

def room? : Settling → Option ℕ
  | .idle | .creating _ | .refused _ => none
  | .joining r _ _ _ | .found r _ _ _ _ | .told r _ _ _ _
  | .leaving r _ _ | .seated r _ | .failed r _ => some r

def table : Settling → List (Entry UInt32)
  | .idle => []
  | .joining _ done e todo | .found _ done e todo _ | .told _ done e todo _ => done ++ e :: todo
  | .creating T | .leaving _ T _ | .seated _ T | .failed _ T | .refused T => T

/-- The room that the first player of the table has yet to join. -/
def first? : Settling → Option ℕ
  | .joining r [] _ _ | .found r [] _ _ _ | .told r [] _ _ _ => some r
  | _ => none

/-- The room that a leave message is to be sent to. -/
def leaving? : Settling → Option ℕ
  | .leaving r _ (_ :: _) => some r
  | _ => none

theorem room_next (r : ℕ) (done todo : List (Entry UInt32)) :
    (next r done todo).room? = some r := by
  cases todo <;> rfl

theorem table_next (r : ℕ) (done todo : List (Entry UInt32)) :
    (next r done todo).table = done ++ todo := by
  cases todo with
  | nil => exact (append_nil done).symm
  | cons e todo => rfl

theorem fail_eq {r : ℕ} {done todo : List (Entry UInt32)} {e : Entry UInt32}
    (hd : ((done ++ e :: todo).map Entry.uid).Nodup) :
    fail r done e todo = .leaving r (done ++ e :: todo) done := by
  rw [map_append, map_cons] at hd
  have hne : ∀ f ∈ done, decide (f.uid ≠ e.uid) = true := by
    intro f hf
    refine decide_eq_true fun heq => ?_
    exact (nodup_append.mp hd).2.2 _ (mem_map_of_mem hf) _ (mem_cons_self ..) heq
  rw [fail, takeWhile_append_of_pos hne, takeWhile_cons_of_neg (by simp), append_nil]

end Settling

def joins (l : List Letter) : List (ℕ × ℕ) :=
  l.filterMap fun
    | .join i x => some (i, x)
    | .leave _ => none

/-- Somebody is in the room, or the room has closed. -/
def RoomProc.Kept (p : RoomProc) : Prop := p.state.members ≠ [] ∨ p.state.stops = true

instance (p : RoomProc) : Decidable p.Kept := inferInstanceAs (Decidable (_ ∨ _))

/-- Who is in the room, at each point of the settlement. -/
def Phase (p : RoomProc) : Settling → Prop
  | .joining _ done _ _ | .found _ done _ _ _ =>
    p.state.members ⊆ done.map Entry.uid ∧ (done ≠ [] → p.Kept)
  | .told _ done e _ _ => p.state.members ⊆ (done ++ [e]).map Entry.uid ∧ (done ≠ [] → p.Kept)
  | .leaving _ _ todo =>
    (∀ u ∈ p.state.members, u ∈ todo.map Entry.uid ∨ .leave u ∈ p.mailbox) ∧ p.Kept
  | .failed _ _ => (∀ u ∈ p.state.members, .leave u ∈ p.mailbox) ∧ p.Kept
  | _ => True

/-- Nobody comes in, the last to go leaves a closed room, and no leave message is lost. -/
structure Eases (p q : RoomProc) : Prop where
  table : q.table = p.table
  members : q.state.members ⊆ p.state.members
  kept : p.Kept → q.Kept
  leave : ∀ u ∈ q.state.members, .leave u ∈ p.mailbox → .leave u ∈ q.mailbox

variable {p : RoomProc} {done todo : List (Entry UInt32)}

theorem Phase.eases {q : RoomProc} {t : Settling} (h : Phase p t) (hpq : Eases p q) :
    Phase q t := by
  cases t with
  | idle | creating | seated | refused => trivial
  | joining | found | told =>
    exact ⟨List.Subset.trans hpq.members h.1, fun hne => hpq.kept (h.2 hne)⟩
  | leaving r T todo =>
    refine ⟨fun u hu => ?_, hpq.kept h.2⟩
    rcases h.1 u (hpq.members hu) with htodo | hmail
    · exact .inl htodo
    · exact .inr (hpq.leave u hu hmail)
  | failed => exact ⟨fun u hu => hpq.leave u hu (h.1 u (hpq.members hu)), hpq.kept h.2⟩

theorem phase_fail {r : ℕ} {e : Entry UInt32} (hd : ((done ++ e :: todo).map Entry.uid).Nodup)
    (hsub : p.state.members ⊆ done.map Entry.uid) (hkept : p.Kept) :
    Phase p (.fail r done e todo) := by
  rw [Settling.fail_eq hd]
  exact ⟨fun u hu => .inl (hsub hu), hkept⟩

theorem phase_next {r : ℕ} (hsub : p.state.members ⊆ done.map Entry.uid) (hkept : p.Kept) :
    Phase p (.next r done todo) := by
  cases todo with
  | nil => trivial
  | cons e todo => exact ⟨hsub, fun _ => hkept⟩

namespace World

variable {defs : Modules} {s s' : World}

/-- No room crashes, and the leave messages of a failed table are accepted. -/
def Careful (s : World) : WorldAct → Prop
  | .rollback i ok => ∀ r ∈ (s.settling i).leaving?, ok = true ∨ (s.rooms r).alive = false
  | .crash _ => False
  | _ => True

instance decidableCareful (a : WorldAct) : Decidable (s.Careful a) := by
  induction a using WorldAct.casesOn <;> unfold Careful <;> infer_instance

/-- The players of a table are different; after the first join, or its failure, somebody is in the
room or it has closed; rooms that are empty or begin to close close. -/
def Reclaims (defs : Modules) (s : World) (a : WorldAct) : Prop :=
  s.Careful a ∧ ∀ s' ∈ s.step defs a,
    (∀ i < s'.tables, ((s'.settling i).table.map Entry.uid).Nodup) ∧
    (∀ i < s.tables, ∀ r ∈ (s.settling i).first?, (s'.settling i).first? = none →
      (s'.rooms r).Kept) ∧
    ∀ r ∈ a.room?, ((s'.rooms r).state.closing = true → (s'.rooms r).state.stops = true) ∧
      ((s.rooms r).state.members ≠ [] → (s'.rooms r).Kept)

instance (a : WorldAct) : Decidable (s.Reclaims defs a) := inferInstanceAs (Decidable (_ ∧ _))

/-- Every room belongs to a settlement, which knows who is in it. -/
structure Tidy (s : World) : Prop where
  idle : ∀ i, s.tables ≤ i → s.settling i = .idle
  owner : ∀ i r, (s.settling i).room? = some r ↔ r < s.nrooms ∧ (s.rooms r).table = i
  distinct : ∀ i, ((s.settling i).table.map Entry.uid).Nodup
  joins : ∀ r, joins (s.rooms r).mailbox = [] ∨ ∃ done e todo x,
    joins (s.rooms r).mailbox = [((s.rooms r).table, x)] ∧
      s.settling (s.rooms r).table = .told r done e todo x
  phase : ∀ i r, (s.settling i).room? = some r → Phase (s.rooms r) (s.settling i)
  closed : ∀ r, (s.rooms r).state.closing = true → (s.rooms r).state.stops = true
  dead : ∀ r < s.nrooms, (s.rooms r).alive = false → (s.rooms r).state.stops = true

theorem tidy_newWorld : Tidy newWorld where
  idle := fun _ _ => rfl
  owner := fun _ _ => ⟨nofun, fun h => absurd h.1 (Nat.not_lt_zero _)⟩
  distinct := fun _ => nodup_nil
  joins := fun _ => .inl rfl
  phase := nofun
  closed := nofun
  dead := fun _ h => absurd h (Nat.not_lt_zero _)

namespace Tidy

variable {i r x : ℕ} {t : Settling} {p : RoomProc} {todo done : List (Entry UInt32)}
  {e : Entry UInt32} {rest : List Letter}

section

variable (h : Tidy s)

include h

theorem lt_tables (hi : s.settling i ≠ .idle) : i < s.tables := by
  by_contra hle
  exact hi (h.idle i (Nat.not_lt.mp hle))

theorem joins_eq_nil (hr : (s.settling i).room? = some r)
    (hi : ∀ done e todo x, s.settling i ≠ .told r done e todo x) :
    App.joins (s.rooms r).mailbox = [] := by
  refine (h.joins r).resolve_right ?_
  rintro ⟨done, e, todo, x, -, htold⟩
  rw [((h.owner i r).mp hr).2] at htold
  exact hi done e todo x htold

theorem move {n : ℕ} {f : ℕ → Option ℕ} (hi : i < s.tables)
    (hn : n = s.nrooms ∨ r = s.nrooms ∧ n = s.nrooms + 1) (hr : r < n)
    (hprev : (s.settling i).room? = some r ∨ (s.settling i).room? = none ∧ r = s.nrooms)
    (htable : p.table = i) (hroom : t.room? = some r) (hdistinct : (t.table.map Entry.uid).Nodup)
    (hphase : Phase p t)
    (hjoins : App.joins p.mailbox = [] ∨ ∃ done e todo x, App.joins p.mailbox = [(i, x)] ∧
      t = .told r done e todo x)
    (hclosed : p.state.closing = true → p.state.stops = true)
    (hdead : p.alive = false → p.state.stops = true) : Tidy { s with
      nrooms := n
      rooms := update s.rooms r p
      roomID := f
      settling := update s.settling i t } := by
  -- no other settlement has the room, and this one has no other room
  have hother : ∀ j q, j ≠ i → (s.settling j).room? = some q → q ≠ r := by
    rintro j q hj hq rfl
    obtain ⟨hlt, hown⟩ := (h.owner j q).mp hq
    rcases hprev with hprev | ⟨-, rfl⟩
    · exact hj (hown.symm.trans ((h.owner i q).mp hprev).2)
    · exact Nat.lt_irrefl _ hlt
  have hsame : ∀ q, (s.settling i).room? = some q → q = r := by
    intro q hq
    rcases hprev with hprev | ⟨hprev, -⟩
    · exact Option.some.inj (hq.symm.trans hprev)
    · rw [hprev] at hq
      cases hq
  refine ⟨?_, ?_, ?_, ?_, ?_, ?_, ?_⟩
  · exact (forall_update_iff s.settling fun j t => s.tables ≤ j → t = .idle).mpr
      ⟨fun hle => absurd hi (Nat.not_lt.mpr hle), fun j _ => h.idle j⟩
  · intro j q
    by_cases hj : j = i
    · subst hj
      simp only [update_self, hroom]
      by_cases hq : q = r
      · subst hq
        rw [update_self]
        exact ⟨fun _ => ⟨hr, htable⟩, fun _ => rfl⟩
      · rw [update_of_ne hq]
        refine ⟨fun heq => absurd (Option.some.inj heq).symm hq, fun hown => absurd ?_ hq⟩
        have hlt : q < s.nrooms := by omega
        exact hsame q ((h.owner j q).mpr ⟨hlt, hown.2⟩)
    · simp only [update_of_ne hj]
      by_cases hq : q = r
      · subst hq
        rw [update_self, htable]
        exact ⟨fun heq => absurd rfl (hother j q hj heq), fun heq => absurd heq.2.symm hj⟩
      · rw [update_of_ne hq, h.owner j q]
        have hlt : q < s.nrooms ↔ q < n := by omega
        rw [hlt]
  · exact (forall_update_iff s.settling fun _ t => (t.table.map Entry.uid).Nodup).mpr
      ⟨hdistinct, fun j _ => h.distinct j⟩
  · intro q
    by_cases hq : q = r
    · subst hq
      simp only [update_self, htable]
      exact hjoins
    · simp only [update_of_ne hq]
      rcases h.joins q with hnil | ⟨done, e, todo, x, hone, htold⟩
      · exact .inl hnil
      · refine .inr ⟨done, e, todo, x, hone, (update_of_ne ?_ _ _).trans htold⟩
        intro heq
        rw [heq] at htold
        exact hq (hsame q (by rw [htold]; rfl))
  · intro j q
    by_cases hj : j = i
    · subst hj
      simp only [update_self, hroom]
      rintro ⟨⟩
      rw [update_self]
      exact hphase
    · simp only [update_of_ne hj]
      intro hq
      rw [update_of_ne (hother j q hj hq)]
      exact h.phase j q hq
  · exact (forall_update_iff s.rooms fun _ p => p.state.closing = true →
      p.state.stops = true).mpr ⟨hclosed, fun q _ => h.closed q⟩
  · refine (forall_update_iff s.rooms fun q p => q < n → p.alive = false →
      p.state.stops = true).mpr ⟨fun _ => hdead, fun q hq hlt => h.dead q ?_⟩
    omega

theorem settle {t₀ : Settling} (hi : s.settling i = t₀) (hr : t₀.room? = some r)
    (hnot : ∀ done e todo x, t₀ ≠ .told r done e todo x) (hroom : t.room? = some r)
    (htable : t.table = t₀.table) (hphase : Phase (s.rooms r) t₀ → Phase (s.rooms r) t) :
    Tidy (s.settle i t) := by
  subst hi
  obtain ⟨hlt, hown⟩ := (h.owner i r).mp hr
  have hbusy : s.settling i ≠ .idle := by
    intro hidle
    rw [hidle] at hr
    cases hr
  have hmove := h.move (t := t) (p := s.rooms r) (f := s.roomID) (h.lt_tables hbusy) (.inl rfl)
    hlt (.inl hr) hown hroom (htable ▸ h.distinct i) (hphase (h.phase i r hr))
    (.inl (h.joins_eq_nil hr hnot)) (h.closed r) (h.dead r hlt)
  rwa [update_eq_self] at hmove

theorem setRoom {f : ℕ → Option ℕ} (hr : r < s.nrooms) (heases : Eases (s.rooms r) p)
    (hjoins : App.joins p.mailbox = App.joins (s.rooms r).mailbox ∨ App.joins p.mailbox = [])
    (hclosed : p.state.closing = true → p.state.stops = true)
    (hdead : p.alive = false → p.state.stops = true) :
    Tidy { s with rooms := update s.rooms r p, roomID := f } := by
  have hroom : (s.settling (s.rooms r).table).room? = some r := (h.owner _ r).mpr ⟨hr, rfl⟩
  have hbusy : s.settling (s.rooms r).table ≠ .idle := by
    intro hidle
    rw [hidle] at hroom
    cases hroom
  have hmove := h.move (p := p) (f := f) (h.lt_tables hbusy) (.inl rfl) hr (.inl hroom)
    heases.table hroom (h.distinct _) ((h.phase _ r hroom).eases heases) ?_ hclosed hdead
  · rwa [update_eq_self] at hmove
  · rcases hjoins with hsame | hnil
    · rw [hsame]
      exact h.joins r
    · exact .inl hnil

theorem settleNone {n : ℕ} {m : Maker UInt32} (hn : s.tables ≤ n) (hi : i < n)
    (hprev : (s.settling i).room? = none) (hroom : t.room? = none)
    (hdistinct : (t.table.map Entry.uid).Nodup) :
    Tidy { s with maker := m, tables := n, settling := update s.settling i t } where
  __ := h
  idle := (forall_update_iff s.settling fun j t => n ≤ j → t = .idle).mpr
    ⟨fun hle => absurd hi (Nat.not_lt.mpr hle), fun j _ hle => h.idle j (hn.trans hle)⟩
  owner := by
    refine (forall_update_iff s.settling fun j t => ∀ r, t.room? = some r ↔
      r < s.nrooms ∧ (s.rooms r).table = j).mpr ⟨fun r => ?_, fun j _ => h.owner j⟩
    rw [hroom, ← h.owner i r, hprev]
  distinct := (forall_update_iff s.settling fun _ t => (t.table.map Entry.uid).Nodup).mpr
    ⟨hdistinct, fun j _ => h.distinct j⟩
  joins := by
    intro r
    refine (h.joins r).imp id ?_
    rintro ⟨done, e, todo, x, hone, htold⟩
    refine ⟨done, e, todo, x, hone, (update_of_ne ?_ _ _).trans htold⟩
    intro heq
    rw [heq] at htold
    rw [htold] at hprev
    cases hprev
  phase := by
    refine (forall_update_iff s.settling fun j t => ∀ r, t.room? = some r →
      Phase (s.rooms r) t).mpr ⟨fun r hr => ?_, fun j _ => h.phase j⟩
    rw [hroom] at hr
    cases hr

theorem post_leave (hr : r < s.nrooms) (uid : String) : Tidy (s.post r (.leave uid)) := by
  refine h.setRoom hr ⟨rfl, List.Subset.refl _, id, fun u _ => mem_append_left _⟩ (.inl ?_)
    (h.closed r) (h.dead r hr)
  simp [App.joins]

theorem sendLeave (hcarried : s.Carried) (r : ℕ) (uid : String) (ok : Bool) :
    Tidy (s.sendLeave r uid ok) := by
  rw [World.sendLeave]
  split
  next hok => exact h.post_leave (hcarried.lt_of_alive (Bool.and_eq_true_iff.mp hok).1) uid
  · exact h

theorem rollback (hcarried : s.Carried) {ok : Bool} {T : List (Entry UInt32)}
    (hi : s.settling i = .leaving r T (e :: todo)) (hok : ok = true ∨ (s.rooms r).alive = false) :
    Tidy ((s.sendLeave r e.uid ok).settle i (.leaving r T todo)) := by
  have hsent := h.sendLeave hcarried r e.uid ok
  have hi' : (s.sendLeave r e.uid ok).settling i = .leaving r T (e :: todo) := by
    rw [settling_sendLeave]
    exact hi
  refine hsent.settle hi' rfl nofun rfl rfl fun ⟨hwho, hkept⟩ => ⟨fun u hu => ?_, hkept⟩
  rcases hwho u hu with htodo | hmail
  · rcases mem_cons.mp htodo with rfl | htodo
    · refine .inr ?_
      cases halive : (s.rooms r).alive with
      | true =>
        obtain rfl : ok = true := hok.resolve_right (by rw [halive]; decide)
        exact leave_mem_sendLeave halive
      | false =>
        -- an actor that has ended has closed its room
        have hroom : (s.settling i).room? = some r := by
          rw [hi]
          rfl
        have hstops := h.dead r ((h.owner i r).mp hroom).1 halive
        rw [state_sendLeave, (hcarried.stops r hstops).2] at hu
        cases hu
    · exact .inl htodo
  · exact .inr hmail

theorem created (hi : s.settling i = .creating (e :: todo)) (maxPlayers : ℤ) :
    Tidy ((s.addRoom i maxPlayers).settle i (.joining s.nrooms [] e todo)) := by
  have hdistinct := h.distinct i
  rw [hi] at hdistinct
  exact h.move (h.lt_tables (by rw [hi]; nofun)) (.inr ⟨rfl, rfl⟩) (Nat.lt_succ_self _)
    (.inr ⟨by rw [hi]; rfl, rfl⟩) rfl rfl hdistinct ⟨nil_subset _, fun hne => absurd rfl hne⟩
    (.inl rfl) nofun nofun

theorem told (hi : s.settling i = .found r done e todo x) :
    Tidy ((s.post r (.join i x)).settle i (.told r done e todo x)) := by
  have hroom : (s.settling i).room? = some r := by
    rw [hi]
    rfl
  obtain ⟨hlt, hown⟩ := (h.owner i r).mp hroom
  have hdistinct := h.distinct i
  have hphase := h.phase i r hroom
  rw [hi] at hdistinct hphase
  refine h.move (h.lt_tables (by rw [hi]; nofun)) (.inl rfl) hlt (.inl hroom) hown rfl hdistinct
    ⟨fun u hu => ?_, hphase.2⟩ (.inr ⟨done, e, todo, x, ?_, rfl⟩) (h.closed r) (h.dead r hlt)
  · rw [map_append]
    exact mem_append_left _ (hphase.1 hu)
  · show App.joins ((s.rooms r).mailbox ++ [.join i x]) = [(i, x)]
    have hnil := h.joins_eq_nil hroom (by rw [hi]; nofun)
    rw [App.joins] at hnil ⊢
    rw [filterMap_append, hnil]
    rfl

theorem fail {t₀ : Settling} (hi : s.settling i = t₀)
    (ht : t₀ = .joining r done e todo ∨ ∃ x, t₀ = .found r done e todo x)
    (hfirst : done = [] → (s.rooms r).Kept) : Tidy (s.settle i (.fail r done e todo)) := by
  have hdistinct := h.distinct i
  rw [hi] at hdistinct
  have hphase : Phase (s.rooms r) (.joining r done e todo) →
      Phase (s.rooms r) (.fail r done e todo) := by
    rintro ⟨hsub, hkept⟩
    refine phase_fail ?_ hsub ?_
    · rcases ht with rfl | ⟨x, rfl⟩ <;> exact hdistinct
    · by_cases hdone : done = []
      · exact hfirst hdone
      · exact hkept hdone
  rcases ht with rfl | ⟨x, rfl⟩ <;> exact h.settle hi rfl nofun rfl rfl hphase

end

theorem kept_of_thins {w : View} (hw : (s.view r).Thins w) (hp : p.state = w.room)
    (hempties : (s.rooms r).state.members ≠ [] → p.Kept) (hkept : (s.rooms r).Kept) : p.Kept := by
  rcases hkept with hne | hstops
  · exact hempties hne
  · refine .inr ?_
    rw [hp]
    exact hw.stopped hstops

theorem thin (h : Tidy s) {w : View} {l : List Letter} (hr : r < s.nrooms)
    (halive : (s.rooms r).alive = true) (hw : (s.view r).Thins w)
    (hclosed : w.room.closing = true → w.room.stops = true)
    (hempties : (s.rooms r).state.members ≠ [] → ((s.write r w l).rooms r).Kept)
    (hleave : ∀ u ∈ w.room.members, .leave u ∈ (s.rooms r).mailbox → .leave u ∈ l)
    (hjoins : App.joins l = App.joins (s.rooms r).mailbox) : Tidy (s.write r w l) := by
  rw [write_rooms, update_self] at hempties
  refine h.setRoom hr ⟨rfl, hw.members.subset, kept_of_thins hw rfl hempties, hleave⟩ (.inl hjoins)
    hclosed fun hdead => ?_
  rw [show (s.rooms r).alive = false from hdead] at halive
  cases halive

theorem told_of_mailbox (h : Tidy s) (hmail : (s.rooms r).mailbox = .join i x :: rest) :
    (s.rooms r).table = i ∧
      App.joins rest = [] ∧ ∃ done e todo, s.settling i = .told r done e todo x := by
  have hone := h.joins r
  rw [hmail] at hone
  rcases hone with hnil | ⟨done, e, todo, y, hone, htold⟩
  · cases hnil
  · have hcons : (i, x) :: App.joins rest = [((s.rooms r).table, y)] := hone
    rw [cons.injEq, Prod.mk.injEq] at hcons
    obtain ⟨⟨rfl, rfl⟩, hrest⟩ := hcons
    exact ⟨rfl, hrest, done, e, todo, htold⟩

theorem join (h : Tidy s) (hcarried : s.Carried) (hmail : (s.rooms r).mailbox = .join i x :: rest)
    (halive : (s.rooms r).alive = true) (hhandles : Handles s r rest (.join i x) s')
    (hfirst : (s.settling i).first? = some r → (s'.settling i).first? = none → (s'.rooms r).Kept)
    (hclosed : (s'.rooms r).state.closing = true → (s'.rooms r).state.stops = true)
    (hempties : (s.rooms r).state.members ≠ [] → (s'.rooms r).Kept) : Tidy s' := by
  obtain ⟨hown, hrest, done, e, todo, hi⟩ := h.told_of_mailbox hmail
  have hroom : (s.settling i).room? = some r := by
    rw [hi]
    rfl
  have hr := ((h.owner i r).mp hroom).1
  have hbusy : i < s.tables := h.lt_tables (by rw [hi]; nofun)
  obtain ⟨hsub, hkept⟩ : Phase (s.rooms r) (.told r done e todo x) := hi ▸ h.phase i r hroom
  have hdistinct : ((done ++ e :: todo).map Entry.uid).Nodup := by
    have hdistinct := h.distinct i
    rwa [hi] at hdistinct
  have huid : (s.sess x).uid = e.uid := (hcarried.found i e.uid x (by rw [hi]; rfl)).2
  have hnotDead : ∀ {b : Bool}, (s.rooms r).alive = false → b = true := by
    intro b hdead
    rw [halive] at hdead
    cases hdead
  cases hhandles with
  | @declined _ _ answer hno hanswer =>
    have hi' : (s.write r (s.view r) rest).settling i = .told r done e todo x := hi
    rcases hanswer with ⟨⟨err, rfl⟩, hout⟩ | ⟨hin, rfl⟩
    · rw [reply_err hi'] at hfirst hclosed hempties ⊢
      rw [settle_rooms, write_rooms, update_self] at hfirst hclosed hempties
      refine h.move hbusy (.inl rfl) hr (.inl hroom) hown rfl hdistinct
        (phase_fail hdistinct (fun u hu => ?_) ?_) (.inl hrest) hclosed hnotDead
      · -- the player whose join has failed is not in the room
        rcases hout with hc | hnot
        · have hu : u ∈ (s.rooms r).state.members := hu
          rw [(hcarried.stops r (h.closed r hc)).2] at hu
          cases hu
        · have hmem := hsub hu
          rw [map_append, mem_append] at hmem
          rcases hmem with hmem | hmem
          · exact hmem
          · rw [map_singleton, mem_singleton, ← huid] at hmem
            exact absurd (hmem ▸ hu) hnot
      · by_cases hdone : done = []
        · subst hdone
          refine hfirst (by rw [hi]; rfl) ?_
          rw [settle_settling, update_self]
          rfl
        · exact hkept hdone
    · rw [reply_ok hi'] at hclosed ⊢
      rw [settle_rooms, write_rooms, update_self] at hclosed
      refine h.move hbusy (.inl rfl) hr (.inl hroom) hown (Settling.room_next ..) ?_
        (phase_next hsub (.inl (ne_nil_of_mem hin))) (.inl hrest) hclosed hnotDead
      rw [Settling.table_next, append_assoc]
      exact hdistinct
  | @tookIn _ _ answer w hyes hw hanswer =>
    rw [write_write] at hfirst hclosed hempties ⊢
    have hi' : (s.write r w rest).settling i = .told r done e todo x := hi
    have hsub' : w.room.members ⊆ (done ++ [e]).map Entry.uid := by
      intro u hu
      rcases mem_append.mp (hw.members.subset hu) with hu | hu
      · exact hsub hu
      · rw [mem_singleton.mp hu, huid]
        exact mem_map_of_mem (mem_append_right _ (mem_singleton.mpr rfl))
    rw [rooms_reply, write_rooms, update_self] at hfirst hclosed hempties
    have hkept' : done ≠ [] → RoomProc.Kept
        { s.rooms r with state := w.room, sess := w.sess, mailbox := rest } := by
      intro hdone
      rcases hkept hdone with hne | hstops
      · exact hempties hne
      · exact .inr (hw.stopped hstops)
    rcases hanswer with rfl | rfl
    · rw [reply_none]
      have hmove := h.move (f := w.roomID) (t := s.settling i)
        (p := { s.rooms r with state := w.room, sess := w.sess, mailbox := rest })
        hbusy (.inl rfl) hr (.inl hroom) hown hroom (h.distinct i)
        (by rw [hi]; exact ⟨hsub', hkept'⟩) (.inl hrest) hclosed hnotDead
      rwa [update_eq_self] at hmove
    · rw [reply_ok hi'] at hfirst ⊢
      refine h.move hbusy (.inl rfl) hr (.inl hroom) hown (Settling.room_next ..) ?_
        (phase_next hsub' ?_) (.inl hrest) hclosed hnotDead
      · rw [Settling.table_next, append_assoc]
        exact hdistinct
      · by_cases hdone : done = []
        · subst hdone
          refine hfirst (by rw [hi]; rfl) ?_
          rw [settle_settling, update_self]
          cases todo <;> rfl
        · exact hkept' hdone

theorem leave (h : Tidy s) (hcarried : s.Carried) {uid : String}
    (hmail : (s.rooms r).mailbox = .leave uid :: rest) (halive : (s.rooms r).alive = true)
    (hhandles : Handles s r rest (.leave uid) s')
    (hclosed : (s'.rooms r).state.closing = true → (s'.rooms r).state.stops = true)
    (hempties : (s.rooms r).state.members ≠ [] → (s'.rooms r).Kept) : Tidy s' := by
  cases hhandles with
  | @left _ w hw hgone =>
    rw [write_rooms, update_self] at hclosed
    refine h.thin (hcarried.lt_of_alive halive) halive hw hclosed hempties (fun u hu hmem => ?_) ?_
    · exact hcarried.leave_mem hmail hw (h.closed r) hgone hu hmem
    · rw [hmail]
      rfl

/-- **Rooms and settlements go together**, if rooms are reclaimed. -/
theorem step (h : Tidy s) (hcarried : s.Carried) {a : WorldAct} (hok : s.Reclaims defs a)
    (hstep : s.step defs a = some s') : Tidy s' := by
  obtain ⟨hcareful, hafter⟩ := hok
  obtain ⟨hdistinct, hfirst, hrooms⟩ := hafter s' hstep
  cases happens_of_step hstep with
  | rejected => exact h
  | waits | expired | called => exact { h with }
  | @formed _ _ _ _ matched =>
    refine h.settleNone (Nat.le_succ _) (Nat.lt_succ_self _) (by rw [h.idle _ le_rfl]; rfl) rfl ?_
    have hnew : ((update s.settling s.tables (.creating matched) s.tables).table.map
        Entry.uid).Nodup := hdistinct s.tables (Nat.lt_succ_self _)
    rwa [update_self] at hnew
  | @refused i ok e todo hi =>
    have hdistinct := h.distinct i
    rw [hi] at hdistinct
    exact h.settleNone le_rfl (h.lt_tables (by rw [hi]; nofun)) (by rw [hi]; rfl) rfl hdistinct
  | created hi => exact h.created hi _
  | found hi => exact h.settle hi rfl nofun rfl rfl id
  | @notFound i r done e todo hi | @notTold i _ r done e todo _ hi =>
    refine h.fail hi (by simp) fun hdone => ?_
    subst hdone
    refine hfirst i (h.lt_tables (by rw [hi]; nofun)) r (by rw [hi]; rfl) ?_
    rw [settle_settling, update_self]
    rfl
  | told hi => exact h.told hi
  | @rolledBack i ok r T e todo hi => exact h.rollback hcarried hi (hcareful r (by rw [hi]; rfl))
  | failed hi =>
    refine h.settle hi rfl nofun rfl rfl ?_
    rintro ⟨hwho, hkept⟩
    exact ⟨fun u hu => (hwho u hu).resolve_left not_mem_nil, hkept⟩
  | @handled r cb cb' l rest hmail halive =>
    obtain ⟨hclosed, hempties⟩ := hrooms r rfl
    have hhandles := handles_handleLetter (hcarried.nodup r) cb cb' rest l
    cases l with
    | join i x =>
      refine h.join hcarried hmail halive hhandles (fun hone => ?_) hclosed hempties
      obtain ⟨-, -, done, e, todo, hi⟩ := h.told_of_mailbox hmail
      exact hfirst i (h.lt_tables (by rw [hi]; nofun)) r hone
    | leave uid => exact h.leave hcarried hmail halive hhandles hclosed hempties
  | @ran r cb halive =>
    obtain ⟨hclosed, hempties⟩ := hrooms r rfl
    rw [write_rooms, update_self] at hclosed
    exact h.thin (hcarried.lt_of_alive halive) halive (cb.act_thins (hcarried.nodup r)) hclosed
      hempties (fun _ _ => id) rfl
  | @finished r halive hstops =>
    refine h.setRoom (hcarried.lt_of_alive halive) ⟨rfl, List.Subset.refl _, id, fun u hu => ?_⟩
      (.inr rfl) (h.closed r) fun _ => hstops
    have hu : u ∈ (s.rooms r).state.members := hu
    rw [(hcarried.stops r hstops).2] at hu
    cases hu
  | crashed => exact hcareful.elim
  | loginAgain | loginFirst | marked | leftNone => exact { h with }
  | @left x ok r hx => exact { h.sendLeave hcarried r _ ok with }

end Tidy

/-- **A failed table leaves nothing behind** once its failure has been told and the mailbox of its
room is empty: the room has closed, and no player is in it or carries its name. -/
theorem failed_room_closed (defs : Modules) {acts : List WorldAct}
    (hreclaims : Along (step defs) (Reclaims defs) newWorld acts)
    (hrun : run (step defs) newWorld acts = some s) {i r : ℕ} {T : List (Entry UInt32)}
    (hfailed : s.settling i = .failed r T) (hmail : (s.rooms r).mailbox = []) :
    (∀ e ∈ T, e.uid ∉ (s.rooms r).state.members ∧
      ∀ x, (s.sess x).uid = e.uid → s.roomID x ≠ some r) ∧
    (s.rooms r).state.closing = true ∧ (s.rooms r).state.stops = true := by
  obtain ⟨hcarried, htidy⟩ : s.Carried ∧ s.Tidy :=
    invariant_of_run (I := fun s => s.Carried ∧ s.Tidy)
      (fun _ _ _ hs hok hstep => ⟨hs.1.step hstep, hs.2.step hs.1 hok hstep⟩)
      ⟨carried_newWorld, tidy_newWorld⟩ hreclaims hrun
  obtain ⟨hwho, hkept⟩ : Phase (s.rooms r) (.failed r T) :=
    hfailed ▸ htidy.phase i r (by rw [hfailed]; rfl)
  have hnobody : (s.rooms r).state.members = [] := by
    refine eq_nil_iff_forall_not_mem.mpr fun u hu => ?_
    have hleave := hwho u hu
    rw [hmail] at hleave
    cases hleave
  have hstops : (s.rooms r).state.stops = true := hkept.resolve_left (fun hne => hne hnobody)
  refine ⟨fun e _ => ⟨?_, fun x _ hx => ?_⟩, (hcarried.stops r hstops).1, hstops⟩
  · rw [hnobody]
    exact not_mem_nil
  · have hmem := (hcarried.back x r hx).1
    rw [hnobody] at hmem
    cases hmem

/-- Alice and Bob ask for a table for two, and a room is created. -/
def bothAsk : List WorldAct :=
  [.login "alice", .login "bob", .enqueue "alice" ⟨"snake", "ranked", 2, 0, 0⟩ 1,
    .enqueue "bob" ⟨"snake", "ranked", 2, 0, 0⟩ 2, .createRoom 0 true]

/-- Alice joins, Bob's session is gone, and Alice is sent a leave message. -/
def bobIsGone (accepted : Bool) : List WorldAct :=
  [.find 0, .tell 0 true, .handle 0 .done .done, .expire 1, .find 0, .rollback 0 accepted,
    .rollback 0 true]

theorem failed_room_closed_second : ∃ s, run (step Lobby.sampleModules) newWorld
        (bothAsk ++ bobIsGone true ++ [.handle 0 .done (.close .done .done)]) = some s ∧
      ((s.settling 0).table.map Entry.uid = ["alice", "bob"] ∧ (s.rooms 0).mailbox = []) ∧
      (s.rooms 0).state.stops = true := by
  obtain ⟨s, hrun, ⟨T, hfailed, hT⟩, hmail⟩ : ∃ s, run (step Lobby.sampleModules) newWorld
      (bothAsk ++ bobIsGone true ++ [.handle 0 .done (.close .done .done)]) = some s ∧
        (∃ T, s.settling 0 = .failed 0 T ∧ T.map Entry.uid = ["alice", "bob"]) ∧
        (s.rooms 0).mailbox = [] :=
    ⟨_, rfl, ⟨_, rfl, rfl⟩, rfl⟩
  have hclosed := failed_room_closed Lobby.sampleModules (by decide +kernel) hrun hfailed hmail
  exact ⟨s, hrun, ⟨by rw [hfailed]; exact hT, hmail⟩, hclosed.2.2⟩

/-- Alice's session is gone before the first join: the room stays, empty. Bob's join fails and the
leave message to Alice is refused: Alice stays in it. -/
theorem failed_room_open : (∃ s, run (step Lobby.sampleModules) newWorld
        (bothAsk ++ [.expire 0, .find 0, .rollback 0 true]) = some s ∧
      (∃ T, s.settling 0 = .failed 0 T ∧ T.map Entry.uid = ["alice", "bob"]) ∧
      (s.rooms 0).mailbox = [] ∧ (s.rooms 0).alive = true ∧
      (s.rooms 0).state.closing = false ∧ (s.rooms 0).state.stops = false) ∧
    ∃ s, run (step Lobby.sampleModules) newWorld (bothAsk ++ bobIsGone false) = some s ∧
      (∃ T, s.settling 0 = .failed 0 T ∧ T.map Entry.uid = ["alice", "bob"]) ∧
      (s.rooms 0).mailbox = [] ∧ "alice" ∈ (s.rooms 0).state.members ∧
      (s.sess 0).uid = "alice" ∧ s.roomID 0 = some 0 ∧ (s.rooms 0).state.stops = false :=
  ⟨⟨_, rfl, ⟨_, rfl, rfl⟩, rfl, rfl, rfl, rfl⟩,
    ⟨_, rfl, ⟨_, rfl, rfl⟩, rfl, by decide +kernel, rfl, rfl, rfl⟩⟩

end World

end RanGame.App
