import RanGame.Session.Order

/-!
# Gaps in the reliable channel of a live connection

A connection whose write channel is full refuses a frame, every caller ignores the refusal, and the
next frame is handed over as if nothing had happened. With one pusher, and the schedule of the
previous module, there is no other way to a gap.
-/

namespace RanGame.Session

open Function Machine Delivery Conn Pusher Transport

/-- `q` is the successor of the last number in the list. -/
def Follows (l : List UInt32) (q : UInt32) : Prop := ∀ r ∈ l.getLast?, q.toNat = r.toNat + 1

/-- Has the push passed the check of the state? -/
def Pusher.isRouting : Pusher → Bool
  | .routing _ _ => true
  | _ => false

namespace Delivery

variable {writeCap : ℕ}

/-- The reliable frame that an action offers to a connection. -/
def offered {n : ℕ} (s : Delivery n) : DeliveryAct n → Option (Frame × ConnID)
  | .deliver i _ =>
    match s.pushers i with
    | .pushing f false c => some (f, c)
    | _ => none
  | .write c _ =>
    match (s.conns c).handler with
    | .writing (f :: _) _ => some (f, c)
    | _ => none
  | _ => none

/-- A reliable frame offered to an open connection finds room and can be encoded. -/
def Roomy {n : ℕ} (writeCap : ℕ) (s : Delivery n) (a : DeliveryAct n) : Prop :=
  ∀ p ∈ s.offered a, (s.conns p.2).closed = true ∨
    (encodable p.1 = true ∧ (s.conns p.2).queued < writeCap)

instance {n : ℕ} (s : Delivery n) (a : DeliveryAct n) : Decidable (s.Roomy writeCap a) :=
  inferInstanceAs (Decidable (∀ p ∈ s.offered a, _))

variable {k : Conn} {f : Frame} {c : ConnID}

/-- An offer that meets the condition is refused only by a closed connection. -/
theorem closed_of_refused (hroom : k.closed = true ∨ (encodable f = true ∧ k.queued < writeCap))
    (h : k.canAnswer writeCap (encodable f) false = true) : k.closed = true := by
  rcases hroom with hclosed | ⟨hf, hlt⟩
  · exact hclosed
  · simpa [canAnswer, hf, Nat.not_le.mpr hlt] using h

variable {s s' : Delivery 1}

/-- The push `q` will reach connection `c` unless `c` is closed. -/
def Ready (s : Delivery 1) (q : UInt32) (c : ConnID) : Prop :=
  (s.pushers 0).decided = some (q, c) ∨ ((s.pushers 0).undecided = some q ∧ s.bound = some c ∧
      (s.st = .stateOnline ∨ (s.pushers 0).isRouting = true))

/-- Is a numbered push on its way to connection `c`? -/
def Expected (s : Delivery 1) (c : ConnID) : Prop := ∃ q, s.Aimed 0 q c

theorem Ready.aimed {q : UInt32} (h : s.Ready q c) : s.Aimed 0 q c := by
  rcases h with hdec | ⟨hun, hbound, -⟩
  · exact .inr hdec
  · exact .inl ⟨hun, hbound⟩

/-- What an open connection was handed and waits for is consecutive, a push that will reach it comes
next, and a bound connection is caught up. -/
structure Intact (s : Delivery 1) (c : ConnID) (k : Conn) : Prop where
  consecutive : k.closed = false → Consecutive k.due
  follows : k.closed = false → ∀ q, s.Ready q c → Follows k.handed q
  caught_up : k.closed = false → k.handler.early = false → s.bound = some c → ¬ s.Expected c →
    (s.st = .stateOnline ∨ k.handler.frames ≠ []) → ∀ r ∈ k.due.getLast?, r = s.down.nextSeq
  unsent : k.secret = true → k.handler.frames ≠ [] → k.handed = []

/-- The invariant of runs with one pusher. -/
structure Gapless (s : Delivery 1) : Prop where
  ordered : s.Ordered
  undecided_eq : ∀ q, (s.pushers 0).undecided = some q → q = s.down.nextSeq
  decided_eq : ∀ q c, (s.pushers 0).decided = some (q, c) → q = s.down.nextSeq
  intact : ∀ c, s.Intact c (s.conns c)

theorem Intact.mono (hk : s.Intact c k) (hready : ∀ q, s'.Ready q c → s.Ready q c)
    (hbound : s'.bound = some c → s.bound = some c ∧ (s.Expected c → s'.Expected c))
    (hnext : s'.down.nextSeq = s.down.nextSeq)
    (hst : s'.bound = some c → s'.st = .stateOnline → s.st = .stateOnline) : s'.Intact c k where
  __ := hk
  follows := fun hopen q hq => hk.follows hopen q (hready q hq)
  caught_up := by
    intro hopen hearly hb hnot hlive
    obtain ⟨hb', hexp⟩ := hbound hb
    rw [hnext]
    refine hk.caught_up hopen hearly hb' (fun h => hnot (hexp h)) ?_
    rcases hlive with hst' | hframes
    · exact .inl (hst hb hst')
    · exact .inr hframes

theorem Intact.unbound (hk : s.Intact c k) (hpush : s'.pushers = s.pushers)
    (hbound : s'.bound ≠ some c) : s'.Intact c k where
  __ := hk
  follows := by
    rintro hopen q (hdec | ⟨-, hb, -⟩)
    · exact hk.follows hopen q (.inl (hpush ▸ hdec))
    · exact absurd hb hbound
  caught_up := fun _ _ hb => absurd hb hbound

theorem Intact.early (hnil : k.handed = []) (hearly : k.handler.early = true)
    (hframes : k.handler.frames = []) : s.Intact c k where
  consecutive := by simp [due, hnil, hframes]
  follows := fun _ _ _ r hr => absurd hr (by simp [hnil])
  caught_up := by simp [hearly]
  unsent := fun _ _ => hnil

theorem Intact.calm {k' : Conn} (hk : s.Intact c k) (hc : k.Calm k') : s.Intact c k' := by
  have hopen : k'.closed = false → k.closed = false := by
    intro h
    by_contra hclosed
    rw [hc.closed (by simpa using hclosed)] at h
    cases h
  have hdue : k'.due = k.due := by rw [due, due, hc.handed_eq, hc.frames_eq]
  refine ⟨fun h => hdue ▸ hk.consecutive (hopen h), fun h => ?_, fun h he => ?_, fun h hf => ?_⟩
  · rw [hc.handed_eq]
    exact hk.follows (hopen h)
  · rw [hdue, hc.frames_eq]
    exact hk.caught_up (hopen h) (hc.early_eq ▸ he)
  · rw [hc.handed_eq]
    exact hk.unsent (hc.secret h) (hc.frames_eq ▸ hf)

theorem expected_of_eq (hpush : s'.pushers = s.pushers) (hbound : s'.bound = s.bound)
    (h : s.Expected c) : s'.Expected c := by
  obtain ⟨q, hq⟩ := h
  exact ⟨q, by simpa only [Aimed, hpush, hbound] using hq⟩

theorem Gapless.calm (hs : s.Gapless) (hc : s.Calm s') (hpush : s'.pushers = s.pushers) :
    s'.Gapless where
  ordered := hs.ordered.calm hc
  undecided_eq := by
    rw [hpush, hc.nextSeq_eq]
    exact hs.undecided_eq
  decided_eq := by
    rw [hpush, hc.nextSeq_eq]
    exact hs.decided_eq
  intact := by
    intro c
    have hbound : s'.bound = some c → s'.bound = s.bound := by
      intro hb
      rcases hc.bound with heq | ⟨hnone, -⟩
      · exact heq
      · rw [hnone] at hb
        cases hb
    refine ((hs.intact c).calm (hc.conns c)).mono (fun q hq => ?_) (fun hb => ?_) hc.nextSeq_eq
      fun _ => hc.st
    · rcases hq with hdec | ⟨hun, hb, hst⟩
      · exact .inl (hpush ▸ hdec)
      · refine .inr ⟨hpush ▸ hun, (hbound hb).symm.trans hb, ?_⟩
        rcases hst with hst | hroute
        · exact .inl (hc.st hst)
        · exact .inr (hpush ▸ hroute)
    · exact ⟨(hbound hb).symm.trans hb, expected_of_eq hpush (hbound hb)⟩

theorem Gapless.setConn (hs : s.Gapless) (ho : s'.Ordered)
    (hconns : s'.conns = update s.conns c k) (hpush : s'.pushers = s.pushers)
    (hbound : s'.bound = s.bound) (hst : s'.st = s.st) (hnext : s'.down.nextSeq = s.down.nextSeq)
    (hk : s.Intact c k) : s'.Gapless where
  ordered := ho
  undecided_eq := by
    rw [hpush, hnext]
    exact hs.undecided_eq
  decided_eq := by
    rw [hpush, hnext]
    exact hs.decided_eq
  intact := by
    have hmono : ∀ d k, s.Intact d k → s'.Intact d k := by
      intro d k hk
      refine hk.mono (fun q hq => ?_) (fun hb => ⟨hbound ▸ hb, expected_of_eq hpush hbound⟩) hnext
        fun _ h => hst ▸ h
      simpa only [Ready, hpush, hbound, hst] using hq
    rw [hconns]
    exact (forall_update_iff _ s'.Intact).mpr
      ⟨hmono c k hk, fun d _ => hmono d _ (hs.intact d)⟩

theorem Gapless.unnumbered (hs : s.Gapless) (hc : s.Calm s') (hbound : s'.bound = s.bound)
    (hst : s'.st = s.st) (hun : (s.pushers 0).undecided = none)
    (hdec : (s.pushers 0).decided = none) (hdec' : (s'.pushers 0).decided = none) : s'.Gapless := by
  have hun' : ∀ q, (s'.pushers 0).undecided ≠ some q := by
    intro q hq
    have := hc.undecided 0 q hq
    rw [hun] at this
    cases this
  refine ⟨hs.ordered.calm hc, fun q hq => absurd hq (hun' q), fun q c hq => ?_, fun c => ?_⟩
  · rw [hdec'] at hq
    cases hq
  · refine ((hs.intact c).calm (hc.conns c)).mono (fun q hq => ?_) (fun hb => ⟨hbound ▸ hb, ?_⟩)
      hc.nextSeq_eq fun _ h => hst ▸ h
    · rcases hq with hd | ⟨hu, -⟩
      · rw [hdec'] at hd
        cases hd
      · exact absurd hu (hun' q)
    · rintro ⟨q, ⟨hu, -⟩ | hd⟩
      · rw [hun] at hu
        cases hu
      · rw [hdec] at hd
        cases hd

theorem Gapless.number (hs : s.Gapless) {flag : UInt8} {msgID : UInt32} {body : Bytes}
    (hi : s.pushers 0 = .buffering flag msgID body false) (hq : s.Quiet (.buffer 0))
    (ho : ({ s.setPusher 0 (.checking (downFrame flag (s.down.nextSeq + 1) msgID body) false) with
        down := s.down.number flag msgID body } : Delivery 1).Ordered) :
    ({ s.setPusher 0 (.checking (downFrame flag (s.down.nextSeq + 1) msgID body) false) with
        down := s.down.number flag msgID body } : Delivery 1).Gapless := by
  obtain ⟨hwrap, hquiet⟩ := hq.1 (by simp [numbers, hi])
  have hfree : ∀ c, ¬ s.Expected c := by
    rintro c ⟨q, ⟨hu, -⟩ | hd⟩
    · rw [hi] at hu
      cases hu
    · rw [hi] at hd
      cases hd
  refine ⟨ho, fun q h => ?_, fun q c h => ?_, fun c => ⟨(hs.intact c).consecutive, ?_, ?_,
    (hs.intact c).unsent⟩⟩
  · simpa [setPusher, undecided, downFrame, Downlink.number, eq_comm] using h
  · simp [setPusher, decided] at h
  · -- the connection is not waiting for frames, so the last one it was handed is the last number
    intro hopen q hready
    simp only [Ready, setPusher, update_self, decided, undecided,
      isRouting, Bool.false_eq_true, or_false, reduceCtorEq, false_or] at hready
    obtain ⟨hseq, hbound, hst⟩ := hready
    obtain rfl : s.down.nextSeq + 1 = q := Option.some.inj hseq
    have hidle := (hquiet c hbound).1
    rw [Handler.busy, Bool.or_eq_false_iff] at hidle
    have hframes : (s.conns c).handler.frames = [] := by simpa using hidle.2
    intro r hr
    have hr' : r ∈ (s.conns c).handed.getLast? := hr
    have hlast := (hs.intact c).caught_up hopen hidle.1 hbound (hfree c) (.inl hst) r
      (by simpa [due, hframes] using hr')
    rw [hlast, toNat_succ hwrap]
  · intro _ _ hbound hnot
    refine absurd ⟨s.down.nextSeq + 1, .inl ⟨?_, hbound⟩⟩ hnot
    simp [setPusher, undecided, downFrame]

theorem frames_nil_of_aimed (hs : s.Ordered) {q : UInt32} (ha : s.Aimed 0 q c) :
    (s.conns c).handler.early = false ∧ (s.conns c).handler.frames = [] := by
  have hidle : (s.conns c).handler.busy = false := by
    by_contra hb
    exact hs.window c (by simpa using hb) 0 q ha
  rw [Handler.busy, Bool.or_eq_false_iff] at hidle
  exact ⟨hidle.1, by simpa using hidle.2⟩

section

variable (hs : s.Gapless)

include hs

theorem Gapless.drop (ho : (s.setPusher 0 .idle).Ordered)
    (hlast : ∀ c, s.bound = some c → s.st = .stateOnline ∨ (s.conns c).handler.frames ≠ [] →
      ∀ r ∈ (s.conns c).due.getLast?, r = s.down.nextSeq) : (s.setPusher 0 .idle).Gapless where
  ordered := ho
  undecided_eq := by simp [setPusher, undecided]
  decided_eq := by simp [setPusher, decided]
  intact := fun c => {
    consecutive := (hs.intact c).consecutive
    follows := fun _ _ hq => absurd hq.aimed fun h => (aimed_of_idle h).1 rfl
    caught_up := fun _ _ hb _ => hlast c hb
    unsent := (hs.intact c).unsent }

/-- If a reliable push does not find the session online, the bound connection need not be caught up
any more. -/
theorem Gapless.checkState (hi : s.pushers 0 = .checking f false)
    (ho : (s.setPusher 0 (if s.st = .stateOnline then .routing f false else .idle)).Ordered) :
    (s.setPusher 0 (if s.st = .stateOnline then .routing f false else .idle)).Gapless := by
  have hun : (s.pushers 0).undecided = some f.seq := by rw [hi]; rfl
  by_cases hst : s.st = .stateOnline
  · rw [if_pos hst] at ho ⊢
    refine ⟨ho, fun q h => ?_, fun q c h => ?_, fun c => ?_⟩
    · exact hs.undecided_eq q (hun.trans (by simpa [setPusher, undecided] using h))
    · simp [setPusher, decided] at h
    · refine (hs.intact c).mono (fun q hq => ?_) (fun hb => ⟨hb, fun _ => ?_⟩) rfl fun _ => id
      · rcases hq with hd | ⟨hu, hb, -⟩
        · simp [setPusher, decided] at hd
        · refine .inr ⟨hun.trans ?_, hb, .inl hst⟩
          simpa [setPusher, undecided] using hu
      · exact ⟨f.seq, .inl ⟨by simp [setPusher, undecided], hb⟩⟩
  · rw [if_neg hst] at ho ⊢
    refine hs.drop ho fun c hbound hlive => ?_
    have hframes := (frames_nil_of_aimed hs.ordered (.inl ⟨hun, hbound⟩)).2
    exact absurd hframes (hlive.resolve_left hst)

theorem Gapless.readConn (hi : s.pushers 0 = .routing f false) (hbound : s.bound = some c)
    (ho : (s.setPusher 0 (.pushing f false c)).Ordered) :
    (s.setPusher 0 (.pushing f false c)).Gapless := by
  have hun : (s.pushers 0).undecided = some f.seq := by rw [hi]; rfl
  have hdec : ∀ q d, ((s.setPusher 0 (.pushing f false c)).pushers 0).decided = some (q, d) →
      f.seq = q ∧ c = d := by
    intro q d h
    simpa [setPusher, decided] using h
  refine ⟨ho, fun q h => ?_, fun q d h => ?_, fun d => ?_⟩
  · simp [setPusher, undecided] at h
  · obtain ⟨rfl, -⟩ := hdec q d h
    exact hs.undecided_eq f.seq hun
  · refine (hs.intact d).mono (fun q hq => ?_) (fun hb => ⟨hb, fun _ => ?_⟩) rfl fun _ => id
    · rcases hq with hd | ⟨hu, -⟩
      · obtain ⟨rfl, rfl⟩ := hdec q d hd
        exact .inr ⟨hun, hbound, .inr (by rw [hi]; rfl)⟩
      · simp [setPusher, undecided] at hu
    · obtain rfl : c = d := Option.some.inj (hbound.symm.trans hb)
      exact ⟨f.seq, .inr (by simp [setPusher, decided])⟩

theorem Gapless.deliver {accepted : Bool} (hi : s.pushers 0 = .pushing f false c)
    (hclosed : accepted = false → (s.conns c).closed = true)
    (ho : ((s.setConn c ((s.conns c).hand [f.seq] accepted)).setPusher 0 .idle).Ordered) :
    ((s.setConn c ((s.conns c).hand [f.seq] accepted)).setPusher 0 .idle).Gapless := by
  have hdec : (s.pushers 0).decided = some (f.seq, c) := by rw [hi]; rfl
  have hun : (s.pushers 0).undecided = none := by rw [hi]; rfl
  obtain ⟨hearly, hframes⟩ := frames_nil_of_aimed hs.ordered (.inr hdec)
  have hk := hs.intact c
  refine ⟨ho, fun q h => ?_, fun q d h => ?_, ?_⟩
  · simp [setPusher, undecided] at h
  · simp [setPusher, decided] at h
  · have hnoready : ∀ q d, ¬ ((s.setConn c ((s.conns c).hand [f.seq] accepted)).setPusher 0
        .idle).Ready q d := fun q d hq => (aimed_of_idle hq.aimed).1 rfl
    refine (forall_update_iff _ (Intact _)).mpr ⟨?_, fun d hd => ?_⟩
    · cases accepted with
      | false =>
        have hc := hclosed rfl
        refine ⟨fun h => ?_, fun h => ?_, fun h => ?_, hk.unsent⟩ <;>
        · rw [show ((s.conns c).hand [f.seq] false).closed = true from hc] at h
          cases h
      | true =>
        have hdue : ((s.conns c).hand [f.seq] true).due = (s.conns c).handed ++ [f.seq] := by
          simp [due, hand, hframes]
        refine ⟨fun hopen => ?_, fun _ q hq => absurd hq (hnoready q c), fun _ _ _ _ _ r hr => ?_,
          fun _ hne => ?_⟩
        · rw [hdue]
          have hcons := hk.consecutive hopen
          rw [due, hframes, List.map_nil, List.append_nil] at hcons
          exact hcons.concat (hk.follows hopen f.seq (.inl hdec))
        · rw [hdue, List.getLast?_concat] at hr
          obtain rfl : f.seq = r := Option.some.inj hr
          exact hs.decided_eq f.seq c hdec
        · exact absurd hframes (by simpa using hne)
    · refine (hs.intact d).mono (fun q hq => absurd hq (hnoready q d)) (fun hb => ⟨hb, ?_⟩) rfl
        fun _ => id
      rintro ⟨q, ⟨hu, -⟩ | hq⟩
      · rw [hun] at hu
        cases hu
      · rw [hdec] at hq
        exact absurd (Prod.mk.inj (Option.some.inj hq)).2.symm hd

theorem Gapless.bind {lastSeq : UInt32} {codec : UInt8}
    (hc : (s.conns c).handler = .binding lastSeq codec) (hq : s.Quiet (.bind c))
    (ho : ({ s.setConn c
      { s.conns c with handler := .onlining s.bound lastSeq codec, wasBound := true } with
        bound := some c } : Delivery 1).Ordered) :
    ({ s.setConn c { s.conns c with
          handler := .onlining s.bound lastSeq codec, wasBound := true } with
        bound := some c } : Delivery 1).Gapless := by
  have hnone := hq.2 rfl 0
  have hw := (hs.ordered.custody.tidy c).binding (by rw [hc]; rfl)
  have hnil := (hs.ordered.custody.tidy c).handed_nil hw
  refine ⟨ho, hs.undecided_eq, hs.decided_eq, ?_⟩
  exact (forall_update_iff _ (Intact _)).mpr ⟨.early hnil rfl rfl,
    fun d hd => (hs.intact d).unbound rfl fun h => hd (Option.some.inj h).symm⟩

theorem Gapless.online {old : Option ConnID} {lastSeq : UInt32} {codec : UInt8}
    (hc : (s.conns c).handler = .onlining old lastSeq codec)
    (ho : ({ s.setHandler c (.closingOld old lastSeq) with
      st := .stateOnline, down := { s.down with codec := codec } } : Delivery 1).Ordered) :
    ({ s.setHandler c (.closingOld old lastSeq) with
        st := .stateOnline, down := { s.down with codec := codec } } : Delivery 1).Gapless := by
  have hearly : (s.conns c).handler.early = true := by rw [hc]; rfl
  have hbound : s.bound = some c := (hs.ordered.custody.tidy c).early hearly
  have hnil := (hs.ordered.sorted c).early hearly
  refine ⟨ho, hs.undecided_eq, hs.decided_eq, ?_⟩
  exact (forall_update_iff _ (Intact _)).mpr ⟨.early hnil rfl rfl,
    fun d hd => (hs.intact d).unbound rfl fun h =>
      hd (Option.some.inj (hbound.symm.trans h)).symm⟩

theorem Gapless.step_handler {a : DeliveryAct 1} (hq : s.Quiet a) (hroom : s.Roomy writeCap a)
    (ha : a.pusher = none) (h : s.step writeCap a = some s') : s'.Gapless := by
  have ho := hs.ordered.step hq h
  rcases calm_or_notable h with hcalm | hnot
  · exact hs.calm hcalm (pushers_of_step ha h)
  cases hnot with
  | number | hand => cases ha
  | rotate c lastSeq codec hc hk =>
    have hk := hs.intact c
    refine hs.setConn ho rfl rfl rfl rfl rfl ⟨fun h => ?_, hk.follows, fun h _ hb hn hl => ?_,
      fun _ hf => absurd rfl hf⟩
    · simpa [due, hc, Handler.frames] using hk.consecutive h
    · have hst : s.st = .stateOnline := by simpa [Handler.frames] using hl
      simpa [due, hc, Handler.frames] using hk.caught_up h (by rw [hc]; rfl) hb hn (.inl hst)
  | bind c lastSeq codec hc => exact hs.bind hc hq ho
  | online c old lastSeq codec hc => exact hs.online hc ho
  | readRing c lastSeq hc =>
    have hearly : (s.conns c).handler.early = true := by rw [hc]; rfl
    have hnil := (hs.ordered.sorted c).early hearly
    have hfree := hs.ordered.window c (by rw [Handler.busy, hearly]; rfl) 0
    obtain ⟨hcons, hlast⟩ := hs.ordered.ring.since lastSeq
    refine hs.setConn ho rfl rfl rfl rfl rfl ⟨fun _ => ?_, fun _ q hready => ?_,
      fun _ _ _ _ _ => ?_, fun _ _ => hnil⟩
    · simpa [due, hnil, Handler.frames] using hcons
    · exact absurd hready.aimed (hfree q)
    · simpa [due, hnil, Handler.frames] using hlast
  | told c frames snaps hc =>
    have hk := hs.intact c
    have hdue : ({ (s.conns c).hand [] true with handler := .writing frames snaps } : Conn).due =
        (s.conns c).due := by simp [due, hand, hc, Handler.frames]
    refine hs.setConn ho rfl rfl rfl rfl rfl ⟨fun h => hdue ▸ hk.consecutive h, fun h => ?_,
      fun h _ hb hn hl => ?_, fun h => ?_⟩
    · simpa [hand] using hk.follows h
    · rw [hdue]
      exact hk.caught_up h (by rw [hc]; rfl) hb hn (by simpa [hc, Handler.frames] using hl)
    · simp [secret, Handler.isBinding, Handler.early] at h
  | untold c frames snaps hc =>
    -- if frames were waiting nothing has been handed over yet, so nothing can be out of step
    have hk := hs.intact c
    have hsecret : (s.conns c).secret = true := by simp [secret, hc]
    refine hs.setConn ho rfl rfl rfl rfl rfl ⟨fun h => ?_, hk.follows, fun h _ hb hn hl => ?_,
      fun _ hf => absurd rfl hf⟩
    · exact (List.isChain_append.mp (hk.consecutive h)).1.append (by simp [Handler.frames])
        (by simp [Handler.frames])
    · have hst : s.st = .stateOnline := by simpa [Handler.frames] using hl
      by_cases hframes : (s.conns c).handler.frames = []
      · have hlast := hk.caught_up h (by rw [hc]; rfl) hb hn (.inl hst)
        rw [due, hframes] at hlast
        simpa [due, Handler.frames] using hlast
      · simp [due, Handler.frames, hk.unsent hsecret hframes]
  | written c f frames snaps hc =>
    have hk := hs.intact c
    have hfree := hs.ordered.window c (by simp [Handler.busy, hc, Handler.early, Handler.frames]) 0
    have hdue : ({ (s.conns c).hand [f.seq] true with handler := .writing frames snaps } :
        Conn).due = (s.conns c).due := by simp [due, hand, hc, Handler.frames]
    refine hs.setConn ho rfl rfl rfl rfl rfl ⟨fun h => hdue ▸ hk.consecutive h,
      fun h q hready => ?_, fun h _ hb hn _ => ?_, fun h => ?_⟩
    · exact absurd hready.aimed (hfree q)
    · rw [hdue]
      exact hk.caught_up h (by rw [hc]; rfl) hb hn (.inr (by simp [hc, Handler.frames]))
    · simp [secret, Handler.isBinding, Handler.early] at h
  | refused c f frames snaps hc hr =>
    have hclosed := closed_of_refused (hroom (f, c) (by simp [offered, hc])) hr
    refine hs.setConn ho rfl rfl rfl rfl rfl ⟨fun h => ?_, fun h => ?_, fun h => ?_, fun _ hf => ?_⟩
    · exact absurd h (by simp [hclosed])
    · exact absurd h (by simp [hclosed])
    · exact absurd h (by simp [hclosed])
    · exact absurd rfl hf

theorem Gapless.step_pusher {a : DeliveryAct 1} (hq : s.Quiet a) (hroom : s.Roomy writeCap a)
    (ha : a.pusher ≠ none) (h : s.step writeCap a = some s') : s'.Gapless := by
  have ho := hs.ordered.step hq h
  cases pushes_of_step ha h with
  | @push i _ _ _ hi | @readCodec i _ _ _ hi =>
    obtain rfl := Subsingleton.elim i 0
    exact hs.unnumbered (.setPusher_unnumbered rfl rfl) rfl rfl (by rw [hi]; rfl) (by rw [hi]; rfl)
      rfl
  | @snap i flag msgID body hi =>
    obtain rfl := Subsingleton.elim i 0
    have hc : s.Calm (s.setPusher 0 (.checking (downFrame flag 0 msgID body) true)) :=
      .setPusher_unnumbered rfl rfl
    exact hs.unnumbered { hc with } rfl rfl (by rw [hi]; rfl) (by rw [hi]; rfl) rfl
  | @number i _ _ _ hi =>
    obtain rfl := Subsingleton.elim i 0
    exact hs.number hi hq ho
  | @checkState i f snapshot hi =>
    obtain rfl := Subsingleton.elim i 0
    cases snapshot with
    | true =>
      have hun : (if s.st = .stateOnline then routing f true else .idle).undecided =
          none := by split <;> rfl
      have hdec : (if s.st = .stateOnline then routing f true else .idle).decided =
          none := by split <;> rfl
      exact hs.unnumbered (.setPusher_unnumbered hun hdec) rfl rfl (by rw [hi]; rfl)
        (by rw [hi]; rfl) hdec
    | false => exact hs.checkState hi ho
  | @routed i f snapshot c hi hbound =>
    obtain rfl := Subsingleton.elim i 0
    cases snapshot with
    | true =>
      exact hs.unnumbered (.setPusher_unnumbered rfl rfl) rfl rfl (by rw [hi]; rfl)
        (by rw [hi]; rfl) rfl
    | false => exact hs.readConn hi hbound ho
  | @unrouted i _ _ hi hbound =>
    obtain rfl := Subsingleton.elim i 0
    exact hs.drop ho (by simp [hbound])
  | @deliver i f snapshot accepted c hi hcan =>
    obtain rfl := Subsingleton.elim i 0
    cases snapshot with
    | true =>
      have hcalm := Calm.setPusher_idle (.setConn (.hand (s.conns c) accepted)) 0
      exact hs.unnumbered hcalm rfl rfl (by rw [hi]; rfl) (by rw [hi]; rfl) rfl
    | false =>
      refine hs.deliver hi ?_ ho
      rintro rfl
      exact closed_of_refused (hroom (f, c) (by simp [offered, hi])) hcan

end

/-! ### Runs -/

variable {codec : UInt8} {replayCap : ℕ} {hcap : 0 < replayCap} {acts : List (DeliveryAct 1)}

theorem gapless_newDelivery : (newDelivery 1 codec replayCap hcap).Gapless := by
  refine ⟨ordered_newDelivery, fun q h => (by cases h), fun q c h => (by cases h), fun c => ?_⟩
  have hconn : ((newDelivery 1 codec replayCap hcap).conns c).due = [] ∧
      ((newDelivery 1 codec replayCap hcap).conns c).handed = [] := by
    by_cases hc : c = 0 <;> simp [newDelivery, hc, due, Handler.frames]
  refine ⟨fun _ => ?_, fun _ q hq => ?_, fun _ _ _ _ _ => ?_, fun _ _ => hconn.2⟩
  · simp [hconn.1]
  · simp [Follows, hconn.2]
  · simp [hconn.1]

/-- **A live connection sees no gap**: the reliable frames it has accepted have consecutive numbers.
-/
theorem handed_consecutive
    (hrun : run (step writeCap) (newDelivery 1 codec replayCap hcap) acts = some s)
    (hquiet : Along (step writeCap) Quiet (newDelivery 1 codec replayCap hcap) acts)
    (hroomy : Along (step writeCap) (Roomy writeCap) (newDelivery 1 codec replayCap hcap) acts)
    (c : ConnID) (hopen : (s.conns c).closed = false) : Consecutive (s.conns c).handed := by
  have hinv : s.Gapless := by
    refine invariant_of_run ?_ gapless_newDelivery (hquiet.and hroomy) hrun
    intro s a s' hs hcond h
    by_cases ha : a.pusher = none
    · exact hs.step_handler hcond.1 hcond.2 ha h
    · exact hs.step_pusher hcond.1 hcond.2 ha h
  exact (List.isChain_append.mp ((hinv.intact c).consecutive hopen)).1

/-- A push on the first connection, one while offline, a reconnect that replays it, one more. -/
def steadyActs : List (DeliveryAct 1) :=
  loginActs ++ pushActs 0 [1] ++ [DeliveryAct.deliver 0 true] ++ disconnectActs ++
    [DeliveryAct.push 0 7 [2] false, .readCodec 0, .buffer 0, .checkState 0] ++
    rebindActs 1 ++ resumeActs ++ [DeliveryAct.write 1 true, .startPump 1] ++ pushActs 0 [3] ++
    [DeliveryAct.deliver 0 true]

theorem handed_consecutive_steady : ∃ s,
    run (step 4) (newDelivery 1 0 8 (by decide)) steadyActs = some s ∧
      s.bound = some 1 ∧ (s.conns 1).handed = [2, 3] ∧ Consecutive (s.conns 1).handed := by
  obtain ⟨s, hrun, hbound, hhanded, hopen⟩ := exists_of_run (step 4)
    (newDelivery 1 0 8 (by decide)) steadyActs
    (fun s => s.bound = some 1 ∧ (s.conns 1).handed = [2, 3] ∧ (s.conns 1).closed = false)
    (by decide +kernel)
  exact ⟨s, hrun, hbound, hhanded,
    handed_consecutive hrun (by decide +kernel) (by decide +kernel) 1 hopen⟩

/-- A channel of two is filled by the login response and the first push; the second push is refused,
the third accepted. -/
def slowActs : List (DeliveryAct 1) :=
  loginActs ++ pushActs 0 [1] ++ [DeliveryAct.deliver 0 true] ++ pushActs 0 [2] ++
    [DeliveryAct.deliver 0 false] ++ [DeliveryAct.flush 0] ++ pushActs 0 [3] ++
    [DeliveryAct.deliver 0 true]

/-- The connection stays bound and open, and frame `3` is handed over without frame `2`. -/
theorem handed_with_gap : ∃ s, run (step 2) (newDelivery 1 0 8 (by decide)) slowActs = some s ∧
      s.bound = some 0 ∧ (s.conns 0).closed = false ∧ (s.conns 0).handed = [1, 3] ∧
      ¬ Consecutive (s.conns 0).handed :=
  exists_of_run _ _ _ _ (by decide +kernel)

end Delivery

end RanGame.Session
