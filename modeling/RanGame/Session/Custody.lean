import RanGame.Session.Steps

/-!
# No connection is bound twice

A reconnect replaces the token before it binds, and the new token leaves the server only with the
response. So in between no client can present the current token, and a connection whose response was
refused can never bind again.
-/

namespace RanGame.Session

open Function Handler Conn Transport

namespace Delivery

variable {n writeCap : ℕ} {s s' : Delivery n}

/-- At most one goroutine has the current token for itself, and then no client knows it. -/
structure Tokens (s : Delivery n) : Prop where
  known_le : ∀ t ∈ s.known, t ≤ s.token
  secret : ∀ c, (s.conns c).secret = true → s.token ∉ s.known
  unique : ∀ c d, (s.conns c).secret = true → (s.conns d).secret = true → c = d

/-- A connection never bound has been handed nothing, and one that has not read the ring is the
bound one. -/
structure Tidy (s : Delivery n) (c : ConnID) (k : Conn) : Prop where
  binding : k.handler.isBinding = true → k.wasBound = false
  outside : k.wasBound = false → k.handler.outside = true
  handed_nil : k.wasBound = false → k.handed = []
  unbound : k.wasBound = false → s.bound ≠ some c
  unaimed : k.wasBound = false → ∀ i q, ¬ s.Aimed i q c
  early : k.handler.early = true → s.bound = some c

structure Custody (s : Delivery n) : Prop where
  tokens : s.Tokens
  tidy : ∀ c, s.Tidy c (s.conns c)

theorem Tokens.of_secret (hs : s.Tokens) (htoken : s'.token = s.token) (hknown : s'.known = s.known)
    (hsecret : ∀ c, (s'.conns c).secret = true → (s.conns c).secret = true) : s'.Tokens where
  known_le := by
    rw [hknown, htoken]
    exact hs.known_le
  secret := by
    rw [hknown, htoken]
    exact fun c hc => hs.secret c (hsecret c hc)
  unique := fun c d hc hd => hs.unique c d (hsecret c hc) (hsecret d hd)

variable {c : ConnID} {k : Conn}

theorem secret_update (hk : k.secret = true → (s.conns c).secret = true) :
    ∀ d, (update s.conns c k d).secret = true → (s.conns d).secret = true := by
  intro d hd
  by_cases hdc : d = c
  · subst hdc
    exact hk (by simpa using hd)
  · simpa [hdc] using hd

theorem Tidy.mono (hk : s.Tidy c k) (hbound : s'.bound = s.bound)
    (haimed : ∀ i q, s'.Aimed i q c → s.Aimed i q c) : s'.Tidy c k where
  __ := hk
  unbound := fun hw => hbound ▸ hk.unbound hw
  unaimed := fun hw i q ha => hk.unaimed hw i q (haimed i q ha)
  early := fun he => hbound ▸ hk.early he

theorem Tidy.of_wasBound (hw : k.wasBound = true) (hbinding : k.handler.isBinding = false)
    (hearly : k.handler.early = true → s.bound = some c) : s.Tidy c k := by
  constructor
  · simp [hbinding]
  all_goals first | exact hearly | simp [hw]

theorem Tidy.wasBound (hk : s.Tidy c k) (h : k.handler.outside = false) : k.wasBound = true := by
  by_contra hw
  have hout := hk.outside (by simpa using hw)
  rw [h] at hout
  cases hout

theorem Tidy.wasBound_of_aimed (hk : s.Tidy c k) {i : Fin n} {q : UInt32} (h : s.Aimed i q c) :
    k.wasBound = true := by
  by_contra hw
  exact hk.unaimed (by simpa using hw) i q h

section

variable (hs : s.Custody)

include hs

theorem Custody.calm (hc : s.Calm s') : s'.Custody := by
  refine ⟨hs.tokens.of_secret hc.token_eq hc.known_eq fun c => (hc.conns c).secret, fun c => ?_⟩
  have hk := hs.tidy c
  have hcalm := hc.conns c
  have hw : (s'.conns c).wasBound = false → (s.conns c).wasBound = false :=
    fun h => hcalm.wasBound_eq ▸ h
  constructor
  · exact fun h => hcalm.wasBound_eq.trans (hk.binding (hcalm.binding h))
  · exact fun h => hcalm.outside (hk.outside (hw h))
  · exact fun h => hcalm.handed_eq.trans (hk.handed_nil (hw h))
  · intro h hbound
    rcases hc.bound with heq | ⟨hnone, -⟩
    · exact hk.unbound (hw h) (heq ▸ hbound)
    · rw [hnone] at hbound
      cases hbound
  · exact fun h i q ha => hk.unaimed (hw h) i q (hc.aimed ha)
  · intro h
    have hold := hk.early (hcalm.early_eq ▸ h)
    rcases hc.bound with heq | ⟨-, hnot⟩
    · exact heq.trans hold
    · rw [hcalm.early_eq, hnot c hold] at h
      cases h

theorem Custody.setConn (hconns : s'.conns = update s.conns c k) (htoken : s'.token = s.token)
    (hknown : s'.known = s.known) (hbound : s'.bound = s.bound)
    (haimed : ∀ i q d, s'.Aimed i q d → s.Aimed i q d)
    (hsecret : k.secret = true → (s.conns c).secret = true) (hk : s.Tidy c k) : s'.Custody := by
  refine ⟨hs.tokens.of_secret htoken hknown (hconns ▸ secret_update hsecret), ?_⟩
  rw [hconns]
  exact (forall_update_iff _ s'.Tidy).mpr ⟨hk.mono hbound fun i q => haimed i q c,
      fun d _ => (hs.tidy d).mono hbound fun i q => haimed i q d⟩

/-- The goroutine of `c` gets a new token. The old one was known, so no other has it. -/
theorem Custody.rotate {lastSeq : UInt32} {codec : UInt8} (hc : (s.conns c).handler = .reading)
    (hk : s.token ∈ s.known) :
    ({ s.setHandler c (.binding lastSeq codec) with token := s.token + 1 } :
      Delivery n).Custody := by
  have hnone : ∀ d, (s.conns d).secret = false := by
    intro d
    by_contra hd
    exact hs.tokens.secret d (by simpa using hd) hk
  have hw : (s.conns c).wasBound = false := by simpa [secret, hc] using hnone c
  refine ⟨⟨fun t ht => Nat.le_succ_of_le (hs.tokens.known_le t ht), fun _ _ hmem => ?_, ?_⟩, ?_⟩
  · have := hs.tokens.known_le _ hmem
    simp at this
  · have honly : ∀ d, (update s.conns c
        { s.conns c with handler := .binding lastSeq codec } d).secret = true → d = c := by
      intro d hd
      by_contra hdc
      rw [update_of_ne hdc, hnone d] at hd
      cases hd
    exact fun d e hd he => (honly d hd).trans (honly e he).symm
  · refine (forall_update_iff _ (Tidy _)).mpr
      ⟨⟨fun _ => hw, fun _ => rfl, (hs.tidy c).handed_nil, (hs.tidy c).unbound, (hs.tidy c).unaimed,
        fun h => by cases h⟩, fun d _ => (hs.tidy d).mono rfl fun _ _ => id⟩

/-- The goroutine of `c` binds. No other is between binding and its response. -/
theorem Custody.bind {lastSeq : UInt32} {codec : UInt8}
    (hc : (s.conns c).handler = .binding lastSeq codec) :
    ({ s.setConn c { s.conns c with
          handler := .onlining s.bound lastSeq codec, wasBound := true } with
        bound := some c } : Delivery n).Custody := by
  have hsecret : (s.conns c).secret = true := by simp [secret, hc, isBinding]
  refine ⟨hs.tokens.of_secret rfl rfl (secret_update fun _ => hsecret), ?_⟩
  refine (forall_update_iff _ (Tidy _)).mpr ⟨?_, fun d hd => ?_⟩
  · exact .of_wasBound rfl rfl fun _ => rfl
  · have hkd := hs.tidy d
    have hne : (some c : Option ConnID) ≠ some d := fun h => hd (Option.some.inj h).symm
    refine ⟨hkd.binding, hkd.outside, hkd.handed_nil, fun _ => hne, fun hw i q ha => ?_,
      fun he => ?_⟩
    · rcases ha with ⟨-, hbound⟩ | hdec
      · exact hne hbound
      · exact hkd.unaimed hw i q (.inr hdec)
    · refine absurd (hs.tokens.unique d c ?_ hsecret) hd
      cases hh : (s.conns d).handler <;> simp_all [secret, early]

theorem Custody.told {frames snaps : List Frame}
    (hc : (s.conns c).handler = .responding frames snaps) :
    ({ s.setConn c { (s.conns c).hand [] true with handler := .writing frames snaps } with
        known := s.token :: s.known } : Delivery n).Custody := by
  have hw := (hs.tidy c).wasBound (by rw [hc]; rfl)
  have hnone : ∀ d, (update s.conns c
      { (s.conns c).hand [] true with handler := .writing frames snaps } d).secret = false := by
    intro d
    by_cases hdc : d = c
    · subst hdc
      simp [secret, isBinding, early]
    · rw [update_of_ne hdc]
      by_contra hd
      exact hdc (hs.tokens.unique d c (by simpa using hd) (by simp [secret, hc]))
  refine ⟨⟨?_, fun d hd => ?_, fun d e hd => ?_⟩, ?_⟩
  · intro t ht
    rcases List.mem_cons.mp ht with rfl | ht
    · exact le_refl _
    · exact hs.tokens.known_le t ht
  · exact absurd hd (Bool.eq_false_iff.mp (hnone d))
  · exact absurd hd (Bool.eq_false_iff.mp (hnone d))
  · exact (forall_update_iff _ (Tidy _)).mpr
      ⟨.of_wasBound hw rfl (fun h => by cases h), fun d _ => (hs.tidy d).mono rfl fun _ _ => id⟩

theorem Custody.step {a : DeliveryAct n} (h : s.step writeCap a = some s') : s'.Custody := by
  rcases calm_or_notable h with hcalm | hnot
  · exact hs.calm hcalm
  cases hnot with
  | number i flag msgID body hi =>
    refine ⟨hs.tokens.of_secret rfl rfl fun _ => id, fun c => ?_⟩
    have hk := hs.tidy c
    refine ⟨hk.binding, hk.outside, hk.handed_nil, hk.unbound, fun hw j q ha => ?_, hk.early⟩
    rcases aimed_of_number ha with ⟨-, -, hbound⟩ | ⟨-, ha⟩
    · exact hk.unbound hw hbound
    · exact hk.unaimed hw j q ha
  | hand i f c hi =>
    have hw := (hs.tidy c).wasBound_of_aimed (i := i) (q := f.seq) (.inr (by rw [hi]; rfl))
    refine hs.setConn rfl rfl rfl rfl (fun _ _ _ ha => (aimed_of_idle ha).2) id ?_
    exact .of_wasBound hw (by
      by_contra hb
      have := (hs.tidy c).binding (by simpa using hb)
      rw [hw] at this
      cases this) (hs.tidy c).early
  | rotate c lastSeq codec hc hk => exact hs.rotate hc hk
  | bind c lastSeq codec hc => exact hs.bind hc
  | online c old lastSeq codec hc =>
    have hw := (hs.tidy c).wasBound (by rw [hc]; rfl)
    refine hs.setConn rfl rfl rfl rfl (fun _ _ _ => id) ?_ (.of_wasBound hw rfl fun _ => ?_)
    · simp [secret, hc, early]
    · exact (hs.tidy c).early (by rw [hc]; rfl)
  | readRing c _ hc | untold c _ _ hc =>
    have hw := (hs.tidy c).wasBound (by rw [hc]; rfl)
    refine hs.setConn rfl rfl rfl rfl (fun _ _ _ => id) ?_ (.of_wasBound hw rfl fun h => ?_)
    · simp [secret, hc, early]
    · cases h
  | told c frames snaps hc => exact hs.told hc
  | written c f frames snaps hc | refused c f frames snaps hc =>
    have hw := (hs.tidy c).wasBound (by rw [hc]; rfl)
    refine hs.setConn rfl rfl rfl rfl (fun _ _ _ => id) ?_ (.of_wasBound hw rfl fun h => ?_)
    · simp [secret, early, isBinding]
    · cases h

end

variable {codec : UInt8} {replayCap : ℕ} {hcap : 0 < replayCap}

theorem custody_newDelivery : (newDelivery n codec replayCap hcap).Custody := by
  refine ⟨⟨by simp [newDelivery], by simp [newDelivery], fun c d hc hd => ?_⟩, fun c => ?_⟩
  · have h0 : ∀ e, ((newDelivery n codec replayCap hcap).conns e).secret = true → e = 0 := by
      intro e he
      by_contra hne
      simp [newDelivery, hne, secret] at he
    rw [h0 c hc, h0 d hd]
  · by_cases hc : c = 0
    · subst hc
      exact .of_wasBound rfl rfl (fun h => by cases h)
    · have hconn : (newDelivery n codec replayCap hcap).conns c = {} := by simp [newDelivery, hc]
      rw [hconn]
      refine ⟨fun h => (by cases h), fun _ => rfl, fun _ => rfl, fun _ hb => ?_, fun _ i q ha => ?_,
        fun h => (by cases h)⟩
      · exact hc (Option.some.inj hb).symm
      · rcases ha with ⟨hun, -⟩ | hdec
        · cases hun
        · cases hdec

end Delivery

end RanGame.Session
