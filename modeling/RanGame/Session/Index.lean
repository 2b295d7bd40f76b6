import RanGame.Session.Registry
import RanGame.Session.Tokens

/-!
# The indexes and the registered session

`Reconnect` never looks again whether the session is still the one registered for its user. If a
sweep or a login takes it out and releases it in between, the last sections set a released session
online and put it back into the indexes by token and by connection.
-/

namespace RanGame.Session

open Machine Option PartialMap Function

section Call

variable {n : ℕ} {C : Type*}

/-- The reconnect that a call was accepted for and has not yet indexed. -/
def Call.pending : Call n C → Option (Rebind n C)
  | .binding r | .onlining r _ | .clearing r _ | .reindexing r _ => some r
  | _ => none

/-- The same, once the connection is bound, with the connection it has replaced. -/
def Call.swapped : Call n C → Option (Rebind n C × Option C)
  | .onlining r old | .clearing r old | .reindexing r old => some (r, old)
  | _ => none

/-- The session and the connection whose index entry a call is about to drop. -/
def Call.drops : Call n C → Option (Fin n × C)
  | .offlining x c _ | .dropping x c _ => some (x, c)
  | _ => none

/-- The token under which a call has found a session. -/
def Call.lookup : Call n C → Option String
  | .rotating _ token _ _ => some token
  | _ => none

/-- Has the call returned, or not begun? -/
def Call.idle : Call n C → Bool
  | .notStarted | .created | .reconnected _ _ | .refused _ | .left | .destroying [] => true
  | _ => false

/-- The session and the connection that a read pump leaves. -/
def ManagerAct.exits : ManagerAct n C → Option (Fin n × C)
  | .markOfflineConn _ x c => some (x, c)
  | _ => none

variable {k : Call n C}

theorem Call.sess_mem_subject {r : Rebind n C} (h : r ∈ k.pending) : r.sess ∈ k.subject := by
  cases k <;> cases h <;> rfl

theorem Call.pending_of_swapped {p : Rebind n C × Option C} (h : p ∈ k.swapped) :
    p.1 ∈ k.pending := by
  cases k <;> cases h <;> rfl

theorem Call.pending_of_idle (h : k.idle = true) : k.pending = none := by
  cases k <;> first | rfl | cases h

theorem Call.drops_of_idle (h : k.idle = true) : k.drops = none := by
  cases k <;> first | rfl | cases h

theorem Call.newToken_mem_tokens {r : Rebind n C} (h : r ∈ k.pending) : r.newToken ∈ k.tokens := by
  cases k <;> cases h <;> exact List.mem_singleton_self _

theorem Call.mem_tokens_of_lookup {t : String} (h : k.lookup = some t) : t ∈ k.tokens := by
  cases k <;> cases h
  exact List.mem_singleton_self _

end Call

namespace Manager

variable {n : ℕ} {C : Type*}

/-- `Reconnect` finds its session registered when it sets it online and when it corrects the
indexes; and a read pump exits only after the reconnect that has bound its connection has indexed
it. -/
def Steady (ID : C → UInt64) (s : Manager n C) (a : ManagerAct n C) : Prop :=
  (∀ i, a = .goOnline i ∨ a = .reindex i → ∀ r ∈ (s.calls i).pending, s.Registered r.sess) ∧
    ∀ p ∈ a.exits, ∀ i, ∀ q ∈ (s.calls i).swapped, q.1.sess = p.1 → ID q.1.conn ≠ ID p.2

instance [DecidableEq C] (ID : C → UInt64) (s : Manager n C) (a : ManagerAct n C) :
    Decidable (s.Steady ID a) :=
  inferInstanceAs (Decidable (_ ∧ _))

/-- The session is registered, or a login has replaced it and is to clear its entries. -/
def Held (s : Manager n C) (x : Fin n) : Prop := s.Registered x ∨ ∃ i, s.calls i = .kicking x

/-- What an entry of the index by token is. -/
structure TokenIndex (s : Manager n C) : Prop where
  /-- It is about to be replaced, or it is the token of a session that is held. -/
  entry : ∀ t x, s.byToken t = some x → (∃ i, ∃ r ∈ (s.calls i).pending, r.token = t ∧ r.sess = x) ∨
      (s.sess x).token = t ∧ s.Held x
  /-- The new token of a reconnect that is under way is known to nobody else. -/
  pending : ∀ i, ∀ r ∈ (s.calls i).pending, (s.sess r.sess).token = r.newToken ∧
    s.byToken r.newToken = none ∧ ∀ j, (s.calls j).lookup ≠ some r.newToken
  unique : ∀ i j, ∀ r ∈ (s.calls i).pending, ∀ r' ∈ (s.calls j).pending,
    r.newToken = r'.newToken → i = j

theorem tokenIndex_newManager (clock : ℤ) : (newManager n C clock).TokenIndex where
  entry := fun _ _ h => by simp [newManager] at h
  pending := fun _ _ h => by simp [newManager, Call.pending] at h
  unique := fun _ _ _ h => by simp [newManager, Call.pending] at h

variable {s s' : Manager n C}

variable {i x : Fin n} {k κ : Call n C} {uid token : String} {c : C} {codec : UInt8}
  {todo : List (Fin n)} {r : Rebind n C} {a : ManagerAct n C}

theorem Held.of_same (h : s.Held x) (hcalls : s'.calls = update s.calls i k)
    (hkick : s.calls i ≠ .kicking x) (hreg : s.Registered x → s'.Registered x ∨ k = .kicking x) :
    s'.Held x := by
  rcases h with hr | hk
  · rcases hreg hr with hr' | rfl
    · exact .inl hr'
    · exact .inr ⟨i, by rw [hcalls, update_self]⟩
  · right
    rw [hcalls]
    exact exists_update_of_not (P := fun c : Call n C => c = .kicking x) hkick hk

theorem Held.kept (h : s.Held x) (hcalls : s'.calls = update s.calls i k)
    (hkick : s.calls i ≠ .kicking x) (hindex : s'.byUID = s.byUID)
    (huid : ∀ x, (s'.sess x).uid = (s.sess x).uid) : s'.Held x := by
  refine h.of_same hcalls hkick fun hreg => .inl ?_
  rw [Registered, hindex, huid]
  exact hreg

theorem TokenIndex.entry_of_same (h : s.TokenIndex) {t : String}
    (hcalls : s'.calls = update s.calls i k) (ht : s.byToken t = some x)
    (hpend : ∀ r ∈ (s.calls i).pending, r.token = t → r.sess = x → r ∈ k.pending)
    (hheld : (s.sess x).token = t → s.Held x → (s'.sess x).token = t ∧ s'.Held x) :
    (∃ j, ∃ r ∈ (s'.calls j).pending, r.token = t ∧ r.sess = x) ∨
      (s'.sess x).token = t ∧ s'.Held x := by
  rcases h.entry t x ht with ⟨j, r, hr, hrt, hrx⟩ | ⟨hx, hh⟩
  · left
    refine ⟨j, r, ?_, hrt, hrx⟩
    rw [hcalls]
    exact rel_update (fun k k' : Call n C => r ∈ k.pending → r ∈ k'.pending)
      (fun _ => id) (fun hr => hpend r hr hrt hrx) j hr
  · exact .inr (hheld hx hh)

theorem TokenIndex.of_entries (h : s.TokenIndex) (hknown : s.Known)
    (hcalls : s'.calls = update s.calls i k)
    (htoken : ∀ x, s.calls x ≠ .notStarted → (s'.sess x).token = (s.sess x).token)
    (hpend : ∀ r ∈ k.pending, r ∈ (s.calls i).pending)
    (hlook : ∀ t, k.lookup = some t → ∃ x, s.byToken t = some x)
    (hnone : ∀ j, ∀ r ∈ (s'.calls j).pending, s.byToken r.newToken = none →
      s'.byToken r.newToken = none)
    (hentry : ∀ t x, s'.byToken t = some x → (∃ j, ∃ r ∈ (s'.calls j).pending, r.token = t ∧
      r.sess = x) ∨ (s'.sess x).token = t ∧ s'.Held x) :
    s'.TokenIndex := by
  have hpending : ∀ j, ∀ r ∈ (s'.calls j).pending, r ∈ (s.calls j).pending := by
    rw [hcalls]
    exact rel_update (fun a b : Call n C => ∀ r ∈ b.pending, r ∈ a.pending) (fun _ _ hr => hr) hpend
  refine ⟨hentry, ?_, ?_⟩
  · intro j r hr
    obtain ⟨htok, hfree, hother⟩ := h.pending j r (hpending j r hr)
    refine ⟨?_, hnone j r hr hfree, ?_⟩
    · rw [htoken _ (hknown.subject j _ (Call.sess_mem_subject (hpending j r hr))), htok]
    · intro j' hj'
      rw [hcalls] at hj'
      rcases of_update (P := (Call.lookup · = _)) hj' with ⟨-, hj'⟩ | ⟨-, hj'⟩
      · obtain ⟨x, hx⟩ := hlook _ hj'
        rw [hfree] at hx
        cases hx
      · exact hother j' hj'
  · intro j j' r hr r' hr'
    exact h.unique j j' r (hpending j r hr) r' (hpending j' r' hr')

theorem TokenIndex.of_same (h : s.TokenIndex) (hknown : s.Known)
    (hcalls : s'.calls = update s.calls i k) (hkick : ∀ x, s.calls i ≠ .kicking x)
    (hindex : s'.byToken = s.byToken) (hbyUID : s'.byUID = s.byUID)
    (htoken : ∀ x, (s'.sess x).token = (s.sess x).token)
    (huid : ∀ x, (s'.sess x).uid = (s.sess x).uid) (hpend : k.pending = (s.calls i).pending)
    (hlook : k.lookup = none) : s'.TokenIndex := by
  refine h.of_entries hknown hcalls (fun x _ => htoken x) ?_ ?_ ?_ ?_
  · intro r hr
    rwa [← hpend]
  · simp [hlook]
  · exact fun j r _ hr => by rwa [hindex]
  · intro t x ht
    rw [hindex] at ht
    refine h.entry_of_same hcalls ht ?_ fun hx hh =>
      ⟨by rwa [htoken], hh.kept hcalls (hkick x) hbyUID huid⟩
    exact fun r hr _ _ => by rwa [hpend]

theorem Held.started (h : s.Held x) (hfiled : s.Filed) : s.calls x ≠ .notStarted := by
  rcases h with hreg | ⟨i, hi⟩
  · exact (hfiled.uid _ x hreg).2
  · exact (hfiled.victim i x (by rw [hi]; rfl)).2

variable {ID : C → UInt64} {cfg : Config}

theorem sess_register (hi : s.calls i = .notStarted) (hx : s.calls x ≠ .notStarted) :
    ((s.register ID i uid c codec token).setCall i k).sess x = s.sess x :=
  update_of_ne (fun heq : x = i => hx (heq ▸ hi)) ..

theorem Held.register (h : s.Held x) (hfiled : s.Filed) (hi : s.calls i = .notStarted)
    (hold : ∀ y, s.byUID uid = some y → k = .kicking y) :
    ((s.register ID i uid c codec token).setCall i k).Held x := by
  refine h.of_same rfl (by simp [hi]) fun hreg => ?_
  by_cases hu : (s.sess x).uid = uid
  · exact .inr (hold x (hu ▸ hreg))
  · left
    rw [Registered, sess_register hi (h.started hfiled)]
    exact (insert_of_ne hu).trans hreg

theorem Held.remove [DecidableEq C] {y : Fin n} (h : s.Held x)
    (hi : s.calls i = .destroying todo) (hy : s.Registered y) (hxy : x ≠ y) :
    ((s.removeFromMaps ID y).setCall i k).Held x := by
  refine h.of_same rfl (by simp [hi]) fun hreg => .inl ?_
  have hu : (s.sess x).uid ≠ (s.sess y).uid := by
    intro heq
    rw [Registered, heq] at hreg
    exact hxy (some.inj (hreg.symm.trans hy))
  simp only [Registered, setCall_byUID, removeFromMaps_byUID, setCall_sess, removeFromMaps_sess]
  rwa [erase_of_ne hu]

theorem Tokens.generated_of_pending (h : s.Tokens) (hr : r ∈ (s.calls i).pending) :
    r.newToken ∈ s.generated := (h.held i _ (Call.newToken_mem_tokens hr)).1

theorem TokenIndex.register (h : s.TokenIndex) (hknown : s.Known)
    (hfiled : s.Filed) (htokens : s.Tokens) (hi : s.calls i = .notStarted)
    (hfresh : token ∉ s.generated) (hpend : k.pending = none) (hlook : k.lookup = none)
    (hold : ∀ y, s.byUID uid = some y → k = .kicking y) :
    ((s.register ID i uid c codec token).setCall i k).TokenIndex := by
  refine h.of_entries hknown rfl ?_ (by simp [hpend]) (by simp [hlook]) ?_ ?_
  · intro x hx
    rw [sess_register hi hx]
  · intro j r hr hnone
    have hgen : r.newToken ∈ s.generated := by
      rcases of_update (P := (r ∈ Call.pending ·)) hr with ⟨-, hr⟩ | ⟨-, hr⟩
      · rw [hpend] at hr
        cases hr
      · exact htokens.generated_of_pending hr
    have hne : r.newToken ≠ token := fun heq => hfresh (heq ▸ hgen)
    exact (insert_of_ne hne).trans hnone
  · intro t x ht
    rcases insert_eq_some.mp ht with ⟨rfl, rfl⟩ | ⟨-, ht⟩
    · right
      refine ⟨by simp [Sess.newSession], .inl ?_⟩
      simp [Registered, Sess.newSession]
    · refine h.entry_of_same rfl ht ?_ ?_
      · simp [hi, Call.pending]
      · intro hx hh
        rw [sess_register hi (hh.started hfiled)]
        exact ⟨hx, hh.register hfiled hi hold⟩

/-- While the token of a session is looked up, no reconnect of the session is under way. -/
theorem TokenIndex.sess_ne_of_lookup (h : s.TokenIndex) {j : Fin n}
    (hlook : (s.calls i).lookup = some (s.sess x).token) (hr : r ∈ (s.calls j).pending) :
    r.sess ≠ x := by
  rintro rfl
  obtain ⟨htok, -, hfree⟩ := h.pending j r hr
  exact hfree i (by rw [hlook, htok])

theorem TokenIndex.rotate (h : s.TokenIndex) (htokens : s.Tokens) {newToken : String}
    (hi : s.calls i = .rotating x token c codec) (ht : (s.sess x).token = token)
    (hfresh : newToken ∉ s.generated) : ((s.rotateToken x newToken).setCall i
      (.binding ⟨x, token, newToken, c, codec⟩)).TokenIndex := by
  have hlook : (s.calls i).lookup = some (s.sess x).token := by rw [hi, ht]; rfl
  have hpend : (s.calls i).pending = none := by rw [hi]; rfl
  have hsess : ∀ y, y ≠ x → ((s.rotateToken x newToken).sess y).token = (s.sess y).token := by
    intro y hy
    rw [rotateToken_sess, update_of_ne hy]
  have hlooks : ∀ j t, (update s.calls i
      (.binding ⟨x, token, newToken, c, codec⟩) j).lookup = some t → (s.calls j).lookup = some t :=
    rel_update (fun a b : Call n C => ∀ t, b.lookup = some t → a.lookup = some t)
      (fun _ _ h => h) (by simp [Call.lookup])
  have hnew : ∀ j, ∀ r ∈ (s.calls j).pending, newToken ≠ r.newToken := fun j r hr heq =>
    hfresh (heq ▸ htokens.generated_of_pending hr)
  refine ⟨?_, ?_, ?_⟩
  · intro t y hy
    by_cases hyx : y = x ∧ t = token
    · obtain ⟨rfl, rfl⟩ := hyx
      exact .inl ⟨i, _, by rw [setCall_calls, update_self]; rfl, rfl, rfl⟩
    · refine h.entry_of_same rfl hy (by simp [hpend]) fun hyt hh => ?_
      have hne : y ≠ x := by
        rintro rfl
        exact hyx ⟨rfl, hyt.symm.trans ht⟩
      refine ⟨(hsess y hne).trans hyt, hh.of_same rfl (by simp [hi]) fun hreg => .inl ?_⟩
      simp only [Registered, setCall_sess, rotateToken_sess, update_of_ne hne]
      exact hreg
  · intro j r hr
    rcases of_update (P := (r ∈ Call.pending ·)) hr with ⟨-, hr⟩ | ⟨-, hr⟩
    · cases hr
      refine ⟨by simp, ?_, fun j' hj' => ?_⟩
      · exact eq_none_iff_forall_ne_some.mpr fun y hy => hfresh (htokens.indexed _ y hy).1
      · exact hfresh (htokens.held j' _ (Call.mem_tokens_of_lookup (hlooks j' _ hj'))).1
    · obtain ⟨htok, hnone, hfree⟩ := h.pending j r hr
      exact ⟨(hsess _ (h.sess_ne_of_lookup hlook hr)).trans htok, hnone,
        fun j' hj' => hfree j' (hlooks j' _ hj')⟩
  · intro j j' r hr r' hr' heq
    rcases of_update (P := (r ∈ Call.pending ·)) hr with ⟨hj, hr⟩ | ⟨-, hr⟩ <;>
      rcases of_update (P := (r' ∈ Call.pending ·)) hr' with ⟨hj', hr'⟩ | ⟨-, hr'⟩
    · exact hj.trans hj'.symm
    · cases hr
      exact absurd heq (hnew j' r' hr')
    · cases hr'
      exact absurd heq.symm (hnew j r hr)
    · exact h.unique j j' r hr r' hr' heq

section

variable (h : s.TokenIndex) (hknown : s.Known)

include h hknown

theorem TokenIndex.of_subset (hcalls : s'.calls = update s.calls i k) (hsess : s'.sess = s.sess)
    (hnone : (s.calls i).pending = none) (hpend : k.pending = none) (hlook : k.lookup = none)
    (hsub : ∀ t y, s'.byToken t = some y → s.byToken t = some y ∧
      ((s.sess y).token = t → s.Held y → s'.Held y)) :
    s'.TokenIndex := by
  refine h.of_entries hknown hcalls (fun x _ => by rw [hsess]) (by simp [hpend])
    (by simp [hlook]) ?_ ?_
  · intro j r hr hfree
    refine eq_none_iff_forall_ne_some.mpr fun y hy => ?_
    have hold := (hsub _ y hy).1
    rw [hfree] at hold
    cases hold
  · intro t y ht
    obtain ⟨hold, hheld⟩ := hsub t y ht
    refine h.entry_of_same hcalls hold (by simp [hnone]) fun hy hh => ⟨?_, hheld hy hh⟩
    rw [hsess, hy]

theorem TokenIndex.unindex (htokens : s.Tokens) (hi : s.calls i = .kicking x) :
    ((s.unindex ID x).setCall i (.taking x .replaced)).TokenIndex := by
  refine h.of_subset hknown rfl rfl (by rw [hi]; rfl) rfl rfl ?_
  intro t y ht
  have hsub : s.byToken t = some y ∧ ¬ (t = (s.sess x).token ∧ y = x) := by
    rw [setCall_byToken, unindex_byToken] at ht
    split at ht
    next hblank => exact ⟨ht, fun heq => (htokens.indexed t y ht).2 (heq.1.trans hblank)⟩
    · exact eraseIf_eq_some.mp ht
  refine ⟨hsub.1, fun hy hh => hh.kept rfl ?_ rfl fun _ => rfl⟩
  rw [hi]
  rintro ⟨⟩
  exact hsub.2 ⟨hy.symm, rfl⟩

theorem TokenIndex.remove [DecidableEq C] (htokens : s.Tokens) (hi : s.calls i = .destroying todo)
    (hreg : s.Registered x) :
    ((s.removeFromMaps ID x).setCall i (.taking x (.swept (todo.erase x)))).TokenIndex := by
  refine h.of_subset hknown rfl rfl (by rw [hi]; rfl) rfl rfl ?_
  intro t y ht
  have hsub : s.byToken t = some y ∧ t ≠ (s.sess x).token := by
    rw [setCall_byToken, removeFromMaps_byToken] at ht
    split at ht
    next hblank => exact ⟨ht, fun heq => (htokens.indexed t y ht).2 (heq.trans hblank)⟩
    · exact (erase_eq_some.mp ht).symm
  refine ⟨hsub.1, fun hy hh => hh.remove hi hreg ?_⟩
  rintro rfl
  exact hsub.2 hy.symm

theorem TokenIndex.reindex {old : Option C} (hi : s.calls i = .reindexing r old)
    (hreg : s.Registered r.sess) :
    ((s.reindex ID r old).setCall i (.closingOld r old)).TokenIndex := by
  have hr : r ∈ (s.calls i).pending := by rw [hi]; rfl
  refine h.of_entries hknown rfl (fun _ _ => rfl) (by simp [Call.pending])
    (by simp [Call.lookup]) ?_ ?_
  · intro j r' hr' hnone
    rcases of_update (P := (r' ∈ Call.pending ·)) hr' with ⟨-, hr'⟩ | ⟨hj, hr'⟩
    · cases hr'
    have hne : r'.newToken ≠ r.newToken := fun heq => hj (h.unique j i r' hr' r hr heq)
    refine eq_none_iff_forall_ne_some.mpr fun y hy => ?_
    rcases insert_eq_some.mp hy with ⟨heq, -⟩ | ⟨-, hy⟩
    · exact hne heq
    · have hold := (erase_eq_some.mp hy).2
      rw [hnone] at hold
      cases hold
  · intro t y hy
    rcases insert_eq_some.mp hy with ⟨rfl, rfl⟩ | ⟨-, hy⟩
    · exact .inr ⟨(h.pending i r hr).1, .inl hreg⟩
    · obtain ⟨hne, hold⟩ := erase_eq_some.mp hy
      refine h.entry_of_same rfl hold ?_ fun hyt hh => ⟨hyt, hh.kept rfl ?_ rfl fun _ => rfl⟩
      · intro q hq hqt
        obtain rfl : r = q := some.inj (hr.symm.trans hq)
        exact absurd hqt.symm hne
      · simp [hi]

theorem TokenIndex.step [DecidableEq C] (hfiled : s.Filed) (htokens : s.Tokens) (hfresh : s.Fresh a)
    (hsteady : s.Steady ID a) (hstep : s.step ID cfg a = some s') : s'.TokenIndex := by
  cases happens_of_step hstep with
  | tick => exact { h with }
  | create hi hold | replace hi hold =>
    exact h.register hknown hfiled htokens hi (hfresh _ rfl) rfl rfl (by simp [hold])
  | unindex hi => exact h.unindex hknown htokens hi
  | @find i x token c codec hi hx =>
    refine h.of_entries hknown rfl (fun _ _ => rfl) (by simp [Call.pending]) ?_
      (fun _ _ _ hnone => hnone) ?_
    · rintro t ⟨⟩
      exact ⟨x, hx⟩
    · intro t y hy
      refine h.entry_of_same rfl hy (by simp [hi, Call.pending]) fun hyt hh => ⟨hyt, ?_⟩
      exact hh.kept rfl (by simp [hi]) rfl fun _ => rfl
  | rotate hi ht => exact h.rotate htokens hi ht (hfresh _ rfl)
  | @reindex i r old hi => exact h.reindex hknown hi (hsteady.1 i (.inr rfl) r (by rw [hi]; rfl))
  | remove hi hx hreg => exact h.remove hknown htokens hi hreg
  | goOffline hi =>
    exact h.of_same hknown rfl (by simp [hi]) rfl rfl (apply_update_of_eq Sess.token (by simp))
      (apply_update_of_eq Sess.uid (by simp)) (by rw [hi]; rfl) rfl
  | bind hi | goOnline hi | clearOffline hi | unbind hi | release hi =>
    exact h.of_same hknown rfl (by simp [hi]) rfl rfl (apply_update_of_eq Sess.token (by rfl))
      (apply_update_of_eq Sess.uid (by rfl)) (by rw [hi]; rfl) rfl
  | @notify i x why hi =>
    refine h.of_same hknown rfl (by simp [hi]) rfl rfl (fun _ => rfl) (fun _ => rfl) ?_ ?_
    · rw [hi]
      cases why <;> rfl
    · cases why <;> rfl
  | miss hi | stale hi | closeOld hi | leave hi | dropConn hi | closeConn hi | sweep hi | examine hi
  | skip hi | takeConn hi | close hi =>
    exact h.of_same hknown rfl (by simp [hi]) rfl rfl (fun _ => rfl) (fun _ => rfl)
      (by rw [hi]; rfl) rfl

end

/-- An entry of the index by connection is about to be dropped by the pump or the reconnect, or is
that of the bound connection of a held session. -/
def Answered (ID : C → UInt64) (s : Manager n C) (k : UInt64) (x : Fin n) : Prop :=
  (∃ i, ∃ c, (s.calls i).drops = some (x, c) ∧ ID c = k) ∨
  (∃ i, ∃ r d, (s.calls i).swapped = some (r, some d) ∧ r.sess = x ∧ ID d = k) ∨
    ∃ c, (s.sess x).conn = some c ∧ ID c = k ∧ s.Held x

/-- What the entries of the index by connection are. -/
structure ConnIndex (ID : C → UInt64) (s : Manager n C) : Prop where
  entry : ∀ k x, s.byConn k = some x → s.Answered ID k x
  /-- A reconnect that has bound its connection finds it still bound. -/
  bound : ∀ i, ∀ p ∈ (s.calls i).swapped, (s.sess p.1.sess).conn = some p.1.conn

theorem connIndex_newManager (clock : ℤ) : (newManager n C clock).ConnIndex ID where
  entry := fun _ _ h => by simp [newManager] at h
  bound := fun _ _ h => by simp [newManager, Call.swapped] at h

theorem Answered.of_same {k : UInt64} (h : s.Answered ID k x)
    (hcalls : s'.calls = update s.calls i κ)
    (hdrops : ∀ c, (s.calls i).drops = some (x, c) → ID c = k → κ.drops = some (x, c))
    (hswapped : ∀ r d, (s.calls i).swapped = some (r, some d) → r.sess = x → ID d = k →
      κ.swapped = some (r, some d))
    (hbound : ∀ c, (s.sess x).conn = some c → ID c = k → s.Held x → s'.Answered ID k x) :
    s'.Answered ID k x := by
  rcases h with ⟨j, c, hj, hc⟩ | ⟨j, r, d, hj, hr, hd⟩ | ⟨c, hx, hc, hh⟩
  · left
    refine ⟨j, c, ?_, hc⟩
    rw [hcalls]
    exact rel_update (fun κ κ' : Call n C => κ.drops = some (x, c) → κ'.drops = some (x, c))
      (fun _ => id) (fun hi => hdrops c hi hc) j hj
  · right; left
    refine ⟨j, r, d, ?_, hr, hd⟩
    rw [hcalls]
    exact rel_update (fun κ κ' : Call n C => κ.swapped = some (r, some d) →
      κ'.swapped = some (r, some d)) (fun _ => id) (fun hi => hswapped r d hi hr hd) j hj
  · exact hbound c hx hc hh

theorem ConnIndex.of_same (h : s.ConnIndex ID) (hcalls : s'.calls = update s.calls i κ)
    (hkick : ∀ x, s.calls i ≠ .kicking x) (hindex : s'.byConn = s.byConn)
    (hbyUID : s'.byUID = s.byUID) (hconn : ∀ x, (s'.sess x).conn = (s.sess x).conn)
    (huid : ∀ x, (s'.sess x).uid = (s.sess x).uid) (hdrops : κ.drops = (s.calls i).drops)
    (hswapped : κ.swapped = (s.calls i).swapped) : s'.ConnIndex ID := by
  constructor
  · intro k x hk
    rw [hindex] at hk
    refine (h.entry k x hk).of_same hcalls (fun c hc _ => hdrops.trans hc)
      (fun r d hr _ _ => hswapped.trans hr) fun c hx hc hh => .inr (.inr ⟨c, ?_, hc, ?_⟩)
    · rw [hconn, hx]
    · exact hh.kept hcalls (hkick x) hbyUID huid
  · intro j p hp
    rw [hcalls] at hp
    rw [hconn]
    refine h.bound j p ?_
    rwa [apply_update_of_eq Call.swapped hswapped j] at hp

theorem dropConn_eq_some {conn : Option C} {y : Fin n} {k : UInt64}
    (h : s.dropConn ID conn x k = some y) :
    s.byConn k = some y ∧ ∀ c, conn = some c → ID c = k → y ≠ x := by
  rcases conn with _ | d
  · exact ⟨h, by simp⟩
  · obtain ⟨hold, hne⟩ := eraseIf_eq_some.mp h
    refine ⟨hold, ?_⟩
    rintro c ⟨⟩ hc hy
    exact hne ⟨hc.symm, hy⟩

section

variable (h : s.ConnIndex ID)

include h

theorem ConnIndex.bound_of (hcalls : s'.calls = update s.calls i κ) (hswapped : κ.swapped = none)
    (hconn : ∀ j, ∀ p ∈ (s.calls j).swapped,
      (s'.sess p.1.sess).conn = (s.sess p.1.sess).conn) (j : Fin n) :
    ∀ p ∈ (s'.calls j).swapped, (s'.sess p.1.sess).conn = some p.1.conn := by
  intro p hp
  rw [hcalls] at hp
  rcases of_update (P := (p ∈ Call.swapped ·)) hp with ⟨-, hp⟩ | ⟨-, hp⟩
  · rw [hswapped] at hp
    cases hp
  · exact (hconn j p hp).trans (h.bound j p hp)

theorem ConnIndex.register (hknown : s.Known) (hfiled : s.Filed) (hi : s.calls i = .notStarted)
    (hswapped : κ.swapped = none) (hold : ∀ y, s.byUID uid = some y → κ = .kicking y) :
    ((s.register ID i uid c codec token).setCall i κ).ConnIndex ID := by
  refine ⟨?_, h.bound_of rfl hswapped fun j p hp => ?_⟩
  · intro k x hk
    rcases insert_eq_some.mp hk with ⟨rfl, rfl⟩ | ⟨-, hk⟩
    · refine .inr (.inr ⟨c, by simp [Sess.newSession], rfl, .inl ?_⟩)
      simp [Registered, Sess.newSession]
    · refine (h.entry k x hk).of_same rfl (by simp [hi, Call.drops]) (by simp [hi, Call.swapped])
        fun d hd hdk hh => .inr (.inr ⟨d, ?_, hdk, hh.register hfiled hi hold⟩)
      rwa [sess_register hi (hh.started hfiled)]
  · rw [sess_register hi
      (hknown.subject j _ (Call.sess_mem_subject (Call.pending_of_swapped hp)))]

theorem ConnIndex.of_subset (hcalls : s'.calls = update s.calls i κ)
    (hsess : s'.sess = s.sess) (hdrops : (s.calls i).drops = none)
    (hnone : (s.calls i).swapped = none) (hswapped : κ.swapped = none)
    (hsub : ∀ k y, s'.byConn k = some y → s.byConn k = some y ∧ ∀ c, (s.sess y).conn = some c →
      ID c = k → s.Held y → s'.Held y) :
    s'.ConnIndex ID := by
  refine ⟨?_, h.bound_of hcalls hswapped fun _ _ _ => by rw [hsess]⟩
  intro k y hk
  obtain ⟨hold, hheld⟩ := hsub k y hk
  refine (h.entry k y hold).of_same hcalls (by simp [hdrops]) (by simp [hnone])
    fun c hc hck hh => .inr (.inr ⟨c, ?_, hck, hheld c hc hck hh⟩)
  rw [hsess, hc]

theorem ConnIndex.unindex (hi : s.calls i = .kicking x) :
    ((s.unindex ID x).setCall i (.taking x .replaced)).ConnIndex ID := by
  refine h.of_subset rfl rfl (by rw [hi]; rfl) (by rw [hi]; rfl) rfl ?_
  intro k y hk
  obtain ⟨hold, hne⟩ := dropConn_eq_some hk
  refine ⟨hold, fun c hc hck hh => hh.kept rfl ?_ rfl fun _ => rfl⟩
  rw [hi]
  rintro ⟨⟩
  exact hne c hc hck rfl

theorem ConnIndex.remove [DecidableEq C] (hi : s.calls i = .destroying todo) (hreg : s.Registered x)
    : ((s.removeFromMaps ID x).setCall i (.taking x (.swept (todo.erase x)))).ConnIndex ID := by
  refine h.of_subset rfl rfl (by rw [hi]; rfl) (by rw [hi]; rfl) rfl ?_
  intro k y hk
  obtain ⟨hold, hne⟩ := dropConn_eq_some hk
  refine ⟨hold, fun c hc hck hh => hh.remove hi hreg ?_⟩
  rintro rfl
  exact hne c hc hck rfl

theorem ConnIndex.bind (htoken : s.TokenIndex) (hi : s.calls i = .binding r) :
    ((s.setSess r.sess ((s.sess r.sess).bind r.conn)).setCall i
      (.onlining r (s.sess r.sess).conn)).ConnIndex ID := by
  have hr : r ∈ (s.calls i).pending := by rw [hi]; rfl
  constructor
  · intro k x hk
    refine (h.entry k x hk).of_same rfl (by simp [hi, Call.drops]) (by simp [hi, Call.swapped]) ?_
    intro c hc hck hh
    by_cases hx : x = r.sess
    · subst hx
      refine .inr (.inl ⟨i, r, c, ?_, rfl, hck⟩)
      rw [setCall_calls, update_self, ← hc]
      rfl
    · refine .inr (.inr ⟨c, ?_, hck, hh.kept rfl (by simp [hi]) rfl ?_⟩)
      · simpa [update_of_ne hx] using hc
      · exact apply_update_of_eq Sess.uid (by rfl)
  · intro j p hp
    rcases of_update (P := (p ∈ Call.swapped ·)) hp with ⟨-, hp⟩ | ⟨hj, hp⟩
    · cases hp
      simp [Sess.bind]
    · have hpend := Call.pending_of_swapped hp
      -- one reconnect of a session at a time is under way
      have hne : p.1.sess ≠ r.sess := by
        intro heq
        refine hj (htoken.unique j i p.1 hpend r hr ?_)
        rw [← (htoken.pending j p.1 hpend).1, ← (htoken.pending i r hr).1, heq]
      simpa [update_of_ne hne] using h.bound j p hp

theorem ConnIndex.reindex {old : Option C} (hi : s.calls i = .reindexing r old)
    (hreg : s.Registered r.sess) :
    ((s.reindex ID r old).setCall i (.closingOld r old)).ConnIndex ID := by
  have hbound : (s.sess r.sess).conn = some r.conn := h.bound i (r, old) (by rw [hi]; rfl)
  refine ⟨?_, h.bound_of rfl rfl fun _ _ _ => rfl⟩
  intro k x hk
  rcases insert_eq_some.mp hk with ⟨rfl, rfl⟩ | ⟨-, hk⟩
  · exact .inr (.inr ⟨r.conn, hbound, rfl, .inl hreg⟩)
  · obtain ⟨hold, hne⟩ := dropConn_eq_some hk
    refine (h.entry k x hold).of_same rfl (by simp [hi, Call.drops]) ?_
      fun c hc hck hh => .inr (.inr ⟨c, hc, hck, hh.kept rfl (by simp [hi]) rfl fun _ => rfl⟩)
    intro q d hq hqx hd
    rw [hi] at hq
    cases hq
    exact absurd hqx.symm (hne d rfl hd)

theorem ConnIndex.unbind {old : C} (hi : s.calls i = .notStarted)
    (hconn : (s.sess x).conn = some old) (hID : ID old = ID c)
    (hexit : ∀ j, ∀ q ∈ (s.calls j).swapped, q.1.sess = x → ID q.1.conn ≠ ID c) :
    ((s.setSess x (s.sess x).unbind).setCall i (.offlining x c old)).ConnIndex ID := by
  refine ⟨?_, h.bound_of rfl rfl fun j p hp => ?_⟩
  · intro k y hk
    refine (h.entry k y hk).of_same rfl (by simp [hi, Call.drops]) (by simp [hi, Call.swapped]) ?_
    intro d hd hdk hh
    by_cases hy : y = x
    · subst hy
      obtain rfl := some.inj (hconn.symm.trans hd)
      exact .inl ⟨i, c, by rw [setCall_calls, update_self]; rfl, hID.symm.trans hdk⟩
    · refine .inr (.inr ⟨d, ?_, hdk, hh.kept rfl (by simp [hi]) rfl ?_⟩)
      · simpa [update_of_ne hy] using hd
      · exact apply_update_of_eq Sess.uid (by rfl)
  · have hne : p.1.sess ≠ x := by
      intro heq
      refine hexit j p hp heq ?_
      have hb := h.bound j p hp
      rw [heq, hconn] at hb
      rw [← some.inj hb, hID]
    simp [update_of_ne hne]

theorem ConnIndex.dropConn {old : C} (hi : s.calls i = .dropping x c old) :
    ConnIndex ID { s.setCall i (.leaving x c old) with byConn := s.byConn.eraseIf (ID c) x } := by
  refine ⟨?_, h.bound_of rfl rfl fun _ _ _ => rfl⟩
  intro k y hk
  obtain ⟨hold, hne⟩ := eraseIf_eq_some.mp hk
  refine (h.entry k y hold).of_same rfl ?_ (by simp [hi, Call.swapped])
    fun d hd hdk hh => .inr (.inr ⟨d, hd, hdk, hh.kept rfl (by simp [hi]) rfl fun _ => rfl⟩)
  intro d hd hdk
  rw [hi] at hd
  cases hd
  exact absurd ⟨hdk.symm, rfl⟩ hne

theorem ConnIndex.step [DecidableEq C] (hknown : s.Known) (hfiled : s.Filed) (htoken : s.TokenIndex)
    (hsteady : s.Steady ID a) (hstep : s.step ID cfg a = some s') : s'.ConnIndex ID := by
  cases happens_of_step hstep with
  | tick => exact { h with }
  | create hi hold | replace hi hold => exact h.register hknown hfiled hi rfl (by simp [hold])
  | unindex hi => exact h.unindex hi
  | bind hi => exact h.bind htoken hi
  | @reindex i r old hi => exact h.reindex hi (hsteady.1 i (.inr rfl) r (by rw [hi]; rfl))
  | unbind hi hconn hID => exact h.unbind hi hconn hID (hsteady.2 _ rfl)
  | dropConn hi => exact h.dropConn hi
  | remove hi hx hreg => exact h.remove hi hreg
  | rotate hi | goOnline hi | clearOffline hi | release hi =>
    exact h.of_same rfl (by simp [hi]) rfl rfl (apply_update_of_eq Sess.conn (by rfl))
      (apply_update_of_eq Sess.uid (by rfl)) (by rw [hi]; rfl) (by rw [hi]; rfl)
  | goOffline hi =>
    exact h.of_same rfl (by simp [hi]) rfl rfl (apply_update_of_eq Sess.conn (by simp))
      (apply_update_of_eq Sess.uid (by simp)) (by rw [hi]; rfl) (by rw [hi]; rfl)
  | @notify i x why hi =>
    refine h.of_same rfl (by simp [hi]) rfl rfl (fun _ => rfl) (fun _ => rfl) ?_ ?_
    all_goals
      rw [hi]
      cases why <;> rfl
  | find hi | miss hi | stale hi | closeOld hi | leave hi | closeConn hi | sweep hi | examine hi
  | skip hi | takeConn hi | close hi =>
    exact h.of_same rfl (by simp [hi]) rfl rfl (fun _ => rfl) (fun _ => rfl) (by rw [hi]; rfl)
      (by rw [hi]; rfl)

end

/-- What is known of a manager whose reconnects are steady. -/
structure Indexed (ID : C → UInt64) (s : Manager n C) : Prop where
  known : s.Known
  filed : s.Filed
  tokens : s.Tokens
  byToken : s.TokenIndex
  byConn : s.ConnIndex ID

theorem Held.registered (h : s.Held x) (hidle : ∀ i, (s.calls i).idle = true) : s.Registered x := by
  rcases h with hreg | ⟨i, hi⟩
  · exact hreg
  · have := hidle i
    rw [hi] at this
    cases this

variable [DecidableEq C]

theorem offline_of_step (hx : s.Gone x) (hst : (s.sess x).st ≠ .stateOnline)
    (hsteady : s.Steady ID a) (hstep : s.step ID cfg a = some s') :
    (s'.sess x).st ≠ .stateOnline := by
  -- a session of which a step does not set the state
  have same : ∀ {y : Fin n} {r : Sess C}, r.st = (s.sess y).st →
      (update s.sess y r x).st ≠ .stateOnline := by
    intro y r hr
    rwa [apply_update_of_eq Sess.st hr x]
  have other : ∀ {y : Fin n} {r : Sess C}, x ≠ y → (update s.sess y r x).st ≠ .stateOnline := by
    intro y r hne
    rwa [update_of_ne hne]
  cases happens_of_step hstep with
  | @create i _ _ _ _ hi | @replace i _ _ _ _ _ hi =>
    refine other ?_
    rintro rfl
    exact hx.2 hi
  | @goOnline i r old hi =>
    refine other ?_
    rintro rfl
    exact hx.1 (hsteady.1 i (.inl rfl) r (by rw [hi]; rfl))
  | @goOffline i y c old hi =>
    by_cases hxy : x = y
    · subst hxy
      simpa using Sess.goOffline_st_ne (s.sess x) s.clock
    · exact other hxy
  | @release i y conn why hi =>
    by_cases hxy : x = y
    · subst hxy
      simp [Sess.markReleased]
    · exact other hxy
  | rotate hi | bind hi | clearOffline hi | unbind hi => exact same rfl
  | _ => exact hst

variable {acts : List (ManagerAct n C)} {clock : ℤ}

theorem indexed_of_run (hrun : run (step ID cfg) (newManager n C clock) acts = some s)
    (hfresh : Along (step ID cfg) Fresh (newManager n C clock) acts)
    (hsteady : Along (step ID cfg) (Steady ID) (newManager n C clock) acts) :
    s.Indexed ID := by
  refine invariant_of_run (I := Indexed ID) ?_ ?_ (hfresh.and hsteady) hrun
  · rintro s a s' h ⟨hf, hs⟩ hstep
    exact ⟨h.known.step hstep, h.filed.step hstep, h.tokens.step hf hstep,
      h.byToken.step h.known h.filed h.tokens hf hs hstep,
      h.byConn.step h.known h.filed h.byToken hs hstep⟩
  · exact ⟨known_newManager clock, filed_newManager clock, tokens_newManager clock,
      tokenIndex_newManager clock, connIndex_newManager clock⟩

/-- **A released session is gone for good, and the indexes hold registered sessions**, if tokens
never repeat and reconnects find their session registered to the end: a released session is never
online again; and whenever no call is under way, each session in an index is registered for its
user. -/
theorem index_registered (hrun : run (step ID cfg) (newManager n C clock) acts = some s)
    (hfresh : Along (step ID cfg) Fresh (newManager n C clock) acts)
    (hsteady : Along (step ID cfg) (Steady ID) (newManager n C clock) acts) :
    (∀ (x : Fin n) (acts' : List (ManagerAct n C)) (s' : Manager n C),
      (s.sess x).st = .stateReleased → run (step ID cfg) s acts' = some s' →
      Along (step ID cfg) (Steady ID) s acts' → (s'.sess x).st ≠ .stateOnline) ∧
    ((∀ i, (s.calls i).idle = true) →
      ∀ x, (∃ t, s.byToken t = some x) ∨ (∃ k, s.byConn k = some x) →
        s.Registered x ∧ (s.sess x).st ≠ .stateReleased) := by
  have hindexed := indexed_of_run hrun hfresh hsteady
  constructor
  · intro x acts' s' hst hrun' hsteady'
    have hgone : s'.Gone x ∧ (s'.sess x).st ≠ .stateOnline := by
      refine invariant_of_run (I := fun s => s.Gone x ∧ (s.sess x).st ≠ .stateOnline) ?_
        ⟨hindexed.filed.released x hst, by simp [hst]⟩ hsteady' hrun'
      rintro s a s' ⟨hx, hoff⟩ ha hstep
      exact ⟨hx.step hstep, offline_of_step hx hoff ha hstep⟩
    exact hgone.2
  · intro hidle x hx
    have hreg : s.Registered x := by
      rcases hx with ⟨t, ht⟩ | ⟨k, hk⟩
      · rcases hindexed.byToken.entry t x ht with ⟨i, r, hr, -⟩ | ⟨-, hh⟩
        · rw [Call.pending_of_idle (hidle i)] at hr
          cases hr
        · exact hh.registered hidle
      · rcases hindexed.byConn.entry k x hk with ⟨i, c, hi, -⟩ | ⟨i, r, d, hi, -⟩ | ⟨c, -, -, hh⟩
        · rw [Call.drops_of_idle (hidle i)] at hi
          cases hi
        · have hr := Call.pending_of_swapped hi
          rw [Call.pending_of_idle (hidle i)] at hr
          cases hr
        · exact hh.registered hidle
    exact ⟨hreg, fun hst => (hindexed.filed.released x hst).1 hreg⟩

/-- Alice logs in twice, so that her first session is released, and reconnects to the second. -/
def replacedActs : List (ManagerAct 4 UInt64) :=
  [.create 0 "alice" 1 0 "t0", .create 1 "alice" 2 0 "t1", .unindex 1, .takeConn 1, .release 1,
    .close 1, .notify 1, .reconnect 2 "t1" 3 0, .rotate 2 "t2", .bind 2, .goOnline 2,
    .clearOffline 2, .reindex 2, .closeOld 2]

theorem index_registered_replaced : ∃ s,
    run (step id (Config.withDefaults 60)) (newManager 4 UInt64 100) replacedActs = some s ∧
      (s.sess 0).st = .stateReleased ∧
      (∀ s', run (step id (Config.withDefaults 60)) s
        [.reconnect 3 "t2" 4 0, .rotate 3 "t3", .bind 3, .goOnline 3] = some s' →
        (s'.sess 0).st ≠ .stateOnline) ∧
      s.byToken "t2" = some 1 ∧ s.byConn 3 = some 1 ∧ s.Registered 1 ∧
      (s.sess 1).st ≠ .stateReleased := by
  obtain ⟨s, hrun, hst, hidle, htoken, hconn, hsteady⟩ := exists_of_run
    (step id (Config.withDefaults 60)) (newManager 4 UInt64 100) replacedActs
    (fun s => (s.sess 0).st = .stateReleased ∧ (∀ i, (s.calls i).idle = true) ∧
      s.byToken "t2" = some 1 ∧ s.byConn 3 = some 1 ∧
      Along (step id (Config.withDefaults 60)) (Steady id) s
        [.reconnect 3 "t2" 4 0, .rotate 3 "t3", .bind 3, .goOnline 3])
    (by decide +kernel)
  obtain ⟨hgone, hindex⟩ := index_registered hrun (by decide +kernel) (by decide +kernel)
  exact ⟨s, hrun, hst, fun s' hrun' => hgone 0 _ s' hst hrun' hsteady, htoken, hconn,
    hindex hidle 1 (.inl ⟨_, htoken⟩)⟩

/-- Alice's reconnect is accepted after the grace period, and a sweep destroys the session before it
is bound. -/
def destroyedActs : List (ManagerAct 4 UInt64) :=
  [.create 0 "alice" 1 0 "t0", .markOfflineConn 1 0 1, .goOffline 1, .dropConn 1, .closeConn 1,
    .tick 60, .reconnect 2 "t0" 2 0, .rotate 2 "t1", .sweep 3, .examine 3, .remove 3 0,
    .takeConn 3, .release 3, .close 3, .notify 3]

/-- The released session is online again, no call is under way, and both indexes hold it though it
is not registered. -/
theorem released_session_returns : ∃ s s',
    run (step id (Config.withDefaults 60)) (newManager 4 UInt64 100) destroyedActs = some s ∧
      (s.sess 0).st = .stateReleased ∧
      run (step id (Config.withDefaults 60)) s
        [.bind 2, .goOnline 2, .clearOffline 2, .reindex 2, .closeOld 2] = some s' ∧
      (s'.sess 0).st = .stateOnline ∧ (∀ i, (s'.calls i).idle = true) ∧
      s'.byToken "t1" = some 0 ∧ s'.byConn 2 = some 0 ∧ ¬ s'.Registered 0 := by
  obtain ⟨s, hrun, hst, hrun'⟩ := exists_of_run
    (step id (Config.withDefaults 60)) (newManager 4 UInt64 100) destroyedActs
    (fun s => (s.sess 0).st = .stateReleased ∧ (run (step id (Config.withDefaults 60)) s
        [.bind 2, .goOnline 2, .clearOffline 2, .reindex 2, .closeOld 2]).any (fun s' =>
          decide ((s'.sess 0).st = .stateOnline ∧ (∀ i, (s'.calls i).idle = true) ∧
            s'.byToken "t1" = some 0 ∧ s'.byConn 2 = some 0 ∧ ¬ s'.Registered 0)) = true)
    (by decide +kernel)
  obtain ⟨s', hrun', hend⟩ := exists_of_run _ _ _ _ hrun'
  exact ⟨s, s', hrun, hst, hrun', hend⟩

end Manager

end RanGame.Session
