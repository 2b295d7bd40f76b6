import RanGame.App.Gateway

/-!
# The connection table of the Gateway

`conns` is written when a client names a uid, whatever becomes of the login; `cleanupConn` deletes
the entry of its uid, whoever's it is; and a connection that names a second uid leaves the entry of
the first behind.
-/

namespace RanGame.App

open Machine PartialMap

namespace GatewayConnector

open Function

variable {D : Type*} {s s' : GatewayConnector D}

/-- No other open connection has named the uid. -/
def Alone (s : GatewayConnector D) (c : Conn) (uid : String) : Prop :=
  ∀ d ∈ s.accepted, d ≠ c → (s.conn d).serving.isOpen = true → (s.conn d).uid ≠ uid

instance (c : Conn) (uid : String) : Decidable (s.Alone c uid) :=
  inferInstanceAs (Decidable (∀ d ∈ s.accepted, _))

/-- The entry of a uid that an open connection has named is that connection. -/
def Own (s : GatewayConnector D) : Prop :=
  ∀ c, (s.conn c).serving.isOpen = true → (s.conn c).uid ≠ "" → s.conns (s.conn c).uid = some c

theorem own_newGatewayConnector : Own (newGatewayConnector D) := nofun

variable {c : Conn} {a : GwAct D}

theorem Own.update (h : Own s) {g : GwConn D} (hconns : s'.conns = s.conns)
    (hconn : s'.conn = update s.conn c g) (huid : g.uid = (s.conn c).uid)
    (hopen : g.serving.isOpen = true → (s.conn c).serving.isOpen = true) : Own s' := by
  intro d
  rw [hconn, hconns]
  by_cases hd : d = c
  · subst hd
    rw [update_self, huid]
    exact fun hg => h d (hopen hg)
  · rw [update_of_ne hd]
    exact h d

theorem Own.step (hb : Basic s) (h : Own s) (hs : Happens s a s')
    (halone : ∀ c uid node, a = .login c uid node → s.Alone c uid) : Own s' := by
  cases hs with
  | @accepted a =>
    intro d
    rw [accept_conn]
    by_cases hd : d = s.fresh a
    · subst hd
      rw [update_self]
      exact fun _ hne => absurd rfl hne
    · rw [update_of_ne hd]
      exact h d
  | @named c uid node g hread =>
    intro d hopen hne
    rw [name_conn] at hopen hne ⊢
    rw [name_conns]
    by_cases hd : d = c
    · subst hd
      rw [update_self]
      exact insert_self
    · rw [update_of_ne hd] at hopen hne ⊢
      have hother := halone c uid node rfl d (hb.mem_of_reading rfl hopen) hd hopen
      rw [insert_of_ne hother]
      exact h d hopen hne
  | turned ha hturn hwait huid => exact h.update rfl rfl huid fun _ => hturn.isOpen.1
  | requested hc | woken hc => exact h.update rfl rfl rfl fun _ => by rw [hc]; rfl
  | @cleaned c hclosing =>
    intro d hopen hne
    rw [cleanupConn_conn] at hopen hne ⊢
    by_cases hd : d = c
    · subst hd
      rw [update_self] at hopen
      cases hopen
    · rw [update_of_ne hd] at hopen hne ⊢
      have hentry := h d hopen hne
      rw [cleanupConn_conns]
      split
      · exact hentry
      next hc =>
        refine (erase_of_ne fun heq => hd ?_).trans hentry
        rw [heq, h c (by rw [hclosing]; rfl) hc] at hentry
        exact (Option.some.inj hentry).symm
  | passed => exact h.update rfl rfl rfl id
  | _ => exact h

theorem Happens.asking (hs : Happens s a s') {nodes : List String}
    (hc : (s'.conn c).serving = .asking .login nodes) :
    (s.conn c).serving = .asking .login nodes ∧ (s'.conn c).uid = (s.conn c).uid ∨
      ∃ uid node, a = .login c uid node ∧ (s'.conn c).uid = uid ∧ uid ≠ "" := by
  have hconn := hs.connStep c
  generalize s'.conn c = g at hc hconn ⊢
  cases hconn with
  | same | passed => exact .inl ⟨hc, rfl⟩
  | @named uid node g hread huid => exact .inr ⟨uid, node, rfl, rfl, huid⟩
  | turned hturn =>
    rw [hc] at hturn
    generalize (s.conn c).serving = t at hturn
    cases hturn
  | accepted | requested | woken | cleaned => cases hc

/-- A client names only one uid, and none that an open connection has named. -/
def Exclusive (s : GatewayConnector D) : GwAct D → Prop
  | .login c uid _ => s.Alone c uid ∧ ((s.conn c).uid = "" ∨ (s.conn c).uid = uid)
  | _ => True

instance (a : GwAct D) : Decidable (s.Exclusive a) := by
  cases a <;> unfold Exclusive <;> infer_instance

theorem Exclusive.alone (h : s.Exclusive a) (c : Conn) (uid : String) (node : Option String)
    (ha : a = .login c uid node) : s.Alone c uid := by
  subst ha
  exact h.1

/-- Entries are open connections, and whoever has logged in keeps the uid. -/
structure Sole (s : GatewayConnector D) : Prop where
  basic : Basic s
  own : Own s
  entry : ∀ u c, s.conns u = some c → u ≠ "" ∧ (s.conn c).serving.isOpen = true ∧ (s.conn c).uid = u
  asking : ∀ c nodes, (s.conn c).serving = .asking .login nodes → (s.conn c).uid ≠ ""
  reqs : ∀ n < s.nreq, (s.reqs n).kind = .login →
    (s.reqs n).uid ≠ "" ∧ (s.conn (s.reqs n).conn).uid = (s.reqs n).uid
  holder : ∀ u c, s.holder u = some c → c ∈ s.accepted ∧ u ≠ "" ∧ (s.conn c).uid = u
  lastLogin : ∀ u c, s.lastLogin u = some c → c ∈ s.accepted ∧ u ≠ "" ∧ (s.conn c).uid = u

theorem sole_newGatewayConnector : Sole (newGatewayConnector D) where
  basic := basic_newGatewayConnector
  own := own_newGatewayConnector
  entry := nofun
  asking := nofun
  reqs := nofun
  holder := nofun
  lastLogin := nofun

theorem uid_of_step (hb : Basic s) (hex : s.Exclusive a) (hs : Happens s a s') {u : String}
    (hc : c ∈ s.accepted) (hu : u ≠ "") (huid : (s.conn c).uid = u) : (s'.conn c).uid = u := by
  have hconn := hs.connStep c
  generalize s'.conn c = g at hconn ⊢
  cases hconn with
  | accepted heq => exact absurd (heq ▸ hc) (hb.fresh_not_mem _)
  | named => exact (hex.2.resolve_left (huid ▸ hu)).symm.trans huid
  | turned hturn huid' => exact huid'.trans huid
  | _ => exact huid

theorem lastLogin_of_respond {d : Conn} {n : ℕ} {b : Body D} {u : String}
    (hc : (s.respond d n b).lastLogin u = some c) :
    s.lastLogin u = some c ∨ (s.reqs n).kind = .login ∧ u = (s.conn d).uid ∧ c = d := by
  rw [respond_lastLogin] at hc
  split at hc
  next hlogin =>
    rcases insert_eq_some.mp hc with ⟨rfl, rfl⟩ | ⟨-, hc⟩
    · exact .inr ⟨hlogin.1, rfl, rfl⟩
    · exact .inl hc
  · exact .inl hc

namespace Sole

variable {a : GwAct D}

theorem conns_of_step (h : Sole s) (hex : s.Exclusive a) (hs : Happens s a s') {u : String}
    {c : Conn} (hc : s.conns u = some c) (ha : a.conn? ≠ some c) : s'.conns u = some c := by
  cases hs with
  | @named d uid node g =>
    have hcd : c ≠ d := fun heq => ha (heq ▸ rfl)
    obtain ⟨-, hopen, rfl⟩ := h.entry u c hc
    have hother := hex.1 c (h.basic.table _ c hc) hcd hopen
    rw [name_conns, insert_of_ne hother]
    exact hc
  | @cleaned d hclosing =>
    rw [cleanupConn_conns]
    split
    · exact hc
    next hd =>
      refine (erase_of_ne ?_).trans hc
      rintro rfl
      rw [h.own d (by rw [hclosing]; rfl) hd] at hc
      exact ha hc
  | _ => exact hc

theorem step_entry (h : Sole s) (hex : s.Exclusive a) (hs : Happens s a s') (u : String) (c : Conn)
    (hc : s'.conns u = some c) :
    u ≠ "" ∧ (s'.conn c).serving.isOpen = true ∧ (s'.conn c).uid = u := by
  have hother : ∀ (d : Conn) (g : GwConn D), s.conns u = some c → c ≠ d →
      u ≠ "" ∧ (update s.conn d g c).serving.isOpen = true ∧ (update s.conn d g c).uid = u := by
    intro d g hc hcd
    rw [update_of_ne hcd]
    exact h.entry u c hc
  have hmove : ∀ (d : Conn) (g : GwConn D), s.conns u = some c → g.uid = (s.conn d).uid →
      ((s.conn d).serving.isOpen = true → g.serving.isOpen = true) →
      u ≠ "" ∧ (update s.conn d g c).serving.isOpen = true ∧ (update s.conn d g c).uid = u := by
    intro d g hc huid hopen
    by_cases hcd : c = d
    · subst hcd
      obtain ⟨hu, hc, huid'⟩ := h.entry u c hc
      rw [update_self, huid]
      exact ⟨hu, hopen hc, huid'⟩
    · exact hother d g hc hcd
  cases hs with
  | @accepted a =>
    refine hother _ _ hc ?_
    rintro rfl
    exact h.basic.fresh_not_mem a (h.basic.table u _ hc)
  | @named d uid node g hread huid hserving =>
    rcases insert_eq_some.mp hc with ⟨rfl, rfl⟩ | ⟨hne, hold⟩
    · rw [name_conn, update_self]
      refine ⟨huid, ?_, rfl⟩
      rcases hserving with hg | ⟨node, hg⟩
      · exact congrArg Serving.isOpen hg
      · exact congrArg Serving.isOpen hg
    · refine hother d _ hold ?_
      rintro rfl
      -- the connection has named `u` before, and names no other uid
      obtain ⟨hu, -, huid'⟩ := h.entry u c hold
      rcases hex.2 with hnone | hsame
      · exact hu (huid'.symm.trans hnone)
      · exact hne (huid'.symm.trans hsame)
  | @turned _ d g p ha hturn hwait huid => exact hmove d g hc huid fun _ => hturn.isOpen.2
  | requested | woken => exact hmove _ _ hc rfl fun _ => rfl
  | @cleaned d hclosing =>
    rw [cleanupConn_conns] at hc
    split at hc
    next hd =>
      refine hother d _ hc ?_
      rintro rfl
      obtain ⟨hu, -, huid'⟩ := h.entry u c hc
      exact hu (huid'.symm.trans hd)
    · obtain ⟨hne, hold⟩ := erase_eq_some.mp hc
      refine hother d _ hold ?_
      rintro rfl
      exact hne (h.entry u c hold).2.2.symm
  | passed => exact hmove _ _ hc rfl id
  | _ => exact h.entry u c hc

theorem step_asking (h : Sole s) (hs : Happens s a s') (c : Conn) (nodes : List String)
    (hc : (s'.conn c).serving = .asking .login nodes) : (s'.conn c).uid ≠ "" := by
  rcases hs.asking hc with ⟨hold, huid⟩ | ⟨uid, node, -, rfl, hu⟩
  · rw [huid]
    exact h.asking c nodes hold
  · exact hu

theorem step (h : Sole s) (hex : s.Exclusive a) (hstep : s.step a = some s') : Sole s' := by
  have hs := happens_of_step hstep
  have hkeep : ∀ (u : String) (c : Conn), c ∈ s.accepted ∧ u ≠ "" ∧ (s.conn c).uid = u →
      c ∈ s'.accepted ∧ u ≠ "" ∧ (s'.conn c).uid = u := by
    rintro u c ⟨hc, hu, huid⟩
    exact ⟨hs.accepted_subset hc, hu, uid_of_step h.basic hex hs hc hu huid⟩
  refine ⟨h.basic.step hs, h.own.step h.basic hs hex.alone, h.step_entry hex hs, h.step_asking hs,
    ?_, ?_, ?_⟩
  · intro n hn hkind
    have hold : n < s.nreq → (s.reqs n).kind = .login →
        (s'.reqs n).uid ≠ "" ∧ (s'.conn (s'.reqs n).conn).uid = (s'.reqs n).uid := by
      intro hlt hkind
      obtain ⟨hu, huid⟩ := h.reqs n hlt hkind
      rw [hs.reqs.2 n hlt]
      exact ⟨hu, uid_of_step h.basic hex hs (h.basic.reqs n hlt) hu huid⟩
    cases hs with
    | @requested c kind node rest hask =>
      by_cases heq : n = s.nreq
      · subst heq
        rw [forward_reqs, update_self] at hkind ⊢
        cases hkind
        rw [forward_conn, update_self]
        exact ⟨h.asking c _ hask, rfl⟩
      · rw [forward_reqs, update_of_ne heq] at hkind
        exact hold (Nat.lt_of_le_of_ne (Nat.le_of_lt_succ hn) heq) hkind
    | _ => exact hold hn hkind
  · intro u c hc
    refine hkeep u c ?_
    cases hs with
    | @answered n ok replays hn =>
      rw [answer_holder] at hc
      split at hc
      next hlogin =>
        rcases insert_eq_some.mp hc with ⟨rfl, rfl⟩ | ⟨-, hc⟩
        · have hlt := h.basic.flying n (mem_underway.mpr (.inl hn))
          exact ⟨h.basic.reqs n hlt, h.reqs n hlt hlogin.1⟩
        · exact h.holder u c hc
      · exact h.holder u c hc
    | elsewhere => exact h.holder u c (erase_eq_some.mp hc).2
    | _ => exact h.holder u c hc
  · intro u c hc
    refine hkeep u c ?_
    cases hs with
    | @woken d n rest b hwait =>
      rcases lastLogin_of_respond hc with hc | ⟨hkind, rfl, rfl⟩
      · exact h.lastLogin u c hc
      · obtain ⟨hlt, hconn⟩ := h.basic.wait c n rest hwait
        obtain ⟨hu, huid⟩ := h.reqs n hlt hkind
        rw [hconn] at huid
        exact ⟨h.basic.mem_of_reading hwait rfl, huid ▸ hu, rfl⟩
    | _ => exact h.lastLogin u c hc

end Sole

/-- **The table follows the logins**, if clients name one uid each that no other open connection has
named: the last successful login for a uid is its entry as long as the connection is open; no closed
connection has an entry; and steps of other connections leave an entry alone. -/
theorem table_follows_logins {acts : List (GwAct D)}
    (hrun : run step (newGatewayConnector D) acts = some s)
    (hex : Along step Exclusive (newGatewayConnector D) acts) :
    (∀ u c, s.lastLogin u = some c ∨ s.holder u = some c →
      (s.conn c).serving.isOpen = true → s.conns u = some c) ∧
    (∀ u c, s.conns u = some c → (s.conn c).serving.isOpen = true) ∧
    ∀ a s', s.Exclusive a → s.step a = some s' → ∀ u c, s.conns u = some c →
      a.conn? ≠ some c → s'.conns u = some c := by
  have h : Sole s := invariant_of_run (fun _ _ _ hs hok hstep => hs.step hok hstep)
    sole_newGatewayConnector hex hrun
  refine ⟨fun u c hlogin hopen => ?_, fun u c hc => (h.entry u c hc).2.1,
    fun a s' hok hstep u c hc ha => h.conns_of_step hok (happens_of_step hstep) hc ha⟩
  obtain ⟨-, hu, rfl⟩ : c ∈ s.accepted ∧ u ≠ "" ∧ (s.conn c).uid = u := by
    rcases hlogin with hlogin | hlogin
    · exact h.lastLogin u c hlogin
    · exact h.holder u c hlogin
  exact h.own c hopen hu

/-- A client logs in on `c`, and the response to its request `n` is written. -/
def loginActs (c : Conn) (uid : String) (n : ℕ) : List (GwAct Unit) :=
  [.accept c.acceptor, .login c uid (some "logic"), .request c none, .answer n true [], .load 0,
    .deliver 0, .wake c true]

theorem table_follows_logins_twoPlayers : ∃ s,
    run step (newGatewayConnector Unit) (loginActs ⟨.tcp, 1⟩ "alice" 0 ++
      loginActs ⟨.tcp, 2⟩ "bob" 1 ++ [.disconnect ⟨.tcp, 2⟩, .cleanup ⟨.tcp, 2⟩]) = some s ∧
      (s.lastLogin "alice" = some ⟨.tcp, 1⟩ ∧ (s.conn ⟨.tcp, 1⟩).serving.isOpen = true) ∧
      s.conns "alice" = some ⟨.tcp, 1⟩ := by
  refine exists_of_run_and (by decide +kernel) fun s hrun hs => ?_
  have htable := (table_follows_logins hrun (by decide +kernel)).1 "alice" ⟨.tcp, 1⟩
  exact htable (.inl hs.1) hs.2

/-- Alice logs in twice and closes the older connection: the entry is gone. A third client names
Alice: the entry is theirs. A connection with two logins is closed: it is still the entry of the
first. -/
theorem table_loses_login :
    (∃ s, run step (newGatewayConnector Unit) (loginActs ⟨.tcp, 1⟩ "alice" 0 ++
        loginActs ⟨.tcp, 2⟩ "alice" 1 ++ [.disconnect ⟨.tcp, 1⟩, .cleanup ⟨.tcp, 1⟩]) = some s ∧
      s.lastLogin "alice" = some ⟨.tcp, 2⟩ ∧ s.holder "alice" = some ⟨.tcp, 2⟩ ∧
      (s.conn ⟨.tcp, 2⟩).serving.isOpen = true ∧ s.conns "alice" = none) ∧
    (∃ s, run step (newGatewayConnector Unit) (loginActs ⟨.tcp, 1⟩ "alice" 0 ++
        [.accept .tcp, .login ⟨.tcp, 2⟩ "alice" none]) = some s ∧
      s.lastLogin "alice" = some ⟨.tcp, 1⟩ ∧ (s.conn ⟨.tcp, 1⟩).serving.isOpen = true ∧
      s.conns "alice" = some ⟨.tcp, 2⟩) ∧
    ∃ s, run step (newGatewayConnector Unit) (loginActs ⟨.tcp, 1⟩ "alice" 0 ++
        [.login ⟨.tcp, 1⟩ "bob" none, .cleanup ⟨.tcp, 1⟩]) = some s ∧
      (s.conn ⟨.tcp, 1⟩).serving = .closed ∧ s.conns "alice" = some ⟨.tcp, 1⟩ :=
  ⟨exists_of_run step _ _ (fun s => s.lastLogin "alice" = _ ∧ _ ∧ _ ∧ _) (by decide +kernel),
    exists_of_run step _ _ (fun s => s.lastLogin "alice" = _ ∧ _ ∧ _) (by decide +kernel),
    exists_of_run step _ _ (fun s => (s.conn _).serving = _ ∧ _) (by decide +kernel)⟩

end GatewayConnector

end RanGame.App
