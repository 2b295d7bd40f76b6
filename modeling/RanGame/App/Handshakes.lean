import RanGame.App.GatewayTable

/-!
# Whose response is it?

`conns` gives a connection for the uid of a response, and `pending` a channel for the number of that
connection. If another client has named the uid since, it gets the response, with the reconnect
token; and a TCP and a WebSocket connection can have the same number. `Apart` excludes both.

A connection may act under a uid as soon as its request has been answered, whatever the answer was;
see `Trusted`.
-/

namespace RanGame.App

open Function List Machine PartialMap

def Serving.Settled (reqs : ℕ → Req) (t : Serving) : Prop :=
  t = .reading ∨ ∃ token seq b, t.kind? reqs = some (.reconnect token seq b)

theorem Serving.Settled.isOpen {reqs : ℕ → Req} {t : Serving} (h : t.Settled reqs) :
    t.isOpen = true := by
  rcases h with rfl | ⟨token, seq, b, h⟩
  · rfl
  · cases t <;> first | rfl | cases h

namespace GatewayConnector

variable {D : Type*} {s s' : GatewayConnector D}

/-- Connections have different numbers, and a uid is named only when no other connection uses it. -/
def Apart (s : GatewayConnector D) : GwAct D → Prop
  | .accept a => ∀ d ∈ s.accepted, d.ID ≠ (s.fresh a).ID
  | .login c uid _ => s.Alone c uid ∧ ∀ n ∈ s.underway, (s.reqs n).uid = uid → (s.reqs n).conn = c
  | _ => True

instance (a : GwAct D) : Decidable (s.Apart a) := by
  induction a using GwAct.casesOn <;> unfold Apart <;> infer_instance

theorem Apart.alone {a : GwAct D} (h : s.Apart a) (c : Conn) (uid : String)
    (node : Option String) (ha : a = .login c uid node) : s.Alone c uid := by
  subst ha
  exact h.1

/-- A response is only where its own connection gets it from. -/
structure Shaken (s : GatewayConnector D) : Prop where
  basic : Basic s
  own : Own s
  ids : ∀ c ∈ s.accepted, ∀ d ∈ s.accepted, c.ID = d.ID → c = d
  flight : ∀ n ∈ s.underway, (s.reqs n).uid ≠ "" → ∀ d, s.conns (s.reqs n).uid = some d →
    d = (s.reqs n).conn
  handling : ∀ x ∈ s.handling, ∀ n, x.2.answers = some n → (s.reqs n).conn = x.1
  pending : ∀ k n, s.pending k = some n → (s.reqs n).conn.ID = k
  chan : ∀ n b m, s.chan n = some b → b.answers = some m → (s.reqs m).conn = (s.reqs n).conn
  received : ∀ c, ∀ b ∈ (s.conn c).received, ∀ m, b.answers = some m →
    m < s.nreq ∧ (s.reqs m).conn = c

theorem shaken_newGatewayConnector : Shaken (newGatewayConnector D) where
  basic := basic_newGatewayConnector
  own := own_newGatewayConnector
  ids := nofun
  flight := nofun
  handling := nofun
  pending := nofun
  chan := nofun
  received := nofun

theorem received_say_logic (g : GwConn D) (b : Body D) :
    (g.say (.logic b)).received = g.received ++ [b] := by
  simp [GwConn.received, Sent.logic?]

namespace Shaken

theorem conn_of_pending (h : Shaken s) {c : Conn} {n : ℕ} (hc : c ∈ s.accepted)
    (hn : s.pending c.ID = some n) : (s.reqs n).conn = c :=
  h.ids _ (h.basic.reqs n (h.basic.pending _ n hn)) c hc (h.pending _ n hn)

variable {a : GwAct D}

variable (h : Shaken s)

include h

theorem step_ids (hapart : s.Apart a) (hs : Happens s a s') :
    ∀ c ∈ s'.accepted, ∀ d ∈ s'.accepted, c.ID = d.ID → c = d := by
  cases hs with
  | accepted =>
    intro c hc d hd hID
    rcases mem_append.mp hc with hc | hc <;> rcases mem_append.mp hd with hd | hd
    · exact h.ids c hc d hd hID
    · rw [mem_singleton.mp hd] at hID
      exact absurd hID (hapart c hc)
    · rw [mem_singleton.mp hc] at hID
      exact absurd hID.symm (hapart d hd)
    · rw [mem_singleton.mp hc, mem_singleton.mp hd]
  | _ => exact h.ids

theorem step_flight (hapart : s.Apart a) (hs : Happens s a s') (n : ℕ) (hn : n ∈ s'.underway)
    (hu : (s'.reqs n).uid ≠ "") (d : Conn) (hd : s'.conns (s'.reqs n).uid = some d) :
    d = (s'.reqs n).conn := by
  have hkeep : n ∈ s.underway → s'.conns (s.reqs n).uid = s.conns (s.reqs n).uid →
      d = (s'.reqs n).conn := by
    intro hn hsame
    rw [hs.reqs.2 n (h.basic.flying n hn)] at hu hd ⊢
    rw [hsame] at hd
    exact h.flight n hn hu d hd
  rcases hs.underway hn with hold | ⟨rfl, c, kind, node, rest, hask, rfl⟩
  · cases hs with
    | @named c uid node g hread =>
      rcases insert_eq_some.mp hd with ⟨huid, rfl⟩ | ⟨hne, hd⟩
      · exact (hapart.2 n hold huid).symm
      · exact h.flight n hold hu d hd
    | @cleaned c =>
      rw [cleanupConn_conns] at hd
      split at hd
      · exact h.flight n hold hu d hd
      · exact h.flight n hold hu d (erase_eq_some.mp hd).2
    | _ => exact hkeep hold rfl
  · rw [forward_reqs, update_self] at hu hd ⊢
    have hentry := h.own c (by rw [hask]; rfl) hu
    exact Option.some.inj (hd.symm.trans hentry)

theorem step_handling (hs : Happens s a s') (x : Conn × Body D) (hx : x ∈ s'.handling) (n : ℕ)
    (hn : x.2.answers = some n) : (s'.reqs n).conn = x.1 := by
  have hkeep : x ∈ s.handling → (s'.reqs n).conn = x.1 := by
    intro hx
    rw [hs.reqs.2 n (h.basic.lt_of_mem_handling hx hn)]
    exact h.handling x hx n hn
  cases hs with
  | @loaded k d c hk huid hc =>
    rcases mem_append.mp hx with hx | hx
    · exact hkeep hx
    · rw [mem_singleton.mp hx] at hn ⊢
      have hd := mem_of_getElem? hk
      have hsame := h.basic.down d hd n hn
      refine (h.flight n (mem_underway.mpr (.inr (.inl ⟨d, hd, hn⟩))) ?_ c ?_).symm
      · exact hsame ▸ huid
      · exact hsame ▸ hc
  | handed | passed | discarded => exact hkeep (eraseIdx_subset hx)
  | _ => exact hkeep hx

theorem step_pending (hs : Happens s a s') (k : UInt64) (n : ℕ) (hn : s'.pending k = some n) :
    (s'.reqs n).conn.ID = k := by
  have hkeep : s.pending k = some n → (s'.reqs n).conn.ID = k := by
    intro hn
    rw [hs.reqs.2 n (h.basic.pending k n hn)]
    exact h.pending k n hn
  cases hs with
  | requested =>
    rcases insert_eq_some.mp hn with ⟨rfl, rfl⟩ | ⟨-, hn⟩
    · rw [forward_reqs, update_self]
    · exact hkeep hn
  | turned ha hturn hwait huid hrec hp =>
    rcases hp with ⟨-, rfl⟩ | rfl
    · exact hkeep hn
    · exact hkeep (erase_eq_some.mp hn).2
  | woken | handed => exact hkeep (erase_eq_some.mp hn).2
  | _ => exact hkeep hn

theorem step_chan (hs : Happens s a s') (n : ℕ) (b : Body D) (m : ℕ) (hb : s'.chan n = some b)
    (hm : b.answers = some m) : (s'.reqs m).conn = (s'.reqs n).conn := by
  have hkeep : s.chan n = some b → (s'.reqs m).conn = (s'.reqs n).conn := by
    intro hb
    obtain ⟨hlt, hanswers⟩ := h.basic.chan n b hb
    rw [hs.reqs.2 m (hanswers m hm), hs.reqs.2 n hlt]
    exact h.chan n b m hb hm
  cases hs with
  | @handed k c b' n' m' hk hb' hp =>
    by_cases hn : n = n'
    · subst hn
      rw [hand_chan, update_self] at hb
      cases hb
      have hx := mem_of_getElem? hk
      exact (h.handling _ hx m hm).trans (h.conn_of_pending (h.basic.handling _ hx) hp).symm
    · rw [hand_chan, update_of_ne hn] at hb
      exact hkeep hb
  | _ => exact hkeep hb

theorem step_received (hs : Happens s a s') (c : Conn) (b : Body D) (hb : b ∈ (s'.conn c).received)
    (m : ℕ) (hm : b.answers = some m) : m < s'.nreq ∧ (s'.reqs m).conn = c := by
  have hkeep : ∀ d, m < s.nreq ∧ (s.reqs m).conn = d → m < s'.nreq ∧ (s'.reqs m).conn = d := by
    rintro d ⟨hlt, hconn⟩
    rw [hs.reqs.2 m hlt]
    exact ⟨hlt.trans_le hs.reqs.1, hconn⟩
  have hconn := hs.connStep c
  generalize s'.conn c = g at hb hconn
  refine hkeep c ?_
  cases hconn with
  | same | requested | cleaned => exact h.received c b hb m hm
  | accepted => cases hb
  | named hread huid hserving hrec | turned hturn huid hrec => exact h.received c b (hrec ▸ hb) m hm
  | @woken n rest b' hwait hchan =>
    rcases mem_append.mp (received_say_logic (s.conn c) b' ▸ hb) with hb | hb
    · exact h.received c b hb m hm
    · rw [mem_singleton.mp hb] at hm
      obtain ⟨-, hconn⟩ := h.basic.wait c n rest hwait
      exact ⟨(h.basic.chan n b' hchan).2 m hm, (h.chan n b' m hchan hm).trans hconn⟩
  | @passed k b' hk =>
    rcases mem_append.mp (received_say_logic (s.conn c) b' ▸ hb) with hb | hb
    · exact h.received c b hb m hm
    · rw [mem_singleton.mp hb] at hm
      have hx := mem_of_getElem? hk
      exact ⟨h.basic.lt_of_mem_handling hx hm, h.handling _ hx m hm⟩

/-- **Responses stay with their connections**, along every run of such steps. -/
theorem step (hapart : s.Apart a) (hs : Happens s a s') : Shaken s' where
  basic := h.basic.step hs
  own := h.own.step h.basic hs hapart.alone
  ids := h.step_ids hapart hs
  flight := h.step_flight hapart hs
  handling := h.step_handling hs
  pending := h.step_pending hs
  chan := h.step_chan hs
  received := h.step_received hs

end Shaken

/-- **A response is delivered only to the connection that has asked**, if connections have different
numbers and clients use uids of their own. -/
theorem response_to_requester {acts : List (GwAct D)}
    (hrun : run step (newGatewayConnector D) acts = some s)
    (hapart : Along step Apart (newGatewayConnector D) acts) (c : Conn) (n : ℕ)
    (ok : Bool) :
    (.logic (.answer n ok) ∈ (s.conn c).written → (s.reqs n).conn = c) ∧
    ∀ m nodes, (s.conn c).serving = .waiting m nodes → s.chan m = some (.answer n ok) →
      (s.reqs n).conn = c := by
  have h : Shaken s := invariant_of_run
    (fun _ _ _ hs hok hstep => hs.step hok (happens_of_step hstep)) shaken_newGatewayConnector
    hapart hrun
  refine ⟨fun hmem => ?_, fun m nodes hwait hchan => ?_⟩
  · have hrec : .answer n ok ∈ (s.conn c).received := mem_filterMap.mpr ⟨_, hmem, rfl⟩
    exact (h.received c _ hrec n rfl).2
  · exact (h.chan m _ n hchan rfl).trans (h.basic.wait c m nodes hwait).2

theorem response_to_requester_twoPlayers : ∃ s, run step (newGatewayConnector Unit)
        (loginActs ⟨.tcp, 1⟩ "alice" 0 ++ loginActs ⟨.tcp, 2⟩ "bob" 1) = some s ∧
      .logic (.answer 1 true) ∈ (s.conn ⟨.tcp, 2⟩).written ∧ (s.reqs 1).conn = ⟨.tcp, 2⟩ :=
  exists_of_run_and (by decide +kernel) fun _ hrun =>
    (response_to_requester hrun (by decide +kernel) ⟨.tcp, 2⟩ 1 true).1

/-- Clients log in on `c` and `d`, and the first of them is answered. -/
def bothLogIn (c d : Conn) (uid uid' : String) : List (GwAct Unit) :=
  [.accept c.acceptor, .accept d.acceptor, .login c uid (some "logic"), .request c none,
    .login d uid' (some "logic"), .request d none, .answer 0 true [], .load 0, .deliver 0,
    .wake d true]

/-- Two clients log in as Alice, and the second gets the response to the first. Alice over TCP and
Bob over WebSocket have one number: Bob gets Alice's response. -/
theorem response_to_other : (∃ s, run step (newGatewayConnector Unit)
        (bothLogIn ⟨.tcp, 1⟩ ⟨.tcp, 2⟩ "alice" "alice") = some s ∧
      (s.reqs 0).conn = ⟨.tcp, 1⟩ ∧ .logic (.answer 0 true) ∈ (s.conn ⟨.tcp, 2⟩).written) ∧
    ∃ s, run step (newGatewayConnector Unit) (bothLogIn ⟨.tcp, 1⟩ ⟨.ws, 1⟩ "alice" "bob") = some s ∧
      (s.reqs 0).conn = ⟨.tcp, 1⟩ ∧ (s.reqs 0).uid = "alice" ∧
      .logic (.answer 0 true) ∈ (s.conn ⟨.ws, 1⟩).written ∧ (s.conn ⟨.ws, 1⟩).uid = "bob" :=
  ⟨exists_of_run step _ _ (fun s => (s.reqs 0).conn = _ ∧ _) (by decide +kernel),
    exists_of_run step _ _ (fun s => (s.reqs 0).conn = _ ∧ _ ∧ _ ∧ _) (by decide +kernel)⟩

/-! ### Who may act under a uid -/

/-- As `Apart`; no response is under way to a connection that logs in, no login is rejected, and
nobody logs in elsewhere under a uid in use here. -/
def Trusted (s : GatewayConnector D) : GwAct D → Prop
  | .accept a => ∀ d ∈ s.accepted, d.ID ≠ (s.fresh a).ID
  | .login c uid _ => s.Alone c uid ∧ ∀ n ∈ s.underway, (s.reqs n).uid ≠ uid ∧ (s.reqs n).conn ≠ c
  | .answer n ok _ => (s.reqs n).kind = .login → ok = true
  | .loginElsewhere uid => ∀ d ∈ s.accepted, (s.conn d).serving.isOpen = true → (s.conn d).uid ≠ uid
  | _ => True

instance (a : GwAct D) : Decidable (s.Trusted a) := by
  induction a using GwAct.casesOn <;> unfold Trusted <;> infer_instance

theorem Trusted.apart {a : GwAct D} (h : s.Trusted a) : s.Apart a := by
  cases a with
  | accept => exact h
  | login c uid node => exact ⟨h.1, fun n hn huid => absurd huid (h.2 n hn).1⟩
  | _ => trivial

/-- A Logic node has answered the request, and the answer may have arrived. -/
def Told (s : GatewayConnector D) (n : ℕ) : Prop :=
  (∃ d ∈ s.down, d.body.answers = some n) ∨ (∃ x ∈ s.handling, x.2.answers = some n) ∨
    s.chan n ≠ none

/-- Connection `c` waits for the response to its login `n`. -/
structure Waits (s : GatewayConnector D) (c : Conn) (n : ℕ) : Prop where
  named : (s.conn c).uid ≠ ""
  uid : (s.reqs n).uid = (s.conn c).uid
  only : ∀ m ∈ s.underway, (s.reqs m).conn = c → m = n
  told : s.Told n → s.holder (s.conn c).uid = some c

/-- Whoever is not in the middle of a login has made the last one. -/
structure Held (s : GatewayConnector D) : Prop where
  shaken : Shaken s
  settled : ∀ c, (s.conn c).serving.Settled s.reqs → (s.conn c).uid ≠ "" →
    s.holder (s.conn c).uid = some c
  asking : ∀ c nodes, (s.conn c).serving = .asking .login nodes →
    (s.conn c).uid ≠ "" ∧ ∀ n ∈ s.underway, (s.reqs n).conn ≠ c
  waiting : ∀ c n nodes, (s.conn c).serving = .waiting n nodes → (s.reqs n).kind = .login →
    s.Waits c n

theorem held_newGatewayConnector : Held (newGatewayConnector D) where
  shaken := shaken_newGatewayConnector
  settled := by
    rintro c (h | ⟨_, _, _, h⟩) <;> cases h
  asking := nofun
  waiting := nofun

theorem kind_of_reqs (hb : Basic s) {a : GwAct D} (hs : Happens s a s') (c : Conn) :
    (s.conn c).serving.kind? s'.reqs = (s.conn c).serving.kind? s.reqs := by
  cases hc : (s.conn c).serving with
  | waiting n nodes =>
    show some (s'.reqs n).kind = some (s.reqs n).kind
    rw [hs.reqs.2 n (hb.wait c n nodes hc).1]
  | _ => rfl

namespace Held

variable {c : Conn} {a : GwAct D}

variable (h : Held s)

include h

theorem conn_of_underway {n : ℕ} (hn : n ∈ s.underway) (hopen : (s.conn c).serving.isOpen = true)
    (huid : (s.conn c).uid = (s.reqs n).uid) (hu : (s.conn c).uid ≠ "") : (s.reqs n).conn = c :=
  (h.shaken.flight n hn (huid ▸ hu) c (huid ▸ h.shaken.own c hopen hu)).symm

theorem holder_of_step (htrusted : s.Trusted a) (hs : Happens s a s')
    (hopen : (s.conn c).serving.isOpen = true) (hu : (s.conn c).uid ≠ "")
    (hc : s.holder (s.conn c).uid = some c) : s'.holder (s.conn c).uid = some c := by
  cases hs with
  | @answered n ok replays hn =>
    rw [answer_holder]
    split
    · by_cases huid : (s.conn c).uid = (s.reqs n).uid
      · rw [← huid, h.conn_of_underway (mem_underway.mpr (.inl hn)) hopen huid hu]
        exact insert_self
      · exact (insert_of_ne huid).trans hc
    · exact hc
  | elsewhere =>
    have hother := htrusted c (h.shaken.basic.mem_of_reading rfl hopen) hopen
    exact (erase_of_ne hother).trans hc
  | _ => exact hc

theorem told_of_step (hs : Happens s a s') {n : ℕ} (hconn : (s.reqs n).conn = c)
    (honly : ∀ m ∈ s.underway, (s.reqs m).conn = c → m = n) (htold : s'.Told n) :
    s.Told n ∨ n ∈ s.up ∧ ∃ ok replays, a = .answer n ok replays ∧ s' = s.answer n ok replays := by
  cases hs with
  | @answered m ok replays hm =>
    rcases htold with ⟨d, hd, hn⟩ | hrest
    · rcases answers_of_answer hd hn with hd | ⟨-, rfl⟩
      · exact .inl (.inl ⟨d, hd, hn⟩)
      · exact .inr ⟨hm, ok, replays, rfl, rfl⟩
    · exact .inl (.inr hrest)
  | pushed =>
    rcases htold with ⟨d, hd, hn⟩ | hrest
    · exact .inl (.inl ⟨d, answers_of_push hd hn, hn⟩)
    · exact .inl (.inr hrest)
  | lostDown | dropped =>
    rcases htold with ⟨d, hd, hn⟩ | hrest
    · exact .inl (.inl ⟨d, eraseIdx_subset hd, hn⟩)
    · exact .inl (.inr hrest)
  | @loaded k d c' hk =>
    rcases htold with ⟨d, hd, hn⟩ | ⟨x, hx, hn⟩ | hchan
    · exact .inl (.inl ⟨d, eraseIdx_subset hd, hn⟩)
    · rcases mem_append.mp hx with hx | hx
      · exact .inl (.inr (.inl ⟨x, hx, hn⟩))
      · rw [mem_singleton.mp hx] at hn
        exact .inl (.inl ⟨d, mem_of_getElem? hk, hn⟩)
    · exact .inl (.inr (.inr hchan))
  | @handed k d b n' m hk hb hp =>
    rcases htold with hdown | ⟨x, hx, hn⟩ | hchan
    · exact .inl (.inl hdown)
    · exact .inl (.inr (.inl ⟨x, eraseIdx_subset hx, hn⟩))
    · by_cases hnn : n = n'
      · subst hnn
        -- the answer that is handed over is the only one that there is for this connection
        have hx := mem_of_getElem? hk
        have hd : (s.reqs n).conn = d := h.shaken.conn_of_pending (h.shaken.basic.handling _ hx) hp
        have hm : m = n := by
          refine honly m (mem_underway.mpr (.inr (.inr ⟨_, hx, hb⟩))) ?_
          rw [h.shaken.handling _ hx m hb, ← hconn]
          exact hd.symm
        exact .inl (.inr (.inl ⟨_, hx, hm ▸ hb⟩))
      · rw [hand_chan, update_of_ne hnn] at hchan
        exact .inl (.inr (.inr hchan))
  | passed | discarded =>
    rcases htold with hdown | ⟨x, hx, hn⟩ | hchan
    · exact .inl (.inl hdown)
    · exact .inl (.inr (.inl ⟨x, eraseIdx_subset hx, hn⟩))
    · exact .inl (.inr (.inr hchan))
  | _ => exact .inl htold

variable (htrusted : s.Trusted a) (hs : Happens s a s')

include htrusted hs

theorem step_settled (c : Conn) (hc : (s'.conn c).serving.Settled s'.reqs)
    (hu : (s'.conn c).uid ≠ "") : s'.holder (s'.conn c).uid = some c := by
  have hkeep : (s.conn c).serving.Settled s'.reqs → (s.conn c).uid ≠ "" →
      s'.holder (s.conn c).uid = some c := by
    intro hc hu
    have hset : (s.conn c).serving.Settled s.reqs := by
      rw [Serving.Settled, kind_of_reqs h.shaken.basic hs] at hc
      exact hc
    exact h.holder_of_step htrusted hs hset.isOpen hu (h.settled c hset hu)
  have hconn := hs.connStep c
  generalize s'.conn c = g at hc hu hconn ⊢
  cases hconn with
  | same | passed => exact hkeep hc hu
  | accepted => exact absurd rfl hu
  | @named uid node g hread huid hserving =>
    have hc : g.serving.Settled s.reqs := hc
    rcases hserving with hg | ⟨node, hg⟩ <;> rw [hg] at hc <;>
      rcases hc with hc | ⟨_, _, _, hc⟩ <;> cases hc
  | turned hturn huid =>
    rw [huid] at hu ⊢
    refine h.settled c ?_ hu
    generalize (s.conn c).serving = t at hturn
    generalize GwConn.serving _ = t' at hturn hc
    cases hturn with
    | stay | ask => exact .inl rfl
    | retry ht => exact .inr ⟨_, _, _, ht⟩
    | quit => rcases hc with hc | ⟨_, _, _, hc⟩ <;> cases hc
  | @requested kind node rest hask =>
    refine h.settled c ?_ hu
    rcases hc with hc | ⟨token, seq, b, hc⟩
    · cases hc
    · have hkind : some (update s.reqs s.nreq ⟨c, (s.conn c).uid, node, kind⟩ s.nreq).kind
          = some (.reconnect token seq b) := hc
      rw [update_self] at hkind
      rw [hask]
      exact .inr ⟨token, seq, b, hkind⟩
  | @woken n rest b hwait hchan =>
    show s.holder (s.conn c).uid = some c
    cases hkind : (s.reqs n).kind with
    | login =>
      refine (h.waiting c n rest hwait hkind).told (.inr (.inr ?_))
      rw [hchan]
      nofun
    | reconnect token seq b =>
      refine h.settled c (.inr ⟨token, seq, b, ?_⟩) hu
      rw [hwait]
      exact congrArg some hkind
  | cleaned => rcases hc with hc | ⟨_, _, _, hc⟩ <;> cases hc

theorem step_asking (c : Conn) (nodes : List String)
    (hc : (s'.conn c).serving = .asking .login nodes) :
    (s'.conn c).uid ≠ "" ∧ ∀ n ∈ s'.underway, (s'.reqs n).conn ≠ c := by
  obtain ⟨hu, hnone⟩ : (s'.conn c).uid ≠ "" ∧ ∀ n ∈ s.underway, (s.reqs n).conn ≠ c := by
    rcases hs.asking hc with ⟨hold, huid⟩ | ⟨uid, node, rfl, rfl, hu⟩
    · rw [huid]
      exact h.asking c nodes hold
    · exact ⟨hu, fun n hn => (htrusted.2 n hn).2⟩
  refine ⟨hu, fun n hn => ?_⟩
  rcases hs.underway hn with hold | ⟨rfl, d, kind, node, rest, hask, rfl⟩
  · rw [hs.reqs.2 n (h.shaken.basic.flying n hold)]
    exact hnone n hold
  · -- whoever has just sent a request is waiting
    rw [forward_reqs, update_self]
    rintro rfl
    rw [forward_conn, update_self] at hc
    cases hc

theorem step_waiting (c : Conn) (n : ℕ) (nodes : List String)
    (hc : (s'.conn c).serving = .waiting n nodes) (hkind : (s'.reqs n).kind = .login) :
    s'.Waits c n := by
  rcases hs.waiting hc with ⟨hold, huid⟩ | ⟨kind, node, hask, rfl, rfl⟩
  · obtain ⟨hlt, hconn⟩ := h.shaken.basic.wait c n nodes hold
    rw [hs.reqs.2 n hlt] at hkind
    have hwaits := h.waiting c n nodes hold hkind
    refine ⟨huid ▸ hwaits.named, by rw [hs.reqs.2 n hlt, huid]; exact hwaits.uid, ?_, ?_⟩
    · intro m hm hmc
      rcases hs.underway hm with hm | ⟨rfl, d, kind, node, rest, hask, rfl⟩
      · rw [hs.reqs.2 m (h.shaken.basic.flying m hm)] at hmc
        exact hwaits.only m hm hmc
      · rw [forward_reqs, update_self] at hmc
        rw [show d = c from hmc, hold] at hask
        cases hask
    · intro htold
      rw [huid]
      rcases h.told_of_step hs hconn hwaits.only htold with htold | ⟨hup, ok, replays, rfl, rfl⟩
      · exact h.holder_of_step htrusted hs (by rw [hold]; rfl) hwaits.named (hwaits.told htold)
      · rw [answer_holder, if_pos ⟨hkind, htrusted hkind⟩, hconn, hwaits.uid]
        exact insert_self
  · rw [forward_reqs, update_self] at hkind
    cases hkind
    obtain ⟨hu, hnone⟩ := h.asking c _ hask
    have hfresh : ∀ m, ¬ m < s.nreq → m ∉ s.underway := fun m hm hmem =>
      hm (h.shaken.basic.flying m hmem)
    refine ⟨?_, ?_, fun m hm hmc => ?_, fun htold => ?_⟩
    · rw [forward_conn, update_self]
      exact hu
    · rw [forward_reqs, forward_conn, update_self, update_self]
      rfl
    · rcases hs.underway hm with hm | ⟨rfl, -⟩
      · rw [hs.reqs.2 m (h.shaken.basic.flying m hm)] at hmc
        exact absurd hmc (hnone m hm)
      · rfl
    · -- nobody can have answered a request that has just been sent
      exfalso
      rcases htold with hdown | hhandling | hchan
      · exact hfresh s.nreq (Nat.lt_irrefl _) (mem_underway.mpr (.inr (.inl hdown)))
      · exact hfresh s.nreq (Nat.lt_irrefl _) (mem_underway.mpr (.inr (.inr hhandling)))
      · obtain ⟨b, hb⟩ := Option.ne_none_iff_exists'.mp hchan
        exact Nat.lt_irrefl _ (h.shaken.basic.chan s.nreq b hb).1

theorem step : Held s' where
  shaken := h.shaken.step htrusted.apart hs
  settled := h.step_settled htrusted hs
  asking := h.step_asking htrusted hs
  waiting := h.step_waiting htrusted hs

end Held

/-- **Only the connection of the last login acts under a uid**, in runs of trusted steps. -/
theorem forwarded_by_holder {acts : List (GwAct D)}
    (hrun : run step (newGatewayConnector D) acts = some s)
    (htrusted : Along step Trusted (newGatewayConnector D) acts) {a : GwAct D}
    (hstep : s.step a = some s') :
    s'.forwarded = s.forwarded ∨
      ∃ c u, s'.forwarded = s.forwarded ++ [(c, u)] ∧ s.holder u = some c := by
  have h : Held s := invariant_of_run
    (fun _ _ _ hs hok hstep => hs.step hok (happens_of_step hstep)) held_newGatewayConnector
    htrusted hrun
  cases happens_of_step hstep with
  | @forwarded c hread hu =>
    refine .inr ⟨c, (s.conn c).uid, rfl, h.settled c ?_ hu⟩
    rw [hread]
    exact .inl rfl
  | _ => exact .inl rfl

theorem forwarded_by_holder_alice : ∃ s s', run step (newGatewayConnector Unit)
        (loginActs ⟨.tcp, 1⟩ "alice" 0 ++ [.route "alice" true]) = some s ∧
      s.step (.business ⟨.tcp, 1⟩ none) = some s' ∧
      s'.forwarded = [(⟨.tcp, 1⟩, "alice")] ∧ s.holder "alice" = some ⟨.tcp, 1⟩ := by
  obtain ⟨s, hrun, s', hstep, hbefore, hafter⟩ : ∃ s, run step (newGatewayConnector Unit)
      (loginActs ⟨.tcp, 1⟩ "alice" 0 ++ [.route "alice" true]) = some s ∧
        ∃ s', s.step (.business ⟨.tcp, 1⟩ none) = some s' ∧ s.forwarded = [] ∧
          s'.forwarded = [(⟨.tcp, 1⟩, "alice")] :=
    ⟨_, rfl, _, rfl, rfl, rfl⟩
  rcases forwarded_by_holder hrun (by decide +kernel) hstep with hsame | ⟨c, u, hnew, hholder⟩
  · rw [hbefore, hafter] at hsame
    cases hsame
  · rw [hbefore, hafter] at hnew
    cases hnew
    exact ⟨s, s', hrun, hstep, hafter, hholder⟩

/-- Mallory's login as Alice is rejected, and Mallory acts as Alice. Alice logs in again, and the
first connection still acts as Alice. -/
theorem forwarded_by_other : (∃ s, run step (newGatewayConnector Unit)
        [.route "alice" true, .accept .tcp, .login ⟨.tcp, 1⟩ "alice" (some "logic"),
          .request ⟨.tcp, 1⟩ none, .answer 0 false [], .load 0, .deliver 0, .wake ⟨.tcp, 1⟩ true,
          .business ⟨.tcp, 1⟩ none] = some s ∧
      s.forwarded = [(⟨.tcp, 1⟩, "alice")] ∧ s.holder "alice" = none) ∧
    ∃ s, run step (newGatewayConnector Unit)
        (loginActs ⟨.tcp, 1⟩ "alice" 0 ++ loginActs ⟨.tcp, 2⟩ "alice" 1 ++
          [.route "alice" true, .business ⟨.tcp, 1⟩ none]) = some s ∧
      s.forwarded = [(⟨.tcp, 1⟩, "alice")] ∧ s.holder "alice" = some ⟨.tcp, 2⟩ :=
  ⟨exists_of_run step _ _ (fun s => s.forwarded = _ ∧ _) (by decide +kernel),
    exists_of_run step _ _ (fun s => s.forwarded = _ ∧ _) (by decide +kernel)⟩

end GatewayConnector

end RanGame.App
