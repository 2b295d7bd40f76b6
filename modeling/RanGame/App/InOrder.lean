import RanGame.App.Handshakes
import RanGame.Lib.Lines

/-!
# Frames arrive in order

A frame that follows a response can be written before it. `Prompt` excludes that, and everything
else that gets frames lost or out of order: the next frame that satisfies `p` is taken from the link
only when the one before has been written.
-/

namespace RanGame.App

open Function List Machine

/-- What is in the channel that is waited on. -/
def Serving.unread {D : Type*} (chan : ℕ → Option (Body D)) : Serving → List (Body D)
  | .waiting n _ => (chan n).toList
  | _ => []

namespace GatewayConnector

variable {D : Type*} (p : Body D → Bool) {s s' : GatewayConnector D}

/-! ### What is under way to a connection -/

/-- What the goroutine of a connection is to write. -/
def unread (s : GatewayConnector D) (c : Conn) : List (Body D) :=
  ((s.conn c).serving.unread s.chan).filter p

def inHand (s : GatewayConnector D) (c : Conn) : List (Body D) :=
  (s.handling.filter fun x => x.1 = c && p x.2).map Prod.snd

def onLink (s : GatewayConnector D) (u : String) : List (Body D) :=
  (s.down.filter fun d => d.uid = u && p d.body).map Down.body

/-- What the Gateway has taken from the link. -/
def ahead (s : GatewayConnector D) (c : Conn) : List (Body D) := s.unread p c ++ s.inHand p c

/-- What is under way to a connection. -/
def inbox (s : GatewayConnector D) (c : Conn) : List (Body D) :=
  s.ahead p c ++ s.onLink p (s.conn c).uid

def got (s : GatewayConnector D) (c : Conn) : List (Body D) := (s.conn c).received.filter p

/-- Nothing is lost, nobody gives up, and frames are taken from the link one at a time. -/
def Prompt (s : GatewayConnector D) : GwAct D → Prop
  | .request _ err => err = none
  | .wake _ ok => ok = true
  | .timeout _ | .loseUp _ | .loseDown _ => False
  | .load k => ∀ d ∈ s.down[k]?, p d.body = true →
      (∀ e ∈ s.down.take k, e.uid = d.uid → p e.body = false) ∧
      ∀ c ∈ s.conns d.uid, s.ahead p c = []
  | _ => True

instance (a : GwAct D) : Decidable (s.Prompt p a) := by
  induction a using GwAct.casesOn <;> unfold Prompt <;> infer_instance

/-- Nothing goes wrong. -/
def Steady (s : GatewayConnector D) (a : GwAct D) : Prop := s.Apart a ∧ s.Exclusive a ∧ s.Prompt p a

instance (a : GwAct D) : Decidable (s.Steady p a) := inferInstanceAs (Decidable (_ ∧ _ ∧ _))

/-- Whoever has an entry in `pending` waits, and has not been woken. -/
def Listening (s : GatewayConnector D) : Prop :=
  ∀ k n, s.pending k = some n →
    (∃ nodes, (s.conn (s.reqs n).conn).serving = .waiting n nodes) ∧ s.chan n = none

theorem Listening.step (hshaken : Shaken s) (h : Listening s) {a : GwAct D} (hs : Happens s a s') :
    Listening s' := by
  intro k n hn
  have hkeep : s.pending k = some n →
      (s'.conn (s.reqs n).conn).serving = (s.conn (s.reqs n).conn).serving →
      s'.chan n = s.chan n →
      (∃ nodes, (s'.conn (s'.reqs n).conn).serving = .waiting n nodes) ∧ s'.chan n = none := by
    intro hn hserving hchan
    rw [hs.reqs.2 n (hshaken.basic.pending k n hn), hserving, hchan]
    exact h k n hn
  -- a goroutine that is not waiting for the request, or has deleted its entry, is another one
  have hother : ∀ (d : Conn) (g : GwConn D), s.pending k = some n →
      (∀ nodes, (s.conn d).serving = .waiting n nodes → k ≠ d.ID) →
      (update s.conn d g (s.reqs n).conn).serving = (s.conn (s.reqs n).conn).serving := by
    intro d g hn hd
    rw [update_of_ne]
    rintro rfl
    obtain ⟨⟨nodes, hwait⟩, -⟩ := h k n hn
    exact hd nodes hwait (hshaken.pending k n hn).symm
  cases hs with
  | @accepted a =>
    refine hkeep hn ?_ rfl
    rw [accept_conn, update_of_ne]
    intro heq
    exact hshaken.basic.fresh_not_mem a (heq ▸ hshaken.basic.reqs n (hshaken.basic.pending k n hn))
  | @named d uid node g hread =>
    exact hkeep hn (hother d _ hn fun nodes hwait => by rw [hread] at hwait; cases hwait) rfl
  | @turned _ d g p ha hturn hwait huid hrec hp =>
    rcases hp with ⟨hread, rfl⟩ | rfl
    · exact hkeep hn (hother d g hn fun nodes hwait => by rw [hread] at hwait; cases hwait) rfl
    · obtain ⟨hk, hn⟩ := PartialMap.erase_eq_some.mp hn
      exact hkeep hn (hother d g hn fun _ _ => hk) rfl
  | @requested d kind node rest hask =>
    rcases PartialMap.insert_eq_some.mp hn with ⟨rfl, rfl⟩ | ⟨hk, hn⟩
    · rw [forward_reqs, update_self, forward_conn, update_self]
      refine ⟨⟨rest, rfl⟩, ?_⟩
      by_contra hchan
      obtain ⟨b, hb⟩ := Option.ne_none_iff_exists'.mp hchan
      exact Nat.lt_irrefl _ (hshaken.basic.chan s.nreq b hb).1
    · exact hkeep hn (hother d _ hn fun _ _ => hk) rfl
  | @woken d =>
    obtain ⟨hk, hn⟩ := PartialMap.erase_eq_some.mp hn
    exact hkeep hn (hother d _ hn fun _ _ => hk) rfl
  | @cleaned d hclosing =>
    exact hkeep hn (hother d _ hn fun nodes hwait => by rw [hclosing] at hwait; cases hwait) rfl
  | @handed i d b n' m hi hb hp =>
    obtain ⟨hk, hold⟩ := PartialMap.erase_eq_some.mp hn
    refine hkeep hold rfl ?_
    rw [hand_chan, update_of_ne]
    rintro rfl
    exact hk ((hshaken.pending k n hold).symm.trans (hshaken.pending _ n hp))
  | @passed i d b =>
    refine hkeep hn ?_ rfl
    rw [pass_conn]
    by_cases heq : (s.reqs n).conn = d
    · rw [heq, update_self]
      rfl
    · rw [update_of_ne heq]
  | _ => exact hkeep hn rfl rfl

/-- Only one frame at a time is ahead of those on the link. -/
structure Ordered (s : GatewayConnector D) : Prop where
  sole : Sole s
  shaken : Shaken s
  listening : Listening s
  single : ∀ c, (s.ahead p c).length ≤ 1

theorem ordered_newGatewayConnector : Ordered p (newGatewayConnector D) where
  sole := sole_newGatewayConnector
  shaken := shaken_newGatewayConnector
  listening := nofun
  single := fun _ => Nat.zero_le 1

/-! ### What a step does to a connection -/

/-- What a step does to what is under way to a connection. -/
inductive Moves (s s' : GatewayConnector D) (c : Conn) : Prop
  | still (new : List (Body D)) (hgot : s'.got p c = s.got p c)
      (hahead : s'.ahead p c = s.ahead p c)
      (hlink : s'.onLink p (s.conn c).uid = s.onLink p (s.conn c).uid ++ new.filter p)
      (hsent : s'.sent (s.conn c).uid = s.sent (s.conn c).uid ++ new)
  | arrived {b : Body D} (hgot : s'.got p c = s.got p c) (hnone : s.ahead p c = [])
      (hahead : s'.ahead p c = [b])
      (hlink : s.onLink p (s.conn c).uid = b :: s'.onLink p (s.conn c).uid)
      (hsent : s'.sent = s.sent)
  | written {b : Body D} (hgot : s'.got p c = s.got p c ++ [b]) (hone : s.ahead p c = [b])
      (hahead : s'.ahead p c = []) (hlink : s'.onLink p (s.conn c).uid = s.onLink p (s.conn c).uid)
      (hsent : s'.sent = s.sent)
  | aside (hc : (s.conn c).serving.isOpen = true → (s.conn c).uid = "")
      (hle : (s'.ahead p c).length ≤ (s.ahead p c).length)

variable {p}

variable {c : Conn} {k : ℕ} {b : Body D}

theorem moves_still (hgot : s'.got p c = s.got p c) (hahead : s'.ahead p c = s.ahead p c)
    (hdown : s'.down = s.down) (hsent : s'.sent = s.sent) : Moves p s s' c := by
  refine .still [] hgot hahead ?_ ?_
  · rw [onLink, hdown, filter_nil, append_nil]
    rfl
  · rw [hsent, append_nil]

theorem moves_update (s' : GatewayConnector D) {d : Conn} {g : GwConn D}
    (hconn : s'.conn = update s.conn d g)
    (hrec : g.received = (s.conn d).received)
    (hunread : g.serving.unread s.chan = (s.conn d).serving.unread s.chan)
    (hchan : s'.chan = s.chan) (hhandling : s'.handling = s.handling) (hdown : s'.down = s.down)
    (hsent : s'.sent = s.sent) (c : Conn) : Moves p s s' c := by
  refine moves_still ?_ ?_ hdown hsent
  · rw [got, got, hconn]
    by_cases hcd : c = d
    · rw [hcd, update_self, hrec]
    · rw [update_of_ne hcd]
  · rw [ahead, ahead, unread, unread, inHand, inHand, hconn, hchan, hhandling]
    by_cases hcd : c = d
    · rw [hcd, update_self, hunread]
    · rw [update_of_ne hcd]

theorem onLink_eraseIdx {d : Down D} {u : String} (hk : s.down[k]? = some d)
    (hd : d.uid = u → p d.body = false) (hdown : s'.down = s.down.eraseIdx k) :
    s'.onLink p u = s.onLink p u := by
  rw [onLink, onLink, hdown, Lines.filter_eraseIdx_of_not hk]
  by_cases hu : d.uid = u
  · rw [hd hu, Bool.and_false]
  · rw [decide_eq_false hu, Bool.false_and]

theorem inHand_eraseIdx {d : Conn} (hk : s.handling[k]? = some (d, b)) (hb : d = c → p b = false)
    (hhandling : s'.handling = s.handling.eraseIdx k) : s'.inHand p c = s.inHand p c := by
  rw [inHand, inHand, hhandling, Lines.filter_eraseIdx_of_not hk]
  show (decide (d = c) && p b) = false
  by_cases hc : d = c
  · rw [hb hc, Bool.and_false]
  · rw [decide_eq_false hc, Bool.false_and]

theorem ahead_eraseIdx (s' : GatewayConnector D) (hsingle : (s.ahead p c).length ≤ 1)
    (hk : s.handling[k]? = some (c, b)) (hb : p b = true)
    (hhandling : s'.handling = s.handling.eraseIdx k) :
    s.unread p c = [] ∧ s.inHand p c = [b] ∧ s'.inHand p c = [] := by
  have hone : (s.handling.filter fun x => x.1 = c && p x.2).length ≤ 1 := by
    refine le_trans ?_ hsingle
    rw [ahead, length_append, inHand, length_map]
    exact Nat.le_add_left ..
  have hx : (decide ((c, b).1 = c) && p (c, b).2) = true := by
    rw [hb, decide_eq_true rfl]
    rfl
  obtain ⟨hold, hnew⟩ := Lines.filter_of_only hk hx hone
  have hin : s.inHand p c = [b] := by rw [inHand, hold]; rfl
  refine ⟨?_, hin, ?_⟩
  · rw [ahead, hin, length_append] at hsingle
    exact length_eq_zero_iff.mp (Nat.le_zero.mp (Nat.le_of_succ_le_succ hsingle))
  · rw [inHand, hhandling, hnew]
    rfl

theorem unread_hand (hb : Basic s) {n : ℕ} (hc : (s.reqs n).conn ≠ c) :
    (s.conn c).serving.unread (update s.chan n (some b)) = (s.conn c).serving.unread s.chan := by
  cases hwait : (s.conn c).serving with
  | waiting m nodes =>
    have hm : m ≠ n := by
      rintro rfl
      exact hc (hb.wait c m nodes hwait).2
    show (update s.chan n (some b) m).toList = (s.chan m).toList
    rw [update_of_ne hm]
  | _ => rfl

theorem got_say (g : GwConn D) (b : Body D) :
    (g.say (.logic b)).received.filter p = g.received.filter p ++ [b].filter p := by
  rw [received_say_logic, filter_append]

theorem unread_of_turn {reqs : ℕ → Req} {t t' : Serving} {chan : ℕ → Option (Body D)}
    (h : Turn reqs t t') : t'.unread chan = [] := by
  cases h <;> rfl

namespace Ordered

variable {a : GwAct D}

variable {k : ℕ} {c' : Conn} {b : Body D}

theorem moves_dropped (h : Ordered p s) {d : Down D} (hk : s.down[k]? = some d)
    (hno : d.uid = "" ∨ s.conns d.uid = none) (c : Conn) : Moves p s (s.takeDown k) c := by
  by_cases hc : (s.conn c).serving.isOpen = true → (s.conn c).uid = ""
  · exact .aside hc le_rfl
  · push Not at hc
    have hne : d.uid ≠ (s.conn c).uid := by
      intro heq
      rw [heq] at hno
      rcases hno with hno | hno
      · exact hc.2 hno
      · rw [h.sole.own c hc.1 hc.2] at hno
        cases hno
    refine .still [] rfl rfl ?_ (append_nil _).symm
    rw [filter_nil, append_nil]
    exact onLink_eraseIdx hk (fun heq => absurd heq hne) rfl

theorem moves_loaded (h : Ordered p s) {d : Down D} (hprompt : s.Prompt p (.load k))
    (hk : s.down[k]? = some d) (hc' : s.conns d.uid = some c') (c : Conn) :
    Moves p s (s.found k c' d.body) c := by
  have hin : (s.found k c' d.body).inHand p c =
      s.inHand p c ++ if c' = c ∧ p d.body = true then [d.body] else [] := by
    rw [inHand, inHand, found_handling, filter_append, map_append]
    congr 1
    by_cases hc : c' = c <;> cases hb : p d.body <;> simp [hc, hb]
  by_cases hcc : c' = c
  · subst hcc
    obtain ⟨-, -, huid⟩ := h.sole.entry d.uid c' hc'
    cases hb : p d.body with
    | true =>
      obtain ⟨hfirst, hnone⟩ := hprompt d hk hb
      have hnil := hnone c' hc'
      refine .arrived rfl hnil (b := d.body) ?_ ?_ rfl
      · obtain ⟨hunread, hhand⟩ := append_eq_nil_iff.mp hnil
        rw [ahead, hin, hhand, if_pos ⟨rfl, hb⟩]
        show s.unread p c' ++ _ = _
        rw [hunread]
        rfl
      · rw [onLink, Lines.filter_of_first (x := d) hk, map_cons]
        · rfl
        · rw [hb, huid, decide_eq_true rfl]
          rfl
        · intro e he
          rw [huid]
          by_cases heu : e.uid = d.uid
          · rw [hfirst e he heu, Bool.and_false]
          · rw [decide_eq_false heu, Bool.false_and]
    | false =>
      refine .still [] rfl ?_ ?_ (append_nil _).symm
      · rw [ahead, hin, if_neg (by rw [hb]; exact fun hx => nomatch hx.2), append_nil]
        rfl
      · rw [filter_nil, append_nil]
        exact onLink_eraseIdx hk (fun _ => hb) rfl
  · have hsame : (s.found k c' d.body).ahead p c = s.ahead p c := by
      rw [ahead, hin, if_neg (fun hx => hcc hx.1), append_nil]
      rfl
    by_cases hc : (s.conn c).serving.isOpen = true → (s.conn c).uid = ""
    · exact .aside hc (le_of_eq (congrArg length hsame))
    · push Not at hc
      have hne : d.uid ≠ (s.conn c).uid := by
        intro heq
        rw [heq, h.sole.own c hc.1 hc.2] at hc'
        exact hcc (Option.some.inj hc').symm
      refine .still [] rfl hsame ?_ (append_nil _).symm
      rw [filter_nil, append_nil]
      exact onLink_eraseIdx hk (fun heq => absurd heq hne) rfl

theorem moves_handed (h : Ordered p s) {n : ℕ} (hk : s.handling[k]? = some (c', b))
    (hp : s.pending c'.ID = some n) (c : Conn) : Moves p s (s.hand k c' n b) c := by
  have hmem := h.shaken.basic.handling _ (mem_of_getElem? hk)
  have hconn : (s.reqs n).conn = c' := h.shaken.conn_of_pending hmem hp
  refine moves_still rfl ?_ rfl rfl
  by_cases hcc : c' = c
  · subst hcc
    obtain ⟨⟨nodes, hwait⟩, hchan⟩ := h.listening _ n hp
    rw [hconn] at hwait
    have hnew : (s.hand k c' n b).unread p c' = [b].filter p := by
      rw [unread, hand_conn, hwait]
      show (update s.chan n (some b) n).toList.filter p = _
      rw [update_self]
      rfl
    cases hb : p b with
    | true =>
      obtain ⟨hunread, hold, hrest⟩ := ahead_eraseIdx (s.hand k c' n b) (h.single c') hk hb rfl
      rw [ahead, ahead, hnew, hrest, hunread, hold, filter_cons_of_pos hb]
      rfl
    | false =>
      have hold : s.unread p c' = [] := by
        rw [unread, hwait]
        show (s.chan n).toList.filter p = []
        rw [hchan]
        rfl
      rw [ahead, ahead, hnew, hold, inHand_eraseIdx hk (fun _ => hb) rfl,
        filter_cons_of_neg (by rw [hb]; nofun)]
      rfl
  · rw [ahead, ahead, inHand_eraseIdx hk (fun heq => absurd heq hcc) rfl, unread, unread]
    show ((s.conn c).serving.unread (update s.chan n (some b))).filter p ++ _ = _
    rw [unread_hand h.shaken.basic (hconn ▸ hcc)]

theorem moves_passed (h : Ordered p s) (hk : s.handling[k]? = some (c', b)) (c : Conn) :
    Moves p s (s.pass k c' b) c := by
  have hunread : (s.pass k c' b).unread p c = s.unread p c := by
    rw [unread, unread, pass_conn]
    by_cases hcc : c = c'
    · rw [hcc, update_self]
      rfl
    · rw [update_of_ne hcc]
      rfl
  by_cases hcc : c = c'
  · subst hcc
    have hgot : (s.pass k c b).got p c = s.got p c ++ [b].filter p := by
      rw [got, pass_conn, update_self, got_say]
      rfl
    cases hb : p b with
    | true =>
      obtain ⟨hnone, hold, hrest⟩ := ahead_eraseIdx (s.pass k c b) (h.single c) hk hb rfl
      refine .written (b := b) ?_ ?_ ?_ rfl rfl
      · rw [hgot, filter_cons_of_pos hb, filter_nil]
      · rw [ahead, hnone, hold]
        rfl
      · rw [ahead, hunread, hnone, hrest]
        rfl
    | false =>
      refine moves_still ?_ ?_ rfl rfl
      · rw [hgot, filter_cons_of_neg (by rw [hb]; nofun), filter_nil, append_nil]
      · rw [ahead, ahead, hunread, inHand_eraseIdx hk (fun _ => hb) rfl]
  · refine moves_still ?_ ?_ rfl rfl
    · rw [got, got, pass_conn, update_of_ne hcc]
    · rw [ahead, ahead, hunread, inHand_eraseIdx hk (fun heq => absurd heq.symm hcc) rfl]

theorem moves_woken (h : Ordered p s) {n : ℕ} {rest : List String}
    (hwait : (s.conn c').serving = .waiting n rest) (hchan : s.chan n = some b) (c : Conn) :
    Moves p s (s.respond c' n b) c := by
  by_cases hcc : c = c'
  · subst hcc
    have hgot : (s.respond c n b).got p c = s.got p c ++ [b].filter p := by
      rw [got, respond_conn, update_self]
      exact got_say (s.conn c) b
    have hold : s.unread p c = [b].filter p := by
      rw [unread, hwait]
      show (s.chan n).toList.filter p = _
      rw [hchan]
      rfl
    have hnew : (s.respond c n b).unread p c = [] := by
      rw [unread, respond_conn, update_self]
      rfl
    have hin : (s.respond c n b).inHand p c = s.inHand p c := rfl
    cases hb : p b with
    | true =>
      rw [filter_cons_of_pos hb, filter_nil] at hgot hold
      have hnone : s.inHand p c = [] := by
        have hsingle := h.single c
        rw [ahead, hold, length_append, length_singleton] at hsingle
        exact length_eq_zero_iff.mp (by omega)
      refine .written (b := b) hgot ?_ ?_ rfl rfl
      · rw [ahead, hold, hnone]
        rfl
      · rw [ahead, hnew, hin, hnone]
        rfl
    | false =>
      rw [filter_cons_of_neg (by rw [hb]; nofun), filter_nil] at hgot hold
      refine moves_still ?_ ?_ rfl rfl
      · rw [hgot, append_nil]
      · rw [ahead, ahead, hnew, hin, hold]
  · refine moves_still ?_ ?_ rfl rfl
    · rw [got, got, respond_conn, update_of_ne hcc]
    · rw [ahead, ahead, unread, unread, respond_conn, update_of_ne hcc]
      rfl

theorem moves_sent (s s' : GatewayConnector D) (uid : String) (bodies : List (Body D))
    (hconn : s'.conn = s.conn) (hchan : s'.chan = s.chan) (hhandling : s'.handling = s.handling)
    (hdown : s'.down = (s.send uid bodies).down) (hsent : s'.sent = (s.send uid bodies).sent)
    (c : Conn) : Moves p s s' c := by
  refine .still (if uid = (s.conn c).uid then bodies else []) ?_ ?_ ?_ ?_
  · rw [got, got, hconn]
  · rw [ahead, ahead, unread, unread, inHand, inHand, hconn, hchan, hhandling]
  · rw [onLink, hdown, send_down, filter_append, map_append, onLink, filter_map, map_map]
    congr 1
    by_cases hu : uid = (s.conn c).uid
    · rw [if_pos hu]
      simp [hu, comp_def]
    · rw [if_neg hu]
      simp [hu, comp_def]
  · rw [hsent, send_sent]
    by_cases hu : uid = (s.conn c).uid
    · rw [if_pos hu, hu, update_self]
    · rw [if_neg hu, update_of_ne (Ne.symm hu), append_nil]

/-- **What a step does to what is under way**: nothing, or a frame is taken from the link or
written. -/
theorem moves (h : Ordered p s) (hprompt : s.Prompt p a) (hs : Happens s a s') (c : Conn) :
    Moves p s s' c := by
  cases hs with
  | @accepted a =>
    by_cases hc : c = s.fresh a
    · refine .aside (fun hopen => ?_) ?_
      · exact absurd (hc ▸ h.shaken.basic.mem_of_reading rfl hopen) (h.shaken.basic.fresh_not_mem a)
      · rw [ahead, ahead, length_append, length_append, unread, accept_conn, hc, update_self]
        exact Nat.add_le_add_right (Nat.zero_le _) _
    · refine moves_still ?_ ?_ rfl rfl
      · rw [got, got, accept_conn, update_of_ne hc]
      · rw [ahead, ahead, unread, unread, accept_conn, update_of_ne hc]
        rfl
  | @named d uid node g hread huid hserving hrec =>
    refine moves_update (s.name d uid g) (d := d) rfl hrec ?_ rfl rfl rfl rfl c
    rw [hread]
    show g.serving.unread s.chan = []
    rcases hserving with hg | ⟨node, hg⟩ <;> rw [hg] <;> rfl
  | @turned _ d g q ha hturn hwait huid hrec hp =>
    refine moves_update (s.turn d g q) (d := d) rfl hrec ?_ rfl rfl rfl rfl c
    rw [unread_of_turn hturn]
    -- a goroutine that waits for a response goes on only when it has got it
    cases hd : (s.conn d).serving with
    | waiting n nodes =>
      rcases hwait n nodes hd with rfl | rfl
      · exact hprompt.elim
      · cases hprompt
    | _ => rfl
  | @requested d kind node rest hask =>
    refine moves_update (s.forward d kind node rest) (d := d) rfl rfl ?_ rfl rfl rfl rfl c
    rw [hask]
    show (s.chan s.nreq).toList = []
    cases hb : s.chan s.nreq with
    | none => rfl
    | some b => exact absurd (h.shaken.basic.chan s.nreq b hb).1 (Nat.lt_irrefl _)
  | woken hwait hchan => exact h.moves_woken hwait hchan c
  | @cleaned d hclosing =>
    refine moves_update (s.cleanupConn d) (d := d) rfl rfl ?_ rfl rfl rfl rfl c
    rw [hclosing]
    rfl
  | @answered n ok replays =>
    exact moves_sent s (s.answer n ok replays) (s.reqs n).uid (.answer n ok :: replays.map .data)
      rfl rfl rfl rfl rfl c
  | @pushed uid x => exact moves_sent s (s.send uid [.data x]) uid [.data x] rfl rfl rfl rfl rfl c
  | lostDown => exact hprompt.elim
  | dropped hk hno => exact h.moves_dropped hk hno c
  | loaded hk huid hc => exact h.moves_loaded hprompt hk hc c
  | handed hk hb hp => exact h.moves_handed hk hp c
  | passed hk => exact h.moves_passed hk c
  | @discarded k c' b hk hclosed =>
    by_cases hcc : c' = c
    · subst hcc
      refine .aside (fun hopen => by rw [hclosed] at hopen; cases hopen) ?_
      rw [ahead, ahead, length_append, length_append, inHand, inHand, length_map, length_map]
      exact Nat.add_le_add_left ((eraseIdx_sublist ..).filter _).length_le _
    · refine moves_still rfl ?_ rfl rfl
      rw [ahead, ahead, inHand_eraseIdx hk (fun heq => absurd heq hcc) rfl]
      rfl
  | lostUp | forwarded | routed | elsewhere => exact moves_still rfl rfl rfl rfl

theorem step (h : Ordered p s) (hok : s.Steady p a) (hstep : s.step a = some s') :
    Ordered p s' := by
  obtain ⟨hapart, hex, hprompt⟩ := hok
  have hs := happens_of_step hstep
  refine ⟨h.sole.step hex hstep, h.shaken.step hapart hs, h.listening.step h.shaken hs, fun c => ?_⟩
  cases h.moves hprompt hs c with
  | still new hgot hahead => exact hahead ▸ h.single c
  | arrived hgot hnone hahead => rw [hahead]; exact le_rfl
  | written hgot hone hahead => rw [hahead]; exact Nat.zero_le 1
  | aside hc hle => exact hle.trans (h.single c)

end Ordered

theorem isOpen_of_step (hb : Basic s) {a : GwAct D} (hs : Happens s a s') {c : Conn}
    (hc : c ∈ s.accepted) (hopen : (s'.conn c).serving.isOpen = true) :
    (s.conn c).serving.isOpen = true := by
  have hconn := hs.connStep c
  generalize s'.conn c = g at hopen hconn
  cases hconn with
  | same | passed => exact hopen
  | accepted heq => exact absurd (heq ▸ hc) (hb.fresh_not_mem _)
  | named hread => rw [hread]; rfl
  | turned hturn => exact hturn.isOpen.1
  | requested hask => rw [hask]; rfl
  | woken hwait => rw [hwait]; rfl
  | cleaned hclosing => rw [hclosing]; rfl

/-- What is written or under way to `c` is what it was in `s₀` and what was sent for its uid since.
-/
structure Streams (p : Body D → Bool) (s₀ : GatewayConnector D) (c : Conn)
    (s : GatewayConnector D) : Prop where
  mem : c ∈ s.accepted
  uid : (s.conn c).uid = (s₀.conn c).uid
  stream : (s.conn c).serving.isOpen = true → ∃ new,
    s.sent (s₀.conn c).uid = s₀.sent (s₀.conn c).uid ++ new ∧
    s.got p c ++ s.inbox p c = s₀.got p c ++ s₀.inbox p c ++ new.filter p

theorem Streams.step {s₀ : GatewayConnector D} {c : Conn} (hu : (s₀.conn c).uid ≠ "")
    (h : Ordered p s) (hstream : Streams p s₀ c s) {a : GwAct D} (hok : s.Steady p a)
    (hstep : s.step a = some s') : Streams p s₀ c s' := by
  have hs := happens_of_step hstep
  have huid : (s'.conn c).uid = (s₀.conn c).uid :=
    uid_of_step h.sole.basic hok.2.1 hs hstream.mem hu hstream.uid
  refine ⟨hs.accepted_subset hstream.mem, huid, fun hopen => ?_⟩
  have hopen₀ := isOpen_of_step h.sole.basic hs hstream.mem hopen
  obtain ⟨old, hsent₀, hold⟩ := hstream.stream hopen₀
  rw [inbox, hstream.uid] at hold
  rw [inbox, huid]
  cases h.moves hok.2.2 hs c with
  | still new hgot hahead hlink hsent =>
    rw [hstream.uid] at hlink hsent
    refine ⟨old ++ new, by rw [hsent, hsent₀, append_assoc], ?_⟩
    rw [hgot, hahead, hlink, filter_append, ← append_assoc (_ ++ _) (old.filter p), ← hold]
    simp only [append_assoc]
  | @arrived b hgot hnone hahead hlink hsent =>
    rw [hstream.uid] at hlink
    refine ⟨old, by rw [hsent, hsent₀], ?_⟩
    rw [← hold, hgot, hahead, hnone, hlink]
    rfl
  | @written b hgot hone hahead hlink hsent =>
    rw [hstream.uid] at hlink
    refine ⟨old, by rw [hsent, hsent₀], ?_⟩
    rw [← hold, hgot, hahead, hone, hlink]
    simp only [append_assoc, nil_append]
  | aside hc => exact absurd ((hstream.uid.symm.trans (hc hopen₀))) hu

/-! ### What is under way can be written -/

/-- How far what is under way to a connection still has to go. -/
def distance (p : Body D → Bool) (s : GatewayConnector D) (c : Conn) : ℕ :=
  (s.unread p c).length + 2 * (s.inHand p c).length + 3 * (s.onLink p (s.conn c).uid).length

/-- A frame is moved on. -/
def Delivers (p : Body D → Bool) (s : GatewayConnector D) (a : GwAct D) : Prop :=
  s.Steady p a ∧ ((∃ c, a = .wake c true) ∨ (∃ k, a = .load k) ∨ ∃ k, a = .deliver k)

namespace Ordered

variable {c : Conn}

theorem nearer_of_unread (hne : s.unread p c ≠ []) :
    ∃ s', s.step (.wake c true) = some s' ∧ s'.distance p c < s.distance p c ∧
      (s'.conn c).serving.isOpen = true ∧ (s'.conn c).uid = (s.conn c).uid := by
  rw [unread] at hne
  cases hwait : (s.conn c).serving with
  | waiting n rest =>
    cases hchan : s.chan n with
    | some b =>
      have hconn : (s.respond c n b).conn c = ((s.conn c).say (.logic b)).goTo .reading := by
        rw [respond_conn, update_self]
      refine ⟨s.respond c n b, ?_, ?_, ?_, ?_⟩
      · simp only [GatewayConnector.step, hwait, hchan, if_true]
      · have hnew : (s.respond c n b).unread p c = [] := by
          rw [unread, hconn]
          rfl
        have hpos := length_pos_of_ne_nil hne
        rw [distance, distance, hnew, hconn, unread]
        show 0 + 2 * (s.inHand p c).length + 3 * (s.onLink p (s.conn c).uid).length < _
        omega
      · rw [hconn]
        rfl
      · rw [hconn]
        rfl
    | none =>
      rw [hwait] at hne
      refine absurd ?_ hne
      show (s.chan n).toList.filter p = []
      rw [hchan]
      rfl
  | _ =>
    rw [hwait] at hne
    exact absurd rfl hne

variable (h : Ordered p s) (hopen : (s.conn c).serving.isOpen = true)

include h hopen

theorem nearer_of_inHand (hne : s.inHand p c ≠ []) :
    ∃ k s', s.step (.deliver k) = some s' ∧ s'.distance p c < s.distance p c ∧
      (s'.conn c).serving.isOpen = true ∧ (s'.conn c).uid = (s.conn c).uid := by
  obtain ⟨k, ⟨d, b⟩, hk, hx, -⟩ := Lines.exists_first fun hnil => hne (by rw [inHand, hnil]; rfl)
  obtain ⟨hd, hb⟩ := Bool.and_eq_true_iff.mp hx
  obtain rfl : d = c := of_decide_eq_true hd
  have hstep : s.step (.deliver k) = some (s.handleDownlink k d b) := by
    simp only [GatewayConnector.step, hk]
  have hs := happens_of_step hstep
  have hsingle := (h.step (a := .deliver k) ⟨trivial, trivial, trivial⟩ hstep).single d
  -- whatever is done with the frame, it is no longer in hand
  obtain ⟨hhandling, hdown, hserving, huid⟩ :
      (s.handleDownlink k d b).handling = s.handling.eraseIdx k ∧
      (s.handleDownlink k d b).down = s.down ∧
      ((s.handleDownlink k d b).conn d).serving = (s.conn d).serving ∧
      ((s.handleDownlink k d b).conn d).uid = (s.conn d).uid := by
    generalize s.handleDownlink k d b = s' at hs
    cases hs with
    | turned ha => cases ha
    | handed | discarded => exact ⟨rfl, rfl, rfl, rfl⟩
    | @passed _ d' b' hk' =>
      refine ⟨rfl, rfl, ?_⟩
      rw [pass_conn]
      by_cases hdd : d = d'
      · rw [hdd, update_self]
        exact ⟨rfl, rfl⟩
      · rw [update_of_ne hdd]
        exact ⟨rfl, rfl⟩
  obtain ⟨hold, hone, hnone⟩ := ahead_eraseIdx (s.handleDownlink k d b) (h.single d) hk hb hhandling
  have hlink : (s.handleDownlink k d b).onLink p (s.conn d).uid = s.onLink p (s.conn d).uid := by
    rw [onLink, hdown]
    rfl
  refine ⟨k, _, hstep, ?_, by rw [hserving]; exact hopen, huid⟩
  rw [ahead, hnone, append_nil] at hsingle
  rw [distance, distance, huid, hlink, hold, hone, hnone, length_nil, length_singleton]
  omega

theorem nearer_of_onLink (hu : (s.conn c).uid ≠ "") (hahead : s.ahead p c = [])
    (hne : s.onLink p (s.conn c).uid ≠ []) :
    ∃ k s', s.Prompt p (.load k) ∧ s.step (.load k) = some s' ∧ s'.distance p c < s.distance p c ∧
      (s'.conn c).serving.isOpen = true ∧ (s'.conn c).uid = (s.conn c).uid := by
  obtain ⟨k, d, hk, hx, hfirst⟩ := Lines.exists_first fun hnil => hne (by rw [onLink, hnil]; rfl)
  obtain ⟨hd, hb⟩ := Bool.and_eq_true_iff.mp hx
  have huid : d.uid = (s.conn c).uid := of_decide_eq_true hd
  have hc : s.conns d.uid = some c := huid ▸ h.sole.own c hopen hu
  have hprompt : s.Prompt p (.load k) := by
    intro d' hd' _
    cases hk.symm.trans hd'
    refine ⟨fun e he heu => ?_, fun c' hc' => ?_⟩
    · have hlater := hfirst e he
      rwa [heu, hd, Bool.true_and] at hlater
    · cases hc.symm.trans hc'
      exact hahead
  have hstep : s.step (.load k) = some (s.found k c d.body) := by
    simp only [GatewayConnector.step, hk, huid ▸ hu, if_false, hc]
  have hsingle := (h.step (a := .load k) ⟨trivial, trivial, hprompt⟩ hstep).single c
  have hlink : s.onLink p (s.conn c).uid =
      d.body :: (s.found k c d.body).onLink p (s.conn c).uid := by
    rw [onLink, Lines.filter_of_first hk hx hfirst]
    rfl
  refine ⟨k, _, hprompt, hstep, ?_, hopen, rfl⟩
  obtain ⟨hunread, hin⟩ := append_eq_nil_iff.mp hahead
  rw [ahead, length_append] at hsingle
  rw [distance, distance, hunread, hin, hlink, found_conn, length_nil, length_cons]
  omega

theorem exists_nearer (hu : (s.conn c).uid ≠ "") (hne : s.inbox p c ≠ []) :
    ∃ a s', s.Delivers p a ∧ s.step a = some s' ∧ s'.distance p c < s.distance p c ∧
      (s'.conn c).serving.isOpen = true ∧ (s'.conn c).uid = (s.conn c).uid := by
  by_cases hunread : s.unread p c = []
  · by_cases hin : s.inHand p c = []
    · have hahead : s.ahead p c = [] := by
        rw [ahead, hunread, hin]
        rfl
      rw [inbox, hahead, nil_append] at hne
      obtain ⟨k, s', hprompt, hrest⟩ := h.nearer_of_onLink hopen hu hahead hne
      exact ⟨.load k, s', ⟨⟨trivial, trivial, hprompt⟩, .inr (.inl ⟨k, rfl⟩)⟩, hrest⟩
    · obtain ⟨k, s', hrest⟩ := h.nearer_of_inHand hopen hin
      exact ⟨.deliver k, s', ⟨⟨trivial, trivial, trivial⟩, .inr (.inr ⟨k, rfl⟩)⟩, hrest⟩
  · obtain ⟨s', hrest⟩ := nearer_of_unread hunread
    exact ⟨.wake c true, s', ⟨⟨trivial, trivial, rfl⟩, .inl ⟨c, rfl⟩⟩, hrest⟩

/-- **What is under way can be written**, by steps that only move frames on. -/
theorem exists_drained (hu : (s.conn c).uid ≠ "") :
    ∃ s', Reaches GatewayConnector.step (Delivers p) s s' ∧
      (s'.conn c).serving.isOpen = true ∧ s'.inbox p c = [] := by
  obtain ⟨s', hreach, hs', hnone⟩ : ∃ s', Reaches GatewayConnector.step (Delivers p) s s' ∧
      (Ordered p s' ∧ (s'.conn c).serving.isOpen = true ∧ (s'.conn c).uid ≠ "") ∧
      s'.inbox p c = [] := by
    refine exists_reaches (fun t => t.distance p c) (fun t ht hne => ?_) ⟨h, hopen, hu⟩
    obtain ⟨a, t', ha, hstep, hlt, hopen', huid⟩ := ht.1.exists_nearer ht.2.1 ht.2.2 hne
    exact ⟨a, t', ha, hstep, ⟨ht.1.step ha.1 hstep, hopen', huid ▸ ht.2.2⟩, hlt⟩
  exact ⟨s', hreach, hs'.2.1, hnone⟩

end Ordered

end GatewayConnector

end RanGame.App
