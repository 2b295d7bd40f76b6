import RanGame.App.Split
import Mathlib.Data.Prod.Lex

/-!
# Coming back through a Gateway

A new Gateway connection has no uid, so the response to a reconnect token on it goes out under the
uid `""`, and the Gateway drops it: the client gets no answer, and its token is used up. If the
connection has named the uid before, the client comes back.
-/

namespace RanGame.App

open List Machine Option Function
open Transport (Frame)
open Session (newDownlink)

theorem toList_prefixed (node token : String) :
    (node ++ ":" ++ token).toList = (node.toList ++ [':']) ++ token.toList := by
  rw [String.toList_append, String.toList_append]
  rfl

theorem parseNodeIDFromToken_append {node : String} (hne : node ≠ "") (hcolon : ':' ∉ node.toList)
    (token : String) : parseNodeIDFromToken (node ++ ":" ++ token) = some node := by
  rw [parseNodeIDFromToken, toList_prefixed, append_assoc]
  rw [show [':'] ++ token.toList = ':' :: token.toList from rfl, cut_append hcolon]
  cases hnode : node.toList with
  | nil => exact absurd (String.toList_eq_nil_iff.mp hnode) hne
  | cons c cs =>
    show some (String.ofList (c :: cs)) = some node
    rw [← hnode, String.ofList_toList]

theorem stripNodeIDPrefix_append (node : String) {token : String} (hne : token ≠ "") :
    stripNodeIDPrefix (node ++ ":" ++ token) node = token := by
  have hpos : 0 < token.toList.length :=
    length_pos_of_ne_nil fun hnil => hne (String.toList_eq_nil_iff.mp hnil)
  simp only [stripNodeIDPrefix, toList_prefixed]
  rw [if_pos, drop_left, String.ofList_toList]
  refine ⟨?_, take_left⟩
  simp only [length_append]
  omega

namespace Split

variable {replayCap : ℕ} {hcap : 0 < replayCap} {s s' : Split} {a : SplitAct}
  {p : Body LogicFrame → Bool}

/-! ### What holds in every run -/

theorem nodes_login (l : Logic) (node : String) (σ : LogicSession) (notice : Bytes)
    (bound : Bool) : (l.login node σ notice bound).nodes =
      update l.nodes node ((l.nodes node).create σ notice) := by
  simp only [Logic.login]
  split <;> split <;> rfl

theorem task_login {l : Logic} {node : String} {σ : LogicSession} {notice : Bytes} {bound : Bool}
    (n : ℕ) : (l.login node σ notice bound).task n = l.task n ∧
      (l.login node σ notice bound).replays n = l.replays n := by
  simp only [Logic.login]
  split <;> split <;> exact ⟨rfl, rfl⟩

/-- The Gateway is orderly, the nodes' indices are right, and only requests that were made are
handled. -/
structure Whole (p : Body LogicFrame → Bool) (s : Split) : Prop where
  ordered : s.gw.Ordered p
  filed : ∀ node, (s.logic.nodes node).Filed
  idle : ∀ n, s.gw.nreq ≤ n → s.logic.task n = .idle

theorem whole_newSplit : Whole p newSplit where
  ordered := GatewayConnector.ordered_newGatewayConnector p
  filed := fun _ => LogicNode.filed_newLogicNode
  idle := fun _ _ => rfl

theorem task_of_step (h : step replayCap hcap s a = some s') {n : ℕ} (ha : a.request? ≠ some n) :
    s'.logic.task n = s.logic.task n ∧ s'.logic.replays n = s.logic.replays n := by
  obtain ⟨-, -, hlogic⟩ := step_eq_some.mp h
  rw [hlogic]
  have hne : ∀ {m}, a.request? = some m → n ≠ m := by
    rintro m hm rfl
    exact ha hm
  have hset : ∀ {m t}, a.request? = some m → update s.logic.task m t n = s.logic.task n := fun hm =>
    update_of_ne (hne hm) ..
  cases a with
  | gateway | reject | respond | push => exact ⟨rfl, rfl⟩
  | login | loginElsewhere => exact task_login n
  | reconnect | reply =>
    simp only [after]
    split
    · exact ⟨hset rfl, rfl⟩
    · exact ⟨rfl, rfl⟩
  | replay m bound =>
    simp only [after]
    split
    · split
      · exact ⟨hset rfl, update_of_ne (hne rfl) ..⟩
      · exact ⟨hset rfl, rfl⟩
    · exact ⟨rfl, rfl⟩
  | sendNext m ok => exact ⟨hset rfl, rfl⟩
  | reconnectElsewhere node i newToken codec bound =>
    simp only [after]
    split <;> exact ⟨rfl, rfl⟩

/-- What a step makes of the nodes. -/
inductive NodesStep (s : Split) : SplitAct → (String → LogicNode) → Prop
  | same {b} : NodesStep s b s.logic.nodes
  | create {b node σ notice} (hb : s.loginUID b = some σ.uid)
      (hfresh : (s.logic.nodes node).Fresh σ.token) :
      NodesStep s b (update s.logic.nodes node ((s.logic.nodes node).create σ notice))
  | reconnect {n i newToken codec} (hwanted : s.wanted n = some i)
      (hfresh : (s.node n).Fresh newToken) :
      NodesStep s (.reconnect n newToken codec) (update s.logic.nodes (s.gw.reqs n).node
        ((s.node n).rebind i newToken (some (s.gw.reqs n).uid) codec))
  | push {b node i msgID body snapshot} : NodesStep s b
      (update s.logic.nodes node ((s.logic.nodes node).push i msgID body snapshot))
  | elsewhere {node i newToken codec bound}
      (hindex : (s.logic.nodes node).byToken ((s.logic.nodes node).sess i).token = some i)
      (hfresh : (s.logic.nodes node).Fresh newToken) :
      NodesStep s (.reconnectElsewhere node i newToken codec bound)
        (update s.logic.nodes node ((s.logic.nodes node).rebind i newToken none codec))

theorem nodesStep_of_step (h : step replayCap hcap s a = some s') :
    NodesStep s a s'.logic.nodes := by
  obtain ⟨hen, -, hlogic⟩ := step_eq_some.mp h
  rw [hlogic]
  cases a with
  | gateway | reject | respond | sendNext => exact .same
  | login n newToken codec notice told bound =>
    rw [after, nodes_login]
    exact .create rfl hen.2.2.2
  | loginElsewhere k uid newToken codec notice told bound =>
    rw [after, nodes_login]
    exact .create rfl hen.2
  | reconnect n newToken codec =>
    simp only [after]
    split
    · exact .reconnect ‹_› hen.2.2.2
    · exact .same
  | replay n bound =>
    simp only [after]
    split
    · split <;> exact .same
    · exact .same
  | reply n ok =>
    simp only [after]
    split <;> exact .same
  | push => exact .push
  | reconnectElsewhere k i newToken codec bound =>
    simp only [after]
    split <;> exact .elsewhere (LogicNode.withToken_eq_some.mp hen.1).1 hen.2

namespace Whole

theorem lt_of_enabled (h : Whole p s) (hen : s.Enabled a) {n : ℕ} (ha : a.request? = some n) :
    n < s.gw.nreq := by
  have hup : n ∈ s.gw.up → n < s.gw.nreq := fun hn =>
    h.ordered.shaken.basic.flying n (GatewayConnector.mem_underway.mpr (.inl hn))
  have htask : s.logic.task n ≠ .idle → n < s.gw.nreq := fun hn =>
    Nat.lt_of_not_le fun hle => hn (h.idle n hle)
  cases a with
  | login | reject | reconnect =>
    cases ha
    exact hup hen.1
  | replay | reply | sendNext =>
    cases ha
    refine htask fun hidle => ?_
    simp only [Enabled, hidle] at hen
    first | cases hen | exact hen rfl
  | _ => cases ha

theorem step_filed (h : Whole p s) (hstep : step replayCap hcap s a = some s') (node : String) :
    (s'.logic.nodes node).Filed := by
  have hset : ∀ (k : String) (y : LogicNode), y.Filed → (update s.logic.nodes k y node).Filed := by
    intro k y hy
    exact (forall_update_iff s.logic.nodes fun _ x => x.Filed).mpr ⟨hy, fun j _ => h.filed j⟩ node
  have hnodes := nodesStep_of_step hstep
  generalize s'.logic.nodes = nodes at hnodes ⊢
  cases hnodes with
  | same => exact h.filed node
  | create ha hfresh => exact hset _ _ ((h.filed _).create _ hfresh)
  | reconnect hwanted hfresh =>
    refine hset _ _ ((h.filed _).rebind _ _ ?_ hfresh)
    rw [wanted] at hwanted
    split at hwanted
    · cases hwanted
    · obtain ⟨hindex, htoken⟩ := LogicNode.withToken_eq_some.mp hwanted
      exact htoken ▸ hindex
  | push => exact hset _ _ ((h.filed _).setSess rfl rfl)
  | elsewhere hindex hfresh => exact hset _ _ ((h.filed _).rebind _ _ hindex hfresh)

theorem step (h : Whole p s) (hok : s.Steady p a) (hstep : step replayCap hcap s a = some s') :
    Whole p s' where
  ordered := (reaches_of_step hok hstep).invariant (I := fun t => t.Ordered p)
    (fun _ _ _ ht hb => ht.step hb.1) h.ordered
  filed := h.step_filed hstep
  idle := by
    intro n hn
    have hle := (reqs_of_step hok hstep).1.trans hn
    rw [(task_of_step hstep fun ha => ?_).1]
    · exact h.idle n hle
    · exact absurd (h.lt_of_enabled (step_eq_some.mp hstep).1 ha) (Nat.not_lt.mpr hle)

end Whole

/-! ### The session -/

/-- Nobody logs in under the uid, and only requests of connection `c` under it use the token. -/
def Undisturbed (c : Conn) (u node : String) (s : Split) : SplitAct → Prop
  | .login n _ _ _ _ _ => (s.gw.reqs n).uid ≠ u
  | .loginElsewhere _ uid _ _ _ _ _ => uid ≠ u
  | .reconnect n _ _ => (s.gw.reqs n).node = node → ∀ i ∈ s.wanted n,
      (s.logic.nodes node).byUID u = some i →
      (s.gw.reqs n).conn = c ∧ (s.gw.reqs n).uid = u
  | .reconnectElsewhere k i _ _ _ => k = node → (s.logic.nodes node).byUID u ≠ some i
  | _ => True

instance (c : Conn) (u node : String) (a : SplitAct) : Decidable (s.Undisturbed c u node a) := by
  induction a using SplitAct.casesOn <;> unfold Undisturbed <;> infer_instance

variable {c : Conn} {u node : String} {x : ℕ}

theorem node_eq {n : ℕ} (hn : (s.gw.reqs n).node = node) : s.node n = s.logic.nodes node := by
  rw [Split.node, hn]

theorem Undisturbed.loginUID (h : s.Undisturbed c u node a) : s.loginUID a ≠ some u := by
  cases a with
  | login | loginElsewhere => exact fun heq => h (some.inj heq)
  | _ => exact nofun

/-- A step leaves token and connection of the session alone, unless a request of the client is
handled. -/
structure Keeps (c : Conn) (u node : String) (x : ℕ) (s : Split) (a : SplitAct) (s' : Split) :
    Prop where
  byUID : (s'.logic.nodes node).byUID u = some x
  via : ((s.logic.nodes node).sess x).via = some u → ((s'.logic.nodes node).sess x).via = some u
  token : ((s'.logic.nodes node).sess x).token = ((s.logic.nodes node).sess x).token ∨
    ∃ n newToken codec, a = .reconnect n newToken codec ∧ s.wanted n = some x ∧
      (s.gw.reqs n).node = node ∧ (s.gw.reqs n).conn = c ∧ (s.gw.reqs n).uid = u

theorem keeps_of_step (hfiled : (s.logic.nodes node).Filed) (hund : s.Undisturbed c u node a)
    (h : step replayCap hcap s a = some s') (hx : (s.logic.nodes node).byUID u = some x) :
    Keeps c u node x s a s' := by
  have hkeep : s'.logic.nodes = s.logic.nodes → Keeps c u node x s a s' := by
    intro hnodes
    refine ⟨?_, ?_, .inl ?_⟩ <;> rw [hnodes]
    · exact hx
    · exact id
  -- only one node changes, and the session of the client is the same after it
  have hset : ∀ (k : String) (y : LogicNode), s'.logic.nodes = update s.logic.nodes k y →
      (k = node → y.byUID u = some x ∧ (y.sess x).token = ((s.logic.nodes node).sess x).token ∧
        (y.sess x).via = ((s.logic.nodes node).sess x).via) → Keeps c u node x s a s' := by
    intro k y hnodes hy
    by_cases hk : node = k
    · obtain ⟨hindex, htoken, hvia⟩ := hy hk.symm
      refine ⟨?_, ?_, .inl ?_⟩ <;> rw [hnodes, hk, update_self]
      · exact hindex
      · exact fun hu => hvia.trans (hk ▸ hu)
      · exact htoken.trans (by rw [hk])
    · refine ⟨?_, ?_, .inl ?_⟩ <;> rw [hnodes, update_of_ne hk]
      · exact hx
      · exact id
  have hnodes := nodesStep_of_step h
  generalize heq : s'.logic.nodes = nodes at hnodes
  cases hnodes with
  | same => exact hkeep heq
  | create ha hfresh =>
    refine hset _ _ heq ?_
    rintro rfl
    refine And.imp_right (fun hsess => ?_)
      (LogicNode.create_of_ne hfiled _ hx fun hu => hund.loginUID (hu ▸ ha))
    rw [hsess]
    exact ⟨rfl, rfl⟩
  | @reconnect n i newToken codec hwanted =>
    by_cases hi : (s.gw.reqs n).node = node ∧ i = x
    · obtain ⟨hnode, rfl⟩ := hi
      obtain ⟨hconn, huid⟩ := hund hnode i hwanted hx
      have hnode' : s'.logic.nodes node =
          (s.logic.nodes node).rebind i newToken (some u) codec := by
        rw [heq, hnode, update_self, huid, node_eq hnode]
      refine ⟨?_, fun _ => ?_, .inr ⟨n, newToken, codec, rfl, hwanted, hnode, hconn, huid⟩⟩
      · rw [hnode']
        exact hx
      · rw [hnode', LogicNode.rebind_sess, update_self]
    · refine hset _ _ heq fun hnode => ?_
      have hne : x ≠ i := fun heq => hi ⟨hnode, heq.symm⟩
      rw [node_eq hnode, LogicNode.rebind_sess, update_of_ne hne]
      exact ⟨hx, rfl, rfl⟩
  | @push _ k i =>
    refine hset _ _ heq ?_
    rintro rfl
    refine ⟨hx, ?_⟩
    rw [LogicNode.push, LogicNode.setSess_sess]
    by_cases hi : x = i
    · rw [hi, update_self]
      exact ⟨rfl, rfl⟩
    · rw [update_of_ne hi]
      exact ⟨rfl, rfl⟩
  | @elsewhere k i =>
    refine hset _ _ heq ?_
    rintro rfl
    have hne : x ≠ i := by
      rintro rfl
      exact hund rfl hx
    rw [LogicNode.rebind_sess, update_of_ne hne]
    exact ⟨hx, rfl, rfl⟩

/-! ### A request on its way -/

/-- Connection `c` has made request `n` under `u`. -/
structure Request (s : Split) (c : Conn) (u node : String) (n : ℕ) : Prop where
  lt : n < s.gw.nreq
  conn : (s.gw.reqs n).conn = c
  uid : (s.gw.reqs n).uid = u
  node : (s.gw.reqs n).node = node

theorem Request.step {n : ℕ} (h : Request s c u node n) (hok : s.Steady p a)
    (hstep : step replayCap hcap s a = some s') : Request s' c u node n := by
  obtain ⟨hle, hsame⟩ := reqs_of_step hok hstep
  have heq := hsame n h.lt
  exact ⟨h.lt.trans_le hle, heq ▸ h.conn, heq ▸ h.uid, heq ▸ h.node⟩

/-- How far the node is with request `n` for session `x`. `base` had been sent before the token was.
-/
inductive Stage (base : List (Body LogicFrame)) (u node : String) (x n : ℕ) (s : Split) : Prop
  | requested (token : String) (seq : UInt32) (hup : n ∈ s.gw.up) (htask : s.logic.task n = .idle)
      (hkind : (s.gw.reqs n).kind = .reconnect token seq false)
      (htoken : ((s.logic.nodes node).sess x).token = stripNodeIDPrefix token node)
  | bound (hup : n ∈ s.gw.up) (htask : s.logic.task n = .bound x)
      (hvia : ((s.logic.nodes node).sess x).via = some u)
  | replying (reliable snapshots : List Frame) (hup : n ∈ s.gw.up)
      (htask : s.logic.task n = .replying reliable snapshots)
      (hframes : reliable ++ snapshots = s.logic.replays n)
      (hvia : ((s.logic.nodes node).sess x).via = some u) (hroute : s.gw.routes u = true)
  | replaying (done reliable snapshots : List Frame)
      (htask : s.logic.task n = .replaying reliable snapshots)
      (hframes : done ++ (reliable ++ snapshots) = s.logic.replays n)
      (hvia : ((s.logic.nodes node).sess x).via = some u) (hroute : s.gw.routes u = true)
      (hsent : ∃ new, s.gw.sent u = base ++ new ∧
        (.answer n true :: done.map fun f => .data ⟨node, f⟩).Sublist new)

variable {base : List (Body LogicFrame)} {n : ℕ}

theorem wanted_of_token (hfiled : (s.logic.nodes node).Filed)
    (hx : (s.logic.nodes node).byUID u = some x) (hnode : (s.gw.reqs n).node = node)
    {token : String} {seq : UInt32} {b : Bool}
    (hkind : (s.gw.reqs n).kind = .reconnect token seq b)
    (htoken : ((s.logic.nodes node).sess x).token = stripNodeIDPrefix token node) :
    s.wanted n = some x := by
  rw [wanted, hkind]
  show (s.node n).withToken (stripNodeIDPrefix token (s.gw.reqs n).node) = some x
  rw [node_eq hnode, hnode, ← htoken]
  exact hfiled.withToken hx

theorem bound_of_reconnect {newToken : String} {codec : UInt8}
    (h : step replayCap hcap s (.reconnect n newToken codec) = some s')
    (hwanted : s.wanted n = some x) (hnode : (s.gw.reqs n).node = node)
    (huid : (s.gw.reqs n).uid = u) : Stage base u node x n s' := by
  obtain ⟨hen, hrun, hlogic⟩ := step_eq_some.mp h
  simp only [acts, hwanted, reduceCtorEq, if_false, run_nil, some.injEq] at hrun
  simp only [after, hwanted] at hlogic
  obtain ⟨_, _⟩ := s'
  subst hrun hlogic
  refine .bound hen.1 (update_self ..) ?_
  show ((update s.logic.nodes (s.gw.reqs n).node _ node).sess x).via = some u
  rw [hnode, update_self, LogicNode.rebind_sess, update_self, huid]

theorem replying_of_replay (h : step replayCap hcap s (.replay n true) = some s')
    (hup : n ∈ s.gw.up) (htask : s.logic.task n = .bound x) (hnode : (s.gw.reqs n).node = node)
    (huid : ((s.logic.nodes node).sess x).uid = u)
    (hvia : ((s.logic.nodes node).sess x).via = some u) : Stage base u node x n s' := by
  obtain ⟨-, hrun, hlogic⟩ := step_eq_some.mp h
  simp only [acts, htask, node_eq hnode, huid, if_true] at hrun
  simp only [after, htask, if_true] at hlogic
  obtain ⟨_, _⟩ := s'
  cases some.inj hrun
  subst hlogic
  refine .replying _ _ hup (update_self ..) ?_ hvia (update_self ..)
  simp only [Logic.replay, update_self]

theorem replaying_of_reply (h : step replayCap hcap s (.reply n true) = some s')
    {reliable snapshots : List Frame} (hup : n ∈ s.gw.up)
    (htask : s.logic.task n = .replying reliable snapshots)
    (hframes : reliable ++ snapshots = s.logic.replays n) (huid : (s.gw.reqs n).uid = u)
    (hvia : ((s.logic.nodes node).sess x).via = some u) (hroute : s.gw.routes u = true)
    (hbase : ∃ new, s.gw.sent u = base ++ new) : Stage base u node x n s' := by
  obtain ⟨-, hrun, hlogic⟩ := step_eq_some.mp h
  have hstep : s.gw.step (.answer n true []) = some (s.gw.answer n true []) := by
    simp only [GatewayConnector.step, if_pos hup]
  obtain ⟨g, hg, hlast⟩ := run_cons_eq_some.mp hrun
  simp only [after, htask] at hlogic
  obtain ⟨_, _⟩ := s'
  cases some.inj hlast
  cases some.inj (hg.symm.trans hstep)
  subst hlogic
  obtain ⟨new, hnew⟩ := hbase
  refine .replaying [] reliable snapshots (update_self ..) hframes hvia hroute
    ⟨new ++ [.answer n true], ?_, sublist_append_right ..⟩
  show update s.gw.sent (s.gw.reqs n).uid _ u = _
  rw [huid, update_self, hnew, append_assoc]
  rfl

theorem replaying_of_sendNext (h : step replayCap hcap s (.sendNext n true) = some s')
    {done reliable snapshots : List Frame}
    (htask : s.logic.task n = .replaying reliable snapshots)
    (hframes : done ++ (reliable ++ snapshots) = s.logic.replays n)
    (huid : (s.gw.reqs n).uid = u) (hnode : (s.gw.reqs n).node = node)
    (hvia : ((s.logic.nodes node).sess x).via = some u) (hroute : s.gw.routes u = true)
    (hsent : ∃ new, s.gw.sent u = base ++ new ∧
      (.answer n true :: done.map fun f => .data ⟨node, f⟩).Sublist new) :
    Stage base u node x n s' := by
  obtain ⟨hen, hrun, hlogic⟩ := step_eq_some.mp h
  obtain ⟨f, reliable', snapshots', hnext, hadvance, hrest⟩ : ∃ f reliable' snapshots',
      (s.logic.task n).next? = some f ∧
      (s.logic.task n).advance true = .replaying reliable' snapshots' ∧
      reliable ++ snapshots = f :: (reliable' ++ snapshots') := by
    rw [Enabled, htask] at hen
    rw [htask]
    cases reliable with
    | cons f reliable => exact ⟨f, reliable, snapshots, rfl, rfl, rfl⟩
    | nil =>
      cases snapshots with
      | cons f snapshots => exact ⟨f, [], snapshots, rfl, rfl, rfl⟩
      | nil => exact absurd rfl hen
  simp only [acts, hnext, huid, hnode, if_true] at hrun
  obtain ⟨_, _⟩ := s'
  cases some.inj hrun
  subst hlogic
  obtain ⟨new, hnew, hsub⟩ := hsent
  refine .replaying (done ++ [f]) reliable' snapshots' ((update_self ..).trans hadvance) ?_ hvia
    hroute ⟨new ++ [.data ⟨node, f⟩], ?_, ?_⟩
  · rw [append_assoc, singleton_append, ← hrest]
    exact hframes
  · show update s.gw.sent u _ u = _
    rw [update_self, hnew, append_assoc]
  · rw [map_append, ← cons_append]
    exact hsub.append (List.Sublist.refl _)

theorem Stage.own (hw : Whole p s) (hok : s.Steady p a)
    (hstep : step replayCap hcap s a = some s') (hx : (s.logic.nodes node).byUID u = some x)
    (hreq : Request s c u node n) (hbase : ∃ new, s.gw.sent u = base ++ new)
    (ha : a.request? = some n) (h : Stage base u node x n s) : Stage base u node x n s' := by
  obtain ⟨hen, -⟩ := step_eq_some.mp hstep
  cases a with
  | login m | reject m | reconnect m =>
    cases ha
    -- the request is still to be handled
    cases h with
    | requested token seq hup htask hkind htoken =>
      have hwanted := wanted_of_token (hw.filed node) hx hreq.node hkind htoken
      first
      | exact bound_of_reconnect hstep hwanted hreq.node hreq.uid
      | cases hkind.symm.trans hen.2.2.1
      | cases (congrArg Kind.undecoded hkind).symm.trans hen.2.2
    | bound hup htask | replying _ _ hup htask | replaying _ _ _ htask =>
      cases htask.symm.trans hen.2.1
  | replay m bound =>
    cases ha
    cases h with
    | bound hup htask hvia =>
      obtain rfl : bound = true := hok
      exact replying_of_replay hstep hup htask hreq.node ((hw.filed node).byUID u x hx).1 hvia
    | requested _ _ hup htask | replying _ _ hup htask | replaying _ _ _ htask =>
      simp only [Enabled, htask] at hen
      cases hen
  | reply m ok =>
    cases ha
    cases h with
    | replying reliable snapshots hup htask hframes hvia hroute =>
      obtain rfl : ok = true := hok
      exact replaying_of_reply hstep hup htask hframes hreq.uid hvia hroute hbase
    | requested _ _ hup htask | bound hup htask | replaying _ _ _ htask =>
      simp only [Enabled, htask] at hen
      cases hen
  | sendNext m ok =>
    cases ha
    cases h with
    | replaying done reliable snapshots htask hframes hvia hroute hsent =>
      obtain rfl : ok = true := hok
      exact replaying_of_sendNext hstep htask hframes hreq.uid hreq.node hvia hroute hsent
    | requested _ _ hup htask | bound hup htask | replying _ _ hup htask =>
      simp only [Enabled, htask] at hen
      exact absurd rfl hen
  | _ => cases ha

/-- A step that is not about a request leaves it where it is, or gives the session to another one.
-/
theorem Stage.other (hok : s.Steady p a) (hund : s.Undisturbed c u node a)
    (hstep : step replayCap hcap s a = some s') (hkeeps : Keeps c u node x s a s')
    (hreq : Request s c u node n) (ha : a.request? ≠ some n) (h : Stage base u node x n s) :
    Stage base u node x n s' ∨
      ((s'.logic.nodes node).sess x).token ≠ ((s.logic.nodes node).sess x).token := by
  obtain ⟨htask', hreplays⟩ := task_of_step hstep ha
  have hup' : n ∈ s.gw.up → n ∈ s'.gw.up := up_of_step hok hstep ha
  have hroute' : s.gw.routes u = true → s'.gw.routes u = true :=
    routes_of_step hok hstep hund.loginUID
  cases h with
  | requested token seq hup htask hkind htoken =>
    by_cases hsame : ((s'.logic.nodes node).sess x).token = ((s.logic.nodes node).sess x).token
    · have hkind' : (s'.gw.reqs n).kind = .reconnect token seq false := by
        rw [(reqs_of_step hok hstep).2 n hreq.lt]
        exact hkind
      exact .inl (.requested token seq (hup' hup) (htask'.trans htask) hkind' (hsame.trans htoken))
    · exact .inr hsame
  | bound hup htask hvia => exact .inl (.bound (hup' hup) (htask'.trans htask) (hkeeps.via hvia))
  | replying reliable snapshots hup htask hframes hvia hroute =>
    exact .inl (.replying reliable snapshots (hup' hup) (htask'.trans htask)
      (hframes.trans hreplays.symm) (hkeeps.via hvia) (hroute' hroute))
  | replaying done reliable snapshots htask hframes hvia hroute hsent =>
    obtain ⟨old, hold, hsub⟩ := hsent
    obtain ⟨new, hnew⟩ := sent_of_step hok hstep u
    refine .inl (.replaying done reliable snapshots (htask'.trans htask)
      (hframes.trans hreplays.symm) (hkeeps.via hvia) (hroute' hroute) ⟨old ++ new, ?_, ?_⟩)
    · rw [hnew, hold, append_assoc]
    · exact hsub.trans (sublist_append_left ..)

/-! ### From the token to the response -/

end Split

/-- The frames of a node, and all responses. -/
def fromNode (node : String) : Body LogicFrame → Bool
  | .answer _ _ => true
  | .data d => d.node = node

theorem GatewayConnector.asking_of_step {D : Type*} {p : Body D → Bool} {s s' : GatewayConnector D}
    {a : GwAct D} (hb : s.Basic) (hprompt : s.Prompt p a) (hs : s.Happens a s') {c : Conn}
    {kind : Kind} {node : String} (hask : (s.conn c).serving = .asking kind [node]) :
    (s'.conn c).serving = .asking kind [node] ∨ s' = s.forward c kind node [] := by
  have hconn := hs.connStep c
  generalize s'.conn c = g at hconn ⊢
  cases hconn with
  | same | passed => exact .inl hask
  | accepted heq => exact absurd (heq ▸ hb.mem_of_reading hask rfl) (hb.fresh_not_mem _)
  | named hread => cases hask.symm.trans hread
  | turned hturn huid hrec hrequest =>
    obtain ⟨text, rfl⟩ := hrequest _ _ hask
    cases hprompt
  | requested hask' =>
    cases hask.symm.trans hask'
    exact .inr rfl
  | woken hwait => cases hask.symm.trans hwait
  | cleaned hclosing => cases hask.symm.trans hclosing

/-- How much a node has still to do for a request. -/
def LogicTask.rest : LogicTask → ℕ ×ₗ ℕ
  | idle => toLex (3, 0)
  | bound _ => toLex (2, 0)
  | replying _ _ => toLex (1, 0)
  | replaying reliable snapshots => toLex (0, reliable.length + snapshots.length)

namespace Split

/-- Nothing goes wrong, and nobody else takes the session over. -/
def Smooth (c : Conn) (u node : String) (s : Split) (a : SplitAct) : Prop :=
  s.Steady (fromNode node) a ∧ s.Undisturbed c u node a

instance (c : Conn) (u node : String) (s : Split) (a : SplitAct) :
    Decidable (s.Smooth c u node a) := inferInstanceAs (Decidable (_ ∧ _))

/-- Connection `c` has received the token of session `x` and is about to ask the node. -/
def Asking (c : Conn) (node : String) (x : ℕ) (s : Split) : Prop :=
  ∃ token seq, (s.gw.conn c).serving = .asking (.reconnect token seq false) [node] ∧
    ((s.logic.nodes node).sess x).token = stripNodeIDPrefix token node

/-- What holds since the client has sent the token, in state `s₀`. -/
structure Course (s₀ : Split) (c : Conn) (u node : String) (x : ℕ) (s : Split) : Prop where
  whole : Whole (fromNode node) s
  streams : GatewayConnector.Streams (fromNode node) s₀.gw c s.gw
  byUID : (s.logic.nodes node).byUID u = some x
  sent : ∃ new, s.gw.sent u = s₀.gw.sent u ++ new
  phase : s.Asking c node x ∨ ∃ n, Request s c u node n ∧ Stage (s₀.gw.sent u) u node x n s

variable {replayCap : ℕ} {hcap : 0 < replayCap} {s₀ s s' : Split} {a : SplitAct} {c : Conn}
  {u node : String} {x n : ℕ}

namespace Course

theorem requested_of_forward (s' : Split) {token : String} {seq : UInt32}
    (hidle : s.logic.task s.gw.nreq = .idle) (huid : (s.gw.conn c).uid = u)
    (hlogic : s'.logic = s.logic)
    (hgw : s'.gw = s.gw.forward c (.reconnect token seq false) node [])
    (htoken : ((s.logic.nodes node).sess x).token = stripNodeIDPrefix token node)
    (base : List (Body LogicFrame)) :
    Request s' c u node s.gw.nreq ∧ Stage base u node x s.gw.nreq s' := by
  have hreqs : s'.gw.reqs s.gw.nreq = ⟨c, u, node, .reconnect token seq false⟩ := by
    rw [hgw, GatewayConnector.forward_reqs, update_self, huid]
  obtain ⟨_, _⟩ := s'
  subst hgw hlogic
  refine ⟨⟨Nat.lt_succ_self _, ?_, ?_, ?_⟩, .requested token seq
    (mem_append_right _ (mem_singleton.mpr rfl)) hidle ?_ htoken⟩ <;> rw [hreqs]

theorem step_phase (h : Course s₀ c u node x s) (huid : (s.gw.conn c).uid = u)
    (hok : s.Smooth c u node a) (hstep : step replayCap hcap s a = some s') :
    s'.Asking c node x ∨ ∃ n, Request s' c u node n ∧ Stage (s₀.gw.sent u) u node x n s' := by
  obtain ⟨hen, hrun, hlogic⟩ := step_eq_some.mp hstep
  have hkeeps := keeps_of_step (h.whole.filed node) hok.2 hstep h.byUID
  -- if the token is no longer the same, a request of the client has been handled
  have hrebound : ((s'.logic.nodes node).sess x).token ≠ ((s.logic.nodes node).sess x).token →
      ∃ n, Request s' c u node n ∧ Stage (s₀.gw.sent u) u node x n s' := by
    intro hne
    obtain ⟨m, newToken, codec, rfl, hwanted, hnode, hconn, hmuid⟩ := hkeeps.token.resolve_left hne
    have hm : Request s c u node m := ⟨h.whole.lt_of_enabled hen rfl, hconn, hmuid, hnode⟩
    exact ⟨m, hm.step hok.1 hstep, bound_of_reconnect hstep hwanted hnode hmuid⟩
  rcases h.phase with ⟨token, seq, hask, htoken⟩ | ⟨n, hreq, hstage⟩
  · by_cases hsame : ((s'.logic.nodes node).sess x).token = ((s.logic.nodes node).sess x).token
    · by_cases ha : ∃ b, a = .gateway b
      · obtain ⟨b, rfl⟩ := ha
        obtain ⟨g, hg, hlast⟩ := run_cons_eq_some.mp hrun
        cases hlast
        rcases GatewayConnector.asking_of_step h.whole.ordered.shaken.basic hok.1.2.2
          (GatewayConnector.happens_of_step hg) hask with hask' | hforward
        · exact .inl ⟨token, seq, hask', hsame.trans htoken⟩
        · exact .inr ⟨_, requested_of_forward s' (h.whole.idle _ le_rfl) huid hlogic hforward
            htoken _⟩
      · refine .inl ⟨token, seq, ?_, hsame.trans htoken⟩
        rw [conn_of_step hok.1 hstep fun b hb => ha ⟨b, hb⟩]
        exact hask
    · exact .inr (hrebound hsame)
  · by_cases ha : a.request? = some n
    · exact .inr ⟨n, hreq.step hok.1 hstep, hstage.own h.whole hok.1 hstep h.byUID hreq h.sent ha⟩
    · rcases hstage.other hok.1 hok.2 hstep hkeeps hreq ha with hstage' | hne
      · exact .inr ⟨n, hreq.step hok.1 hstep, hstage'⟩
      · exact .inr (hrebound hne)

/-- **The course of a reconnect**, along every run of smooth steps. -/
theorem step (h : Course s₀ c u node x s) (hu : u ≠ "") (huid : (s₀.gw.conn c).uid = u)
    (hok : s.Smooth c u node a) (hstep : step replayCap hcap s a = some s') :
    Course s₀ c u node x s' where
  whole := h.whole.step hok.1 hstep
  streams := by
    have hboth := (reaches_of_step hok.1 hstep).invariant (I := fun t => t.Ordered (fromNode node) ∧
        GatewayConnector.Streams (fromNode node) s₀.gw c t)
      (fun t b t' ht hb hstep => ⟨ht.1.step hb.1 hstep, ht.2.step (huid ▸ hu) ht.1 hb.1 hstep⟩)
      ⟨h.whole.ordered, h.streams⟩
    exact hboth.2
  byUID := (keeps_of_step (h.whole.filed node) hok.2 hstep h.byUID).byUID
  sent := by
    obtain ⟨old, hold⟩ := h.sent
    obtain ⟨new, hnew⟩ := sent_of_step hok.1 hstep u
    exact ⟨old ++ new, by rw [hnew, hold, append_assoc]⟩
  phase := h.step_phase (h.streams.uid.trans huid) hok hstep

/-! ### The end can be reached -/

theorem exists_further (h : Course s₀ c u node x s) (hreq : Request s c u node n)
    (hstage : Stage (s₀.gw.sent u) u node x n s) (hnot : s.logic.task n ≠ .replaying [] []) :
    ∃ a s', s.Smooth c u node a ∧ Split.step replayCap hcap s a = some s' ∧
      a.request? = some n ∧ (s'.logic.task n).rest < (s.logic.task n).rest := by
  cases hstage with
  | requested token seq hup htask hkind htoken =>
    have hwanted := wanted_of_token (h.whole.filed node) h.byUID hreq.node hkind htoken
    obtain ⟨newToken, hfresh⟩ := (s.node n).exists_fresh
    refine ⟨.reconnect n newToken 0, ⟨s.gw, _⟩, ⟨trivial, fun _ _ _ _ => ⟨hreq.conn, hreq.uid⟩⟩,
      step_eq_some.mpr ⟨?_, ?_, rfl⟩, rfl, ?_⟩
    · refine ⟨hup, htask, fun hlogin => ?_, hfresh⟩
      cases hkind.symm.trans hlogin
    · simp only [acts, hwanted, reduceCtorEq, if_false, run_nil]
    · simp only [hwanted, Logic.setTask_task, update_self, htask]
      exact Prod.Lex.toLex_lt_toLex.mpr (.inl (by decide))
  | bound hup htask hvia =>
    refine ⟨.replay n true, ⟨{ s.gw with
      routes := update s.gw.routes ((s.node n).sess x).uid true }, _⟩, ⟨rfl, trivial⟩,
      step_eq_some.mpr ⟨?_, ?_, rfl⟩, rfl, ?_⟩
    · rw [Enabled, htask]
      rfl
    · simp only [acts, htask, if_true]
      rfl
    · simp only [htask, if_true, Logic.replay, Logic.setTask_task, update_self]
      exact Prod.Lex.toLex_lt_toLex.mpr (.inl (by decide))
  | replying reliable snapshots hup htask hframes hvia hroute =>
    refine ⟨.reply n true, ⟨s.gw.answer n true [], _⟩, ⟨rfl, trivial⟩,
      step_eq_some.mpr ⟨?_, ?_, rfl⟩, rfl, ?_⟩
    · rw [Enabled, htask]
      rfl
    · refine run_cons_eq_some.mpr ⟨s.gw.answer n true [], ?_, rfl⟩
      simp only [GatewayConnector.step, if_pos hup]
    · simp only [htask, Logic.setTask_task, update_self]
      exact Prod.Lex.toLex_lt_toLex.mpr (.inl Nat.zero_lt_one)
  | replaying done reliable snapshots htask hframes hvia hroute hsent =>
    obtain ⟨f, hnext, hlt⟩ : ∃ f, (s.logic.task n).next? = some f ∧
        ((s.logic.task n).advance true).rest < (s.logic.task n).rest := by
      rw [htask] at hnot ⊢
      cases reliable with
      | cons f reliable =>
        refine ⟨f, rfl, Prod.Lex.toLex_lt_toLex.mpr (.inr ⟨rfl, ?_⟩)⟩
        show reliable.length + snapshots.length < reliable.length + 1 + snapshots.length
        omega
      | nil =>
        cases snapshots with
        | cons f snapshots =>
          refine ⟨f, rfl, Prod.Lex.toLex_lt_toLex.mpr (.inr ⟨rfl, ?_⟩)⟩
          show 0 + snapshots.length < 0 + (snapshots.length + 1)
          omega
        | nil => exact absurd rfl hnot
    refine ⟨.sendNext n true, ⟨s.gw.send (s.gw.reqs n).uid [.data ⟨(s.gw.reqs n).node, f⟩], _⟩,
      ⟨rfl, trivial⟩, step_eq_some.mpr ⟨?_, ?_, rfl⟩, rfl, ?_⟩
    · rw [Enabled, hnext]
      exact some_ne_none f
    · simp only [acts, hnext, if_true]
      rfl
    · simp only [update_self]
      exact hlt

def Of (s₀ : Split) (c : Conn) (u node : String) (x n : ℕ) (s : Split) : Prop :=
  Course s₀ c u node x s ∧ (s.gw.conn c).serving.isOpen = true ∧ Request s c u node n ∧
    Stage (s₀.gw.sent u) u node x n s

variable (hu : u ≠ "") (huid : (s₀.gw.conn c).uid = u)

include hu huid

theorem exists_finished (h : Of s₀ c u node x n s) :
    ∃ s', Reaches (Split.step replayCap hcap) (Smooth c u node) s s' ∧
      Of s₀ c u node x n s' ∧ s'.logic.task n = .replaying [] [] := by
  refine exists_reaches (fun t => (t.logic.task n).rest) (fun t ht hnot => ?_) h
  obtain ⟨hcourse, hopen, hreq, hstage⟩ := ht
  obtain ⟨a, t', hok, hstep, ha, hlt⟩ := hcourse.exists_further hreq hstage hnot
  refine ⟨a, t', hok, hstep, ⟨hcourse.step hu huid hok hstep, ?_, hreq.step hok.1 hstep,
    hstage.own hcourse.whole hok.1 hstep hcourse.byUID hreq hcourse.sent ha⟩, hlt⟩
  rw [conn_of_step hok.1 hstep]
  · exact hopen
  · rintro b rfl
    cases ha

theorem exists_requested (h : Course s₀ c u node x s) (hopen : (s.gw.conn c).serving.isOpen = true)
    :
    ∃ s' n, Reaches (Split.step replayCap hcap) (Smooth c u node) s s' ∧ Of s₀ c u node x n s' := by
  rcases h.phase with ⟨token, seq, hask, htoken⟩ | ⟨n, hreq, hstage⟩
  · have hok : s.Smooth c u node (.gateway (.request c none)) := ⟨⟨trivial, trivial, rfl⟩, trivial⟩
    have hstep : Split.step replayCap hcap s (.gateway (.request c none)) =
        some ⟨s.gw.forward c (.reconnect token seq false) node [], s.logic⟩ := by
      refine step_eq_some.mpr ⟨rfl, run_cons_eq_some.mpr ⟨_, ?_, rfl⟩, rfl⟩
      simp only [GatewayConnector.step, hask]
    obtain ⟨hreq, hstage⟩ := requested_of_forward
      ⟨s.gw.forward c (.reconnect token seq false) node [], s.logic⟩
      (h.whole.idle _ le_rfl) (h.streams.uid.trans huid) rfl rfl htoken (s₀.gw.sent u)
    refine ⟨_, s.gw.nreq, .head hok hstep (.refl _), h.step hu huid hok hstep, ?_, hreq, hstage⟩
    rw [GatewayConnector.forward_conn, update_self]
    rfl
  · exact ⟨s, n, .refl s, h, hopen, hreq, hstage⟩

theorem exists_written (h : Of s₀ c u node x n s) :
    ∃ s', Reaches (Split.step replayCap hcap) (Smooth c u node) s s' ∧
      Of s₀ c u node x n s' ∧ s'.logic = s.logic ∧ s'.gw.inbox (fromNode node) c = [] := by
  obtain ⟨hcourse, hopen, hreq, hstage⟩ := h
  have hnamed : (s.gw.conn c).uid ≠ "" := by
    rw [hcourse.streams.uid, huid]
    exact hu
  obtain ⟨g, hreach, hopen', hnone⟩ := hcourse.whole.ordered.exists_drained hopen hnamed
  have hlift : Reaches (Split.step replayCap hcap)
      (fun t a => t.Smooth c u node a ∧ ∃ b, a = .gateway b) s ⟨g, s.logic⟩ := by
    refine hreach.lift (f := fun g : GatewayConnector LogicFrame => Split.mk g s.logic)
      (i := SplitAct.gateway) fun t b t' hb hstep => ?_
    refine ⟨⟨⟨hb.1, trivial⟩, b, rfl⟩, step_eq_some.mpr ⟨?_, ?_, rfl⟩⟩
    · rcases hb.2 with ⟨d, rfl⟩ | ⟨k, rfl⟩ | ⟨k, rfl⟩ <;> rfl
    · exact run_cons_eq_some.mpr ⟨t', hstep, rfl⟩
  obtain ⟨hcourse', hreq', hstage'⟩ := hlift.invariant
    (I := fun t => Course s₀ c u node x t ∧ Request t c u node n ∧
      Stage (s₀.gw.sent u) u node x n t)
    (fun t a t' ht ha hstep => by
      obtain ⟨hok, b, rfl⟩ := ha
      have hkeeps := keeps_of_step (ht.1.whole.filed node) hok.2 hstep ht.1.byUID
      refine ⟨ht.1.step hu huid hok hstep, ht.2.1.step hok.1 hstep,
        (ht.2.2.other hok.1 hok.2 hstep hkeeps ht.2.1 nofun).resolve_right ?_⟩
      rcases hkeeps.token with hsame | ⟨_, _, _, ha, -⟩
      · exact not_not.mpr hsame
      · cases ha) ⟨hcourse, hreq, hstage⟩
  exact ⟨_, hlift.mono fun _ _ ha => ha.1, ⟨hcourse', hopen', hreq', hstage'⟩, rfl, hnone⟩

end Course

/-! ### The result -/

/-- Connection `c` is the entry of the uid, under which pushes to session `x` and business frames
are sent. -/
structure Attached (replayCap : ℕ) (hcap : 0 < replayCap) (s : Split) (c : Conn) (u node : String)
    (x : ℕ) : Prop where
  entry : s.gw.conns u = some c
  business : (s.gw.conn c).serving = .reading →
    ∃ s', step replayCap hcap s (.gateway (.business c none)) = some s' ∧
      s'.gw.forwarded = s.gw.forwarded ++ [(c, u)]
  downlink : ∀ msgID body snapshot,
    ∃ s', step replayCap hcap s (.push node x msgID body snapshot true) = some s' ∧
      s'.gw.sent u = s.gw.sent u ++
        [.data ⟨node, ((s.logic.nodes node).sess x).next msgID body snapshot⟩]

/-- Since `s₀` the response to request `n` and the replayed frames have been written to `c`. -/
structure Resumed (replayCap : ℕ) (hcap : 0 < replayCap) (s₀ s : Split) (c : Conn)
    (u node : String) (x n : ℕ) : Prop where
  request : Request s c u node n
  received : ∃ new, s.gw.got (fromNode node) c =
      s₀.gw.got (fromNode node) c ++ s₀.gw.inbox (fromNode node) c ++ new ∧
    (.answer n true :: (s.logic.replays n).map fun f => .data ⟨node, f⟩).Sublist new
  attached : Attached replayCap hcap s c u node x

theorem Course.attached (h : Course s₀ c u node x s) (hu : u ≠ "")
    (huid : (s₀.gw.conn c).uid = u) (hopen : (s.gw.conn c).serving.isOpen = true)
    (hvia : ((s.logic.nodes node).sess x).via = some u) (hroute : s.gw.routes u = true) :
    Attached replayCap hcap s c u node x where
  entry := by
    have huid' := h.streams.uid.trans huid
    rw [← huid']
    exact h.whole.ordered.sole.own c hopen (huid' ▸ hu)
  business := by
    intro hread
    have huid' := h.streams.uid.trans huid
    refine ⟨⟨{ s.gw with forwarded := s.gw.forwarded ++ [(c, u)] }, s.logic⟩,
      step_eq_some.mpr ⟨rfl, run_cons_eq_some.mpr ⟨_, ?_, rfl⟩, rfl⟩, rfl⟩
    simp only [GatewayConnector.step, hread, huid', hu, hroute, if_true, if_false]
  downlink := by
    intro msgID body snapshot
    refine ⟨⟨s.gw.send u [.data ⟨node, ((s.logic.nodes node).sess x).next msgID body snapshot⟩],
      _⟩, step_eq_some.mpr ⟨trivial, ?_, rfl⟩, ?_⟩
    · simp only [acts, LogicSession.sendActs, hvia]
      rfl
    · exact update_self ..

theorem filter_replays (node : String) (n : ℕ) (frames : List Frame) :
    (Body.answer n true :: frames.map fun f => .data ⟨node, f⟩).filter (fromNode node) =
      .answer n true :: frames.map fun f => .data ⟨node, f⟩ := by
  rw [filter_eq_self]
  intro b hb
  rcases mem_cons.mp hb with rfl | hb
  · rfl
  · obtain ⟨f, -, rfl⟩ := mem_map.mp hb
    exact decide_eq_true rfl

theorem Course.resumed (hu : u ≠ "") (huid : (s₀.gw.conn c).uid = u)
    (h : Course.Of s₀ c u node x n s) (htask : s.logic.task n = .replaying [] [])
    (hnone : s.gw.inbox (fromNode node) c = []) : Resumed replayCap hcap s₀ s c u node x n := by
  obtain ⟨hcourse, hopen, hreq, hstage⟩ := h
  cases hstage with
  | requested _ _ _ htask' | bound _ htask' | replying _ _ _ htask' => cases htask.symm.trans htask'
  | replaying done reliable snapshots htask' hframes hvia hroute hsent =>
    cases htask.symm.trans htask'
    rw [append_nil, append_nil] at hframes
    subst hframes
    refine ⟨hreq, ?_, hcourse.attached hu huid hopen hvia hroute⟩
    obtain ⟨new, hnew, hsub⟩ := hsent
    obtain ⟨new', hnew', hstream⟩ := hcourse.streams.stream hopen
    rw [huid, hnew] at hnew'
    obtain rfl := append_cancel_left hnew'
    rw [hnone, append_nil] at hstream
    refine ⟨new.filter (fromNode node), hstream, ?_⟩
    rw [← filter_replays]
    exact hsub.filter _

theorem course_of_token {s₁ : Split} {seq : UInt32} {nodes : List String}
    (hw : Whole (fromNode node) s) (hread : (s.gw.conn c).serving = .reading)
    (huid : (s.gw.conn c).uid = u) (hu : u ≠ "") (hnode : node ≠ "" ∧ ':' ∉ node.toList)
    (hlive : (s.logic.nodes node).byUID u = some x)
    (htoken : step replayCap hcap s (.gateway (.reconnect c
      (node ++ ":" ++ ((s.logic.nodes node).sess x).token) seq nodes)) = some s₁) :
    Course s c u node x s₁ := by
  have hok : s.Steady (fromNode node) (.gateway (.reconnect c
      (node ++ ":" ++ ((s.logic.nodes node).sess x).token) seq nodes)) :=
    ⟨trivial, trivial, trivial⟩
  obtain ⟨-, hrun, hlogic⟩ := step_eq_some.mp htoken
  obtain ⟨g, hg, hlast⟩ := run_cons_eq_some.mp hrun
  cases hlast
  have hlogic' : s₁.logic = s.logic := hlogic
  have hstart : GatewayConnector.Streams (fromNode node) s.gw c s.gw := by
    refine ⟨hw.ordered.shaken.basic.mem_of_reading hread rfl, rfl, fun _ => ⟨[], ?_, ?_⟩⟩
    · rw [append_nil]
    · rw [filter_nil, append_nil]
  refine ⟨hw.step hok htoken, hstart.step (huid ▸ hu) hw.ordered hok hg, ?_,
    sent_of_step hok htoken u,
    .inl ⟨node ++ ":" ++ ((s.logic.nodes node).sess x).token, seq, ?_, ?_⟩⟩
  · rw [hlogic']
    exact hlive
  · simp only [GatewayConnector.step, hread, if_true,
      parseNodeIDFromToken_append hnode.1 hnode.2] at hg
    rw [← some.inj hg, GatewayConnector.turn_conn, update_self]
    rfl
  · rw [hlogic', stripNodeIDPrefix_append node ((hw.filed node).token_ne hlive)]

/-- **A client comes back**, if a connection that has named the uid of a live session sends its
token, and nobody else takes the session over. What is written to it is what is sent for the uid, in
order; a request with the token succeeds, and the connection acts for the uid; and response and
replay can be written. -/
theorem reconnect_resumes {acts acts' : List SplitAct} {s₁ : Split} {seq : UInt32}
    {nodes : List String} (hrun : run (step replayCap hcap) newSplit acts = some s)
    (hsteady : Along (step replayCap hcap) (Steady (fromNode node)) newSplit acts)
    (hread : (s.gw.conn c).serving = .reading) (huid : (s.gw.conn c).uid = u) (hu : u ≠ "")
    (hnode : node ≠ "" ∧ ':' ∉ node.toList) (hlive : (s.logic.nodes node).byUID u = some x)
    (htoken : step replayCap hcap s (.gateway (.reconnect c
      (node ++ ":" ++ ((s.logic.nodes node).sess x).token) seq nodes)) = some s₁)
    (hrun' : run (step replayCap hcap) s₁ acts' = some s')
    (hsmooth : Along (step replayCap hcap) (Smooth c u node) s₁ acts')
    (hopen : (s'.gw.conn c).serving.isOpen = true) :
    (∃ new, s'.gw.sent u = s.gw.sent u ++ new ∧
      s'.gw.got (fromNode node) c ++ s'.gw.inbox (fromNode node) c =
        s.gw.got (fromNode node) c ++ s.gw.inbox (fromNode node) c ++ new.filter (fromNode node)) ∧
    (s'.Asking c node x ∨ ∃ n, Request s' c u node n ∧ (n ∈ s'.gw.up ∨
      .answer n true ∈ s'.gw.sent u ∧ Attached replayCap hcap s' c u node x)) ∧
    ∃ s'' n, Reaches (step replayCap hcap) (Smooth c u node) s' s'' ∧
      Resumed replayCap hcap s s'' c u node x n := by
  have hw : Whole (fromNode node) s := invariant_of_run
    (fun _ _ _ hw hok hstep => hw.step hok hstep) whole_newSplit hsteady hrun
  have h : Course s c u node x s' := invariant_of_run
    (fun _ _ _ h hok hstep => h.step hu huid hok hstep)
    (course_of_token hw hread huid hu hnode hlive htoken) hsmooth hrun'
  refine ⟨?_, ?_, ?_⟩
  · rw [← huid]
    exact h.streams.stream hopen
  · rcases h.phase with hask | ⟨n, hreq, hstage⟩
    · exact .inl hask
    · refine .inr ⟨n, hreq, ?_⟩
      cases hstage with
      | requested token seq hup | bound hup | replying reliable snapshots hup => exact .inl hup
      | replaying done reliable snapshots htask hframes hvia hroute hsent =>
        obtain ⟨new, hnew, hsub⟩ := hsent
        refine .inr ⟨?_, h.attached hu huid hopen hvia hroute⟩
        rw [hnew]
        exact mem_append_right _ (hsub.subset mem_cons_self)
  · obtain ⟨s₂, n, hreach, hs₂⟩ := h.exists_requested hu huid hopen
    obtain ⟨s₃, hreach₃, hs₃, htask⟩ := Course.exists_finished hu huid hs₂
    obtain ⟨s₄, hreach₄, hs₄, hlogic, hnone⟩ := Course.exists_written hu huid hs₃
    refine ⟨s₄, n, hreach.trans (hreach₃.trans hreach₄), Course.resumed hu huid hs₄ ?_ hnone⟩
    rw [hlogic]
    exact htask

/-- Alice logs in on the first TCP connection, and a frame is pushed. -/
def aliceActs : List SplitAct :=
  [.gateway (.accept .tcp), .gateway (.login ⟨.tcp, 1⟩ "alice" (some "n1")),
    .gateway (.request ⟨.tcp, 1⟩ none), .login 0 "t0" 0 [] true true, .gateway (.load 0),
    .gateway (.deliver 0), .gateway (.wake ⟨.tcp, 1⟩ true), .push "n1" 0 7 [1] false true,
    .gateway (.load 0), .gateway (.deliver 0)]

def tokenAct (c : Conn) : SplitAct := .gateway (.reconnect c "n1:t0" 0 [])

/-- The request is forwarded, and the node answers it and replays the frame. -/
def resumeActs (c : Conn) : List SplitAct :=
  [.gateway (.request c none), .reconnect 1 "t1" 0, .replay 1 true, .reply 1 true, .sendNext 1 true]

theorem reconnect_resumes_alice : ∃ s s₁ s', run (step 4 (by decide)) newSplit aliceActs = some s ∧
    step 4 (by decide) s (tokenAct ⟨.tcp, 1⟩) = some s₁ ∧
    run (step 4 (by decide)) s₁ (resumeActs ⟨.tcp, 1⟩) = some s' ∧
    ∃ s'' n, Reaches (step 4 (by decide)) (Smooth ⟨.tcp, 1⟩ "alice" "n1") s' s'' ∧
      Resumed 4 (by decide) s s'' ⟨.tcp, 1⟩ "alice" "n1" 0 n := by
  obtain ⟨s, hrun, hread, huid, hlive, htoken, hsmooth, hend⟩ := exists_of_run
    (step 4 (by decide)) newSplit aliceActs
    (fun s => (s.gw.conn ⟨.tcp, 1⟩).serving = .reading ∧ (s.gw.conn ⟨.tcp, 1⟩).uid = "alice" ∧
      (s.logic.nodes "n1").byUID "alice" = some 0 ∧
      ((s.logic.nodes "n1").sess 0).token = "t0" ∧
      Along (step 4 (by decide)) (Smooth ⟨.tcp, 1⟩ "alice" "n1") s
        (tokenAct ⟨.tcp, 1⟩ :: resumeActs ⟨.tcp, 1⟩) ∧
      (run (step 4 (by decide)) s (tokenAct ⟨.tcp, 1⟩ :: resumeActs ⟨.tcp, 1⟩)).any
        (fun s' => decide ((s'.gw.conn ⟨.tcp, 1⟩).serving.isOpen = true)) = true)
    (by decide +kernel)
  obtain ⟨s', hrun', hopen⟩ := exists_of_run _ _ _ _ hend
  obtain ⟨s₁, hstep, hrun'⟩ := run_cons_eq_some.mp hrun'
  refine ⟨s, s₁, s', hrun, hstep, hrun', ?_⟩
  exact (reconnect_resumes hrun (by decide +kernel) hread huid (by decide) (by decide) hlive
    (by rw [htoken]; exact hstep) hrun' (hsmooth.2 s₁ hstep) hopen).2.2

/-- Alice loses the first connection and sends the token on a second one. -/
def newConnActs : List SplitAct :=
  aliceActs ++ [SplitAct.gateway (.disconnect ⟨.tcp, 1⟩), .gateway (.cleanup ⟨.tcp, 1⟩),
    .gateway (.accept .tcp), tokenAct ⟨.tcp, 2⟩] ++ resumeActs ⟨.tcp, 2⟩ ++
    [SplitAct.gateway (.load 0), .gateway (.load 0)]

/-- Alice sends the token on a second connection: it becomes invalid, and nothing is written. On the
first one, a replayed frame can be written before the response. -/
theorem reconnect_lost : Along (step 4 (by decide)) (Steady (fromNode "n1")) newSplit newConnActs ∧
    (∃ s, run (step 4 (by decide)) newSplit newConnActs = some s ∧
      s.logic.task 1 = .replaying [] [] ∧ (s.logic.replays 1).length = 1 ∧
      (s.gw.down = [] ∧ s.gw.handling = [] ∧ s.gw.chan 1 = none) ∧
      (s.logic.nodes "n1").withToken "t0" = none ∧
      (s.gw.conn ⟨.tcp, 2⟩).serving = .waiting 1 [] ∧ (s.gw.conn ⟨.tcp, 2⟩).written = []) ∧
    ∃ s, run (step 4 (by decide)) newSplit (aliceActs ++ [tokenAct ⟨.tcp, 1⟩] ++
        resumeActs ⟨.tcp, 1⟩ ++
        [.gateway (.load 0), .gateway (.deliver 0), .gateway (.load 0), .gateway (.deliver 0),
          .gateway (.wake ⟨.tcp, 1⟩ true)]) = some s ∧
      (s.gw.conn ⟨.tcp, 1⟩).received.drop 2 =
        ((s.logic.replays 1).map fun f => .data ⟨"n1", f⟩) ++ [.answer 1 true] ∧
      s.logic.replays 1 ≠ [] :=
  ⟨by decide +kernel, exists_of_run _ _ _
      (fun s : Split => s.logic.task 1 = _ ∧ _ ∧ (_ ∧ _ ∧ _) ∧ _ ∧ _ ∧ _) (by decide +kernel),
    exists_of_run _ _ _ (fun s : Split => _ = _ ∧ _) (by decide +kernel)⟩

end Split

end RanGame.App
