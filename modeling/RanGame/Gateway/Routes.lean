import RanGame.Lib.Keyspace
import RanGame.Lib.Machine
import RanGame.Protocol.Schema

/-!
# The route table on Redis

`internal/gateway/route_redis.go`, and the in-process table of `gateway.go` that it stands in for.
The route of a player is a string under `cluster:route:` and the uid; each node has a set of uids
under `cluster:route:node:` and its ID. Two atomic Lua scripts keep them together. Uids are chosen
by clients, and the route of `node:x` has the key of the set of node `x`.
-/

namespace RanGame.Gateway

open Function Machine List Keyspace Protocol

/-! ### The scripts -/

def routeKeyPrefix : Bytes := ascii "cluster:route:"

def routeNodePrefix : Bytes := ascii "cluster:route:node:"

def routeKey (uid : Bytes) : Bytes := routeKeyPrefix ++ uid

/-- The key of the set of uids that are on a node. -/
def nodeKey (nodeID : Bytes) : Bytes := routeNodePrefix ++ nodeID

/-- The first part of `luaBind`: a uid that was on another node leaves its set. -/
def leaveOld (nodeSetPrefix uid nodeID : Bytes) : Option Bytes → Script Bytes Unit
  | some old => if old ≠ nodeID then srem (nodeSetPrefix ++ old) uid else pure ()
  | none => pure ()

def luaBind (key setKey uid nodeID : Bytes) (ttl : ℤ) (nodeSetPrefix : Bytes) : Script Bytes ℕ := do
  let old ← Keyspace.get key
  leaveOld nodeSetPrefix uid nodeID old
  Keyspace.set key nodeID ttl
  sadd setKey uid
  expire setKey ttl
  return 1

def luaUnbind (key setKey uid nodeID : Bytes) : Script Bytes ℕ := do
  let cur ← Keyspace.get key
  if cur = some nodeID then
    del key
    srem setKey uid
    return 1
  else return 0

/-! ### The tables on Redis -/

/-- Durations and times are in nanoseconds. -/
def second : ℤ := 1000000000

def routeCacheTTL : ℤ := 3 * second

/-- The time to live in seconds, a day if not set. The float may come out one higher after months.
-/
def ttlSeconds (ttl : ℤ) : ℤ := (if ttl ≤ 0 then 24 * 3600 * second else ttl) / second

structure CacheEntry where
  nodeID : Bytes
  expireAt : ℤ
  deriving DecidableEq

inductive RouteError
  /-- `gateway: uid not routed` -/
  | notRouted
  /-- `route lookup: %w` -/
  | lookup (e : Failure)
  /-- `route bind: %w` -/
  | bind (e : Failure)
  deriving DecidableEq

/-- The server, and the caches of the tables that use it. -/
structure RouteTables (ι : Type) where
  db : Keyspace Bytes
  cache : ι → PartialMap Bytes CacheEntry

namespace RouteTables

variable {ι : Type} [DecidableEq ι] (s : RouteTables ι)

def setCache (i : ι) (c : PartialMap Bytes CacheEntry) : RouteTables ι :=
  { s with cache := update s.cache i c }

/-- `Lookup`: a live entry of the cache, or what Redis says, which goes into the cache. -/
def lookup (i : ι) (now : ℤ) (uid : Bytes) : RouteTables ι × Except RouteError Bytes :=
  match (s.cache i uid).filter fun e => now < e.expireAt with
  | some e => (s, .ok e.nodeID)
  | none =>
    match (Keyspace.get (routeKey uid)).run s.db with
    | .ok none _ => (s, .error .notRouted)
    | .error e _ => (s, .error (.lookup e))
    | .ok (some nodeID) _ =>
      (s.setCache i ((s.cache i).insert uid ⟨nodeID, now + routeCacheTTL⟩), .ok nodeID)

def bind (ttl : ℤ) (uid nodeID : Bytes) : RouteTables ι × Except RouteError Unit :=
  match (luaBind (routeKey uid) (nodeKey nodeID) uid nodeID (ttlSeconds ttl) routeNodePrefix).run
    s.db with
  | .ok _ db => ({ s with db := db }, .ok ())
  | .error e db => ({ s with db := db }, .error (.bind e))

/-- `Unbind`, with the error that it drops. -/
def unbind (i : ι) (uid nodeID : Bytes) : RouteTables ι × Option Failure :=
  match (luaUnbind (routeKey uid) (nodeKey nodeID) uid nodeID).run s.db with
  | .ok _ db => ({ s with db := db }.setCache i ((s.cache i).erase uid), none)
  | .error e db => ({ s with db := db }.setCache i ((s.cache i).erase uid), some e)

/-- `Invalidate`, with the error that it drops. It needs to read the set. -/
def invalidate (i : ι) (nodeID : Bytes) : RouteTables ι × Option Failure :=
  match (smembers (nodeKey nodeID)).run s.db with
  | .error e _ => (s, some e)
  | .ok uids db =>
    let cache := fun uid => (s.cache i uid).filter fun e => e.nodeID ≠ nodeID
    match (delAll (uids.map routeKey ++ [nodeKey nodeID])).run db with
    | .ok _ db => ({ s with db := db }.setCache i cache, none)
    | .error e db => ({ s with db := db }.setCache i cache, some e)

end RouteTables

/-! ### The table in the process -/

abbrev MemRouteTable := PartialMap Bytes Bytes

namespace MemRouteTable

variable (routes : MemRouteTable)

def lookup (uid : Bytes) : Except RouteError Bytes :=
  match routes uid with
  | none => .error .notRouted
  | some nodeID => .ok nodeID

def bind (uid nodeID : Bytes) : MemRouteTable := routes.insert uid nodeID

/-- `Unbind`. A uid without a route reads as the empty string. -/
def unbind (uid nodeID : Bytes) : MemRouteTable :=
  if (routes uid).getD [] = nodeID then routes.erase uid else routes

def invalidate (nodeID : Bytes) : MemRouteTable :=
  fun uid => if routes uid = some nodeID then none else routes uid

end MemRouteTable

/-! ### What callers see -/

/-- A call of one of the tables, at some time where that matters. -/
inductive RouteCall (ι : Type)
  | lookup (i : ι) (now : ℤ) (uid : Bytes)
  | bind (uid nodeID : Bytes)
  | unbind (i : ι) (uid nodeID : Bytes)
  | invalidate (i : ι) (nodeID : Bytes)

/-- The result of a call; `Unbind` and `Invalidate` have none, or a dropped error. -/
inductive RouteAnswer
  | lookup (r : Except RouteError Bytes)
  | bind (r : Except RouteError Unit)
  | dropped (e : Option Failure)
  deriving DecidableEq

/-- A call has failed if Redis has refused something. -/
def RouteAnswer.Failed : RouteAnswer → Prop
  | .lookup r => ∃ e, r = .error (.lookup e)
  | .bind r => ∃ e, r = .error e
  | .dropped e => e ≠ none

def RouteCall.uid {ι : Type} : RouteCall ι → Option Bytes
  | .lookup _ _ uid | .bind uid _ | .unbind _ uid _ => some uid
  | .invalidate _ _ => none

def RouteCall.nodeID {ι : Type} : RouteCall ι → Option Bytes
  | .bind _ nodeID | .unbind _ _ nodeID | .invalidate _ nodeID => some nodeID
  | .lookup _ _ _ => none

/-- No uid that is used is `node:` and the ID of a node that is used. -/
def Separate {ι : Type} (calls : List (RouteCall ι)) : Prop :=
  ∀ a ∈ calls, ∀ uid ∈ a.uid, ∀ b ∈ calls, ∀ nodeID ∈ b.nodeID, uid ≠ ascii "node:" ++ nodeID

instance {ι : Type} (calls : List (RouteCall ι)) : Decidable (Separate calls) :=
  inferInstanceAs (Decidable (∀ a ∈ calls, ∀ uid ∈ a.uid, ∀ b ∈ calls, ∀ nodeID ∈ b.nodeID, _ ≠ _))

def RouteTables.call {ι : Type} [DecidableEq ι] (ttl : ℤ) (s : RouteTables ι) :
    RouteCall ι → RouteTables ι × RouteAnswer
  | .lookup i now uid => ((s.lookup i now uid).1, .lookup (s.lookup i now uid).2)
  | .bind uid nodeID => ((s.bind ttl uid nodeID).1, .bind (s.bind ttl uid nodeID).2)
  | .unbind i uid nodeID => ((s.unbind i uid nodeID).1, .dropped (s.unbind i uid nodeID).2)
  | .invalidate i nodeID => ((s.invalidate i nodeID).1, .dropped (s.invalidate i nodeID).2)

def MemRouteTable.call {ι : Type} (routes : MemRouteTable) :
    RouteCall ι → MemRouteTable × RouteAnswer
  | .lookup _ _ uid => (routes, .lookup (routes.lookup uid))
  | .bind uid nodeID => (routes.bind uid nodeID, .bind (.ok ()))
  | .unbind _ uid nodeID => (routes.unbind uid nodeID, .dropped none)
  | .invalidate _ nodeID => (routes.invalidate nodeID, .dropped none)

/-- The table that is asked has nothing in its cache that it would answer from. -/
def RouteTables.Cold {ι : Type} (s : RouteTables ι) : RouteCall ι → Prop
  | .lookup i now uid => ∀ e ∈ s.cache i uid, e.expireAt ≤ now
  | _ => True

instance {ι : Type} (s : RouteTables ι) : ∀ c : RouteCall ι, Decidable (s.Cold c)
  | .lookup i now uid => inferInstanceAs (Decidable (∀ e ∈ s.cache i uid, e.expireAt ≤ now))
  | .bind _ _ | .unbind _ _ _ | .invalidate _ _ => inferInstanceAs (Decidable True)

/-! ### Where keys do not meet -/

theorem routeKey_injective : Injective routeKey := append_right_injective _

theorem nodeKey_injective : Injective nodeKey := append_right_injective _

/-- The set of a node is where the route of `node:` and its ID would be. -/
theorem nodeKey_eq_routeKey (nodeID : Bytes) :
    nodeKey nodeID = routeKey (ascii "node:" ++ nodeID) := by
  rw [nodeKey, routeKey, ← append_assoc]
  rfl

/-- Names of uids and nodes whose keys do not meet. -/
structure Names where
  uids : Set Bytes
  nodes : Set Bytes
  separate : ∀ uid ∈ uids, ∀ nodeID ∈ nodes, routeKey uid ≠ nodeKey nodeID

/-- The server has the routes and the sets, as far as the names go. -/
structure Represents (names : Names) (routes : MemRouteTable) (index : Bytes → Set Bytes)
    (db : Keyspace Bytes) : Prop where
  route : ∀ uid ∈ names.uids, db (routeKey uid) = (routes uid).map .str
  set : ∀ nodeID ∈ names.nodes, ∃ l, db.setAt (nodeKey nodeID) = some l ∧
    ∀ uid, uid ∈ l ↔ uid ∈ index nodeID

namespace Represents

variable {names : Names} {routes : MemRouteTable} {index : Bytes → Set Bytes}
  {db db' : Keyspace Bytes} {uid nodeID : Bytes}

theorem update_route (h : Represents names routes index db) (huid : uid ∈ names.uids)
    (r : Option Bytes) :
    Represents names (update routes uid r) index (update db (routeKey uid) (r.map .str)) where
  route := by
    intro u hu
    by_cases heq : u = uid
    · subst heq
      rw [update_self, update_self]
    · rw [update_of_ne heq, update_of_ne (routeKey_injective.ne heq)]
      exact h.route u hu
  set := by
    intro n hn
    rw [setAt_congr (update_of_ne (names.separate uid huid n hn).symm ..)]
    exact h.set n hn

theorem update_set (h : Represents names routes index db) (hnode : nodeID ∈ names.nodes)
    (hother : ∀ j, j ≠ nodeKey nodeID → db' j = db j) {S : Set Bytes}
    (hset : ∃ l, db'.setAt (nodeKey nodeID) = some l ∧ ∀ uid, uid ∈ l ↔ uid ∈ S) :
    Represents names routes (update index nodeID S) db' where
  route := by
    intro u hu
    rw [hother _ (names.separate u hu nodeID hnode)]
    exact h.route u hu
  set := by
    intro n hn
    by_cases heq : n = nodeID
    · subst heq
      rwa [update_self]
    · rw [update_of_ne heq, setAt_congr (hother _ (nodeKey_injective.ne heq))]
      exact h.set n hn

end Represents

/-! ### The sets are the routes by node -/

/-- The uids that are routed to a node. -/
def indexOf (routes : MemRouteTable) (nodeID : Bytes) : Set Bytes :=
  {uid | routes uid = some nodeID}

/-- The same, but a uid that is to go to a node is on no other one. -/
def indexFor (routes : MemRouteTable) (uid nodeID : Bytes) (n : Bytes) : Set Bytes :=
  {u | routes u = some n ∧ (u = uid → n = nodeID)}

section index

variable {names : Names} {routes : MemRouteTable} {db : Keyspace Bytes} {uid nodeID : Bytes}

theorem indexFor_eq_indexOf (h : ∀ old, routes uid = some old → old = nodeID) :
    indexFor routes uid nodeID = indexOf routes := by
  funext n
  ext u
  show routes u = some n ∧ (u = uid → n = nodeID) ↔ routes u = some n
  refine ⟨fun hu => hu.1, fun hu => ⟨hu, ?_⟩⟩
  rintro rfl
  exact h n hu

theorem update_indexOf {old : Bytes} (hold : routes uid = some old) (hne : old ≠ nodeID) :
    update (indexOf routes) old {u | u ≠ uid ∧ u ∈ indexOf routes old}
      = indexFor routes uid nodeID := by
  funext n
  ext u
  show _ ↔ routes u = some n ∧ (u = uid → n = nodeID)
  by_cases hn : n = old
  · subst hn
    rw [update_self]
    show u ≠ uid ∧ routes u = some n ↔ _
    constructor
    · rintro ⟨hu, hroute⟩
      exact ⟨hroute, fun heq => absurd heq hu⟩
    · rintro ⟨hroute, hu⟩
      exact ⟨fun heq => hne (hu heq), hroute⟩
  · rw [update_of_ne hn]
    show routes u = some n ↔ _
    refine ⟨fun hroute => ⟨hroute, ?_⟩, fun h => h.1⟩
    rintro rfl
    exact absurd (Option.some.inj (hroute.symm.trans hold)) hn

theorem update_indexFor : update (indexFor routes uid nodeID) nodeID
        {u | u = uid ∨ u ∈ indexFor routes uid nodeID nodeID}
      = indexOf (routes.insert uid nodeID) := by
  funext n
  ext u
  show _ ↔ routes.insert uid nodeID u = some n
  rw [PartialMap.insert_eq_some]
  by_cases hn : n = nodeID
  · subst hn
    rw [update_self]
    show u = uid ∨ routes u = some n ∧ (u = uid → n = n) ↔ _
    by_cases hu : u = uid <;> simp [hu]
  · rw [update_of_ne hn]
    show routes u = some n ∧ (u = uid → n = nodeID) ↔ _
    by_cases hu : u = uid <;> simp [hu, hn, Ne.symm hn]

theorem update_indexOf_erase (h : routes uid = some nodeID) :
    update (indexOf routes) nodeID {u | u ≠ uid ∧ u ∈ indexOf routes nodeID}
      = indexOf (routes.erase uid) := by
  funext n
  ext u
  show _ ↔ routes.erase uid u = some n
  rw [PartialMap.erase_eq_some]
  by_cases hn : n = nodeID
  · subst hn
    rw [update_self]
    rfl
  · rw [update_of_ne hn]
    show routes u = some n ↔ _
    refine ⟨fun hu => ⟨?_, hu⟩, fun hu => hu.2⟩
    rintro rfl
    exact hn (Option.some.inj (hu.symm.trans h))

theorem update_indexOf_invalidate :
    update (indexOf routes) nodeID ∅ = indexOf (routes.invalidate nodeID) := by
  funext n
  ext u
  show _ ↔ routes.invalidate nodeID u = some n
  rw [MemRouteTable.invalidate]
  by_cases hn : n = nodeID
  · subst hn
    rw [update_self]
    by_cases hu : routes u = some n <;> simp [hu]
  · rw [update_of_ne hn]
    show routes u = some n ↔ _
    by_cases hu : routes u = some nodeID
    · simp [hu, Ne.symm hn]
    · simp [hu]

end index

/-- The server has the routes, and the set of each node is the uids that are routed to it. -/
structure Indexed (names : Names) (routes : MemRouteTable) (db : Keyspace Bytes) : Prop where
  represents : Represents names routes (indexOf routes) db
  known : ∀ uid nodeID, routes uid = some nodeID → uid ∈ names.uids ∧ nodeID ∈ names.nodes

namespace Indexed

variable {names : Names} {routes : MemRouteTable} {db : Keyspace Bytes} {uid nodeID : Bytes}

theorem of_forall_none (h : ∀ uid, db (routeKey uid) = none) :
    Indexed names (fun _ => none) db where
  represents := by
    refine ⟨fun uid _ => h uid, fun nodeID _ => ⟨[], ?_, fun uid => ?_⟩⟩
    · exact setAt_of_none (by rw [nodeKey_eq_routeKey, h])
    · simp [indexOf]
  known uid nodeID hroute := by cases hroute

variable (h : Indexed names routes db)

include h

theorem ensures_leaveOld (uid nodeID : Bytes) :
    Ensures (leaveOld routeNodePrefix uid nodeID (routes uid)) db fun _ db' =>
      Represents names routes (indexFor routes uid nodeID) db' := by
  cases hold : routes uid with
  | none =>
    have hindex : indexFor routes uid nodeID = indexOf routes :=
      indexFor_eq_indexOf fun old hsome => by rw [hold] at hsome; cases hsome
    refine ensures_pure ?_
    rw [hindex]
    exact h.represents
  | some old =>
    rw [leaveOld]
    by_cases hne : old = nodeID
    · have hindex : indexFor routes uid nodeID = indexOf routes := by
        refine indexFor_eq_indexOf fun o hsome => ?_
        rw [hold] at hsome
        exact (Option.some.inj hsome).symm.trans hne
      rw [if_neg (not_not.mpr hne), hindex]
      exact ensures_pure h.represents
    · have hknown := (h.known uid old hold).2
      obtain ⟨l, hl, hmem⟩ := h.represents.set old hknown
      rw [if_pos hne, ← update_indexOf hold hne]
      refine ensures_srem hl fun db' hother ⟨l', hl', hmem'⟩ => ?_
      refine h.represents.update_set hknown hother ⟨l', hl', fun u => ?_⟩
      rw [hmem', hmem]
      rfl

/-- **`luaBind` binds**: it does not fail, and the sets stay the routes by node. -/
theorem ensures_luaBind (huid : uid ∈ names.uids) (hnode : nodeID ∈ names.nodes) {ttl : ℤ}
    (httl : 0 < ttl) :
    Ensures (luaBind (routeKey uid) (nodeKey nodeID) uid nodeID ttl routeNodePrefix) db
      fun _ db' => Indexed names (routes.bind uid nodeID) db' := by
  have hknown : ∀ u n, routes.insert uid nodeID u = some n → u ∈ names.uids ∧ n ∈ names.nodes := by
    intro u n hroute
    obtain ⟨rfl, rfl⟩ | ⟨-, hroute⟩ := PartialMap.insert_eq_some.mp hroute
    · exact ⟨huid, hnode⟩
    · exact h.known u n hroute
  refine ensures_bind (ensures_get (h.represents.route uid huid) ?_)
  refine (h.ensures_leaveOld uid nodeID).bind fun _ db₁ hleft => ?_
  refine ensures_bind (ensures_set httl ?_)
  have hset := hleft.update_route huid (some nodeID)
  obtain ⟨l, hl, hmem⟩ := hset.set nodeID hnode
  refine ensures_bind (ensures_sadd hl fun db₂ hother ⟨l', hl', hmem'⟩ => ?_)
  refine ensures_bind (ensures_expire httl (ensures_pure ⟨?_, hknown⟩))
  show Represents names (routes.insert uid nodeID) (indexOf (routes.insert uid nodeID)) db₂
  rw [← update_indexFor]
  refine hset.update_set hnode hother ⟨l', hl', fun u => ?_⟩
  rw [hmem', hmem]
  rfl

/-- **`luaUnbind` unbinds** a uid that is on the node. -/
theorem ensures_luaUnbind (huid : uid ∈ names.uids) (hnode : nodeID ∈ names.nodes) :
    Ensures (luaUnbind (routeKey uid) (nodeKey nodeID) uid nodeID) db
      fun _ db' => Indexed names (routes.unbind uid nodeID) db' := by
  refine ensures_bind (ensures_get (h.represents.route uid huid) ?_)
  by_cases hcur : routes uid = some nodeID
  · have hunbind : routes.unbind uid nodeID = routes.erase uid := by
      rw [MemRouteTable.unbind, hcur, Option.getD_some, if_pos rfl]
    have hknown : ∀ u n, routes.erase uid u = some n → u ∈ names.uids ∧ n ∈ names.nodes :=
      fun u n hroute => h.known u n (PartialMap.erase_eq_some.mp hroute).2
    have herase := h.represents.update_route huid none
    obtain ⟨l, hl, hmem⟩ := herase.set nodeID hnode
    rw [if_pos hcur, hunbind]
    refine ensures_bind (ensures_del (ensures_bind ?_))
    refine ensures_srem hl fun db' hother ⟨l', hl', hmem'⟩ => ensures_pure ⟨?_, hknown⟩
    rw [← update_indexOf_erase hcur]
    refine herase.update_set hnode hother ⟨l', hl', fun u => ?_⟩
    rw [hmem', hmem]
    rfl
  · have hunbind : routes.unbind uid nodeID = routes := by
      rw [MemRouteTable.unbind]
      split
      next hempty =>
        -- Without a route, the empty node ID is taken for the route, and there is none to erase.
        cases hroute : routes uid with
        | none => exact update_eq_self_iff.mpr hroute.symm
        | some n =>
          rw [hroute] at hempty hcur
          exact absurd (congrArg some hempty) hcur
      · rfl
    rw [if_neg hcur, hunbind]
    exact ensures_pure h

/-- The pipeline of `Invalidate` deletes the routes of the node, and its set. -/
theorem ensures_pipeline (hnode : nodeID ∈ names.nodes) {uids : List Bytes}
    (huids : ∀ uid, uid ∈ uids ↔ uid ∈ indexOf routes nodeID) :
    Ensures (delAll (uids.map routeKey ++ [nodeKey nodeID])) db
      fun _ db' => Indexed names (routes.invalidate nodeID) db' := by
  refine ensures_delAll fun db' hdb' => ⟨?_, ?_⟩
  · rw [← update_indexOf_invalidate]
    refine ⟨fun u hu => ?_, fun n hn => ?_⟩
    · have hmem : routeKey u ∈ uids.map routeKey ++ [nodeKey nodeID] ↔ routes u = some nodeID := by
        rw [mem_append, mem_map_of_injective routeKey_injective, huids,
          mem_singleton, or_iff_left (names.separate u hu nodeID hnode)]
        rfl
      rw [hdb', MemRouteTable.invalidate]
      by_cases hroute : routes u = some nodeID
      · rw [if_pos (hmem.mpr hroute), if_pos hroute]
        rfl
      · rw [if_neg (mt hmem.mp hroute), if_neg hroute]
        exact h.represents.route u hu
    · by_cases heq : n = nodeID
      · subst heq
        refine ⟨[], setAt_of_none ?_, fun u => ?_⟩
        · rw [hdb', if_pos (mem_append_right _ (mem_singleton_self _))]
        · rw [update_self]
          simp
      · have hkey : nodeKey n ∉ uids.map routeKey ++ [nodeKey nodeID] := by
          intro hmem
          rcases mem_append.mp hmem with hmem | hmem
          · obtain ⟨u, hu, hkey⟩ := mem_map.mp hmem
            exact names.separate u (h.known u nodeID ((huids u).mp hu)).1 n hn hkey
          · exact heq (nodeKey_injective (mem_singleton.mp hmem))
        have hsame : db' (nodeKey n) = db (nodeKey n) := by rw [hdb', if_neg hkey]
        rw [update_of_ne heq, setAt_congr hsame]
        exact h.represents.set n hn
  · intro u n hroute
    obtain ⟨-, hroute⟩ := Option.ite_none_left_eq_some.mp hroute
    exact h.known u n hroute

end Indexed

/-! ### The tables answer as one -/

theorem ttlSeconds_pos {ttl : ℤ} (h : ttl ≤ 0 ∨ second ≤ ttl) : 0 < ttlSeconds ttl := by
  rw [ttlSeconds, second]
  rw [second] at h
  split <;> omega

namespace RouteTables

variable {ι : Type} [DecidableEq ι] {s : RouteTables ι} {names : Names} {routes : MemRouteTable}
  {uid nodeID : Bytes}

theorem lookup_eq (h : Indexed names routes s.db) (huid : uid ∈ names.uids) {i : ι} {now : ℤ}
    (hcold : ∀ e ∈ s.cache i uid, e.expireAt ≤ now) :
    (s.lookup i now uid).1.db = s.db ∧ (s.lookup i now uid).2 = routes.lookup uid := by
  have hcache : ((s.cache i uid).filter fun e => now < e.expireAt) = none := by
    rw [Option.filter_eq_none_iff]
    intro e he
    simpa using hcold e he
  have hget : (Keyspace.get (routeKey uid)).run s.db = .ok (routes uid) s.db := by
    obtain ⟨_, _, hrun, rfl, rfl⟩ := ensures_get (Q := fun r db' => r = routes uid ∧ db' = s.db)
      (h.represents.route uid huid) ⟨rfl, rfl⟩
    exact hrun
  rw [lookup, hcache, hget, MemRouteTable.lookup]
  cases routes uid with
  | none | some nodeID => exact ⟨rfl, rfl⟩

omit [DecidableEq ι] in
theorem bind_eq (h : Indexed names routes s.db) (huid : uid ∈ names.uids)
    (hnode : nodeID ∈ names.nodes) {ttl : ℤ} (httl : ttl ≤ 0 ∨ second ≤ ttl) :
    Indexed names (routes.bind uid nodeID) (s.bind ttl uid nodeID).1.db ∧
      (s.bind ttl uid nodeID).2 = .ok () := by
  obtain ⟨_, db, hrun, hdb⟩ := h.ensures_luaBind huid hnode (ttlSeconds_pos httl)
  rw [bind, hrun]
  exact ⟨hdb, rfl⟩

theorem unbind_eq (h : Indexed names routes s.db) (huid : uid ∈ names.uids)
    (hnode : nodeID ∈ names.nodes) (i : ι) :
    Indexed names (routes.unbind uid nodeID) (s.unbind i uid nodeID).1.db ∧
      (s.unbind i uid nodeID).2 = none := by
  obtain ⟨_, db, hrun, hdb⟩ := h.ensures_luaUnbind huid hnode
  rw [unbind, hrun]
  exact ⟨hdb, rfl⟩

theorem invalidate_eq (h : Indexed names routes s.db) (hnode : nodeID ∈ names.nodes) (i : ι) :
    Indexed names (routes.invalidate nodeID) (s.invalidate i nodeID).1.db ∧
      (s.invalidate i nodeID).2 = none := by
  obtain ⟨l, hl, hmem⟩ := h.represents.set nodeID hnode
  obtain ⟨_, _, hread, rfl, rfl⟩ := ensures_smembers (Q := fun r db' => r = l ∧ db' = s.db) hl
    ⟨rfl, rfl⟩
  obtain ⟨_, db, hrun, hdb⟩ := h.ensures_pipeline hnode hmem
  rw [invalidate, hread]
  dsimp only
  rw [hrun]
  exact ⟨hdb, rfl⟩

/-- One call: the server stays the routes of the in-process table, and the answers agree. -/
theorem call_eq (h : Indexed names routes s.db) {c : RouteCall ι} (hcold : s.Cold c)
    (huid : ∀ uid ∈ c.uid, uid ∈ names.uids) (hnode : ∀ nodeID ∈ c.nodeID, nodeID ∈ names.nodes)
    {ttl : ℤ} (httl : ttl ≤ 0 ∨ second ≤ ttl) :
    Indexed names (routes.call c).1 (s.call ttl c).1.db ∧ (s.call ttl c).2 = (routes.call c).2 := by
  cases c with
  | lookup i now uid =>
    obtain ⟨hdb, hanswer⟩ := lookup_eq h (huid uid rfl) hcold
    refine ⟨?_, congrArg RouteAnswer.lookup hanswer⟩
    show Indexed names routes (s.lookup i now uid).1.db
    rw [hdb]
    exact h
  | bind uid nodeID =>
    obtain ⟨hdb, hanswer⟩ := bind_eq h (huid uid rfl) (hnode nodeID rfl) httl
    exact ⟨hdb, congrArg RouteAnswer.bind hanswer⟩
  | unbind i uid nodeID =>
    obtain ⟨hdb, hanswer⟩ := unbind_eq h (huid uid rfl) (hnode nodeID rfl) i
    exact ⟨hdb, congrArg RouteAnswer.dropped hanswer⟩
  | invalidate i nodeID =>
    obtain ⟨hdb, hanswer⟩ := invalidate_eq h (hnode nodeID rfl) i
    exact ⟨hdb, congrArg RouteAnswer.dropped hanswer⟩

end RouteTables

def namesOf {ι : Type} {calls : List (RouteCall ι)} (h : Separate calls) : Names where
  uids := {uid | ∃ a ∈ calls, uid ∈ a.uid}
  nodes := {nodeID | ∃ b ∈ calls, nodeID ∈ b.nodeID}
  separate := by
    rintro uid ⟨a, ha, huid⟩ nodeID ⟨b, hb, hnode⟩ hkey
    rw [nodeKey_eq_routeKey] at hkey
    exact h a ha uid huid b hb nodeID hnode (routeKey_injective hkey)

theorem MemRouteTable.not_failed {ι : Type} {calls : List (RouteCall ι)} {routes : MemRouteTable}
    {answer : RouteAnswer} (h : answer ∈ outputs MemRouteTable.call routes calls) :
    ¬ answer.Failed := by
  induction calls generalizing routes with
  | nil => cases h
  | cons c calls ih =>
    rcases mem_cons.mp h with rfl | h
    · cases c with
      | lookup i now uid =>
        rintro ⟨e, he⟩
        have hlookup : routes.lookup uid = .error (.lookup e) := he
        rw [lookup] at hlookup
        split at hlookup <;> cases hlookup
      | bind uid nodeID =>
        rintro ⟨e, he⟩
        cases he
      | unbind i uid nodeID | invalidate i nodeID => exact fun hne => hne rfl
    · exact ih h

/-- **The tables on Redis are one table**: they answer every sequence of calls as the table in the
process does, if no uid is `node:` and the ID of a node, the time to live is a second or more, and a
table is asked only with a cold cache. -/
theorem RouteTables.answers_eq_memRouteTable {ι : Type} [DecidableEq ι] {ttl : ℤ}
    (httl : ttl ≤ 0 ∨ second ≤ ttl) {s : RouteTables ι} (hempty : ∀ uid, s.db (routeKey uid) = none)
    {calls : List (RouteCall ι)} (hnames : Separate calls)
    (hcold : Along (fun s c => some (RouteTables.call ttl s c).1) RouteTables.Cold s calls) :
    outputs (RouteTables.call ttl) s calls = outputs MemRouteTable.call (fun _ => none) calls ∧
      ∀ answer ∈ outputs (RouteTables.call ttl) s calls, ¬ answer.Failed := by
  have hcalls : Along (fun s c => some (RouteTables.call ttl s c).1)
      (fun _ c => c ∈ calls) s calls := along_of_forall_mem fun _ hc => hc
  have heq : outputs (RouteTables.call ttl) s calls
      = outputs MemRouteTable.call (fun _ => none) calls := by
    refine outputs_eq_of_lockstep (Q := fun s routes => Indexed (namesOf hnames) routes s.db) ?_
      (Indexed.of_forall_none hempty) (hcold.and hcalls)
    rintro s routes c h ⟨hc, hmem⟩
    exact call_eq h hc (fun uid huid => ⟨c, hmem, huid⟩) (fun nodeID hnode => ⟨c, hmem, hnode⟩) httl
  refine ⟨heq, fun answer hanswer => ?_⟩
  rw [heq] at hanswer
  exact MemRouteTable.not_failed hanswer

def twoTables : RouteTables (Fin 2) := ⟨fun _ => none, fun _ _ => none⟩

/-- Alice moves to another node, the release on the old one comes late, and the new node goes down.
The second table is asked in between. -/
def movingCalls : List (RouteCall (Fin 2)) :=
  [.bind (ascii "alice") (ascii "logic-0"), .bind (ascii "bob") (ascii "logic-0"),
    .lookup 1 0 (ascii "alice"), .bind (ascii "alice") (ascii "logic-1"),
    .unbind 0 (ascii "alice") (ascii "logic-0"), .lookup 1 routeCacheTTL (ascii "alice"),
    .invalidate 0 (ascii "logic-1"), .lookup 1 (2 * routeCacheTTL) (ascii "alice"),
    .lookup 0 0 (ascii "bob")]

theorem RouteTables.answers_eq_memRouteTable_moving :
    outputs (RouteTables.call 0) twoTables movingCalls
      = [.bind (.ok ()), .bind (.ok ()), .lookup (.ok (ascii "logic-0")), .bind (.ok ()),
        .dropped none, .lookup (.ok (ascii "logic-1")), .dropped none, .lookup (.error .notRouted),
        .lookup (.ok (ascii "logic-0"))] := by
  have hcold : Along (fun s c => some (RouteTables.call 0 s c).1) RouteTables.Cold twoTables
      movingCalls := by decide +kernel
  rw [(RouteTables.answers_eq_memRouteTable (.inl le_rfl) (fun _ => rfl) (by decide +kernel)
    hcold).1]
  decide +kernel

/-- The uid of a client whose route has the key of the set of `logic-0`. -/
def intruder : Bytes := ascii "node:logic-0"

/-- With a player on the node the intruder cannot be bound. If the intruder comes first, the player
is bound although `Bind` has failed, and stays when the node goes down. Half a second to live binds
nobody. -/
theorem RouteTables.uid_meets_node : outputs (RouteTables.call 0) twoTables
        [.bind (ascii "alice") (ascii "logic-0"), .bind intruder (ascii "logic-1"),
          .lookup 0 0 intruder]
      = [.bind (.ok ()), .bind (.error (.bind .wrongType)), .lookup (.error (.lookup .wrongType))] ∧
    outputs MemRouteTable.call (fun _ => none)
        ([.bind (ascii "alice") (ascii "logic-0"), .bind intruder (ascii "logic-1"),
          .lookup 0 0 intruder] : List (RouteCall (Fin 2)))
      = [.bind (.ok ()), .bind (.ok ()), .lookup (.ok (ascii "logic-1"))] ∧
    outputs (RouteTables.call 0) twoTables
        [.bind intruder (ascii "logic-1"), .bind (ascii "alice") (ascii "logic-0"),
          .invalidate 0 (ascii "logic-0"), .lookup 0 0 (ascii "alice")]
      = [.bind (.ok ()), .bind (.error (.bind .wrongType)), .dropped (some .wrongType),
        .lookup (.ok (ascii "logic-0"))] ∧
    outputs MemRouteTable.call (fun _ => none)
        ([.bind intruder (ascii "logic-1"), .bind (ascii "alice") (ascii "logic-0"),
          .invalidate 0 (ascii "logic-0"), .lookup 0 0 (ascii "alice")] : List (RouteCall (Fin 2)))
      = [.bind (.ok ()), .bind (.ok ()), .dropped none, .lookup (.error .notRouted)] ∧
    outputs (RouteTables.call (second / 2)) twoTables [.bind (ascii "alice") (ascii "logic-0")]
      = [.bind (.error (.bind .invalidExpire))] := by
  decide +kernel

end RanGame.Gateway
