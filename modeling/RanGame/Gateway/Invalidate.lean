import RanGame.Gateway.Routes

/-!
# Deleting routes

`Unbind` is one script, which compares the owner of the route first. `Invalidate` reads the set of a
node and then deletes the routes one by one, without another look at their owners; and a route and
the set with its uid expire each on their own. So a node that goes down can take along the route of
a player who has moved to another one.
-/

namespace RanGame.Gateway

open Function Keyspace Machine Protocol Option

/-- The server, and what each caller of `Invalidate` has still to delete for its node. -/
structure RouteServer (ι : Type) where
  db : Keyspace Bytes
  pending : ι → Bytes × List Bytes

/-- A script, a command of `Invalidate`, or the expiry of a key. -/
inductive RouteStep (ι : Type)
  | bind (uid nodeID : Bytes) (ttl : ℤ)
  | unbind (uid nodeID : Bytes)
  | smembers (i : ι) (nodeID : Bytes)
  | del (i : ι)
  | expire (key : Bytes)

namespace RouteServer

variable {ι : Type} [DecidableEq ι] {s s' : RouteServer ι}

def step (s : RouteServer ι) : RouteStep ι → Option (RouteServer ι)
  | .bind uid nodeID ttl =>
    let script := luaBind (routeKey uid) (nodeKey nodeID) uid nodeID ttl routeNodePrefix
    some { s with db := after script s.db }
  | .unbind uid nodeID =>
    some { s with db := after (luaUnbind (routeKey uid) (nodeKey nodeID) uid nodeID) s.db }
  | .smembers i nodeID =>
    match (s.pending i).2, (smembers (nodeKey nodeID)).run s.db with
    | [], .ok uids _ =>
      let keys := uids.map routeKey ++ [nodeKey nodeID]
      some { s with pending := update s.pending i (nodeID, keys) }
    | [], .error _ _ => some s
    | _ :: _, _ => none
  | .del i =>
    match s.pending i with
    | (nodeID, k :: ks) => some ⟨after (del k) s.db, update s.pending i (nodeID, ks)⟩
    | (_, []) => none
  | .expire k => some { s with db := s.db.erase k }

/-- A set is read only while its uids are routed nowhere else, and a uid to be deleted is not bound
elsewhere. -/
def Clear (s : RouteServer ι) : RouteStep ι → Prop
  | .bind uid nodeID _ => ∀ i, routeKey uid ∈ (s.pending i).2 → nodeID = (s.pending i).1
  | .smembers _ nodeID =>
    ∀ uid ∈ (s.db.setAt (nodeKey nodeID)).getD [], ∀ v ∈ s.db.strAt (routeKey uid), v = nodeID
  | _ => True

/-- What is to be deleted for a node is not the route to another one. -/
def Own (s : RouteServer ι) : Prop :=
  ∀ i, ∀ k ∈ (s.pending i).2, ∀ v ∈ s.db.strAt k, v = (s.pending i).1

omit [DecidableEq ι] in
theorem Own.of_db (h : s.Own) {db : Keyspace Bytes}
    (hdb : ∀ k v, db.strAt k = some v → s.db.strAt k = some v) : Own { s with db := db } :=
  fun i k hk v hv => h i k hk v (hdb k v hv)

end RouteServer

section scripts

variable {key setKey uid nodeID : Bytes}

theorem writes_luaBind {ttl : ℤ} : Writes (fun k v => k = key ∧ v = nodeID)
    (luaBind key setKey uid nodeID ttl routeNodePrefix) := by
  refine writes_bind (writes_of_strAt fun db => ?_) fun old => writes_bind ?_ fun _ =>
    writes_bind (writes_set ⟨rfl, rfl⟩) fun _ =>
    writes_bind (writes_of_strAt fun _ => strAt_after_sadd) fun _ =>
    writes_bind writes_expire fun _ => writes_of_strAt fun _ => rfl
  · rw [after, EStateM.run, Keyspace.get]
    cases db key with
    | none => rfl
    | some u => cases u <;> rfl
  · refine writes_of_strAt fun db => ?_
    cases old with
    | none => rfl
    | some old =>
      rw [leaveOld]
      split
      · exact strAt_after_srem
      · rfl

theorem strAt_after_luaUnbind (db : Keyspace Bytes) :
    strAt (after (luaUnbind key setKey uid nodeID) db) =
      strAt (if db.strAt key = some nodeID then db.erase key else db) := by
  rw [after, luaUnbind, EStateM.run_bind, EStateM.run, Keyspace.get, strAt]
  cases db key with
  | none => rfl
  | some u =>
    cases u with
    | set l => rfl
    | str cur =>
      dsimp only
      by_cases hcur : some cur = some nodeID
      · rw [if_pos hcur, if_pos hcur]
        have hsrem : strAt (after (srem setKey uid) (db.erase key)) = strAt (db.erase key) :=
          strAt_after_srem
        show strAt (after (srem setKey uid >>= fun _ => pure 1) (db.erase key)) = _
        rw [after] at hsrem ⊢
        rw [EStateM.run_bind]
        generalize (srem setKey uid).run (db.erase key) = r at hsrem ⊢
        cases r <;> exact hsrem
      · rw [if_neg hcur, if_neg hcur]
        rfl

end scripts

namespace RouteServer

variable {ι : Type} [DecidableEq ι] {s s' : RouteServer ι} {a : RouteStep ι}

theorem Own.step (h : s.Own) (hclear : s.Clear a) (hstep : s.step a = some s') : s'.Own := by
  cases a with
  | bind uid nodeID ttl =>
    cases hstep
    intro i k hk v hv
    obtain hv | ⟨rfl, rfl⟩ := writes_luaBind _ _ _ hv
    · exact h i k hk v hv
    · exact hclear i hk
  | unbind uid nodeID =>
    cases hstep
    refine h.of_db fun k v hv => ?_
    rw [strAt_after_luaUnbind] at hv
    split at hv
    · exact (strAt_erase.mp hv).2
    · exact hv
  | smembers i nodeID =>
    rw [RouteServer.step] at hstep
    split at hstep <;> cases hstep
    next uids db hidle hread =>
      have hset : s.db.setAt (nodeKey nodeID) = some uids ∧ s.db.strAt (nodeKey nodeID) = none := by
        rw [EStateM.run, smembers] at hread
        rw [setAt, strAt]
        split at hread <;> simp_all
      refine (forall_update_iff _ fun _ (p : Bytes × List Bytes) => ∀ k ∈ p.2, ∀ v ∈ s.db.strAt k,
        v = p.1).mpr
        ⟨fun k hk v hv => ?_, fun j _ => h j⟩
      obtain hk | hk := List.mem_append.mp hk
      · obtain ⟨uid, huid, rfl⟩ := List.mem_map.mp hk
        exact hclear uid (by rwa [hset.1]) v hv
      · rw [List.mem_singleton.mp hk, hset.2] at hv
        cases hv
    · exact h
  | del i =>
    rw [RouteServer.step] at hstep
    split at hstep <;> cases hstep
    next nodeID key keys hpend =>
      have hi := h i
      rw [hpend] at hi
      refine (forall_update_iff _ fun _ (p : Bytes × List Bytes) => ∀ k ∈ p.2, ∀ v ∈ strAt _ k,
        v = p.1).mpr
        ⟨fun k hk v hv => ?_, fun j _ k hk v hv => h j k hk v (strAt_erase.mp hv).2⟩
      exact hi k (List.mem_cons_of_mem _ hk) v (strAt_erase.mp hv).2
  | expire k =>
    cases hstep
    exact h.of_db fun _ _ hv => (strAt_erase.mp hv).2

/-- **A route is deleted for its own node**, if no set is read with a uid of another node and no uid
to be deleted is bound elsewhere. -/
theorem deletes_own_routes {db : Keyspace Bytes} {acts : List (RouteStep ι)}
    (hrun : run step ⟨db, fun _ => ([], [])⟩ acts = some s) (hstep : s.step a = some s')
    {uid v : Bytes} (hroute : s.db.strAt (routeKey uid) = some v)
    (hgone : s'.db.strAt (routeKey uid) ≠ some v) :
    (∀ u nodeID, a = .unbind u nodeID → v = nodeID) ∧
      (Along step Clear ⟨db, fun _ => ([], [])⟩ acts → ∀ i, a = .del i → v = (s.pending i).1) := by
  constructor
  · rintro u nodeID rfl
    cases hstep
    rw [strAt_after_luaUnbind] at hgone
    split at hgone
    next hcur =>
      by_cases hkey : routeKey uid = routeKey u
      · rw [hkey, hcur] at hroute
        exact (some.inj hroute).symm
      · exact absurd (strAt_erase.mpr ⟨hkey, hroute⟩) hgone
    · exact absurd hroute hgone
  · rintro hclear i rfl
    have hown : s.Own := invariant_of_run (I := Own) (fun _ _ _ h hc hs => h.step hc hs)
      (fun _ _ hk => by cases hk) hclear hrun
    refine hown i _ ?_ v hroute
    rw [step] at hstep
    split at hstep <;> cases hstep
    next nodeID key keys hpend =>
      by_cases hkey : routeKey uid = key
      · rw [hpend, hkey]
        exact List.mem_cons_self
      · exact absurd (strAt_erase.mpr ⟨hkey, hroute⟩) hgone

def emptyServer : RouteServer (Fin 1) := ⟨fun _ => none, fun _ => ([], [])⟩

def aliceLost : List (RouteStep (Fin 1)) :=
  [.bind (ascii "alice") (ascii "logic-0") 60, .smembers 0 (ascii "logic-0")]

theorem deletes_own_routes_alice : ∃ s s', run step emptyServer aliceLost = some s ∧
    s.step (.del 0) = some s' ∧ s.db.strAt (routeKey (ascii "alice")) = some (ascii "logic-0") ∧
    s'.db.strAt (routeKey (ascii "alice")) = none ∧ ascii "logic-0" = (s.pending 0).1 := by
  have hclear : Along step Clear emptyServer aliceLost := by
    refine ⟨fun _ hk => (by cases hk), fun s hs => ⟨?_, fun _ _ => trivial⟩⟩
    cases hs
    rw [Clear]
    decide +kernel
  have hrun : run step emptyServer aliceLost = some _ := rfl
  have hdel := @deletes_own_routes (Fin 1) _ _ _ (.del 0) _ _ hrun rfl (ascii "alice")
    (ascii "logic-0") (by decide +kernel) (by decide +kernel)
  exact ⟨_, _, hrun, rfl, by decide +kernel, by decide +kernel, hdel.2 hclear 0 rfl⟩

/-- After `acts`, clearing `logic-0` deletes the route of Alice to `logic-1`. -/
def DeletesMoved (acts : List (RouteStep (Fin 1))) : Prop :=
  ∃ s, run step emptyServer acts = some s ∧ (s.pending 0).1 = ascii "logic-0" ∧
    s.db.strAt (routeKey (ascii "alice")) = some (ascii "logic-1") ∧
    (s.step (.del 0)).map (fun s => s.db.strAt (routeKey (ascii "alice"))) = some none

/-- Alice moves while the old node is cleared, or when the old route has expired. -/
theorem invalidate_deletes_moved :
    DeletesMoved [.bind (ascii "alice") (ascii "logic-0") 60, .smembers 0 (ascii "logic-0"),
      .bind (ascii "alice") (ascii "logic-1") 60] ∧
    DeletesMoved [.bind (ascii "alice") (ascii "logic-0") 60, .expire (routeKey (ascii "alice")),
      .bind (ascii "alice") (ascii "logic-1") 60, .smembers 0 (ascii "logic-0")] :=
  ⟨exists_of_run _ _ _ _ (by decide +kernel), exists_of_run _ _ _ _ (by decide +kernel)⟩

end RouteServer

end RanGame.Gateway
