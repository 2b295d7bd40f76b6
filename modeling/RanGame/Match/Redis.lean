import RanGame.Lib.Machine
import RanGame.Match.Tables
import Mathlib.Data.List.Sort
import Mathlib.Data.List.Perm.Basic

/-!
# The matcher on Redis

`internal/cluster/match_redis.go`. One atomic Lua script puts a player into a sorted set, sees
whether the set is full and takes a table out of it. It looks for the player in *one* set only,
members with the same score are sorted by name, and only the first player of a table is told the
result.
-/

namespace RanGame.Match

open Function List Machine

/-! ### Sorted sets -/

/-- A member of the sorted set at a key. -/
structure Member where
  key : String
  /-- Twice the score. -/
  score : ℤ
  uid : String
  deriving DecidableEq

/-- Members are sorted by score, and by name if the scores are equal. -/
def Member.le (a b : Member) : Prop := a.score < b.score ∨ a.score = b.score ∧ a.uid ≤ b.uid

instance : DecidableRel Member.le := fun _ _ => inferInstanceAs (Decidable (_ ∨ _))

/-- All sorted sets of the server, each of them in its order. -/
abbrev Redis := List Member

namespace Redis

variable (db : Redis)

/-- `ZSCORE`: is there a score? -/
def zscore (key uid : String) : Bool := db.any fun x => x.key = key ∧ x.uid = uid

/-- `ZADD`, for someone who is not a member. -/
def zadd (key : String) (score : ℤ) (uid : String) : Redis :=
  db.orderedInsert Member.le ⟨key, score, uid⟩

def zcard (key : String) : ℕ := (db.filter fun x => x.key = key).length

/-- `ZRANGE key 0 (n - 1)`. -/
def zrange (key : String) (n : ℕ) : List String :=
  ((db.filter fun x => x.key = key).map Member.uid).take n

def zrem (key uid : String) : Redis := db.filter fun x => ¬ (x.key = key ∧ x.uid = uid)

variable {db}

variable {key uid : String} {score : ℤ}

theorem mem_zadd {x : Member} : x ∈ db.zadd key score uid ↔ x = ⟨key, score, uid⟩ ∨ x ∈ db :=
  mem_orderedInsert Member.le

theorem nodup_zadd (hdb : db.Nodup) (h : ⟨key, score, uid⟩ ∉ db) : (db.zadd key score uid).Nodup :=
  (perm_orderedInsert Member.le ⟨key, score, uid⟩ db).nodup_iff.mpr (nodup_cons.mpr ⟨h, hdb⟩)

theorem zcard_zadd (key uid : String) (score : ℤ) :
    (db.zadd key score uid).zcard key = db.zcard key + 1 := by
  have hperm := (perm_orderedInsert Member.le ⟨key, score, uid⟩ db).filter fun x => x.key = key
  have hlen := hperm.length_eq
  simpa [zcard, zadd] using hlen

theorem zrange_zadd (h : db.zcard key = 0) : (db.zadd key score uid).zrange key 1 = [uid] := by
  have hperm := (perm_orderedInsert Member.le ⟨key, score, uid⟩ db).filter fun x => x.key = key
  rw [filter_cons_of_pos (by simp), length_eq_zero_iff.mp h] at hperm
  rw [zrange, zadd, perm_singleton.mp hperm]
  rfl

end Redis

/-- What `enqueueScript` returns. -/
inductive ScriptResult
  | alreadyQueued
  | nil
  | uids (l : List String)

/-- The Lua script. `EXPIRE` has no effect here. -/
def enqueueScript (db : Redis) (key uid : String) (score players : ℤ) : Redis × ScriptResult :=
  if db.zscore key uid then (db, .alreadyQueued)
  else
    let db := db.zadd key score uid
    if players ≤ db.zcard key then
      let uids := db.zrange key players.toNat
      (uids.foldl (fun db u => db.zrem key u) db, .uids uids)
    else (db, .nil)

/-! ### The matcher -/

variable {R E : Type}

/-- What the matcher is given: the head of its keys, and the choice of a node if there is one. -/
structure RedisMatcherConfig (E : Type) where
  keyPrefix : String
  pick : Option (String → Except E String)

/-- The sets on the server and the local index. -/
structure RedisMatcher where
  db : Redis
  byUID : PartialMap String String

/-- `NewRedisMatcher`, on an empty server. -/
def newRedisMatcher : RedisMatcher := ⟨[], fun _ => none⟩

/-- Twice the mean of the bounds. -/
def scoreFor (rule : Rule) : ℤ := rule.scoreMin + rule.scoreMax

namespace RedisMatcher

/-- `Enqueue` up to the point where a table is settled, with the table. -/
def enqueue (keyPrefix : String) (m : RedisMatcher) (uid : String) (rule : Rule) :
    Except Err (RedisMatcher × Option (List String)) :=
  if rule.module = "" ∨ rule.players ≤ 0 then .error .errBadRule
  else
    match enqueueScript m.db (keyPrefix ++ queueKey rule) uid (scoreFor rule) rule.players with
    | (_, .alreadyQueued) => .error .errAlreadyQueued
    | (db, .nil) => .ok (⟨db, m.byUID.insert uid (queueKey rule)⟩, none)
    -- The index keeps the entries of the others at the table.
    | (db, .uids l) => .ok (⟨db, m.byUID⟩, some l)

/-- `Cancel`: the local index, and every queue on the server. -/
def cancel (keyPrefix : String) (m : RedisMatcher) (uid : String) : RedisMatcher × Bool :=
  let found := fun x : Member => keyPrefix.toList.isPrefixOf x.key.toList && x.uid = uid
  (⟨m.db.filter fun x => !found x, m.byUID.erase uid⟩, (m.byUID uid).isSome || m.db.any found)

end RedisMatcher

/-- `settleAndNotify`: only the first player is told, under the number of the last request. -/
def settleAndNotify (pick : Option (String → Except E String))
    (settler : List String → Rule → String → Except E R) (uids : List String) (rule : Rule)
    (triggerSeq : UInt32) : List (Result UInt32 R E) :=
  match uids with
  | [] => []
  | uid :: _ =>
    match pick with
    | none => [⟨uid, triggerSeq, settler uids rule ""⟩]
    | some pick =>
      match pick rule.module with
      | .error err => [⟨uid, triggerSeq, .error err⟩]
      | .ok node => [⟨uid, triggerSeq, settler uids rule node⟩]

/-! ### What a caller sees -/

/-- What comes of a call: whether the request was accepted, the table and the result callbacks; or
whether the player was waiting. -/
inductive Answer (R E : Type)
  | enqueue (err : Option Err) (table : Option (List String)) (results : List (Result UInt32 R E))
  | cancel (found : Bool)

/-- One call of the in-process matcher. -/
def Maker.answer (m : Maker UInt32) : Call R E → Maker UInt32 × Answer R E
  | .enqueue uid rule seq rooms =>
    match m.enqueue uid rule seq with
    | .error err => (m, .enqueue (some err) none [])
    | .ok (m, none) => (m, .enqueue none none [])
    | .ok (m, some matched) =>
      (m, .enqueue none (some (matched.map Entry.uid)) (settle rooms matched))
  | .cancel uid => ((m.cancel uid).1, .cancel (m.cancel uid).2)

/-- One call of the matcher on Redis, whose settler has everyone join a room. -/
def RedisMatcher.answer (cfg : RedisMatcherConfig E) (m : RedisMatcher) :
    Call R E → RedisMatcher × Answer R E
  | .enqueue uid rule seq rooms =>
    match m.enqueue cfg.keyPrefix uid rule with
    | .error err => (m, .enqueue (some err) none [])
    | .ok (m, none) => (m, .enqueue none none [])
    | .ok (m, some uids) => (m, .enqueue none (some uids)
        (settleAndNotify cfg.pick (fun uids rule _ => settleRoom rooms rule.module uids) uids rule
          seq))
  | .cancel uid => ((m.cancel cfg.keyPrefix uid).1, .cancel (m.cancel cfg.keyPrefix uid).2)

/-- Where the two matchers agree: nobody asks who waits elsewhere, and a table is for one player,
with a node. -/
def Maker.Agrees (cfg : RedisMatcherConfig E) (m : Maker UInt32) : Call R E → Prop
  | .enqueue uid rule _ _ =>
    (∀ k ∈ m.byUID uid, k = queueKey rule) ∧
      (m.byUID uid = none → rule.players ≤ (m.queues (queueKey rule)).length + 1 →
        rule.players = 1 ∧ ∀ pick ∈ cfg.pick, (pick rule.module).isOk = true)
  | .cancel _ => True

instance (cfg : RedisMatcherConfig E) (m : Maker UInt32) (c : Call R E) :
    Decidable (m.Agrees cfg c) := by
  cases c <;> unfold Maker.Agrees <;> infer_instance

/-- The bounds of the score are zero. -/
def ZeroBounds (calls : List (Call R E)) : Prop :=
  ∀ c ∈ calls, ∀ r ∈ c.rule, r.scoreMin = 0 ∧ r.scoreMax = 0

/-! ### The sets mirror the queues -/

/-- The sorted sets have the members that the queues have, all with score zero. -/
structure Mirrors (P : String → ℤ) (keyPrefix : String) (m : Maker UInt32) (r : RedisMatcher) :
    Prop where
  indexed : m.Indexed
  short : ∀ k, ((m.queues k).length : ℤ) < P k
  nodup : r.db.Nodup
  zero : ∀ x ∈ r.db, x.score = 0 ∧ ∃ k, x.key = keyPrefix ++ k
  mem_iff : ∀ k uid, ⟨keyPrefix ++ k, 0, uid⟩ ∈ r.db ↔ uid ∈ (m.queues k).map Entry.uid
  byUID : r.byUID = m.byUID

theorem mirrors_new {P : String → ℤ} (hpos : ∀ k, 1 ≤ P k) (keyPrefix : String) :
    Mirrors P keyPrefix newMaker newRedisMatcher where
  indexed := Maker.indexed_newMaker
  short := fun k => show ((0 : ℕ) : ℤ) < P k by have := hpos k; omega
  nodup := nodup_nil
  zero := by simp [newRedisMatcher]
  mem_iff := by simp [newMaker, newRedisMatcher]
  byUID := rfl

namespace Mirrors

variable {P : String → ℤ} {keyPrefix : String} {m m' : Maker UInt32} {r : RedisMatcher}

theorem eq_of_mem (h : Mirrors P keyPrefix m r) {x : Member} (hx : x ∈ r.db) :
    x = ⟨x.key, 0, x.uid⟩ := by
  rw [← (h.zero x hx).1]

theorem zscore_iff (h : Mirrors P keyPrefix m r) (k uid : String) :
    r.db.zscore (keyPrefix ++ k) uid = true ↔ uid ∈ (m.queues k).map Entry.uid := by
  rw [← h.mem_iff, Redis.zscore, any_eq_true]
  constructor
  · rintro ⟨x, hx, hcond⟩
    obtain ⟨hk, hu⟩ := of_decide_eq_true hcond
    rw [h.eq_of_mem hx, hk, hu] at hx
    exact hx
  · intro hx
    exact ⟨_, hx, by simp⟩

theorem zcard_eq (h : Mirrors P keyPrefix m r) (k : String) :
    r.db.zcard (keyPrefix ++ k) = (m.queues k).length := by
  have hnodup : ((r.db.filter fun x => x.key = keyPrefix ++ k).map Member.uid).Nodup := by
    refine List.Nodup.map_on ?_ (h.nodup.filter _)
    intro x hx y hy hxy
    obtain ⟨hx, hxk⟩ := mem_filter.mp hx
    obtain ⟨hy, hyk⟩ := mem_filter.mp hy
    rw [h.eq_of_mem hx, h.eq_of_mem hy, of_decide_eq_true hxk, of_decide_eq_true hyk, hxy]
  have hperm : ((r.db.filter fun x => x.key = keyPrefix ++ k).map Member.uid).Perm
      ((m.queues k).map Entry.uid) := by
    refine (perm_ext_iff_of_nodup hnodup (h.indexed.nodup k)).mpr fun uid => ?_
    rw [← h.mem_iff, mem_map]
    constructor
    · rintro ⟨x, hx, rfl⟩
      obtain ⟨hx, hxk⟩ := mem_filter.mp hx
      rw [← of_decide_eq_true hxk, ← h.eq_of_mem hx]
      exact hx
    · intro hx
      exact ⟨_, mem_filter.mpr ⟨hx, by simp⟩, rfl⟩
  have := hperm.length_eq
  rwa [length_map, length_map] at this

variable {uid : String} {rule : Rule} {seq : UInt32}

variable (h : Mirrors P keyPrefix m r)

include h

theorem not_mem (hfree : m.byUID uid = none) (k : String) : ⟨keyPrefix ++ k, 0, uid⟩ ∉ r.db :=
  fun hx => h.indexed.not_mem hfree k ((h.mem_iff k uid).mp hx)

theorem wait (hfree : m.byUID uid = none) {k : String}
    (hm : Maker.Indexed ⟨update m.queues k (m.queues k ++ [⟨uid, seq, rule⟩]),
      m.byUID.insert uid k⟩) (hlen : ((m.queues k).length : ℤ) + 1 < P k) :
    Mirrors P keyPrefix ⟨update m.queues k (m.queues k ++ [⟨uid, seq, rule⟩]), m.byUID.insert uid k⟩
      ⟨r.db.zadd (keyPrefix ++ k) 0 uid, r.byUID.insert uid k⟩ where
  indexed := hm
  short := by
    refine (forall_update_iff m.queues fun k l => (l.length : ℤ) < P k).mpr
      ⟨?_, fun j _ => h.short j⟩
    rw [length_append, length_singleton]
    omega
  nodup := Redis.nodup_zadd h.nodup (h.not_mem hfree k)
  zero := by
    intro x hx
    rcases Redis.mem_zadd.mp hx with rfl | hx
    · exact ⟨rfl, k, rfl⟩
    · exact h.zero x hx
  mem_iff := by
    intro j u
    rw [Redis.mem_zadd, h.mem_iff, Member.mk.injEq]
    by_cases hj : j = k
    · subst hj
      simp [or_comm]
    · show _ ↔ u ∈ (update m.queues k _ j).map Entry.uid
      rw [update_of_ne hj]
      simp [hj]
  byUID := by rw [h.byUID]

theorem fill (hfree : m.byUID uid = none) {k : String}
    (hm : Maker.Indexed ⟨update m.queues k [], m.byUID.eraseAll [uid]⟩) (hempty : m.queues k = []) :
    Mirrors P keyPrefix ⟨update m.queues k [], m.byUID.eraseAll [uid]⟩
      ⟨(r.db.zadd (keyPrefix ++ k) 0 uid).zrem (keyPrefix ++ k) uid, r.byUID⟩ := by
  have hqueues : update m.queues k [] = m.queues := by
    rw [← hempty, update_eq_self]
  have hindex : m.byUID.eraseAll [uid] = m.byUID := by
    show update m.byUID uid none = m.byUID
    rw [← hfree, update_eq_self]
  have hmem : ∀ x, x ∈ (r.db.zadd (keyPrefix ++ k) 0 uid).zrem (keyPrefix ++ k) uid ↔ x ∈ r.db := by
    intro x
    rw [Redis.zrem, mem_filter, Redis.mem_zadd, decide_eq_true_iff]
    constructor
    · rintro ⟨rfl | hx, hne⟩
      · exact absurd ⟨rfl, rfl⟩ hne
      · exact hx
    · intro hx
      refine ⟨.inr hx, ?_⟩
      rintro ⟨hk, hu⟩
      rw [h.eq_of_mem hx, hk, hu] at hx
      exact h.not_mem hfree k hx
  rw [hqueues, hindex] at hm ⊢
  exact
    { indexed := hm
      short := h.short
      nodup := (Redis.nodup_zadd h.nodup (h.not_mem hfree k)).filter _
      zero := fun x hx => h.zero x ((hmem x).mp hx)
      mem_iff := fun j u => (hmem _).trans (h.mem_iff j u)
      byUID := h.byUID }

theorem isPrefixOf_key {x : Member} (hx : x ∈ r.db) :
    keyPrefix.toList.isPrefixOf x.key.toList = true := by
  obtain ⟨-, k, hk⟩ := h.zero x hx
  rw [hk, String.toList_append, isPrefixOf_iff_prefix]
  exact prefix_append _ _

theorem isSome_iff (uid : String) : (m.byUID uid).isSome = true ↔ ∃ x ∈ r.db, x.uid = uid := by
  rw [Option.isSome_iff_exists]
  constructor
  · rintro ⟨k, hk⟩
    exact ⟨_, (h.mem_iff k uid).mpr ((h.indexed.mem_iff uid k).mp hk), rfl⟩
  · rintro ⟨x, hx, rfl⟩
    obtain ⟨-, k, hk⟩ := h.zero x hx
    have hmem := hx
    rw [h.eq_of_mem hx, hk] at hmem
    exact ⟨k, (h.indexed.mem_iff x.uid k).mpr ((h.mem_iff k x.uid).mp hmem)⟩

theorem cancel (uid : String) : Mirrors P keyPrefix (m.cancel uid).1 (r.cancel keyPrefix uid).1 ∧
      (m.cancel uid).2 = (r.cancel keyPrefix uid).2 := by
  have hmem : ∀ x, x ∈ (r.cancel keyPrefix uid).1.db ↔ x ∈ r.db ∧ x.uid ≠ uid := by
    intro x
    refine mem_filter.trans (and_congr_right fun hx => ?_)
    simp [h.isPrefixOf_key hx]
  constructor
  · exact
      { indexed := h.indexed.cancel uid
        short := by
          intro k
          have := h.short k
          have := (Maker.cancel_sublist (m := m) uid k).length_le
          omega
        nodup := h.nodup.filter _
        zero := fun x hx => h.zero x ((hmem x).mp hx).1
        mem_iff := by
          intro k u
          rw [hmem, h.mem_iff, h.indexed.mem_cancel, and_comm]
        byUID := by
          rw [Maker.byUID_cancel, ← h.byUID]
          rfl }
  · have hfound : (r.db.any fun x => keyPrefix.toList.isPrefixOf x.key.toList && x.uid = uid)
        = (m.byUID uid).isSome := by
      rw [Bool.eq_iff_iff, h.isSome_iff, any_eq_true]
      refine exists_congr fun x => and_congr_right fun hx => ?_
      simp [h.isPrefixOf_key hx]
    rw [Maker.found_cancel]
    show _ = ((r.byUID uid).isSome || r.db.any fun x => keyPrefix.toList.isPrefixOf x.key.toList &&
      decide (x.uid = uid))
    rw [hfound, h.byUID, Bool.or_self]

end Mirrors

/-! ### The comparison -/

section compare

variable {P : String → ℤ} {cfg : RedisMatcherConfig E} {m : Maker UInt32} {r : RedisMatcher}

variable {rule : Rule} {uid : String}

theorem settleAndNotify_singleton {seq : UInt32}
    (hpick : ∀ pick ∈ cfg.pick, (pick rule.module).isOk = true) (rooms : Rooms R E) :
    settleAndNotify cfg.pick (fun uids rule _ => settleRoom rooms rule.module uids) [uid] rule seq
      = settle rooms [⟨uid, seq, rule⟩] := by
  simp only [settleAndNotify]
  rcases hp : cfg.pick with _ | pick
  · rfl
  · have hok := hpick pick hp
    simp only
    rcases hnode : pick rule.module with _ | node <;> rw [hnode] at hok
    · cases hok
    · rfl

section

variable (h : Mirrors P cfg.keyPrefix m r) (hok : ¬ (rule.module = "" ∨ rule.players ≤ 0))
  (hfree : m.byUID uid = none) (hzero : scoreFor rule = 0)

include h hok hfree hzero

theorem Mirrors.enqueue_of_lt (hlt : ((m.queues (queueKey rule)).length : ℤ) + 1 < rule.players) :
    r.enqueue cfg.keyPrefix uid rule = .ok (⟨r.db.zadd (cfg.keyPrefix ++ queueKey rule) 0 uid,
        r.byUID.insert uid (queueKey rule)⟩, none) := by
  have hscore : ¬ r.db.zscore (cfg.keyPrefix ++ queueKey rule) uid = true :=
    fun hs => h.indexed.not_mem hfree _ ((h.zscore_iff _ _).mp hs)
  have hcard : ¬ rule.players ≤ ((r.db.zadd (cfg.keyPrefix ++ queueKey rule) 0 uid).zcard
      (cfg.keyPrefix ++ queueKey rule) : ℤ) := by
    rw [Redis.zcard_zadd, h.zcard_eq]
    omega
  rw [RedisMatcher.enqueue, if_neg hok, enqueueScript, if_neg hscore, hzero]
  simp only [if_neg hcard]

theorem Mirrors.enqueue_single (hone : rule.players = 1) (hempty : m.queues (queueKey rule) = []) :
    r.enqueue cfg.keyPrefix uid rule = .ok (⟨(r.db.zadd (cfg.keyPrefix ++ queueKey rule) 0 uid).zrem
        (cfg.keyPrefix ++ queueKey rule) uid, r.byUID⟩, some [uid]) := by
  have hscore : ¬ r.db.zscore (cfg.keyPrefix ++ queueKey rule) uid = true :=
    fun hs => h.indexed.not_mem hfree _ ((h.zscore_iff _ _).mp hs)
  have hnone : r.db.zcard (cfg.keyPrefix ++ queueKey rule) = 0 := by rw [h.zcard_eq, hempty]; rfl
  have hcard : (1 : ℤ) ≤ ((r.db.zadd (cfg.keyPrefix ++ queueKey rule) 0 uid).zcard
      (cfg.keyPrefix ++ queueKey rule) : ℤ) := by
    rw [Redis.zcard_zadd, hnone]
    rfl
  rw [RedisMatcher.enqueue, if_neg hok, enqueueScript, if_neg hscore, hzero, hone]
  simp only [if_pos hcard, Int.toNat_one, Redis.zrange_zadd hnone, foldl_cons, foldl_nil]

end

theorem Mirrors.enqueue (h : Mirrors P cfg.keyPrefix m r) {seq : UInt32} (rooms : Rooms R E)
    (hagrees : m.Agrees cfg (.enqueue uid rule seq rooms))
    (hplayers : rule.players = P (queueKey rule)) (hzero : scoreFor rule = 0) :
    Mirrors P cfg.keyPrefix (m.answer (.enqueue uid rule seq rooms)).1
        (r.answer cfg (.enqueue uid rule seq rooms)).1 ∧
      (m.answer (.enqueue uid rule seq rooms)).2
        = (r.answer cfg (.enqueue uid rule seq rooms)).2 := by
  have hfit : m.Fits rule := by
    rw [Maker.Fits, hplayers]
    exact h.short _
  simp only [Maker.answer, RedisMatcher.answer]
  rcases henq : m.enqueue uid rule seq with err | ⟨m', t⟩
  · -- Both refuse, for the same reason.
    have hrefused : r.enqueue cfg.keyPrefix uid rule = .error err := by
      by_cases hok : rule.module = "" ∨ rule.players ≤ 0
      · rw [Maker.enqueue, if_pos hok] at henq
        cases henq
        rw [RedisMatcher.enqueue, if_pos hok]
      · rw [Maker.enqueue, if_neg hok] at henq
        split at henq
        next hbusy =>
          obtain ⟨k, hk⟩ := Option.isSome_iff_exists.mp hbusy
          rw [hagrees.1 k hk] at hk
          cases henq
          have hscore := (h.zscore_iff _ _).mpr ((h.indexed.mem_iff uid (queueKey rule)).mp hk)
          rw [RedisMatcher.enqueue, if_neg hok, enqueueScript, if_pos hscore]
        · simp only at henq
          split at henq <;> cases henq
    rw [hrefused]
    exact ⟨h, rfl⟩
  · obtain ⟨hmod, hpos, hfree⟩ := Maker.free_of_enqueue henq
    have hok : ¬ (rule.module = "" ∨ rule.players ≤ 0) := by
      rw [not_or, Int.not_le]
      exact ⟨hmod, hpos⟩
    have hm := h.indexed.enqueue hfit henq
    rcases Maker.enqueue_of_fits hfit henq with ⟨hlen, rfl, rfl⟩ | ⟨hlen, rfl, rfl⟩
    · rw [h.enqueue_of_lt hok hfree hzero hlen]
      exact ⟨h.wait hfree hm (by omega), rfl⟩
    · obtain ⟨hone, hpick⟩ := hagrees.2 hfree (by omega)
      have hempty : m.queues (queueKey rule) = [] := by
        rw [← length_eq_zero_iff]
        omega
      rw [h.enqueue_single hok hfree hzero hone hempty]
      simp only [hempty, nil_append, map_singleton] at hm ⊢
      rw [settleAndNotify_singleton hpick]
      exact ⟨h.fill hfree hm hempty, rfl⟩

theorem Mirrors.answer (h : Mirrors P cfg.keyPrefix m r) {c : Call R E} (hagrees : m.Agrees cfg c)
    (hrule : ∀ rule ∈ c.rule, rule.players = P (queueKey rule) ∧ scoreFor rule = 0) :
    Mirrors P cfg.keyPrefix (m.answer c).1 (r.answer cfg c).1 ∧
      (m.answer c).2 = (r.answer cfg c).2 := by
  rcases c with ⟨uid, rule, seq, rooms⟩ | uid
  · obtain ⟨hplayers, hzero⟩ := hrule rule rfl
    exact h.enqueue rooms hagrees hplayers hzero
  · obtain ⟨hm, hfound⟩ := h.cancel uid
    exact ⟨hm, congrArg Answer.cancel hfound⟩

/-- **The two matchers agree** if the requests of one queue ask for the same number of players and
all bounds are zero, nobody asks who waits in another queue, and tables are for one player. -/
theorem redis_agrees {calls : List (Call R E)} (hsame : SamePlayers calls)
    (hzero : ZeroBounds calls)
    (hagrees : Along (fun m c => some (Maker.answer m c).1) (Maker.Agrees cfg) newMaker calls) :
    outputs Maker.answer newMaker calls
      = outputs (RedisMatcher.answer cfg) newRedisMatcher calls := by
  obtain ⟨P, hpos, hP⟩ := hsame.exists_players
  have hrules : Along (fun m c => some (Maker.answer m c).1)
      (fun _ c => ∀ rule ∈ c.rule, rule.players = P (queueKey rule) ∧ scoreFor rule = 0)
      newMaker calls := by
    refine along_of_forall_mem fun c hc rule hr => ⟨hP c hc rule hr, ?_⟩
    obtain ⟨hmin, hmax⟩ := hzero c hc rule hr
    rw [scoreFor, hmin, hmax, Int.add_zero]
  refine outputs_eq_of_lockstep (Q := Mirrors P cfg.keyPrefix) ?_
    (mirrors_new hpos cfg.keyPrefix) (hagrees.and hrules)
  rintro m r c h ⟨hc, hrule⟩
  exact h.answer hc hrule

end compare

instance (calls : List (Call R E)) : Decidable (ZeroBounds calls) :=
  inferInstanceAs (Decidable (∀ c ∈ calls, ∀ r ∈ c.rule, _ ∧ _))

/-- The key prefix that the matcher uses if none is given, and no choice of nodes. -/
def sampleConfig : RedisMatcherConfig Unit := ⟨"match:queue:", none⟩

def soloRule : Rule := ⟨"solo", "", 1, 0, 0⟩

/-- Alice waits for snake and cancels, and Bob plays alone. -/
def soloCalls : List (Call String Unit) :=
  [.enqueue "alice" History.snakeRule 1 History.sampleRooms,
    .enqueue "bob" soloRule 7 History.sampleRooms, .cancel "alice"]

theorem redis_agrees_solo : outputs (RedisMatcher.answer sampleConfig) newRedisMatcher soloCalls
      = [.enqueue none none [], .enqueue none (some ["bob"]) [⟨"bob", 7, .ok "room"⟩],
        .cancel true] := by
  have hagrees : Along (fun m c => some (Maker.answer m c).1) (Maker.Agrees sampleConfig)
      newMaker soloCalls := by decide +kernel
  rw [← redis_agrees (by decide +kernel) (by decide +kernel) hagrees]
  rfl

/-- Alice waits for snake and asks for another code, and Bob asks for snake. -/
def pairCalls : List (Call String Unit) :=
  [.enqueue "alice" History.snakeRule 1 History.sampleRooms,
    .enqueue "alice" { History.snakeRule with code := "casual" } 2 History.sampleRooms,
    .enqueue "bob" History.snakeRule 3 History.sampleRooms]

/-- On Redis the second request of Alice is accepted, and only Alice is told, under Bob's number. -/
theorem redis_differs : SamePlayers pairCalls ∧ ZeroBounds pairCalls ∧
      outputs Maker.answer newMaker pairCalls
        = [.enqueue none none [], .enqueue (some .errAlreadyQueued) none [],
          .enqueue none (some ["alice", "bob"])
            [⟨"alice", 1, .ok "room"⟩, ⟨"bob", 3, .ok "room"⟩]] ∧
      outputs (RedisMatcher.answer sampleConfig) newRedisMatcher pairCalls
        = [.enqueue none none [], .enqueue none none [],
          .enqueue none (some ["alice", "bob"]) [⟨"alice", 3, .ok "room"⟩]] :=
  ⟨by decide +kernel, by decide +kernel, by rfl, by rfl⟩

end RanGame.Match
