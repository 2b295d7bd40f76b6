import RanGame.Lib.Lines
import Mathlib.Data.Int.Notation

/-!
# The in-process matcher

`internal/match/match.go`. Requests wait in queues, one for each key `module|code`, and `byUID` says
in which queue a player waits. As soon as a queue is as long as the newest request asks for, a table
of that length is taken off its head and settled outside the lock. A request that fills a table is
never entered into `byUID`, so if the requests of one queue ask for different numbers of players,
one can stay behind without an entry.
-/

namespace RanGame.Match

open Function

structure Rule where
  module : String
  code : String
  players : ℤ
  scoreMin : ℤ
  scoreMax : ℤ
  deriving DecidableEq

/-- A request that waits. `S` is what its maker knows it by, the sequence number of its frame. -/
structure Entry (S : Type) where
  uid : String
  seq : S
  rule : Rule
  deriving DecidableEq

inductive Err
  | errAlreadyQueued
  | errBadRule
  deriving DecidableEq

def queueKeyStr (module code : String) : String := module ++ "|" ++ code

def queueKey (rule : Rule) : String := queueKeyStr rule.module rule.code

variable {S R E : Type}

/-- The queues and the index of the matcher. -/
structure Maker (S : Type) where
  queues : String → List (Entry S)
  byUID : PartialMap String String

def newMaker : Maker S := ⟨fun _ => [], fun _ => none⟩

namespace Maker

/-- The locked part of `Enqueue`, with the table that it may take off the queue. -/
def enqueue (m : Maker S) (uid : String) (rule : Rule) (seq : S) :
    Except Err (Maker S × Option (List (Entry S))) :=
  if rule.module = "" ∨ rule.players ≤ 0 then .error .errBadRule
  else if (m.byUID uid).isSome then .error .errAlreadyQueued
  else
    let key := queueKey rule
    let q := m.queues key ++ [⟨uid, seq, rule⟩]
    if (q.length : ℤ) < rule.players then
      .ok (⟨update m.queues key q, m.byUID.insert uid key⟩, none)
    else
      let matched := q.take rule.players.toNat
      let remain := q.drop rule.players.toNat
      -- A request that ends up in `remain` without having waited before gets no entry in `byUID`.
      .ok (⟨update m.queues key remain, m.byUID.eraseAll (matched.map Entry.uid)⟩, some matched)

/-- `Cancel`: was the player waiting? -/
def cancel (m : Maker S) (uid : String) : Maker S × Bool :=
  match m.byUID uid with
  | none => (m, false)
  | some key =>
    (⟨update m.queues key (Lines.leave Entry.uid uid (m.queues key)), m.byUID.erase uid⟩, true)

def queueDepth (m : Maker S) (module code : String) : ℕ :=
  (m.queues (queueKeyStr module code)).length

end Maker

/-! ### Settling a table -/

/-- What the room manager answers while a table is settled. -/
structure Rooms (R E : Type) where
  createRoom : String → Except E R
  /-- The error of `Join`, if it fails. -/
  join : R → String → Option E

/-- The first error on the way through the players of a table. -/
def joinAll (join : String → Option E) : List String → Option E
  | [] => none
  | uid :: uids => match join uid with
    | some err => some err
    | none => joinAll join uids

/-- What settling a table comes to: the room of the table, or why there is none. -/
def settleRoom (rooms : Rooms R E) (module : String) (uids : List String) : Except E R :=
  match rooms.createRoom module with
  | .error err => .error err
  | .ok room => match joinAll (rooms.join room) uids with
    | some err => .error err
    | none => .ok room

/-- One call of the result callback. -/
structure Result (S R E : Type) where
  uid : String
  seq : S
  outcome : Except E R

def notifyAll (matched : List (Entry S)) (outcome : Except E R) : List (Result S R E) :=
  matched.map fun e => ⟨e.uid, e.seq, outcome⟩

/-- `settle`: the room is one of the module that the first request names. -/
def settle (rooms : Rooms R E) (matched : List (Entry S)) : List (Result S R E) :=
  match matched with
  | [] => []
  | e :: _ => notifyAll matched (settleRoom rooms e.rule.module (matched.map Entry.uid))

/-- **Everyone at the table is told once**, under the number of its own request. -/
theorem map_settle (rooms : Rooms R E) (matched : List (Entry S)) :
    (settle rooms matched).map (fun r => (r.uid, r.seq)) = matched.map fun e => (e.uid, e.seq) := by
  cases matched with
  | nil => rfl
  | cons e es => rw [settle, notifyAll, List.map_map]; rfl

/-! ### The lines of the matcher -/

namespace Maker

variable {m m' : Maker S} {uid : String} {rule : Rule} {seq : S} {t : Option (List (Entry S))}

def Indexed (m : Maker S) : Prop := Lines.Indexed Entry.uid m.queues m.byUID

theorem indexed_newMaker : (newMaker : Maker S).Indexed := Lines.indexed_empty

/-- The queue is shorter than the table that the request asks for. -/
def Fits (m : Maker S) (rule : Rule) : Prop :=
  ((m.queues (queueKey rule)).length : ℤ) < rule.players

instance : Decidable (m.Fits rule) := inferInstanceAs (Decidable (_ < _))

theorem free_of_enqueue (h : m.enqueue uid rule seq = .ok (m', t)) :
    rule.module ≠ "" ∧ 0 < rule.players ∧ m.byUID uid = none := by
  unfold enqueue at h
  split at h
  · cases h
  · split at h
    · cases h
    next hrule hfree =>
      rw [not_or, Int.not_le] at hrule
      exact ⟨hrule.1, hrule.2, by simpa using hfree⟩

/-- **A request waits or fills its table**, which is the whole queue if that is shorter. -/
theorem enqueue_of_fits (hfit : m.Fits rule) (h : m.enqueue uid rule seq = .ok (m', t)) :
    (((m.queues (queueKey rule)).length : ℤ) + 1 < rule.players ∧ t = none ∧
      m' = ⟨update m.queues (queueKey rule) (m.queues (queueKey rule) ++ [⟨uid, seq, rule⟩]),
        m.byUID.insert uid (queueKey rule)⟩) ∨
    (((m.queues (queueKey rule)).length : ℤ) + 1 = rule.players ∧
      t = some (m.queues (queueKey rule) ++ [⟨uid, seq, rule⟩]) ∧
      m' = ⟨update m.queues (queueKey rule) [], m.byUID.eraseAll
          ((m.queues (queueKey rule) ++ [(⟨uid, seq, rule⟩ : Entry S)]).map Entry.uid)⟩) := by
  obtain ⟨hmod, hpos, hfree⟩ := free_of_enqueue h
  have hrule : ¬ (rule.module = "" ∨ rule.players ≤ 0) := by
    rw [not_or, Int.not_le]
    exact ⟨hmod, hpos⟩
  simp only [enqueue, hrule, hfree, Option.isSome_none, Bool.false_eq_true, if_false] at h
  have hlen : ((m.queues (queueKey rule) ++ [⟨uid, seq, rule⟩] : List (Entry S)).length : ℤ)
      = ((m.queues (queueKey rule)).length : ℤ) + 1 := by simp
  rw [Fits] at hfit
  split at h
  next hlt =>
    rw [hlen] at hlt
    cases h
    exact .inl ⟨hlt, rfl, rfl⟩
  next hge =>
    have hall : (m.queues (queueKey rule) ++ [⟨uid, seq, rule⟩] : List (Entry S)).length
        ≤ rule.players.toNat := by omega
    rw [List.take_of_length_le hall, List.drop_of_length_le hall] at h
    cases h
    exact .inr ⟨by omega, rfl, rfl⟩

theorem Indexed.enqueue (hm : m.Indexed) (hfit : m.Fits rule)
    (h : m.enqueue uid rule seq = .ok (m', t)) : m'.Indexed := by
  have hfree := (free_of_enqueue h).2.2
  rcases enqueue_of_fits hfit h with ⟨-, -, rfl⟩ | ⟨-, -, rfl⟩
  · exact Lines.Indexed.push hm (a := ⟨uid, seq, rule⟩) hfree
  · exact Lines.Indexed.serve hm (a := ⟨uid, seq, rule⟩) hfree

theorem mem_of_enqueue (h : m.enqueue uid rule seq = .ok (m', t)) {e : Entry S}
    (he : (∃ k, e ∈ m'.queues k) ∨ ∃ T ∈ t, e ∈ T) :
    (∃ k, e ∈ m.queues k) ∨ e = ⟨uid, seq, rule⟩ := by
  obtain ⟨hmod, hpos, hfree⟩ := free_of_enqueue h
  have hrule : ¬ (rule.module = "" ∨ rule.players ≤ 0) := by
    rw [not_or, Int.not_le]
    exact ⟨hmod, hpos⟩
  have key : e ∈ m.queues (queueKey rule) ++ [⟨uid, seq, rule⟩] →
      (∃ k, e ∈ m.queues k) ∨ e = ⟨uid, seq, rule⟩ := by
    intro hmem
    rcases List.mem_append.mp hmem with hmem | hmem
    · exact .inl ⟨_, hmem⟩
    · exact .inr (List.mem_singleton.mp hmem)
  have hqueue : ∀ {k : String} {l : List (Entry S)},
      (∀ f ∈ l, f ∈ m.queues (queueKey rule) ++ [⟨uid, seq, rule⟩]) →
      e ∈ update m.queues (queueKey rule) l k →
      (∃ k, e ∈ m.queues k) ∨ e = ⟨uid, seq, rule⟩ := by
    intro k l hl hmem
    by_cases hk : k = queueKey rule
    · subst hk
      rw [update_self] at hmem
      exact key (hl e hmem)
    · rw [update_of_ne hk] at hmem
      exact .inl ⟨k, hmem⟩
  simp only [enqueue, hrule, hfree, Option.isSome_none, Bool.false_eq_true, if_false] at h
  split at h <;> cases h
  · rcases he with ⟨k, hk⟩ | ⟨T, hT, -⟩
    · exact hqueue (fun f hf => hf) hk
    · cases hT
  · rcases he with ⟨k, hk⟩ | ⟨T, hT, he⟩
    · exact hqueue (fun f hf => List.mem_of_mem_drop hf) hk
    · cases hT
      exact key (List.mem_of_mem_take he)

theorem cancel_of_none (h : m.byUID uid = none) : m.cancel uid = (m, false) := by
  rw [cancel, h]

theorem cancel_of_some {key : String} (h : m.byUID uid = some key) :
    m.cancel uid = (⟨update m.queues key (Lines.leave Entry.uid uid (m.queues key)),
      m.byUID.erase uid⟩, true) := by
  rw [cancel, h]

theorem Indexed.cancel (hm : m.Indexed) (uid : String) : (m.cancel uid).1.Indexed := by
  rcases hkey : m.byUID uid with _ | key
  · rwa [cancel_of_none hkey]
  · rw [cancel_of_some hkey]
    exact Lines.Indexed.leave hm hkey

theorem byUID_cancel (uid : String) : (m.cancel uid).1.byUID = m.byUID.erase uid := by
  rcases hkey : m.byUID uid with _ | key
  · rw [cancel_of_none hkey, PartialMap.erase, ← hkey, update_eq_self]
  · rw [cancel_of_some hkey]

theorem found_cancel (uid : String) : (m.cancel uid).2 = (m.byUID uid).isSome := by
  rcases hkey : m.byUID uid with _ | key
  · rw [cancel_of_none hkey]
    rfl
  · rw [cancel_of_some hkey]
    rfl

theorem Indexed.mem_cancel (hm : m.Indexed) (uid k u : String) :
    u ∈ ((m.cancel uid).1.queues k).map Entry.uid ↔ u ≠ uid ∧ u ∈ (m.queues k).map Entry.uid := by
  rw [← (hm.cancel uid).mem_iff, byUID_cancel, PartialMap.erase_eq_some, hm.mem_iff]

theorem cancel_sublist (uid k : String) :
    List.Sublist ((m.cancel uid).1.queues k) (m.queues k) := by
  rcases hkey : m.byUID uid with _ | key
  · rw [cancel_of_none hkey]
  · rw [cancel_of_some hkey]
    show List.Sublist (update m.queues key _ k) (m.queues k)
    by_cases hk : k = key
    · subst hk
      rw [update_self]
      exact List.eraseP_sublist
    · rw [update_of_ne hk]

end Maker

end RanGame.Match
