import RanGame.Lib.PartialMap
import Mathlib.Data.Int.Init
import Mathlib.Data.List.Nodup

/-!
# A keyspace of strings and sets

A Redis server, as far as strings and sets go: a command that expects the other kind of value is
refused with `WRONGTYPE`. A script runs several commands as one; if one is refused the script ends
there, and what it has done stays done. `Ensures` is total correctness, with one rule for each
command; `Writes` says which strings a script may leave.
-/

namespace RanGame

open Function PartialMap EStateM

/-- The members of a set, at least one, as they were added; the server promises no order. -/
structure MemberSet (B : Type) where
  toList : List B
  nodup : toList.Nodup
  ne_nil : toList ≠ []

namespace MemberSet

variable {B : Type} [DecidableEq B]

def singleton (x : B) : MemberSet B := ⟨[x], List.nodup_singleton x, List.cons_ne_nil x []⟩

def add (s : MemberSet B) (x : B) : MemberSet B where
  toList := s.toList.insert x
  nodup := s.nodup.insert
  ne_nil := List.ne_nil_of_mem (List.mem_insert_self ..)

/-- The set without a member, if one is left. -/
def remove (s : MemberSet B) (x : B) : Option (MemberSet B) :=
  if h : s.toList.erase x = [] then none else some ⟨s.toList.erase x, s.nodup.erase x, h⟩

end MemberSet

inductive Keyspace.Value (B : Type)
  | str (s : B)
  | set (members : MemberSet B)

/-- The keys of a server. Keys, strings and members are of one type. -/
abbrev Keyspace (B : Type) := PartialMap B (Keyspace.Value B)

namespace Keyspace

variable {B α β : Type}

inductive Failure
  | wrongType
  | invalidExpire
  deriving DecidableEq

/-- Commands that are run as one. -/
abbrev Script (B α : Type) := EStateM Failure (Keyspace B) α

/-! ### Commands -/

section commands

variable [DecidableEq B]

def get (k : B) : Script B (Option B) := fun db =>
  match db k with
  | none => .ok none db
  | some (.str v) => .ok (some v) db
  | some (.set _) => .error .wrongType db

/-- `SET` with `EX`, which replaces anything, for a positive time to live. -/
def set (k v : B) (ex : ℤ) : Script B Unit := fun db =>
  if 0 < ex then .ok () (db.insert k (.str v)) else .error .invalidExpire db

def del (k : B) : Script B Unit := fun db => .ok () (db.erase k)

/-- A pipeline of `DEL`s. -/
def delAll : List B → Script B Unit
  | [] => pure ()
  | k :: ks => do
    del k
    delAll ks

def sadd (k x : B) : Script B Unit := fun db =>
  match db k with
  | none => .ok () (db.insert k (.set (.singleton x)))
  | some (.set s) => .ok () (db.insert k (.set (s.add x)))
  | some (.str _) => .error .wrongType db

def srem (k x : B) : Script B Unit := fun db =>
  match db k with
  | none => .ok () db
  | some (.set s) => .ok () (update db k ((s.remove x).map .set))
  | some (.str _) => .error .wrongType db

def smembers (k : B) : Script B (List B) := fun db =>
  match db k with
  | none => .ok [] db
  | some (.set s) => .ok s.toList db
  | some (.str _) => .error .wrongType db

/-- `EXPIRE`: a key whose time is up already is removed. Nothing expires later. -/
def expire (k : B) (seconds : ℤ) : Script B Unit := fun db =>
  .ok () (if 0 < seconds then db else db.erase k)

end commands

/-! ### What a script does -/

/-- The script ends without an error, with a result and a keyspace of which `Q` is true. -/
def Ensures (m : Script B α) (db : Keyspace B) (Q : α → Keyspace B → Prop) : Prop :=
  ∃ a db', m.run db = .ok a db' ∧ Q a db'

/-- The members of the set at a key, which may be absent but not a string. -/
def setAt (db : Keyspace B) (k : B) : Option (List B) :=
  match db k with
  | none => some []
  | some (.set s) => some s.toList
  | some (.str _) => none

variable {db db' : Keyspace B} {k x : B} {l : List B} {Q : α → Keyspace B → Prop}

theorem ensures_pure {a : α} (h : Q a db) : Ensures (pure a) db Q := ⟨a, db, rfl, h⟩

theorem ensures_bind {m : Script B β} {f : β → Script B α}
    (h : Ensures m db fun b db' => Ensures (f b) db' Q) : Ensures (m >>= f) db Q := by
  obtain ⟨b, db₁, hm, a, db₂, hf, hQ⟩ := h
  refine ⟨a, db₂, ?_, hQ⟩
  rw [run_bind, hm]
  exact hf

theorem Ensures.bind {m : Script B β} {f : β → Script B α} {P : β → Keyspace B → Prop}
    (hm : Ensures m db P) (hf : ∀ b db', P b db' → Ensures (f b) db' Q) :
    Ensures (m >>= f) db Q := by
  obtain ⟨b, db', hrun, hP⟩ := hm
  exact ensures_bind ⟨b, db', hrun, hf b db' hP⟩

theorem setAt_congr (h : db' k = db k) : db'.setAt k = db.setAt k := by
  rw [setAt, setAt, h]

theorem ensures_get {Q : Option B → Keyspace B → Prop} {r : Option B} (hk : db k = r.map .str)
    (h : Q r db) : Ensures (get k) db Q := by
  refine ⟨r, db, ?_, h⟩
  cases r with
  | none => simp only [run, get, hk, Option.map_none]
  | some v => simp only [run, get, hk, Option.map_some]

theorem setAt_of_none (hk : db k = none) : db.setAt k = some [] := by
  rw [setAt, hk]

theorem setAt_of_set {s : MemberSet B} (hk : db k = some (.set s)) :
    db.setAt k = some s.toList := by
  rw [setAt, hk]

theorem setAt_eq_some : db.setAt k = some l ↔
    db k = none ∧ l = [] ∨ ∃ s, db k = some (.set s) ∧ l = s.toList := by
  constructor
  · intro h
    cases hk : db k with
    | none =>
      rw [setAt_of_none hk] at h
      exact .inl ⟨rfl, (Option.some.inj h).symm⟩
    | some v =>
      cases v with
      | str v =>
        rw [setAt, hk] at h
        cases h
      | set s =>
        rw [setAt_of_set hk] at h
        exact .inr ⟨s, rfl, (Option.some.inj h).symm⟩
  · rintro (⟨hk, rfl⟩ | ⟨s, hk, rfl⟩)
    · exact setAt_of_none hk
    · exact setAt_of_set hk

theorem ensures_smembers {Q : List B → Keyspace B → Prop} (hk : db.setAt k = some l)
    (h : Q l db) : Ensures (smembers k) db Q := by
  refine ⟨l, db, ?_, h⟩
  rw [run, smembers]
  obtain ⟨hdb, rfl⟩ | ⟨s, hdb, rfl⟩ := setAt_eq_some.mp hk
  · rw [hdb]
  · rw [hdb]

variable [DecidableEq B]

theorem ensures_set {Q : Unit → Keyspace B → Prop} {v : B} {ex : ℤ} (hex : 0 < ex)
    (h : Q () (db.insert k (.str v))) : Ensures (set k v ex) db Q := by
  refine ⟨(), _, ?_, h⟩
  rw [run, set, if_pos hex]

theorem ensures_del {Q : Unit → Keyspace B → Prop} (h : Q () (db.erase k)) : Ensures (del k) db Q :=
  ⟨(), _, rfl, h⟩

theorem ensures_delAll {Q : Unit → Keyspace B → Prop} {ks : List B}
    (h : ∀ db' : Keyspace B, (∀ j, db' j = if j ∈ ks then none else db j) → Q () db') :
    Ensures (delAll ks) db Q := by
  induction ks generalizing db with
  | nil => exact ensures_pure (h db fun j => by simp)
  | cons k ks ih =>
    refine ensures_bind (ensures_del (ih fun db' hdb' => h db' fun j => ?_))
    rw [hdb']
    by_cases hj : j = k
    · subst hj
      simp
    · simp [hj, erase_of_ne hj]

theorem ensures_expire {Q : Unit → Keyspace B → Prop} {seconds : ℤ} (hpos : 0 < seconds)
    (h : Q () db) : Ensures (expire k seconds) db Q := by
  refine ⟨(), db, ?_, h⟩
  rw [run, expire, if_pos hpos]

theorem ensures_sadd {Q : Unit → Keyspace B → Prop} (hk : db.setAt k = some l)
    (h : ∀ db' : Keyspace B, (∀ j, j ≠ k → db' j = db j) →
      (∃ l', db'.setAt k = some l' ∧ ∀ y, y ∈ l' ↔ y = x ∨ y ∈ l) → Q () db') :
    Ensures (sadd k x) db Q := by
  have hother : ∀ (v : Value B) (j : B), j ≠ k → db.insert k v j = db j :=
    fun v j hj => insert_of_ne hj
  obtain ⟨hdb, rfl⟩ | ⟨s, hdb, rfl⟩ := setAt_eq_some.mp hk
  · refine ⟨(), db.insert k (.set (.singleton x)), ?_, h _ (hother _) ⟨[x], ?_, by simp⟩⟩
    · rw [run, sadd, hdb]
    · exact setAt_of_set insert_self
  · refine ⟨(), db.insert k (.set (s.add x)), ?_,
      h _ (hother _) ⟨s.toList.insert x, ?_, fun y => List.mem_insert_iff⟩⟩
    · rw [run, sadd, hdb]
    · exact setAt_of_set insert_self

theorem setAt_update_remove (s : MemberSet B) :
    setAt (update db k ((s.remove x).map .set)) k = some (s.toList.erase x) := by
  by_cases hnil : s.toList.erase x = []
  · rw [MemberSet.remove, dif_pos hnil, hnil]
    exact setAt_of_none (update_self ..)
  · rw [MemberSet.remove, dif_neg hnil]
    exact setAt_of_set (update_self ..)

theorem ensures_srem {Q : Unit → Keyspace B → Prop} (hk : db.setAt k = some l)
    (h : ∀ db' : Keyspace B, (∀ j, j ≠ k → db' j = db j) →
      (∃ l', db'.setAt k = some l' ∧ ∀ y, y ∈ l' ↔ y ≠ x ∧ y ∈ l) → Q () db') :
    Ensures (srem k x) db Q := by
  obtain ⟨hdb, rfl⟩ | ⟨s, hdb, rfl⟩ := setAt_eq_some.mp hk
  · refine ⟨(), db, ?_, h db (fun _ _ => rfl) ⟨[], hk, by simp⟩⟩
    rw [run, srem, hdb]
  · refine ⟨(), update db k ((s.remove x).map .set), ?_, h _ (fun j hj => update_of_ne hj ..)
      ⟨s.toList.erase x, setAt_update_remove s, fun y => s.nodup.mem_erase_iff⟩⟩
    rw [run, srem, hdb]

/-! ### The strings a script writes -/

def strAt (db : Keyspace B) (k : B) : Option B :=
  match db k with
  | some (.str v) => some v
  | _ => none

/-- What a script leaves behind, also if it fails. -/
def after (m : Script B α) (db : Keyspace B) : Keyspace B :=
  match m.run db with
  | .ok _ db' | .error _ db' => db'

/-- The strings after a script are those before it, and what meets `P`. -/
def Writes (P : B → B → Prop) (m : Script B α) : Prop :=
  ∀ db j w, (after m db).strAt j = some w → strAt db j = some w ∨ P j w

section writes

variable {P : B → B → Prop} {m : Script B α} {f : α → Script B β} {v w : B}

omit [DecidableEq B] in
theorem writes_bind (hm : Writes P m) (hf : ∀ a, Writes P (f a)) : Writes P (m >>= f) := by
  intro db j w h
  have hdb := hm db j w
  rw [after] at h hdb
  rw [run_bind] at h
  cases hrun : m.run db with
  | ok a db' =>
    rw [hrun] at h hdb
    exact (hf a db' j w h).elim hdb .inr
  | error e db' =>
    rw [hrun] at h hdb
    exact hdb h

omit [DecidableEq B] in
theorem writes_of_strAt (h : ∀ db, strAt (after m db) = strAt db) : Writes P m :=
  fun db _ _ hw => .inl (h db ▸ hw)

theorem strAt_erase : strAt (db.erase k) x = some w ↔ x ≠ k ∧ strAt db x = some w := by
  by_cases h : x = k
  · simp [strAt, h]
  · simp [strAt, h, erase_of_ne h]

theorem strAt_update {u : Option (Value B)} (hk : strAt db k = none)
    (hu : strAt (update db k u) k = none) : strAt (update db k u) = strAt db := by
  funext j
  by_cases hj : j = k
  · rw [hj, hk, hu]
  · rw [strAt, strAt, update_of_ne hj]

theorem strAt_after_srem : strAt (after (srem k x) db) = strAt db := by
  rw [after, run, srem]
  cases hk : db k with
  | none => rfl
  | some u =>
    cases u with
    | str v => rfl
    | set s =>
      refine strAt_update (by rw [strAt, hk]) ?_
      rw [strAt, update_self]
      cases s.remove x <;> rfl

theorem strAt_after_sadd : strAt (after (sadd k x) db) = strAt db := by
  rw [after, run, sadd]
  cases hk : db k with
  | none => exact strAt_update (by rw [strAt, hk]) (by rw [strAt, update_self])
  | some u =>
    cases u with
    | str v => rfl
    | set s => exact strAt_update (by rw [strAt, hk]) (by rw [strAt, update_self])

theorem writes_set {ex : ℤ} (h : P k v) : Writes P (set k v ex) := by
  intro db j w hw
  by_cases hex : 0 < ex
  · simp only [after, run, set, if_pos hex] at hw
    by_cases hj : j = k
    · rw [hj, strAt, insert_self] at hw
      exact .inr (hj ▸ Option.some.inj hw ▸ h)
    · rw [strAt, insert_of_ne hj] at hw
      exact .inl hw
  · simp only [after, run, set, if_neg hex] at hw
    exact .inl hw

theorem writes_expire {seconds : ℤ} : Writes P (expire k seconds) := by
  intro db j w (hw : strAt (if 0 < seconds then db else db.erase k) j = some w)
  split at hw
  · exact .inl hw
  · exact .inl (strAt_erase.mp hw).2

end writes

end Keyspace

end RanGame
