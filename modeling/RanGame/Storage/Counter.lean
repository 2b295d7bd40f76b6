import RanGame.Lib.Machine
import Mathlib

/-!
# Counters

`IncrBy` adds to a counter and returns its new value. The memory storage does both under one lock.
The SQL backend increments the row with one statement and reads it back with another, outside of a
transaction, so that other increments can fall between the two.
-/

namespace RanGame.Storage

open Function Machine

variable {ι : Type*}

/-- `MemoryStorage.IncrBy` on one counter: what is stored, and what is returned. -/
def memIncrBy (counter delta : ℤ) : ℤ × ℤ := (counter + delta, counter + delta)

/-- The calls made one after the other, each with its result. -/
def memIncrAll (counter : ℤ) : List (ι × ℤ) → List (ι × ℤ)
  | [] => []
  | (i, delta) :: calls =>
    (i, (memIncrBy counter delta).2) :: memIncrAll (memIncrBy counter delta).1 calls

theorem memIncrAll_append (counter : ℤ) (calls : List (ι × ℤ)) (i : ι) (delta : ℤ) :
    memIncrAll counter (calls ++ [(i, delta)]) =
      memIncrAll counter calls ++ [(i, counter + (calls.map Prod.snd).sum + delta)] := by
  induction calls generalizing counter with
  | nil => simp [memIncrAll, memIncrBy]
  | cons call calls ih => simp [memIncrAll, memIncrBy, ih, Int.add_assoc]

/-- As long as every call adds something, no two calls return the same value. -/
theorem memIncrAll_pairwise (counter : ℤ) (calls : List (ι × ℤ)) (hpos : ∀ c ∈ calls, 0 < c.2) :
    (memIncrAll counter calls).Pairwise (·.2 < ·.2) ∧
      ∀ r ∈ memIncrAll counter calls, counter < r.2 := by
  induction calls generalizing counter with
  | nil => simp [memIncrAll]
  | cons call calls ih =>
    have hcall := hpos call (by simp)
    obtain ⟨hpair, hlt⟩ := ih (memIncrBy counter call.2).1 fun c hc => hpos c (by simp [hc])
    refine ⟨List.pairwise_cons.2 ⟨hlt, hpair⟩, fun r hr => ?_⟩
    obtain rfl | hr := List.mem_cons.1 hr
    · simp only [memIncrBy]
      omega
    · have hr := hlt r hr
      simp only [memIncrBy] at hr
      omega

/-- How far a call of `Backend.IncrBy` is. -/
inductive IncrCall
  | notStarted
  /-- The row has been incremented and is still to be read back. -/
  | reading
  /-- `none` is an error of one of the two statements. -/
  | returned (v : Option ℤ)
  deriving DecidableEq

/-- One row of `kv_counter`, and the calls on it. -/
structure SqlCounter (ι : Type*) where
  row : Option ℤ
  calls : ι → IncrCall
  order : List ι

namespace SqlCounter

/-- A SQL statement of a call, which the database executes or refuses. -/
inductive Act (ι : Type*)
  | upsert (i : ι) (ok : Bool)
  | select (i : ι) (ok : Bool)
  deriving DecidableEq

variable [DecidableEq ι] {delta : ι → ℤ} {row : Option ℤ} {s s' : SqlCounter ι} {a : Act ι}

def new (row : Option ℤ) : SqlCounter ι := ⟨row, fun _ => .notStarted, []⟩

/-- A statement of `Backend.IncrBy`: `UpsertCounter` inserts or adds, `SELECT val` reads what is
there by then. -/
def step (delta : ι → ℤ) (s : SqlCounter ι) : Act ι → Option (SqlCounter ι)
  | .upsert i ok =>
    if s.calls i = .notStarted then
      some (if ok then
        ⟨some (s.row.getD 0 + delta i), update s.calls i .reading, s.order ++ [i]⟩
      else { s with calls := update s.calls i (.returned none) })
    else none
  | .select i ok =>
    if s.calls i = .reading then
      some { s with calls := update s.calls i (.returned (if ok then s.row else none)) }
    else none

/-- The calls that have incremented the row, as calls of the memory storage. -/
def history (delta : ι → ℤ) (s : SqlCounter ι) : List (ι × ℤ) := s.order.map fun i => (i, delta i)

/-- No row is incremented while another call has still to read it back. -/
def Undisturbed (s : SqlCounter ι) (a : Act ι) : Prop :=
  ∀ i, a = .upsert i true → ∀ j, s.calls j ≠ .reading

instance [Fintype ι] : Decidable (s.Undisturbed a) :=
  inferInstanceAs (Decidable (∀ i, a = .upsert i true → ∀ j, s.calls j ≠ .reading))

/-- The order of the increments explains what has been returned. -/
structure Explained (delta : ι → ℤ) (row : Option ℤ) (s : SqlCounter ι) : Prop where
  value : s.row.getD 0 = row.getD 0 + ((s.history delta).map Prod.snd).sum
  nodup : s.order.Nodup
  started : ∀ i ∈ s.order, s.calls i ≠ .notStarted
  /-- What the row holds is what the call that reads it should return. -/
  reading : ∀ i, s.calls i = .reading →
    ∃ v, s.row = some v ∧ (i, v) ∈ memIncrAll (row.getD 0) (s.history delta)
  returned : ∀ i v, s.calls i = .returned (some v) →
    (i, v) ∈ memIncrAll (row.getD 0) (s.history delta)

theorem Explained.upsert {i : ι} (h : Explained delta row s) (hi : s.calls i = .notStarted)
    (halone : ∀ j, s.calls j ≠ .reading) :
    Explained delta row
      ⟨some (s.row.getD 0 + delta i), update s.calls i .reading, s.order ++ [i]⟩ := by
  have hresults : memIncrAll (row.getD 0) ((s.order ++ [i]).map fun i => (i, delta i)) =
      memIncrAll (row.getD 0) (s.history delta) ++ [(i, s.row.getD 0 + delta i)] := by
    rw [List.map_append, h.value]
    exact memIncrAll_append ..
  have hnew : i ∉ s.order := fun hmem => h.started i hmem hi
  refine ⟨?_, ?_, fun j hj => ?_, fun j hj => ?_, fun j v hj => ?_⟩
  · simp [history, h.value, Int.add_assoc]
  · simpa [List.nodup_append, h.nodup] using fun j hj => ne_of_mem_of_not_mem hj hnew
  · obtain rfl | hne := eq_or_ne j i
    · simp
    · simpa [hne] using h.started j (by simpa [hne] using hj)
  · obtain rfl | hne := eq_or_ne j i
    · exact ⟨_, rfl, hresults ▸ by simp⟩
    · exact absurd (by simpa [hne] using hj) (halone j)
  · have hne : j ≠ i := by
      rintro rfl
      simp at hj
    exact hresults ▸ List.mem_append_left _ (h.returned j v (by simpa [hne] using hj))

theorem Explained.answer {i : ι} {r : Option ℤ} (h : Explained delta row s)
    (hr : ∀ v, r = some v → (i, v) ∈ memIncrAll (row.getD 0) (s.history delta)) :
    Explained delta row { s with calls := update s.calls i (.returned r) } := by
  refine ⟨h.value, h.nodup, fun j hj => ?_, fun j hj => ?_, fun j v hj => ?_⟩ <;>
    obtain rfl | hne := eq_or_ne j i
  · simp
  · simpa [hne] using h.started j hj
  · simp at hj
  · exact h.reading j (by simpa [hne] using hj)
  · exact hr v (by simpa using hj)
  · exact h.returned j v (by simpa [hne] using hj)

theorem Explained.step (h : Explained delta row s) (hquiet : s.Undisturbed a)
    (hs : s.step delta a = some s') : Explained delta row s' := by
  cases a with
  | upsert i ok =>
    simp only [SqlCounter.step, Option.ite_none_right_eq_some, Option.some.injEq] at hs
    obtain ⟨hi, rfl⟩ := hs
    cases ok with
    | true => exact h.upsert hi (hquiet i rfl)
    | false => exact h.answer nofun
  | select i ok =>
    simp only [SqlCounter.step, Option.ite_none_right_eq_some, Option.some.injEq] at hs
    obtain ⟨hi, rfl⟩ := hs
    refine h.answer fun v hv => ?_
    obtain ⟨w, hw, hmem⟩ := h.reading i hi
    cases ok with
    | true => exact Option.some.inj (hw.symm.trans hv) ▸ hmem
    | false => exact nomatch hv

/-- **While no increment falls between another call's increment and its read, the calls are as if
made one after the other, in the order of their increments.** -/
theorem incrBy_linearizable (delta : ι → ℤ) (row : Option ℤ) (acts : List (Act ι))
    (hrun : run (step delta) (new row) acts = some s)
    (hquiet : Along (step delta) Undisturbed (new row) acts) :
    ∃ order : List ι, order.Nodup ∧ (∀ i ∈ order, s.calls i ≠ .notStarted) ∧
      ∀ i v, s.calls i = .returned (some v) →
        (i, v) ∈ memIncrAll (row.getD 0) (order.map fun i => (i, delta i)) := by
  have hinit : Explained delta row (new row : SqlCounter ι) := by
    constructor <;> simp [new, history]
  have h := invariant_of_run (I := Explained delta row) (fun _ _ _ h hq => h.step hq)
    hinit hquiet hrun
  exact ⟨s.order, h.nodup, h.started, h.returned⟩

theorem incrBy_linearizable_pair : ∃ s, run (step fun _ : Bool => 1) (new (some 4))
        [.upsert false true, .select false true, .upsert true true, .select true true] = some s ∧
      s.calls true = .returned (some 6) ∧
      ∃ order : List Bool, order.Nodup ∧ (∀ i ∈ order, s.calls i ≠ .notStarted) ∧
        ∀ i v, s.calls i = .returned (some v) → (i, v) ∈ memIncrAll 4 (order.map fun i => (i, 1)) :=
  ⟨_, rfl, rfl, incrBy_linearizable (fun _ => 1) (some 4)
    [.upsert false true, .select false true, .upsert true true, .select true true] rfl (by decide)⟩

/-- Two calls that increment before either reads return the same value. -/
theorem incrBy_overlapping : ∃ s, run (step fun _ : Bool => 1) (new none)
        [.upsert false true, .upsert true true, .select false true, .select true true] = some s ∧
      s.calls false = .returned (some 2) ∧ s.calls true = .returned (some 2) ∧
      ∀ order : List Bool, ¬ ∀ i v, s.calls i = .returned (some v) →
        (i, v) ∈ memIncrAll 0 (order.map fun i => (i, 1)) := by
  refine ⟨_, rfl, rfl, rfl, fun order h => ?_⟩
  have hpair := (memIncrAll_pairwise 0 (order.map fun i => (i, 1)) (by simp)).1
  have : Std.Symm fun r r' : Bool × ℤ => r.2 ≠ r'.2 := ⟨fun _ _ hne => hne.symm⟩
  exact (hpair.imp (S := fun r r' => r.2 ≠ r'.2) fun hlt => by omega).forall (h false 2 rfl)
    (h true 2 rfl) (by simp) rfl

end SqlCounter

end RanGame.Storage
