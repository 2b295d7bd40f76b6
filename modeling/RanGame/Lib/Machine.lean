import Mathlib.Data.List.Basic
import Mathlib.Order.WellFounded

/-!
# Machines: partial step functions, runs and invariants

A concurrent component is a state and a partial step function on labelled actions; an action that is
not enabled steps to `none`. A run is a list of actions. Every prefix of a run is a run, so a
statement about the last state of every run is one about every state reached. `Along step G s as`
says that every action of the run meets `G` in the state it is taken from: an assumption about the
schedule.
-/

namespace RanGame.Machine

open Function

variable {σ α : Type*}

/-- The state after the actions `as`, if each of them is enabled in turn. -/
def run (step : σ → α → Option σ) : σ → List α → Option σ
  | s, [] => some s
  | s, a :: as => (step s a).bind fun s' => run step s' as

/-- Every action of the run meets `G` in the state it is taken from. -/
def Along (step : σ → α → Option σ) (G : σ → α → Prop) : σ → List α → Prop
  | _, [] => True
  | s, a :: as => G s a ∧ ∀ s', step s a = some s' → Along step G s' as

/-- A condition that can be evaluated can be evaluated along a run. -/
instance decidableAlong (step : σ → α → Option σ) (G : σ → α → Prop)
    [∀ s a, Decidable (G s a)] : ∀ (s : σ) (as : List α), Decidable (Along step G s as)
  | _, [] => isTrue trivial
  | s, a :: as =>
    match h : step s a with
    | none => decidable_of_iff (G s a) ⟨fun hg => ⟨hg, by simp [h]⟩, fun hg => hg.1⟩
    | some s' =>
      haveI := decidableAlong step G s' as
      decidable_of_iff (G s a ∧ Along step G s' as)
        ⟨fun hg => ⟨hg.1, by simpa [h] using hg.2⟩, fun hg => ⟨hg.1, hg.2 s' h⟩⟩

variable {step : σ → α → Option σ} {G : σ → α → Prop} {I : σ → Prop}

@[simp] theorem run_nil (s : σ) : run step s [] = some s := rfl

theorem run_cons (s : σ) (a : α) (as : List α) :
    run step s (a :: as) = (step s a).bind fun s' => run step s' as := rfl

theorem run_cons_eq_some {s s' : σ} {a : α} {as : List α} :
    run step s (a :: as) = some s' ↔ ∃ m, step s a = some m ∧ run step m as = some s' := by
  rw [run_cons, Option.bind_eq_some_iff]

/-- What can be evaluated at the end of a run. -/
theorem exists_of_run (step : σ → α → Option σ) (s : σ) (as : List α) (P : σ → Prop)
    [DecidablePred P] (h : (run step s as).any (fun s' => decide (P s')) = true) :
    ∃ s', run step s as = some s' ∧ P s' := by
  obtain ⟨s', hrun, hs'⟩ := (Option.any_eq_true _ _).mp h
  exact ⟨s', hrun, of_decide_eq_true hs'⟩

/-- The same together with what follows from it. -/
theorem exists_of_run_and {s : σ} {as : List α} {P Q : σ → Prop} [DecidablePred P]
    (h : (run step s as).any (fun s' => decide (P s')) = true)
    (hQ : ∀ s', run step s as = some s' → P s' → Q s') :
    ∃ s', run step s as = some s' ∧ P s' ∧ Q s' := by
  obtain ⟨s', hrun, hP⟩ := exists_of_run step s as P h
  exact ⟨s', hrun, hP, hQ s' hrun hP⟩

/-- The same for one more step. -/
theorem exists_of_run_step (step : σ → α → Option σ) (s : σ) (as : List α) (a : α)
    (P : σ → σ → Prop) [∀ m s', Decidable (P m s')]
    (h : (run step s as).any (fun m => (step m a).any fun s' => decide (P m s')) = true) :
    ∃ m s', run step s as = some m ∧ step m a = some s' ∧ P m s' := by
  obtain ⟨m, hrun, hm⟩ := (Option.any_eq_true _ _).mp h
  obtain ⟨s', hstep, hs'⟩ := (Option.any_eq_true _ _).mp hm
  exact ⟨m, s', hrun, hstep, of_decide_eq_true hs'⟩

/-- **The invariant rule.** What steps meeting the condition preserve holds at the end of a run of
them. -/
theorem invariant_of_run (hstep : ∀ s a s', I s → G s a → step s a = some s' → I s')
    {s s' : σ} {as : List α} (hinit : I s) (halong : Along step G s as)
    (hrun : run step s as = some s') : I s' := by
  induction as generalizing s with
  | nil =>
    obtain rfl : s = s' := by simpa using hrun
    exact hinit
  | cons a as ih =>
    obtain ⟨m, hm, hrest⟩ := run_cons_eq_some.mp hrun
    exact ih (hstep s a m hinit halong.1 hm) (halong.2 m hm) hrest

/-- **The backward rule.** What steps meeting the condition cannot undo, and does not hold at the
end, has never held in the run. -/
theorem along_not_of_run (hstep : ∀ s a s', I s → G s a → step s a = some s' → I s')
    {s s' : σ} {as : List α} (halong : Along step G s as) (hrun : run step s as = some s')
    (hend : ¬ I s') : Along step (fun s a => ∀ m, step s a = some m → ¬ I m) s as := by
  induction as generalizing s with
  | nil => trivial
  | cons a as ih =>
    obtain ⟨m, hm, hrest⟩ := run_cons_eq_some.mp hrun
    have hsame : ∀ m', step s a = some m' → m' = m :=
      fun m' hm' => Option.some.inj (hm'.symm.trans hm)
    constructor
    · intro m' hm' hI
      obtain rfl := hsame m' hm'
      exact hend (invariant_of_run hstep hI (halong.2 m' hm) hrest)
    · intro m' hm'
      obtain rfl := hsame m' hm'
      exact ih (halong.2 m' hm) hrest

theorem Along.mono {G' : σ → α → Prop} (hG : ∀ s a, G s a → G' s a) {s : σ} {as : List α}
    (h : Along step G s as) : Along step G' s as := by
  induction as generalizing s with
  | nil => trivial
  | cons a as ih => exact ⟨hG s a h.1, fun s' hs' => ih (h.2 s' hs')⟩

theorem Along.and {G' : σ → α → Prop} {s : σ} {as : List α} (h : Along step G s as)
    (h' : Along step G' s as) : Along step (fun s a => G s a ∧ G' s a) s as := by
  induction as generalizing s with
  | nil => trivial
  | cons a as ih => exact ⟨⟨h.1, h'.1⟩, fun s' hs' => ih (h.2 s' hs') (h'.2 s' hs')⟩

theorem Along.append_right {s s' : σ} {as bs : List α} (h : Along step G s (as ++ bs))
    (hrun : run step s as = some s') : Along step G s' bs := by
  induction as generalizing s with
  | nil =>
    obtain rfl : s = s' := by simpa using hrun
    exact h
  | cons a as ih =>
    obtain ⟨m, hm, hrest⟩ := run_cons_eq_some.mp hrun
    exact ih (h.2 m hm) hrest

theorem along_of_forall_mem {P : α → Prop} {s : σ} {as : List α} (h : ∀ a ∈ as, P a) :
    Along step (fun _ a => P a) s as := by
  induction as generalizing s with
  | nil => trivial
  | cons a as ih =>
    exact ⟨h a (List.mem_cons_self ..), fun _ _ => ih fun b hb => h b (List.mem_cons_of_mem _ hb)⟩

/-- A condition that an invariant guarantees is met along a run. -/
theorem along_of_invariant {P : α → Prop} (hcond : ∀ s a, I s → P a → G s a)
    (hstep : ∀ s a s', I s → P a → step s a = some s' → I s') {s : σ} {as : List α} (hinit : I s)
    (h : ∀ a ∈ as, P a) : Along step G s as := by
  induction as generalizing s with
  | nil => trivial
  | cons a as ih =>
    have ha := h a (List.mem_cons_self ..)
    exact ⟨hcond s a hinit ha, fun s' hs' =>
      ih (hstep s a s' hinit ha hs') fun b hb => h b (List.mem_cons_of_mem _ hb)⟩

/-- Moving a program counter that does not have a property leaves one that has. -/
theorem exists_update_of_not {ι : Type*} [DecidableEq ι] {f : ι → α} {i : ι} {k : α} {P : α → Prop}
    (hi : ¬ P (f i)) (h : ∃ j, P (f j)) : ∃ j, P (update f i k j) := by
  obtain ⟨j, hj⟩ := h
  have hne : j ≠ i := by
    rintro rfl
    exact hi hj
  exact ⟨j, by rwa [update_of_ne hne]⟩

/-- What a counter is about after one of them has moved. -/
theorem of_update {ι : Type*} [DecidableEq ι] {f : ι → α} {i j : ι} {k : α} {P : α → Prop}
    (h : P (update f i k j)) : j = i ∧ P k ∨ j ≠ i ∧ P (f j) := by
  by_cases hj : j = i
  · subst hj
    rw [update_self] at h
    exact .inl ⟨rfl, h⟩
  · rw [update_of_ne hj] at h
    exact .inr ⟨hj, h⟩

/-- What relates old and new counter of the party that moves relates those of every party. -/
theorem rel_update {ι : Type*} [DecidableEq ι] {f : ι → α} {i : ι} {k : α} (R : α → α → Prop)
    (hrefl : ∀ a, R a a) (h : R (f i) k) (j : ι) : R (f j) (update f i k j) := by
  by_cases hj : j = i
  · subst hj
    rwa [update_self]
  · rw [update_of_ne hj]
    exact hrefl _

/-- Changing a record without touching a part leaves that part in the whole table. -/
theorem apply_update_of_eq {ι β γ : Type*} [DecidableEq ι] {f : ι → β} {i : ι} {r : β} (p : β → γ)
    (h : p r = p (f i)) (j : ι) : p (update f i r j) = p (f j) := by
  by_cases hj : j = i
  · subst hj
    rw [update_self, h]
  · rw [update_of_ne hj]

theorem along_true {s : σ} {as : List α} : Along step (fun _ _ => True) s as :=
  along_of_forall_mem fun _ _ => trivial

/-! ### What can be reached -/

/-- There is a run from one state to the other whose steps meet the condition. -/
inductive Reaches (step : σ → α → Option σ) (G : σ → α → Prop) : σ → σ → Prop
  | refl (s : σ) : Reaches step G s s
  | head {s m s' : σ} {a : α} (ha : G s a) (hstep : step s a = some m)
      (hrest : Reaches step G m s') : Reaches step G s s'

theorem Reaches.trans {s m s' : σ} (h : Reaches step G s m) (h' : Reaches step G m s') :
    Reaches step G s s' := by
  induction h with
  | refl => exact h'
  | head ha hstep _ ih => exact .head ha hstep (ih h')

theorem Reaches.mono {G' : σ → α → Prop} (hG : ∀ s a, G s a → G' s a) {s s' : σ}
    (h : Reaches step G s s') : Reaches step G' s s' := by
  induction h with
  | refl => exact .refl _
  | head ha hm _ ih => exact .head (hG _ _ ha) hm ih

theorem reaches_of_run {s s' : σ} {as : List α} (hrun : run step s as = some s')
    (halong : Along step G s as) : Reaches step G s s' := by
  induction as generalizing s with
  | nil =>
    obtain rfl : s = s' := by simpa using hrun
    exact .refl s
  | cons a as ih =>
    obtain ⟨m, hm, hrest⟩ := run_cons_eq_some.mp hrun
    exact .head halong.1 hm (ih hrest (halong.2 m hm))

theorem Reaches.invariant (hstep : ∀ s a s', I s → G s a → step s a = some s' → I s')
    {s s' : σ} (h : Reaches step G s s') (hs : I s) : I s' := by
  induction h with
  | refl => exact hs
  | head ha hm _ ih => exact ih (hstep _ _ _ hs ha hm)

/-- A machine that is a part of another one: what the part can reach, the whole can. -/
theorem Reaches.lift {τ β : Type*} {step' : τ → β → Option τ} {G' : τ → β → Prop} {f : σ → τ}
    {i : α → β} (hsim : ∀ s a s', G s a → step s a = some s' →
      G' (f s) (i a) ∧ step' (f s) (i a) = some (f s'))
    {s s' : σ} (h : Reaches step G s s') : Reaches step' G' (f s) (f s') := by
  induction h with
  | refl => exact .refl _
  | head ha hm _ ih =>
    obtain ⟨ha', hm'⟩ := hsim _ _ _ ha hm
    exact .head ha' hm' ih

/-- **The progress rule.** If, short of the end, some step meeting the condition brings it nearer,
it can be reached. -/
theorem exists_reaches {β : Type*} [LT β] [WellFoundedLT β] {P : σ → Prop} (μ : σ → β)
    (hnear : ∀ s, I s → ¬ P s → ∃ a s', G s a ∧ step s a = some s' ∧ I s' ∧ μ s' < μ s) {s : σ}
    (hs : I s) : ∃ s', Reaches step G s s' ∧ I s' ∧ P s' := by
  induction hn : μ s using WellFoundedLT.induction generalizing s with
  | _ n ih =>
    by_cases hP : P s
    · exact ⟨s, .refl s, hs, hP⟩
    · obtain ⟨a, m, ha, hm, hI, hlt⟩ := hnear s hs hP
      obtain ⟨s', hreach, hI', hP'⟩ := ih (μ m) (hn ▸ hlt) hI rfl
      exact ⟨s', .head ha hm hreach, hI', hP'⟩

/-! ### Machines with outputs

A component that answers every call has a total step function with an output. -/

section outputs

variable {τ ω : Type*}

/-- The outputs of a sequence of calls. -/
def outputs (step : σ → α → σ × ω) : σ → List α → List ω
  | _, [] => []
  | s, a :: as => (step s a).2 :: outputs step (step s a).1 as

/-- **The lockstep rule.** If related states stay related with the same output on every call, so do
sequences. -/
theorem outputs_eq_of_lockstep {step : σ → α → σ × ω} {step' : τ → α → τ × ω}
    {G : σ → α → Prop} {Q : σ → τ → Prop}
    (hsim : ∀ s t a, Q s t → G s a → Q (step s a).1 (step' t a).1 ∧ (step s a).2 = (step' t a).2)
    {s : σ} {t : τ} {as : List α} (hrel : Q s t)
    (halong : Along (fun s a => some (step s a).1) G s as) :
    outputs step s as = outputs step' t as := by
  induction as generalizing s t with
  | nil => rfl
  | cons a as ih =>
    obtain ⟨hrel', hout⟩ := hsim s t a hrel halong.1
    show (step s a).2 :: _ = (step' t a).2 :: _
    rw [hout, ih hrel' (halong.2 _ rfl)]

end outputs

/-! ### Parties of concrete runs

With these instances a numeral in `Fin` refers to a proof by its name and does not come with one of
its own. -/

instance neZero_one : @NeZero ℕ Zero.ofOfNat0 1 := ⟨by decide⟩

instance neZero_two : @NeZero ℕ Zero.ofOfNat0 2 := ⟨by decide⟩

instance neZero_three : @NeZero ℕ Zero.ofOfNat0 3 := ⟨by decide⟩

instance neZero_four : @NeZero ℕ Zero.ofOfNat0 4 := ⟨by decide⟩

end RanGame.Machine
