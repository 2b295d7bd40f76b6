import RanGame.App.Patches

/-!
# Who writes the profile

A stopped actor still has its copy of the profile, and saves it in `OnStop`; what has been patched
through the next actor, or by a room itself, is lost then, unless whoever writes a patch is the only
one with a copy.
-/

namespace RanGame.App

open Actor Machine Storage PartialMap PlayerActor

namespace PlayerActor

variable {n : ℕ} {V : Type} {actor : PlayerActor n V} {p : PlayerProfile V}

/-- The actor will not save any more. -/
def retired (actor : PlayerActor n V) : Bool :=
  match actor.proc.run with
  | .stopped => !actor.pending
  | .deleting | .gone => true
  | _ => false

/-- The profile that the actor may still save. -/
def copy (actor : PlayerActor n V) : Option (PlayerProfile V) :=
  if actor.retired then none else actor.profile

theorem copy_eq_some : actor.copy = some p ↔ actor.retired = false ∧ actor.profile = some p := by
  unfold copy
  rcases actor.retired <;> simp

theorem retired_of_calling (hrun : actor.proc.run.calling = true)
    (hpending : actor.pending = true ∨ actor.proc.run ≠ .stopped) : actor.retired = false := by
  unfold retired
  split
  next hstopped =>
    rcases hpending with hpending | hne
    · simp [hpending]
    · exact absurd hstopped hne
  next hdeleting => simp [hdeleting, Goroutine.calling] at hrun
  next hgone => simp [hgone, Goroutine.calling] at hrun
  · rfl

theorem retired_follow {pol : Policy} {a : ProcessAct n} {q : Process n}
    (hstep : actor.proc.step pol a = some q) (hretired : actor.retired = true) :
    (actor.follow a q).retired = true := by
  unfold retired at hretired ⊢
  have hfollow : (actor.follow a q).proc = q := rfl
  rw [hfollow]
  cases Process.happens_of_step hstep with
  | onStopEnd | delete => rfl
  | initEnd hrun | receive hrun | signal hrun | handleEnd hrun | batchEnd hrun | drainEnd hrun
  | finish hrun => simp [hrun] at hretired
  | _ => exact hretired

theorem retired_settle (hrun : actor.proc.run ≠ .stopped) (profile : Option (PlayerProfile V)) :
    retired { actor with profile := profile, pending := false } = actor.retired := by
  unfold retired
  simp only
  rcases hr : actor.proc.run
  case stopped => exact absurd hr hrun
  all_goals rfl

end PlayerActor

namespace Profiles

variable {n : ℕ} {V : Type} {pol : Policy} {msgs : Fin n → Message V}

/-- Is the actor about to apply a patch? -/
def patching (msgs : Fin n → Message V) (s : Profiles n V) (id : ℕ) : Bool :=
  (s.actors id).any fun actor => actor.proc.run.current.any fun i => (msgs i).isPatch

/-- No actor but those that are excepted has a copy. -/
def Unheld (s : Profiles n V) (except : ℕ → Prop) : Prop :=
  ∀ id ≤ s.nextID, ¬ except id → ∀ actor ∈ s.actors id, actor.copy.isNone = true

/-- The number of patches acknowledged when the call loaded the profile. -/
def seen : PatchCall V → Option ℕ
  | .storing _ seen => some seen
  | _ => none

/-- A patch is written when nobody else has a copy, by a room only if there was no patch since it
loaded. -/
def SingleWriter (msgs : Fin n → Message V) (s : Profiles n V) : PatchAct n → Prop
  | .callback id => s.patching msgs id = true → s.Unheld (· = id)
  | .store i => (∀ k ∈ seen (s.calls i), k = s.acks.length) ∧ s.Unheld fun _ => False
  | _ => True

instance (s : Profiles n V) (except : ℕ → Prop) [DecidablePred except] :
    Decidable (s.Unheld except) :=
  inferInstanceAs (Decidable (∀ id ≤ s.nextID, ¬ except id →
    ∀ actor ∈ s.actors id, actor.copy.isNone = true))

instance (s : Profiles n V) (a : PatchAct n) : Decidable (s.SingleWriter msgs a) := by
  unfold SingleWriter
  split <;> infer_instance

/-- What is stored, and every copy, is what the acknowledged patches make of the initial profile. -/
structure Coherent (msgs : Fin n → Message V) (initial : PlayerProfile V) (s : Profiles n V) :
    Prop where
  fresh : ∀ id, s.nextID < id → s.actors id = none
  copies : ∀ id actor p, s.actors id = some actor → actor.copy = some p → p = s.value
  /-- What a room has loaded, if no patch has been written since. -/
  loaded : ∀ i p k, s.calls i = .storing p k → k ≤ s.acks.length ∧ (k = s.acks.length → p = s.value)
  value : s.value = (s.acks.map fun i => (msgs i).fields).foldl applyProfilePatch initial

theorem coherent_newProfiles (stored : Option (PlayerProfile V)) :
    (newProfiles n stored).Coherent msgs (load stored) where
  fresh := fun _ _ => rfl
  copies := fun _ _ _ h => by cases h
  loaded := fun _ _ _ h => by cases h
  value := rfl

variable {initial : PlayerProfile V} {s s' : Profiles n V}

variable {id : ℕ} {actor : PlayerActor n V} {i : Fin n} {profile : Option (PlayerProfile V)}

section

variable (h : s.Coherent msgs initial)

include h

theorem Coherent.le_nextID (hid : s.actors id = some actor) : id ≤ s.nextID := by
  by_contra hlt
  rw [h.fresh id (Nat.lt_of_not_le hlt)] at hid
  cases hid

theorem Coherent.fresh_insert (hid : s.actors id = some actor) (actor' : PlayerActor n V) {j : ℕ}
    (hj : s.nextID < j) : s.actors.insert id actor' j = none := by
  have hne : j ≠ id := by
    rintro rfl
    exact absurd (h.le_nextID hid) (Nat.not_le_of_lt hj)
  exact (insert_of_ne hne).trans (h.fresh j hj)

theorem Coherent.copy_of_unheld {except : ℕ → Prop} (hunheld : s.Unheld except)
    {p : PlayerProfile V} (hne : ¬ except id) (hid : s.actors id = some actor) :
    actor.copy ≠ some p := by
  intro hp
  have hnone := hunheld id (h.le_nextID hid) hne actor hid
  rw [hp] at hnone
  cases hnone

theorem Coherent.setActor (hid : s.actors id = some actor) (actor' : PlayerActor n V)
    (hcopy : ∀ p, actor'.copy = some p → p = s.value) {stored : Option (PlayerProfile V)}
    (hstored : load stored = s.value) :
    Coherent msgs initial { s.setActor id actor' with stored := stored } where
  fresh := fun _ => h.fresh_insert hid actor'
  copies := by
    intro j b p hj hp
    refine Eq.trans ?_ hstored.symm
    rcases insert_eq_some.mp hj with ⟨-, rfl⟩ | ⟨-, hj⟩
    · exact hcopy p hp
    · exact h.copies j b p hj hp
  loaded := fun i p k hi => ⟨(h.loaded i p k hi).1, fun hk =>
    ((h.loaded i p k hi).2 hk).trans hstored.symm⟩
  value := hstored.trans h.value

theorem Coherent.setCall {c : PatchCall V}
    (hc : ∀ p k, c = .storing p k → k = s.acks.length ∧ p = s.value) :
    (s.setCall i c).Coherent msgs initial where
  __ := h
  loaded := by
    intro j p k hj
    rcases of_update (P := (· = PatchCall.storing p k)) hj with ⟨-, heq⟩ | ⟨-, hj⟩
    · exact ⟨Nat.le_of_eq (hc p k heq).1, fun _ => (hc p k heq).2⟩
    · exact h.loaded j p k hj

/-- **A patch is written**, and every copy is the new profile. -/
theorem Coherent.acknowledge {actors : PartialMap ℕ (PlayerActor n V)}
    (hfresh : ∀ id, s.nextID < id → actors id = none)
    (hcopies : ∀ id actor p, actors id = some actor → actor.copy = some p →
      p = applyProfilePatch s.value (msgs i).fields) :
    Coherent msgs initial (Profiles.acknowledge { s with actors := actors } i
      (some (applyProfilePatch s.value (msgs i).fields))) where
  fresh := hfresh
  copies := hcopies
  loaded := by
    intro j p k hj
    show k ≤ (s.acks ++ [i]).length ∧ (k = (s.acks ++ [i]).length → _)
    rw [List.length_append, List.length_singleton]
    rcases of_update (P := (· = PatchCall.storing p k)) hj with ⟨-, heq⟩ | ⟨-, hj⟩
    · cases heq
    · have hle := (h.loaded j p k hj).1
      exact ⟨by omega, fun hk => by omega⟩
  value := by
    show applyProfilePatch s.value (msgs i).fields = _
    rw [acknowledge_acks, List.map_append, List.foldl_append, ← h.value]
    rfl

end

theorem applyPatch_eq (fields : Patch V) (hprofile : ∀ p, profile = some p → p = s.value) :
    (applyPatch profile s.stored fields).2 = some (applyProfilePatch s.value fields) ∧
      ∀ p, (applyPatch profile s.stored fields).1 = some p →
        p = applyProfilePatch s.value fields := by
  rcases profile with _ | q
  · refine ⟨rfl, fun p hp => ?_⟩
    cases hp
  · obtain rfl := hprofile q rfl
    exact ⟨rfl, fun p hp => (Option.some.inj hp).symm⟩

section

variable (h : s.Coherent msgs initial)

include h

theorem Coherent.spawnPlayer (now : ℤ) : (s.spawnPlayer now).Coherent msgs initial := by
  refine ⟨?_, ?_, h.loaded, h.value⟩
  · intro id hid
    exact (insert_of_ne (Nat.ne_of_gt hid)).trans (h.fresh id (Nat.lt_of_succ_lt hid))
  · intro id actor p hid hp
    rcases insert_eq_some.mp hid with ⟨-, rfl⟩ | ⟨-, hid⟩
    · cases (copy_eq_some.mp hp).2
    · exact h.copies id actor p hid hp

theorem Coherent.profile_eq (hid : s.actors id = some actor) (hretired : actor.retired = false)
    (p : PlayerProfile V) (hp : actor.profile = some p) : p = s.value :=
  h.copies id actor p hid (copy_eq_some.mpr ⟨hretired, hp⟩)

theorem Coherent.patch (hid : s.actors id = some actor) (hretired : actor.retired = false)
    (hunheld : s.Unheld (· = id)) :
    Coherent msgs initial ((s.setActor id { actor with
      profile := (applyPatch actor.profile s.stored (msgs i).fields).1
      pending := false }).acknowledge i
        (applyPatch actor.profile s.stored (msgs i).fields).2) := by
  obtain ⟨hstored, hcopy⟩ := applyPatch_eq (msgs i).fields (h.profile_eq hid hretired)
  rw [hstored]
  refine h.acknowledge (fun j => h.fresh_insert hid _) fun j b p hj hp => ?_
  rcases insert_eq_some.mp hj with ⟨-, rfl⟩ | ⟨hne, hj⟩
  · exact hcopy p (copy_eq_some.mp hp).2
  · exact absurd hp (h.copy_of_unheld hunheld hne hj)

theorem Coherent.step {a : PatchAct n} (ha : s.SingleWriter msgs a)
    (hstep : s.step pol msgs a = some s') : s'.Coherent msgs initial := by
  cases happens_of_step hstep with
  | relogin => exact h
  | release => exact { h with }
  | login => exact h.spawnPlayer _
  | act hid hp =>
    refine h.setActor hid _ (fun p hcopy => ?_) rfl
    obtain ⟨hretired, hprofile⟩ := copy_eq_some.mp hcopy
    refine h.copies _ _ p hid (copy_eq_some.mpr ⟨?_, hprofile⟩)
    by_contra hne
    rw [retired_follow hp (by simpa using hne)] at hretired
    cases hretired
  | init hid hrun =>
    refine h.setActor hid _ (fun p hcopy => ?_) rfl
    exact (Option.some.inj (copy_eq_some.mp hcopy).2).symm
  | @patch id actor i recv fields hid hrun hmsg =>
    have hretired : actor.retired = false :=
      retired_of_calling (by rw [hrun]; rfl) (.inr (by simp [hrun]))
    have hunheld := ha (by simp [patching, hid, hrun, Goroutine.current, hmsg, Message.isPatch])
    obtain rfl : fields = (msgs i).fields := by rw [hmsg]; rfl
    exact h.patch hid hretired hunheld
  | @invoke id actor hid hrun =>
    refine h.setActor hid _ (fun p hcopy => ?_) rfl
    obtain ⟨hretired, hp⟩ := copy_eq_some.mp hcopy
    exact h.profile_eq hid ((retired_settle hrun _).symm.trans hretired) p hp
  | @save id actor hid hpending hrun =>
    -- a save writes what is stored already
    have hprofile := h.profile_eq hid (retired_of_calling hrun (.inl hpending))
    refine h.setActor hid { actor with pending := false } (fun p hcopy => ?_) ?_
    · exact hprofile p (copy_eq_some.mp hcopy).2
    · rcases hq : actor.profile with _ | q
      · rfl
      · exact hprofile q hq
  | resolve hc =>
    refine h.setCall fun p k heq => ?_
    rcases hc with rfl | ⟨id, rfl⟩ <;> cases heq
  | fallBack => exact h.setCall fun p k heq => by cases heq
  | load =>
    refine h.setCall fun p k heq => ?_
    obtain ⟨rfl, rfl⟩ := PatchCall.storing.inj heq
    exact ⟨rfl, rfl⟩
  | @store i p k hi =>
    obtain rfl : p = s.value := (h.loaded i p k hi).2 (ha.1 k (by rw [hi]; rfl))
    refine h.acknowledge h.fresh fun j b q hj hq => ?_
    exact absurd hq (h.copy_of_unheld ha.2 id hj)

end

/-- **An acknowledged patch is not overwritten**, if its writer has the only copy. -/
theorem patch_not_overwritten {stored : Option (PlayerProfile V)} {acts : List (PatchAct n)}
    (hrun : run (step pol msgs) (newProfiles n stored) acts = some s)
    (hsingle : Along (step pol msgs) (SingleWriter msgs) (newProfiles n stored) acts)
    {f : Field} {v : f.Content V} {before after : List (Fin n)} {i : Fin n}
    (hacks : s.acks = before ++ i :: after) (hi : assigned (msgs i).fields f = some v)
    (hafter : ∀ j ∈ after, assigned (msgs j).fields f = none) : s.value.get f = v := by
  have h : s.Coherent msgs (load stored) :=
    invariant_of_run (I := Coherent msgs (load stored))
      (fun _ _ _ h ha hstep => h.step ha hstep) (coherent_newProfiles stored) hsingle hrun
  rw [h.value, hacks, List.map_append, List.map_cons]
  refine get_foldl_of_last _ f hi fun fields hfields => ?_
  obtain ⟨j, hj, rfl⟩ := List.mem_map.mp hfields
  exact hafter j hj

def startActs (id : ℕ) : List (PatchAct n) := [.login 0, .callback id, .act id (.initEnd false)]

def patchActs (id : ℕ) (i : Fin n) : List (PatchAct n) :=
  [.resolve i, .act id (.lookup i), .act id (.send i), .act id .receive, .callback id,
    .act id (.handleEnd false), .act id .batchEnd]

/-- An actor that has been told to stop does so: it saves its copy and is gone. -/
def stopActs (id : ℕ) : List (PatchAct n) :=
  [.act id .signal, .act id .drainEnd, .act id .finish, .callback id, .act id (.onStopEnd false),
    .act id .delete]

def logoutActs (id : ℕ) : List (PatchAct n) := [.release, .act id .stop, .act id .setStopping]

def sampleMsgs (i : Fin 3) : Message String :=
  if i = 0 then .patch [("level", .int 5)]
  else if i = 1 then .patch [("extra.snake_total_score", .int 70)]
  else .patch [("level", .int 6)]

/-- The level goes up online, and again after the next login; the score is entered in between. -/
def orderlyActs : List (PatchAct 3) :=
  startActs 1 ++ patchActs 1 0 ++ logoutActs 1 ++ stopActs 1 ++ [.resolve 1, .load 1, .store 1] ++
    startActs 2 ++ patchActs 2 2

theorem patch_not_overwritten_orderly : ∃ s,
    run (step playerPolicy sampleMsgs) (newProfiles 3 none) orderlyActs = some s ∧
      s.acks = [0, 1, 2] ∧ s.value.get .level = 6 ∧
      s.value.get (.extra "snake_total_score") = some (.int 70) := by
  refine exists_of_run_and (by decide +kernel) fun s hrun hacks => ?_
  have hsingle : Along (step playerPolicy sampleMsgs) (SingleWriter sampleMsgs)
      (newProfiles 3 none) orderlyActs := by decide +kernel
  constructor
  · have hlast : s.acks = [0, 1] ++ 2 :: [] := hacks
    exact patch_not_overwritten hrun hsingle (f := .level) hlast (by decide +kernel) (by simp)
  · have hlast : s.acks = [0] ++ 1 :: [2] := hacks
    exact patch_not_overwritten hrun hsingle (f := .extra "snake_total_score") hlast
      (by decide +kernel) (by decide +kernel)

/-- Every actor waits or is gone, and every patch has been acknowledged. -/
def Idle (s : Profiles n V) : Prop :=
  (∀ id ≤ s.nextID, ∀ actor ∈ s.actors id,
    actor.proc.run = .receiving .select ∧ actor.proc.mb = [] ∨ actor.proc.run = .gone) ∧
    ∀ i, i ∈ s.acks

instance (s : Profiles n V) : Decidable s.Idle := inferInstanceAs (Decidable (_ ∧ _))

/-- A room patches the profile through the second actor; then the first one stops. -/
def lateStopActs : List (PatchAct 1) :=
  startActs 1 ++ logoutActs 1 ++ startActs 2 ++ patchActs 2 0 ++ stopActs 1

/-- Everybody is idle, but the acknowledged score is not stored. -/
theorem patch_overwritten : ∃ s,
    run (step playerPolicy fun _ => .patch [("extra.snake_total_score", .int 70)])
        (newProfiles 1 (none : Option (PlayerProfile String))) lateStopActs = some s ∧
      s.Idle ∧ s.acks = [0] ∧ s.value.get (.extra "snake_total_score") = none :=
  exists_of_run _ _ _ _ (by decide +kernel)

end Profiles

end RanGame.App
