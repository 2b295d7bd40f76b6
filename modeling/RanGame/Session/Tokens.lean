import RanGame.Lib.Tickets
import RanGame.Session.ManagerSteps

/-!
# A token is accepted once

Between the rotation and the last section of `Reconnect` the old token is still in the index. What
makes a token good for one reconnect only is the comparison in `RotateToken`.
-/

namespace RanGame.Session

open Machine List Call Function

section Call

variable {n : ℕ} {C : Type*}

/-- The reconnect that a call has been accepted for. -/
def Call.rebind : Call n C → Option (Rebind n C)
  | .binding r | .onlining r _ | .clearing r _ | .reindexing r _ | .closingOld r _
  | .reconnected r _ => some r
  | _ => none

/-- The token that a `Reconnect` call has accepted. -/
def Call.accepted (k : Call n C) : Option String := k.rebind.map Rebind.token

def Call.presented : Call n C → Option String
  | .rotating _ token _ _ | .refused token => some token
  | k => k.accepted

/-- Tokens of a call that are, or are going to be, in the index. -/
def Call.tokens : Call n C → List String
  | .rotating _ token _ _ => [token]
  | .binding r | .onlining r _ | .clearing r _ | .reindexing r _ => [r.newToken]
  | _ => []

/-- The token an action generates. -/
def ManagerAct.generates : ManagerAct n C → Option String
  | .create _ _ _ _ token => some token
  | .rotate _ newToken => some newToken
  | _ => none

end Call

namespace Manager

variable {n : ℕ} {C : Type*}

/-- A generated token has not been a token before. -/
def Fresh (s : Manager n C) (a : ManagerAct n C) : Prop := ∀ t ∈ a.generates, t ∉ s.generated

instance (s : Manager n C) (a : ManagerAct n C) : Decidable (s.Fresh a) :=
  inferInstanceAs (Decidable (∀ t ∈ a.generates, _))

/-- The tokens of the sessions, of the accepted calls, of calls, and in the index. -/
structure Tokens (s : Manager n C) : Prop where
  tickets : Tickets "" (fun x => (s.sess x).token) s.generated fun i => (s.calls i).accepted
  held : ∀ i, ∀ t ∈ (s.calls i).tokens, t ∈ s.generated ∧ t ≠ ""
  indexed : ∀ t x, s.byToken t = some x → t ∈ s.generated ∧ t ≠ ""

theorem tokens_newManager (clock : ℤ) : (newManager n C clock).Tokens where
  tickets := Tickets.initial ""
  held := fun _ _ ht => by simp [newManager, tokens] at ht
  indexed := fun _ _ ht => by simp [newManager] at ht

variable {s s' : Manager n C}

variable {i : Fin n} {k : Call n C} {a : ManagerAct n C}

theorem Tokens.held_update (h : s.Tokens) {issued : List String} (hsub : s.generated ⊆ issued)
    (hk : ∀ t ∈ k.tokens, t ∈ issued ∧ t ≠ "") :
    ∀ j, ∀ t ∈ (update s.calls i k j).tokens, t ∈ issued ∧ t ≠ "" := by
  intro j t ht
  rcases of_update (P := fun k : Call n C => t ∈ k.tokens) ht with ⟨-, ht⟩ | ⟨-, ht⟩
  · exact hk t ht
  · exact ⟨hsub (h.held j t ht).1, (h.held j t ht).2⟩

theorem Tokens.of_same (h : s.Tokens) (htoken : ∀ x, (s'.sess x).token = (s.sess x).token)
    (hgen : s'.generated = s.generated) (hcalls : s'.calls = update s.calls i k)
    (hacc : k.accepted = (s.calls i).accepted) (hheld : ∀ t ∈ k.tokens, t ∈ s.generated ∧ t ≠ "")
    (hindex : ∀ t x, s'.byToken t = some x → t ∈ s.generated ∧ t ≠ "") : s'.Tokens := by
  have haccepted : (fun j => (s'.calls j).accepted) = fun j => (s.calls j).accepted := by
    funext j
    rw [hcalls]
    exact apply_update_of_eq accepted hacc j
  refine ⟨?_, ?_, ?_⟩
  · rw [funext htoken, hgen, haccepted]
    exact h.tickets
  · rw [hcalls, hgen]
    exact h.held_update (List.Subset.refl _) hheld
  · rw [hgen]
    exact hindex

theorem Tokens.rotate (h : s.Tokens) {x : Fin n} {token newToken : String} {c : C} {codec : UInt8}
    (hi : s.calls i = .rotating x token c codec) (ht : (s.sess x).token = token)
    (hfresh : newToken ∉ s.generated) :
    ((s.rotateToken x newToken).setCall i (.binding ⟨x, token, newToken, c, codec⟩)).Tokens := by
  have htoken : token ∈ s.generated ∧ token ≠ "" := h.held i token (by simp [hi, tokens])
  have hnew : newToken ≠ "" := by
    rintro rfl
    exact hfresh h.tickets.blank_issued
  have hrenew := h.tickets.renew hfresh x
  have hspend := hrenew.spend (i := i) (mem_cons_of_mem _ htoken.1)
    (fun y => ht ▸ h.tickets.renewed_ne hfresh (ht ▸ htoken.2) y)
    (fun j hj => h.tickets.retired j token hj x ht)
  refine ⟨?_, ?_, ?_⟩
  · convert hspend using 1
    · funext y
      exact apply_update (fun _ => Sess.token) s.sess x _ y
    · rfl
    · funext j
      exact apply_update (fun _ => accepted) s.calls i _ j
  · refine h.held_update (subset_cons_self ..) ?_
    intro t ht
    obtain rfl : t = newToken := by simpa [tokens] using ht
    exact ⟨mem_cons_self .., hnew⟩
  · intro t y hy
    exact ⟨mem_cons_of_mem _ (h.indexed t y hy).1, (h.indexed t y hy).2⟩

variable {ID : C → UInt64} {cfg : Config}

theorem Tokens.register (h : s.Tokens) {uid token : String} {c : C} {codec : UInt8}
    (hfresh : token ∉ s.generated) (hacc : k.accepted = (s.calls i).accepted) (hk : k.tokens = []) :
    ((s.register ID i uid c codec token).setCall i k).Tokens := by
  have hnew : token ≠ "" := by
    rintro rfl
    exact hfresh h.tickets.blank_issued
  refine ⟨?_, ?_, ?_⟩
  · convert h.tickets.renew hfresh i using 1
    · funext y
      exact apply_update (fun _ => Sess.token) s.sess i _ y
    · rfl
    · funext j
      exact apply_update_of_eq accepted hacc j
  · exact h.held_update (subset_cons_self ..) (by simp [hk])
  · intro t y hy
    rcases PartialMap.insert_eq_some.mp hy with ⟨rfl, -⟩ | ⟨-, hy⟩
    · exact ⟨mem_cons_self .., hnew⟩
    · exact ⟨mem_cons_of_mem _ (h.indexed t y hy).1, (h.indexed t y hy).2⟩

variable [DecidableEq C]

theorem Tokens.step (h : s.Tokens) (ha : s.Fresh a) (hstep : s.step ID cfg a = some s') :
    s'.Tokens := by
  cases happens_of_step hstep with
  | tick => exact { h with }
  | create hi | replace hi => exact h.register (ha _ rfl) (by rw [hi]; rfl) rfl
  | rotate hi ht => exact h.rotate hi ht (ha _ rfl)
  | @stale i x token newToken c codec hi ht =>
    have hsame : (s.setCall i (.refused token)).Tokens :=
      h.of_same (fun _ => rfl) rfl rfl (by rw [hi]; rfl) (by simp [tokens]) h.indexed
    refine ⟨hsame.tickets.issue newToken, ?_, ?_⟩
    · intro j t ht
      exact ⟨mem_cons_of_mem _ (hsame.held j t ht).1, (hsame.held j t ht).2⟩
    · intro t y hy
      exact ⟨mem_cons_of_mem _ (h.indexed t y hy).1, (h.indexed t y hy).2⟩
  | @find i x token c codec hi hx =>
    refine h.of_same (fun _ => rfl) rfl rfl (by rw [hi]; rfl) ?_ h.indexed
    intro t ht
    obtain rfl : t = token := by simpa [tokens] using ht
    exact h.indexed t x hx
  | @reindex i r old hi =>
    have hnew := h.held i r.newToken (by simp [hi, tokens])
    refine h.of_same (fun _ => rfl) rfl rfl (by rw [hi]; rfl) (by simp [tokens]) ?_
    intro t x ht
    rcases PartialMap.insert_eq_some.mp ht with ⟨rfl, -⟩ | ⟨-, ht⟩
    · exact hnew
    · exact h.indexed t x (PartialMap.erase_eq_some.mp ht).2
  | @unindex _ x hi =>
    refine h.of_same (fun _ => rfl) rfl rfl (by rw [hi]; rfl) (by simp [tokens]) ?_
    exact fun t y ht => h.indexed t y (byToken_of_unindex ID x ht)
  | @remove _ x _ hi =>
    refine h.of_same (fun _ => rfl) rfl rfl (by rw [hi]; rfl) (by simp [tokens]) ?_
    exact fun t y ht => h.indexed t y (byToken_of_remove ID x ht)
  | bind hi | goOnline hi | clearOffline hi =>
    refine h.of_same (apply_update_of_eq Sess.token (by rfl)) rfl rfl (by rw [hi]; rfl) ?_ h.indexed
    intro t ht
    exact h.held _ t (by rw [hi]; exact ht)
  | goOffline hi =>
    exact h.of_same (apply_update_of_eq Sess.token (by simp)) rfl rfl (by rw [hi]; rfl)
      (by simp [tokens]) h.indexed
  | unbind hi | release hi =>
    exact h.of_same (apply_update_of_eq Sess.token (by rfl)) rfl rfl (by rw [hi]; rfl)
      (by simp [tokens]) h.indexed
  | @notify i x why hi =>
    refine h.of_same (fun _ => rfl) rfl rfl ?_ ?_ h.indexed
    · rw [hi]
      cases why <;> rfl
    · cases why <;> simp [tokens, Cause.next]
  | miss hi | closeOld hi | leave hi | dropConn hi | closeConn hi | sweep hi | examine hi | skip hi
  | takeConn hi | close hi =>
    exact h.of_same (fun _ => rfl) rfl rfl (by rw [hi]; rfl) (by simp [tokens]) h.indexed

theorem rebind_of_step {j : Fin n} {r : Rebind n C} (h : (s.calls j).rebind = some r)
    (hstep : s.step ID cfg a = some s') : (s'.calls j).rebind = some r := by
  -- the call that moves keeps what it has been accepted for
  have moved : ∀ {i : Fin n} {k : Call n C}, ((s.calls i).rebind = some r → k.rebind = some r) →
        (update s.calls i k j).rebind = some r := by
    intro i k hk
    exact rel_update (fun k k' : Call n C => k.rebind = some r → k'.rebind = some r)
      (fun _ => id) hk j h
  cases happens_of_step hstep with
  | tick => exact h
  | bind hi | goOnline hi | clearOffline hi | reindex hi | closeOld hi =>
    exact moved fun hr => by rw [hi] at hr; exact hr
  | create hi | replace hi | unindex hi | find hi | miss hi | rotate hi | stale hi | unbind hi
  | leave hi | goOffline hi | dropConn hi | closeConn hi | sweep hi | examine hi | remove hi
  | skip hi | takeConn hi | release hi | close hi | notify hi =>
    exact moved fun hr => by rw [hi] at hr; cases hr

variable {acts : List (ManagerAct n C)} {clock : ℤ}

theorem tokens_of_run (hrun : run (step ID cfg) (newManager n C clock) acts = some s)
    (hfresh : Along (step ID cfg) Fresh (newManager n C clock) acts) : s.Tokens :=
  invariant_of_run (fun _ _ _ h ha hstep => h.step ha hstep) (tokens_newManager clock) hfresh hrun

/-- The call was refused, or is about to compare the token with a different one. -/
def Refuses (s : Manager n C) (j : Fin n) (t : String) : Prop :=
  s.calls j = .refused t ∨ ∃ x c codec, s.calls j = .rotating x t c codec ∧ (s.sess x).token ≠ t

/-- **A token is accepted by at most one `Reconnect`, and refused for ever after**, if tokens never
repeat: other calls that present it are refused or fail their comparison. -/
theorem token_accepted_once (hrun : run (step ID cfg) (newManager n C clock) acts = some s)
    (hfresh : Along (step ID cfg) Fresh (newManager n C clock) acts) :
    (∀ i j t, (s.calls i).accepted = some t → (s.calls j).accepted = some t → i = j) ∧
    ∀ (i : Fin n) (t : String) (acts' : List (ManagerAct n C)) (s' : Manager n C),
      (s.calls i).accepted = some t → run (step ID cfg) s acts' = some s' →
      Along (step ID cfg) Fresh s acts' →
      ∀ j, j ≠ i → (s'.calls j).presented = some t → s'.Refuses j t := by
  have htokens := tokens_of_run hrun hfresh
  refine ⟨htokens.tickets.unique, ?_⟩
  intro i t acts' s' hi hrun' hfresh' j hji hj
  have htokens' : s'.Tokens :=
    invariant_of_run (fun _ _ _ h ha hstep => h.step ha hstep) htokens hfresh' hrun'
  obtain ⟨r, hr, rfl⟩ := Option.map_eq_some_iff.mp hi
  have hi' : (s'.calls i).rebind = some r :=
    invariant_of_run (I := fun s => (s.calls i).rebind = some r)
      (fun _ _ _ h _ hstep => rebind_of_step h hstep) hr hfresh' hrun'
  have hacc : (s'.calls i).accepted = some r.token := by rw [accepted, hi']; rfl
  have hother : (s'.calls j).accepted ≠ some r.token :=
    fun h => hji (htokens'.tickets.unique j i r.token h hacc)
  rcases hk : s'.calls j
  case rotating x token c codec =>
    rw [hk] at hj
    obtain rfl : token = r.token := Option.some.inj hj
    exact .inr ⟨x, c, codec, hk, htokens'.tickets.retired i r.token hacc x⟩
  case refused token =>
    rw [hk] at hj
    obtain rfl : token = r.token := Option.some.inj hj
    exact .inl hk
  all_goals
    rw [hk] at hj hother
    exact absurd hj hother

/-- Two reconnects find the session under the same token, and the second to rotate is refused. -/
def racingActs : List (ManagerAct 4 UInt64) :=
  [.create 0 "alice" 1 0 "t0", .reconnect 1 "t0" 2 0, .reconnect 2 "t0" 3 0, .rotate 2 "t1"]

theorem token_accepted_once_racing : ∃ s s',
    run (step id (Config.withDefaults 60)) (newManager 4 UInt64 100) racingActs = some s ∧
      run (step id (Config.withDefaults 60)) s
        [.bind 2, .rotate 1 "t2", .goOnline 2, .reconnect 3 "t0" 4 0] = some s' ∧
      (s.calls 2).accepted = some "t0" ∧ s'.Refuses 1 "t0" ∧ s'.Refuses 3 "t0" := by
  obtain ⟨s, hrun, hacc, s', hrun', hfresh', h1, h3⟩ : ∃ s,
      run (step id (Config.withDefaults 60)) (newManager 4 UInt64 100) racingActs = some s ∧
        (s.calls 2).accepted = some "t0" ∧ ∃ s',
        run (step id (Config.withDefaults 60)) s
            [.bind 2, .rotate 1 "t2", .goOnline 2, .reconnect 3 "t0" 4 0] = some s' ∧
          Along (step id (Config.withDefaults 60)) Fresh s
            [.bind 2, .rotate 1 "t2", .goOnline 2, .reconnect 3 "t0" 4 0] ∧
          (s'.calls 1).presented = some "t0" ∧ (s'.calls 3).presented = some "t0" :=
    ⟨_, rfl, rfl, _, rfl, by decide, rfl, rfl⟩
  have hafter := (token_accepted_once hrun (by decide)).2 2 "t0" _ s' hacc hrun' hfresh'
  exact ⟨s, s', hrun, hrun', hacc, hafter 1 (by decide) h1, hafter 3 (by decide) h3⟩

end Manager

end RanGame.Session
