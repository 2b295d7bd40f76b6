import RanGame.Lib.Bytes
import RanGame.Lib.Machine
import RanGame.Match.Maker

/-!
# The match routes

`registerFrameworkRoutes` and `matchRuleFor` in `internal/app/server.go`. The key of a queue is
`module ++ "|" ++ code`, both chosen by the client, so a bar in them reaches the queue of another
module. And the route of the cancel message answers OK without calling the matcher.
-/

namespace RanGame.App

open Function List Machine Match

/-- `room.ModuleDef`, as far as matching and the creation of rooms read it. -/
structure ModuleDef where
  matchRule : Rule
  maxPlayers : ℤ

abbrev Modules := String → Option ModuleDef

def matchRuleFor (defs : Modules) (module code : String) : Rule :=
  match defs module with
  | none => ⟨module, code, 1, 0, 0⟩
  | some d =>
    if 0 < d.matchRule.players then
      { d.matchRule with
        module := if d.matchRule.module = "" then module else d.matchRule.module
        code := code }
    else ⟨module, code, 1, 0, 0⟩

theorem players_matchRuleFor (defs : Modules) (module code : String) :
    0 < (matchRuleFor defs module code).players := by
  rw [matchRuleFor]
  split
  · exact Int.one_pos
  · split
    · assumption
    · exact Int.one_pos

/-- `framework.ErrCode`, for the errors of the match route. -/
inductive Code
  | errInQueue
  | errDecode
  deriving DecidableEq

/-- `mapMatchErr`: the code and the text of the error frame. -/
def mapMatchErr : Err → Code × String
  | .errAlreadyQueued => (.errInQueue, "")
  | .errBadRule => (.errDecode, "unknown match module")

/-- What is sent back at once. -/
inductive Reply
  | ok
  | err (e : Code × String)
  deriving DecidableEq

structure Seat where
  uid : String
  module : String
  code : String
  deriving DecidableEq

structure Lobby where
  maker : Maker UInt32
  /-- Module and code of the newest request of a player that was accepted. -/
  asked : String → String × String
  tables : List (List Seat)

def newLobby : Lobby := ⟨newMaker, fun _ => ("", ""), []⟩

inductive Request
  | msgMatch (uid module code : String) (seq : UInt32)
  | msgMatchCancel (uid : String)
  /-- `onSessionRelease` -/
  | release (uid : String)
  deriving DecidableEq

namespace Lobby

def seat (asked : String → String × String) (e : Entry UInt32) : Seat :=
  ⟨e.uid, (asked e.uid).1, (asked e.uid).2⟩

/-- One request, and what is sent back at once. -/
def handle (defs : Modules) (s : Lobby) : Request → Lobby × Option Reply
  | .msgMatch uid module code seq =>
    match s.maker.enqueue uid (matchRuleFor defs module code) seq with
    | .error e => (s, some (.err (mapMatchErr e)))
    | .ok (m, none) => ({ s with maker := m, asked := update s.asked uid (module, code) }, none)
    | .ok (m, some matched) =>
      ({ maker := m
         asked := update s.asked uid (module, code)
         tables := s.tables ++ [matched.map (seat (update s.asked uid (module, code)))] }, none)
  | .msgMatchCancel _ => (s, some .ok)
  | .release uid => ({ s with maker := (s.maker.cancel uid).1 }, none)

def step (defs : Modules) (s : Lobby) (r : Request) : Option Lobby := some (s.handle defs r).1

variable {defs : Modules} {s s' : Lobby}

theorem handle_msgMatch (uid module code : String) (seq : UInt32) :
    (s.handle defs (.msgMatch uid module code seq)).1 = s ∨
    ∃ m t, s.maker.enqueue uid (matchRuleFor defs module code) seq = .ok (m, t) ∧
      (s.handle defs (.msgMatch uid module code seq)).1 =
        ⟨m, update s.asked uid (module, code), s.tables ++
          (t.map (List.map (seat (update s.asked uid (module, code))))).toList⟩ := by
  simp only [handle]
  split
  · exact .inl rfl
  next m henq => exact .inr ⟨m, none, henq, by simp⟩
  next m matched henq => exact .inr ⟨m, some matched, henq, rfl⟩

/-- Whoever waits in the queue has asked for the same. -/
def Unmixed (defs : Modules) (s : Lobby) : Request → Prop
  | .msgMatch _ module code _ =>
    ∀ e ∈ s.maker.queues (queueKey (matchRuleFor defs module code)), s.asked e.uid = (module, code)
  | _ => True

instance (r : Request) : Decidable (s.Unmixed defs r) := by
  cases r <;> unfold Unmixed <;> infer_instance

/-! ### Queues and tables -/

/-- Different players who asked for the same, and as many as that takes. -/
def Matched (defs : Modules) (T : List Seat) : Prop :=
  (T.map Seat.uid).Nodup ∧ ∃ module code, (∀ p ∈ T, p.module = module ∧ p.code = code) ∧
    (T.length : ℤ) = (matchRuleFor defs module code).players

/-- Everyone in the queue asked for the same, and it is shorter than a table. -/
structure Uniform (defs : Modules) (asked : String → String × String) (k module code : String)
    (l : List (Entry UInt32)) : Prop where
  asked : ∀ e ∈ l, asked e.uid = (module, code)
  rule : ∀ e ∈ l, e.rule = matchRuleFor defs module code
  key : l ≠ [] → queueKey (matchRuleFor defs module code) = k
  short : (l.length : ℤ) < (matchRuleFor defs module code).players

theorem uniform_nil (asked : String → String × String) (k module code : String) :
    Uniform defs asked k module code [] where
  asked := by simp
  rule := by simp
  key := fun h => absurd rfl h
  short := players_matchRuleFor defs module code

theorem Uniform.of_sublist {asked asked' : String → String × String} {k module code : String}
    {l l' : List (Entry UInt32)} (h : Uniform defs asked k module code l)
    (hsub : List.Sublist l' l) (hasked : ∀ e ∈ l', asked' e.uid = asked e.uid) :
    Uniform defs asked' k module code l' where
  asked := fun e he => (hasked e he).trans (h.asked e (hsub.subset he))
  rule := fun e he => h.rule e (hsub.subset he)
  key := by
    intro hne
    refine h.key ?_
    rintro rfl
    exact hne (sublist_nil.mp hsub)
  short := by
    have := h.short
    have := hsub.length_le
    omega

/-- What is known if requests are not mixed. -/
structure Sorted (defs : Modules) (s : Lobby) : Prop where
  indexed : s.maker.Indexed
  uniform : ∀ k, ∃ module code, Uniform defs s.asked k module code (s.maker.queues k)
  matched : ∀ T ∈ s.tables, Matched defs T

theorem sorted_newLobby : newLobby.Sorted defs where
  indexed := Maker.indexed_newMaker
  uniform := fun k => ⟨"", "", uniform_nil _ k "" ""⟩
  matched := by simp [newLobby]

section enqueue

variable {uid module code : String} {seq : UInt32}

variable (hs : s.Sorted defs)

include hs

theorem Sorted.uniform_request (hreq : s.Unmixed defs (.msgMatch uid module code seq)) :
    Uniform defs s.asked (queueKey (matchRuleFor defs module code)) module code
      (s.maker.queues (queueKey (matchRuleFor defs module code))) := by
  obtain ⟨module', code', hu⟩ := hs.uniform (queueKey (matchRuleFor defs module code))
  rcases hq : s.maker.queues (queueKey (matchRuleFor defs module code)) with _ | ⟨e, rest⟩
  · exact uniform_nil _ _ module code
  · have he : e ∈ s.maker.queues (queueKey (matchRuleFor defs module code)) := by rw [hq]; simp
    obtain ⟨rfl, rfl⟩ := Prod.mk.injEq .. ▸ (hreq e he).symm.trans (hu.asked e he)
    rwa [hq] at hu

theorem Sorted.asked_eq (hfree : s.maker.byUID uid = none) (k : String) (a : String × String) :
    ∀ e ∈ s.maker.queues k, update s.asked uid a e.uid = s.asked e.uid := by
  intro e he
  refine update_of_ne ?_ _ _
  rintro rfl
  exact hs.indexed.not_mem hfree k (mem_map_of_mem he)

theorem Sorted.asked_push (hreq : s.Unmixed defs (.msgMatch uid module code seq))
    (hfree : s.maker.byUID uid = none) :
    ∀ e ∈ s.maker.queues (queueKey (matchRuleFor defs module code)) ++
        [⟨uid, seq, matchRuleFor defs module code⟩],
      update s.asked uid (module, code) e.uid = (module, code) ∧
        e.rule = matchRuleFor defs module code := by
  have hu := hs.uniform_request hreq
  intro e he
  rcases mem_append.mp he with he | he
  · rw [hs.asked_eq hfree _ _ e he]
    exact ⟨hu.asked e he, hu.rule e he⟩
  · rw [mem_singleton.mp he]
    exact ⟨update_self .., rfl⟩

theorem Sorted.uniform_update (hfree : s.maker.byUID uid = none) (a : String × String)
    {key : String} {l : List (Entry UInt32)}
    (hl : ∃ module code, Uniform defs (update s.asked uid a) key module code l) (k : String) :
    ∃ module code, Uniform defs (update s.asked uid a) k module code
      (update s.maker.queues key l k) := by
  refine (forall_update_iff s.maker.queues fun k l => ∃ module code,
    Uniform defs (update s.asked uid a) k module code l).mpr ⟨hl, fun j _ => ?_⟩ k
  obtain ⟨module, code, hu⟩ := hs.uniform j
  exact ⟨module, code, hu.of_sublist (List.Sublist.refl _) (hs.asked_eq hfree j a)⟩

theorem Sorted.wait (hreq : s.Unmixed defs (.msgMatch uid module code seq))
    (hfree : s.maker.byUID uid = none) {m : Maker UInt32} (hm : m.Indexed)
    (hq : m.queues = update s.maker.queues (queueKey (matchRuleFor defs module code))
      (s.maker.queues (queueKey (matchRuleFor defs module code)) ++
        [⟨uid, seq, matchRuleFor defs module code⟩]))
    (hlen : ((s.maker.queues (queueKey (matchRuleFor defs module code))).length : ℤ) + 1
      < (matchRuleFor defs module code).players) :
    Sorted defs { s with maker := m, asked := update s.asked uid (module, code) } where
  __ := hs
  indexed := hm
  uniform := by
    rw [hq]
    refine hs.uniform_update hfree _ ⟨module, code, ?_⟩
    have hpush := hs.asked_push hreq hfree
    refine ⟨fun e he => (hpush e he).1, fun e he => (hpush e he).2, fun _ => rfl, ?_⟩
    rw [length_append, length_singleton]
    omega

theorem Sorted.fill (hfree : s.maker.byUID uid = none) {m : Maker UInt32} (hm : m.Indexed)
    (hq : m.queues = update s.maker.queues (queueKey (matchRuleFor defs module code)) [])
    {T : List Seat} (hT : Matched defs T) :
    Sorted defs ⟨m, update s.asked uid (module, code), s.tables ++ [T]⟩ where
  indexed := hm
  uniform := by
    rw [hq]
    exact hs.uniform_update hfree _ ⟨module, code, uniform_nil _ _ module code⟩
  matched := by
    intro T' hT'
    rcases mem_append.mp hT' with hT' | hT'
    · exact hs.matched T' hT'
    · rwa [mem_singleton.mp hT']

end enqueue

theorem Sorted.of_sublist (hs : s.Sorted defs) {m : Maker UInt32} (hm : m.Indexed)
    (hsub : ∀ k, List.Sublist (m.queues k) (s.maker.queues k)) :
    Sorted defs { s with maker := m } where
  __ := hs
  indexed := hm
  uniform := by
    intro k
    obtain ⟨module, code, hu⟩ := hs.uniform k
    exact ⟨module, code, hu.of_sublist (hsub k) fun _ _ => rfl⟩

theorem Sorted.step (hs : s.Sorted defs) {r : Request} (hr : s.Unmixed defs r)
    (hstep : s.step defs r = some s') : s'.Sorted defs := by
  cases hstep
  rcases r with ⟨uid, module, code, seq⟩ | uid | uid
  · have hfit : s.maker.Fits (matchRuleFor defs module code) := (hs.uniform_request hr).short
    rcases handle_msgMatch uid module code seq with hsame | ⟨m, t, henq, hnew⟩
    · rwa [hsame]
    · have hm := hs.indexed.enqueue hfit henq
      have hfree := (Maker.free_of_enqueue henq).2.2
      rw [hnew]
      rcases Maker.enqueue_of_fits hfit henq with ⟨hlen, rfl, rfl⟩ | ⟨hlen, rfl, rfl⟩
      · rw [Option.map_none, Option.toList_none, append_nil]
        exact hs.wait hr hfree hm rfl hlen
      · -- a table that is formed is the whole queue
        refine hs.fill hfree hm rfl ⟨?_, module, code, ?_, ?_⟩
        · rw [map_map]
          show List.Nodup (map Entry.uid _)
          rw [map_append, map_singleton, ← concat_eq_append]
          exact (hs.indexed.nodup _).concat (hs.indexed.not_mem hfree _)
        · intro p hp
          obtain ⟨e, he, rfl⟩ := mem_map.mp hp
          have := (hs.asked_push hr hfree e he).1
          exact ⟨congrArg Prod.fst this, congrArg Prod.snd this⟩
        · rw [length_map, length_append, length_singleton]
          omega
  · exact hs
  · exact hs.of_sublist (hs.indexed.cancel uid) (Maker.cancel_sublist uid)

/-- **The index is right and the tables are proper**, if a request only joins a queue for the same
module and code: who has an entry for a queue waits there, once, and in no other, and a table has as
many members as its rule says, all different and waiting for the same. -/
theorem queues_indexed {reqs : List Request} (hrun : run (step defs) newLobby reqs = some s)
    (hunmixed : Along (step defs) (Unmixed defs) newLobby reqs) :
    (∀ uid k, s.maker.byUID uid = some k ↔ ((s.maker.queues k).map Entry.uid).count uid = 1 ∧
        ∀ j, j ≠ k → ((s.maker.queues j).map Entry.uid).count uid = 0) ∧
    ∀ T ∈ s.tables, (T.map Seat.uid).Nodup ∧ ∃ module code,
      (∀ p ∈ T, p.module = module ∧ p.code = code) ∧
        (T.length : ℤ) = (matchRuleFor defs module code).players := by
  have hs : s.Sorted defs :=
    invariant_of_run (I := Sorted defs) (fun _ _ _ hs hr hstep => hs.step hr hstep)
      sorted_newLobby hunmixed hrun
  exact ⟨hs.indexed.index_iff, hs.matched⟩

def sampleModules : Modules := fun name =>
  if name = "snake" then some ⟨⟨"snake", "ranked", 2, 0, 0⟩, 2⟩ else none

/-- Alice and Bob ask for the same, and Carol asks for another code. -/
def sampleRequests : List Request :=
  [.msgMatch "alice" "snake" "ranked" 1, .msgMatch "carol" "snake" "casual" 1,
    .msgMatch "bob" "snake" "ranked" 4]

theorem queues_indexed_sample : ∃ s, run (step sampleModules) newLobby sampleRequests = some s ∧
      s.tables = [[⟨"alice", "snake", "ranked"⟩, ⟨"bob", "snake", "ranked"⟩]] ∧
      s.maker.byUID "carol" = some "snake|casual" ∧
      ((s.maker.queues "snake|casual").map Entry.uid).count "carol" = 1 := by
  obtain ⟨s, hrun, htables, hcarol⟩ : ∃ s,
      run (step sampleModules) newLobby sampleRequests = some s ∧
        s.tables = [[⟨"alice", "snake", "ranked"⟩, ⟨"bob", "snake", "ranked"⟩]] ∧
        s.maker.byUID "carol" = some "snake|casual" :=
    exists_of_run _ _ _ (fun s : Lobby => s.tables = _ ∧ s.maker.byUID "carol" = _)
      (by decide +kernel)
  have hunmixed : Along (step sampleModules) (Unmixed sampleModules) newLobby
      sampleRequests := by decide +kernel
  exact ⟨s, hrun, htables, hcarol, (((queues_indexed hrun hunmixed).1 _ _).mp hcarol).1⟩

/-- Mallory asks for a module that does not exist, and reaches Alice's queue. -/
def mixedRequests : List Request :=
  [.msgMatch "alice" "snake" "x|y" 1, .msgMatch "mallory" "snake|x" "y" 1]

/-- Alice sits alone at a table for two; Mallory waits and is not in the index. -/
theorem queues_mixed : ∃ s, run (step sampleModules) newLobby mixedRequests = some s ∧
      s.tables = [[⟨"alice", "snake", "x|y"⟩]] ∧
      (matchRuleFor sampleModules "snake" "x|y").players = 2 ∧
      (s.maker.queues "snake|x|y").map Entry.uid = ["mallory"] ∧ s.maker.byUID "mallory" = none :=
  exists_of_run _ _ _ (fun s : Lobby => s.tables = _ ∧ _ ∧ _ ∧ s.maker.byUID _ = _)
    (by decide +kernel)

/-! ### Names without a bar -/

/-- The module that is asked for has no bar in its name. -/
def Plain : Request → Prop
  | .msgMatch _ module _ _ => '|' ∉ module.toList
  | _ => True

theorem queueKeyStr_inj {a b a' b' : String} (ha : '|' ∉ a.toList) (ha' : '|' ∉ a'.toList)
    (h : queueKeyStr a b = queueKeyStr a' b') : a = a' ∧ b = b' := by
  have hcut : ∀ x y : String, '|' ∉ x.toList →
      cut '|' (queueKeyStr x y).toList = some (x.toList, y.toList) := by
    intro x y hx
    rw [queueKeyStr, String.toList_append, String.toList_append, append_assoc]
    exact cut_append hx y.toList
  have hparts := (hcut a b ha).symm.trans ((congrArg (cut '|' ·.toList) h).trans (hcut a' b' ha'))
  obtain ⟨h1, h2⟩ := Prod.mk.injEq .. ▸ Option.some.inj hparts
  exact ⟨String.toList_inj.mp h1, String.toList_inj.mp h2⟩

/-- The rule of a module carries the name of the module, or none. -/
def Named (defs : Modules) : Prop :=
  ∀ name d, defs name = some d → d.matchRule.module = "" ∨ d.matchRule.module = name

theorem Named.queueKey_eq (h : Named defs) (module code : String) :
    queueKey (matchRuleFor defs module code) = queueKeyStr module code := by
  rw [queueKey, matchRuleFor]
  split
  · rfl
  next d hd =>
    split
    · rcases h module d hd with hm | hm
      · simp [hm]
      · by_cases he : d.matchRule.module = "" <;> simp [he, hm]
    · rfl

/-- Nobody waits for a module with a bar in its name. -/
def NoBars (s : Lobby) : Prop := ∀ k, ∀ e ∈ s.maker.queues k, '|' ∉ (s.asked e.uid).1.toList

/-- The key of a queue then tells what everyone in it has asked for. -/
theorem Sorted.unmixed (hs : s.Sorted defs) (hdefs : Named defs) (hbars : s.NoBars) {r : Request}
    (hr : Plain r) : s.Unmixed defs r := by
  rcases r with ⟨uid, module, code, seq⟩ | uid | uid
  · intro e he
    obtain ⟨module', code', hu⟩ := hs.uniform (queueKey (matchRuleFor defs module code))
    have hkey := hu.key (ne_nil_of_mem he)
    have hbar := hbars _ e he
    rw [hu.asked e he] at hbar ⊢
    rw [hdefs.queueKey_eq, hdefs.queueKey_eq] at hkey
    obtain ⟨rfl, rfl⟩ := queueKeyStr_inj hbar hr hkey
    rfl
  · trivial
  · trivial

theorem NoBars.step (hbars : s.NoBars) (hs : s.Sorted defs) {r : Request} (hr : Plain r)
    (hstep : s.step defs r = some s') : s'.NoBars := by
  cases hstep
  rcases r with ⟨uid, module, code, seq⟩ | uid | uid
  · rcases handle_msgMatch uid module code seq with hsame | ⟨m, t, henq, hnew⟩
    · rwa [hsame]
    · have hfree := (Maker.free_of_enqueue henq).2.2
      rw [hnew]
      intro k e he
      show '|' ∉ (update s.asked uid (module, code) e.uid).1.toList
      rcases Maker.mem_of_enqueue henq (.inl ⟨k, he⟩) with ⟨j, hj⟩ | rfl
      · rw [hs.asked_eq hfree j _ e hj]
        exact hbars j e hj
      · rw [update_self]
        exact hr
  · exact hbars
  · exact fun k e he => hbars k e ((Maker.cancel_sublist uid k).subset he)

/-- **Nobody is matched with others than they asked for**, if rules have the names of their modules,
which have no bars: queues and tables hold players who asked for the same. -/
theorem sorted_of_plain (hdefs : Named defs) {reqs : List Request} (hplain : ∀ r ∈ reqs, Plain r)
    (hrun : run (step defs) newLobby reqs = some s) : s.Sorted defs := by
  have hall : s.Sorted defs ∧ s.NoBars := by
    refine invariant_of_run (I := fun s => s.Sorted defs ∧ s.NoBars) ?_ ⟨sorted_newLobby, ?_⟩
      (along_of_forall_mem hplain) hrun
    · rintro s r s' ⟨hs, hbars⟩ hr hstep
      exact ⟨hs.step (hs.unmixed hdefs hbars hr) hstep, hbars.step hs hr hstep⟩
    · simp [NoBars, newLobby, newMaker]
  exact hall.1

theorem sorted_of_plain_sample : ∃ s, run (step sampleModules) newLobby sampleRequests = some s ∧
    s.tables.length = 1 ∧ s.Sorted sampleModules := by
  have hnamed : Named sampleModules := by
    intro name d hd
    simp only [sampleModules] at hd
    split at hd <;> cases hd
    next hname => exact .inr hname.symm
  exact exists_of_run_and (by decide +kernel) fun s hrun _ =>
    sorted_of_plain hnamed (by simp [sampleRequests, Plain]) hrun

/-! ### Cancelling -/

def Waits (s : Lobby) (uid : String) : Prop := ∃ k, ∃ e ∈ s.maker.queues k, e.uid = uid

/-- A player who sends a cancel message is not waiting any more. -/
def Gone (s : Lobby) : Request → Prop
  | .msgMatchCancel uid => ¬ s.Waits uid
  | _ => True

def asker : Request → Option String
  | .msgMatch uid _ _ _ => some uid
  | _ => none

theorem not_waits_of_step {uid : String} {r : Request} (hw : ¬ s.Waits uid)
    (hr : asker r ≠ some uid) (hstep : s.step defs r = some s') :
    ¬ s'.Waits uid ∧ ∃ new, s'.tables = s.tables ++ new ∧ ∀ T ∈ new, uid ∉ T.map Seat.uid := by
  cases hstep
  rcases r with ⟨uid', module, code, seq⟩ | uid' | uid'
  · rcases handle_msgMatch uid' module code seq with hsame | ⟨m, t, henq, hnew⟩
    · rw [hsame]
      exact ⟨hw, [], by simp⟩
    · have hold : ∀ e : Entry UInt32, (∃ k, e ∈ s.maker.queues k) ∨
          e = ⟨uid', seq, matchRuleFor defs module code⟩ → e.uid ≠ uid := by
        rintro e (⟨k, hk⟩ | rfl) heq
        · exact hw ⟨k, e, hk, heq⟩
        · exact hr (congrArg some heq)
      rw [hnew]
      refine ⟨?_, _, rfl, ?_⟩
      · rintro ⟨k, e, he, heq⟩
        exact hold e (Maker.mem_of_enqueue henq (.inl ⟨k, he⟩)) heq
      · intro T hT hmem
        obtain ⟨matched, hmatched, rfl⟩ := Option.map_eq_some_iff.mp (Option.mem_toList.mp hT)
        rw [map_map] at hmem
        obtain ⟨e, he, heq⟩ := mem_map.mp hmem
        exact hold e (Maker.mem_of_enqueue henq (.inr ⟨matched, hmatched, he⟩)) heq
  · exact ⟨hw, [], by simp [handle]⟩
  · refine ⟨?_, [], by simp [handle]⟩
    rintro ⟨k, e, he, rfl⟩
    exact hw ⟨k, e, (Maker.cancel_sublist uid' k).subset he, rfl⟩

/-- **A player who has cancelled stays out** until they ask again, if only players who are not
waiting send cancel messages. -/
theorem cancelled_stays_out {uid : String} {reqs post : List Request}
    (hpre : run (step defs) newLobby reqs = some s)
    (hrun : run (step defs) s (.msgMatchCancel uid :: post) = some s')
    (hgone : Along (step defs) Gone newLobby (reqs ++ .msgMatchCancel uid :: post))
    (hpost : ∀ r ∈ post, asker r ≠ some uid) :
    (s.handle defs (.msgMatchCancel uid)).2 = some .ok ∧ ¬ s'.Waits uid ∧
      ∃ new, s'.tables = s.tables ++ new ∧ ∀ T ∈ new, uid ∉ T.map Seat.uid := by
  have hw : ¬ s.Waits uid := (hgone.append_right hpre).1
  refine ⟨rfl, ?_⟩
  refine invariant_of_run (G := fun _ r => asker r ≠ some uid) (I := fun s' => ¬ s'.Waits uid ∧
      ∃ new, s'.tables = s.tables ++ new ∧ ∀ T ∈ new, uid ∉ T.map Seat.uid)
    ?_ ⟨hw, [], by simp⟩ (along_of_forall_mem ?_) hrun
  · rintro t r t' ⟨ht, new, hnew, hout⟩ hr hstep
    obtain ⟨ht', new', hnew', hout'⟩ := not_waits_of_step ht hr hstep
    refine ⟨ht', new ++ new', by rw [hnew', hnew, append_assoc], ?_⟩
    intro T hT
    rcases mem_append.mp hT with hT | hT
    · exact hout T hT
    · exact hout' T hT
  · intro r hr
    rcases mem_cons.mp hr with rfl | hr
    · exact Option.some_ne_none uid ∘ Eq.symm
    · exact hpost r hr

theorem cancelled_stays_out_alone : ∃ s s',
    run (step sampleModules) newLobby [.msgMatch "alice" "solo" "" 1] = some s ∧
      run (step sampleModules) s [.msgMatchCancel "alice", .msgMatch "bob" "solo" "" 1] = some s' ∧
      s'.tables = [[⟨"alice", "solo", ""⟩], [⟨"bob", "solo", ""⟩]] ∧ ¬ s'.Waits "alice" := by
  obtain ⟨s', hrun, htables⟩ : ∃ s', run (step sampleModules)
      (newLobby.handle sampleModules (.msgMatch "alice" "solo" "" 1)).1
      [.msgMatchCancel "alice", .msgMatch "bob" "solo" "" 1] = some s' ∧
        s'.tables = [[⟨"alice", "solo", ""⟩], [⟨"bob", "solo", ""⟩]] :=
    exists_of_run _ _ _ (fun s : Lobby => s.tables = _) (by decide +kernel)
  have hgone : ¬ (newLobby.handle sampleModules (.msgMatch "alice" "solo" "" 1)).1.Waits
      "alice" := by
    rintro ⟨k, e, he, -⟩
    have hq : (newLobby.handle sampleModules (.msgMatch "alice" "solo" "" 1)).1.maker.queues
        = update (fun _ => []) "solo|" [] := by rfl
    rw [hq, update_eq_self_iff.mpr rfl] at he
    cases he
  have halong : Along (step sampleModules) Gone newLobby ([.msgMatch "alice" "solo" "" 1] ++
        [.msgMatchCancel "alice", .msgMatch "bob" "solo" "" 1]) := by
    refine ⟨trivial, fun t ht => ?_⟩
    cases ht
    exact ⟨hgone, fun _ _ => ⟨trivial, fun _ _ => trivial⟩⟩
  exact ⟨_, s', rfl, hrun, htables, (cancelled_stays_out rfl hrun halong (by simp [asker])).2.1⟩

/-- Alice asks for a table for two and cancels, and is seated with Bob. -/
theorem cancelled_seated : ∃ s s',
    run (step sampleModules) newLobby [.msgMatch "alice" "snake" "ranked" 1] = some s ∧
      (s.handle sampleModules (.msgMatchCancel "alice")).2 = some .ok ∧
      run (step sampleModules) s
        [.msgMatchCancel "alice", .msgMatch "bob" "snake" "ranked" 1] = some s' ∧
      s'.tables = [[⟨"alice", "snake", "ranked"⟩, ⟨"bob", "snake", "ranked"⟩]] := by
  obtain ⟨s', hrun, htables⟩ : ∃ s', run (step sampleModules)
      (newLobby.handle sampleModules (.msgMatch "alice" "snake" "ranked" 1)).1
      [.msgMatchCancel "alice", .msgMatch "bob" "snake" "ranked" 1] = some s' ∧
        s'.tables = [[⟨"alice", "snake", "ranked"⟩, ⟨"bob", "snake", "ranked"⟩]] :=
    exists_of_run _ _ _ (fun s : Lobby => s.tables = _) (by decide +kernel)
  exact ⟨_, s', rfl, rfl, hrun, htables⟩

end Lobby

end RanGame.App
