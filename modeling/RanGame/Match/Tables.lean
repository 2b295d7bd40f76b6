import RanGame.Match.Maker
import Mathlib.Data.List.Range

/-!
# What becomes of a request

A sequence of calls of `Enqueue` and `Cancel` on the in-process matcher, with its history. To tell
the requests of one player apart, the number of a request is carried along with its sequence number;
the matcher does not look at either.
-/

namespace RanGame.Match

open Function List Maker

variable {R E : Type}

/-- The sequence number of a request and how many requests were accepted before it. -/
structure Ticket where
  seq : UInt32
  no : ℕ
  deriving DecidableEq

/-- The matcher and what has happened so far. -/
structure History (R E : Type) where
  maker : Maker Ticket
  accepted : List (Entry Ticket)
  cancelled : List (Entry Ticket)
  tables : List (List (Entry Ticket))
  results : List (Result Ticket R E)

/-- A call, with what the room manager answers if it forms a table. -/
inductive Call (R E : Type)
  | enqueue (uid : String) (rule : Rule) (seq : UInt32) (rooms : Rooms R E)
  | cancel (uid : String)

def Call.rule : Call R E → Option Rule
  | .enqueue _ rule _ _ => some rule
  | .cancel _ => none

/-- Requests that share a queue ask for the same number of players, one or more. -/
def SamePlayers (calls : List (Call R E)) : Prop :=
  ∀ c ∈ calls, ∀ r ∈ c.rule, 1 ≤ r.players ∧
    ∀ c' ∈ calls, ∀ r' ∈ c'.rule, queueKey r' = queueKey r → r'.players = r.players

instance (calls : List (Call R E)) : Decidable (SamePlayers calls) :=
  inferInstanceAs (Decidable (∀ c ∈ calls, ∀ r ∈ c.rule, 1 ≤ r.players ∧
    ∀ c' ∈ calls, ∀ r' ∈ c'.rule, queueKey r' = queueKey r → r'.players = r.players))

/-- The entry that `Cancel` takes out of its queue. -/
def Maker.waiting {S : Type} (m : Maker S) (uid : String) : Option (Entry S) :=
  (m.byUID uid).bind fun key => (m.queues key).find? fun e => e.uid = uid

namespace History

def init : History R E := ⟨newMaker, [], [], [], []⟩

def call (h : History R E) : Call R E → History R E
  | .enqueue uid rule seq rooms =>
    match h.maker.enqueue uid rule ⟨seq, h.accepted.length⟩ with
    | .error _ => h
    | .ok (m, none) =>
      { h with maker := m, accepted := h.accepted ++ [⟨uid, ⟨seq, h.accepted.length⟩, rule⟩] }
    | .ok (m, some matched) =>
      { h with
        maker := m
        accepted := h.accepted ++ [⟨uid, ⟨seq, h.accepted.length⟩, rule⟩]
        tables := h.tables ++ [matched]
        results := h.results ++ settle rooms matched }
  | .cancel uid =>
    { h with
      maker := (h.maker.cancel uid).1
      cancelled := h.cancelled ++ (h.maker.waiting uid).toList }

def run (h : History R E) (calls : List (Call R E)) : History R E := calls.foldl call h

/-- The history after a sequence of calls on a new matcher. -/
def after (calls : List (Call R E)) : History R E := init.run calls

/-- The tables of one queue, in the order in which they were formed. -/
def tablesOf (h : History R E) (k : String) : List (List (Entry Ticket)) :=
  h.tables.filter fun T => T.all fun e => queueKey e.rule = k

/-- The accepted requests of one queue that were not cancelled, as they came. -/
def kept (h : History R E) (k : String) : List (Entry Ticket) :=
  h.accepted.filter fun e => queueKey e.rule = k ∧ e ∉ h.cancelled

variable {P : String → ℤ} {h : History R E}

/-- What is known of the history if the requests of queue `k` ask for `P k` players. -/
structure Booked (P : String → ℤ) (h : History R E) : Prop where
  indexed : h.maker.Indexed
  queued : ∀ k, ∀ e ∈ h.maker.queues k, queueKey e.rule = k ∧ e.rule.players = P k
  short : ∀ k, ((h.maker.queues k).length : ℤ) < P k
  numbered : ∀ e ∈ h.accepted, e.seq.no < h.accepted.length
  accepted : h.accepted.Nodup
  cancelled : h.cancelled.Nodup
  once_accepted : ∀ e ∈ h.cancelled, e ∈ h.accepted
  seated : ∀ T ∈ h.tables, ∃ k, (T.length : ℤ) = P k ∧
    ∀ e ∈ T, queueKey e.rule = k ∧ e.rule.players = P k
  blocks : ∀ k, (h.tablesOf k).flatten ++ h.maker.queues k = h.kept k
  told : h.results.map (fun r => (r.uid, r.seq)) = h.tables.flatten.map fun e => (e.uid, e.seq)

theorem booked_init (hpos : ∀ k, 1 ≤ P k) : Booked P (init : History R E) where
  indexed := indexed_newMaker
  queued := by simp [init, newMaker]
  short := fun k => show ((0 : ℕ) : ℤ) < P k by have := hpos k; omega
  numbered := by simp [init]
  accepted := nodup_nil
  cancelled := nodup_nil
  once_accepted := by simp [init]
  seated := by simp [init]
  blocks := fun _ => rfl
  told := rfl

/-! ### A request is accepted -/

variable {e : Entry Ticket} {uid : String} {rule : Rule} {ticket : Ticket}

theorem Booked.not_mem_accepted (hb : Booked P h) (he : e.seq.no = h.accepted.length) :
    e ∉ h.accepted := by
  intro hmem
  have := hb.numbered e hmem
  omega

theorem Booked.queued_mem (hb : Booked P h) {k : String} (he : e ∈ h.maker.queues k) :
    e ∈ h.accepted ∧ e ∉ h.cancelled := by
  have hkept : e ∈ h.kept k := by
    rw [← hb.blocks k]
    exact mem_append_right _ he
  obtain ⟨hacc, hcond⟩ := mem_filter.mp hkept
  exact ⟨hacc, (of_decide_eq_true hcond).2⟩

theorem Booked.numbered_push (hb : Booked P h) (he : e.seq.no = h.accepted.length) :
    ∀ f ∈ h.accepted ++ [e], f.seq.no < (h.accepted ++ [e]).length := by
  intro f hf
  rw [length_append, length_singleton]
  rcases mem_append.mp hf with hf | hf
  · have := hb.numbered f hf
    omega
  · rw [mem_singleton.mp hf]
    omega

theorem Booked.nodup_push (hb : Booked P h) (he : e.seq.no = h.accepted.length) :
    (h.accepted ++ [e]).Nodup := by
  rw [← concat_eq_append]
  exact hb.accepted.concat (hb.not_mem_accepted he)

theorem filter_push (he : e ∉ h.cancelled) (k : String) :
    (h.accepted ++ [e]).filter (fun f => queueKey f.rule = k ∧ f ∉ h.cancelled)
      = h.kept k ++ if queueKey e.rule = k then [e] else [] := by
  rw [filter_append, kept]
  by_cases hk : queueKey e.rule = k <;> simp [hk, he]

theorem Booked.queued_push (hb : Booked P h) (hplayers : rule.players = P (queueKey rule)) :
    ∀ e ∈ h.maker.queues (queueKey rule) ++ [⟨uid, ticket, rule⟩],
      queueKey e.rule = queueKey rule ∧ e.rule.players = P (queueKey rule) := by
  intro e he
  rcases mem_append.mp he with he | he
  · exact hb.queued _ e he
  · rw [mem_singleton.mp he]
    exact ⟨rfl, hplayers⟩

theorem flatten_filter_push {T : List (Entry Ticket)} {key : String} (hne : T ≠ [])
    (hT : ∀ e ∈ T, queueKey e.rule = key) (k : String) :
    ((h.tables ++ [T]).filter fun T => T.all fun e => queueKey e.rule = k).flatten
      = (h.tablesOf k).flatten ++ if k = key then T else [] := by
  rw [filter_append, flatten_append, tablesOf]
  congr 1
  by_cases hk : k = key
  · subst hk
    have hall : (T.all fun e => queueKey e.rule = k) = true := by simpa using hT
    simp [hall]
  · have hall : ¬ (T.all fun e => queueKey e.rule = k) = true := by
      obtain ⟨e, he⟩ := exists_mem_of_ne_nil T hne
      intro hall
      exact hk ((of_decide_eq_true (all_eq_true.mp hall e he)).symm.trans (hT e he))
    simp [hall, hk]

section

variable (hb : Booked P h) (hno : ticket.no = h.accepted.length)
  (hplayers : rule.players = P (queueKey rule))

include hb hno hplayers

theorem Booked.wait {m : Maker Ticket} (hm : m.Indexed)
    (hq : m.queues = update h.maker.queues (queueKey rule)
      (h.maker.queues (queueKey rule) ++ [⟨uid, ticket, rule⟩]))
    (hlen : ((h.maker.queues (queueKey rule)).length : ℤ) + 1 < rule.players) :
    Booked P { h with maker := m, accepted := h.accepted ++ [⟨uid, ticket, rule⟩] } where
  __ := hb
  indexed := hm
  queued := by
    rw [hq]
    refine (forall_update_iff h.maker.queues fun k l =>
      ∀ e ∈ l, queueKey e.rule = k ∧ e.rule.players = P k).mpr
      ⟨hb.queued_push hplayers, fun k _ => hb.queued k⟩
  short := by
    rw [hq]
    refine (forall_update_iff h.maker.queues fun k l => (l.length : ℤ) < P k).mpr
      ⟨?_, fun k _ => hb.short k⟩
    rw [length_append, length_singleton, ← hplayers]
    omega
  numbered := hb.numbered_push hno
  accepted := hb.nodup_push hno
  once_accepted := fun e he => mem_append_left _ (hb.once_accepted e he)
  blocks := by
    intro k
    have hnew : (⟨uid, ticket, rule⟩ : Entry Ticket) ∉ h.cancelled :=
      fun hmem => hb.not_mem_accepted hno (hb.once_accepted _ hmem)
    refine Eq.trans ?_ (filter_push hnew k).symm
    show (h.tablesOf k).flatten ++ m.queues k = _
    rw [hq, ← hb.blocks k, append_assoc]
    by_cases hk : k = queueKey rule
    · subst hk
      rw [update_self, if_pos rfl]
    · rw [update_of_ne hk, if_neg fun heq => hk heq.symm, append_nil]

theorem Booked.fill (rooms : Rooms R E) {m : Maker Ticket} (hm : m.Indexed)
    (hq : m.queues = update h.maker.queues (queueKey rule) [])
    (hlen : ((h.maker.queues (queueKey rule)).length : ℤ) + 1 = rule.players) :
    Booked P
      { h with
        maker := m
        accepted := h.accepted ++ [⟨uid, ticket, rule⟩]
        tables := h.tables ++ [h.maker.queues (queueKey rule) ++ [⟨uid, ticket, rule⟩]]
        results := h.results ++
          settle rooms (h.maker.queues (queueKey rule) ++ [⟨uid, ticket, rule⟩]) } where
  __ := hb
  indexed := hm
  queued := by
    rw [hq]
    exact (forall_update_iff h.maker.queues fun k l =>
      ∀ e ∈ l, queueKey e.rule = k ∧ e.rule.players = P k).mpr ⟨by simp, fun k _ => hb.queued k⟩
  short := by
    rw [hq]
    refine (forall_update_iff h.maker.queues fun k l => (l.length : ℤ) < P k).mpr
      ⟨?_, fun k _ => hb.short k⟩
    rw [length_nil, ← hplayers]
    omega
  numbered := hb.numbered_push hno
  accepted := hb.nodup_push hno
  once_accepted := fun e he => mem_append_left _ (hb.once_accepted e he)
  seated := by
    intro T hT
    rcases mem_append.mp hT with hT | hT
    · exact hb.seated T hT
    · refine ⟨queueKey rule, ?_, ?_⟩
      · rw [mem_singleton.mp hT, length_append, length_singleton, ← hplayers]
        omega
      · rw [mem_singleton.mp hT]
        exact hb.queued_push hplayers
  blocks := by
    intro k
    have hne : h.maker.queues (queueKey rule) ++ [⟨uid, ticket, rule⟩] ≠ [] := by simp
    have hkeys : ∀ e ∈ h.maker.queues (queueKey rule) ++ [⟨uid, ticket, rule⟩],
        queueKey e.rule = queueKey rule := fun e he => (hb.queued_push hplayers e he).1
    have hnew : (⟨uid, ticket, rule⟩ : Entry Ticket) ∉ h.cancelled :=
      fun hmem => hb.not_mem_accepted hno (hb.once_accepted _ hmem)
    refine Eq.trans ?_ (filter_push hnew k).symm
    rw [← hb.blocks k]
    refine Eq.trans (congrArg (· ++ m.queues k) (flatten_filter_push hne hkeys k)) ?_
    rw [hq]
    by_cases hk : k = queueKey rule
    · subst hk
      rw [update_self, if_pos rfl, if_pos rfl, append_nil, append_assoc]
    · rw [update_of_ne hk, if_neg hk, if_neg fun heq => hk heq.symm, append_nil, append_nil]
  told := by
    rw [map_append, hb.told, map_settle, flatten_append, flatten_singleton, ← map_append]

end

theorem Booked.split_waiting (hb : Booked P h) {key : String}
    (hkey : h.maker.byUID uid = some key) : ∃ l₁ e l₂, h.maker.queues key = l₁ ++ e :: l₂ ∧
      Lines.leave Entry.uid uid (h.maker.queues key) = l₁ ++ l₂ ∧
      h.maker.waiting uid = some e := by
  obtain ⟨f, hf, hfu⟩ := mem_map.mp ((hb.indexed.mem_iff uid key).mp hkey)
  obtain ⟨e, l₁, l₂, hl₁, he, hq, hleave⟩ :=
    exists_of_eraseP (p := fun e : Entry Ticket => decide (e.uid = uid)) hf (by simp [hfu])
  refine ⟨l₁, e, l₂, hq, hleave, ?_⟩
  rw [waiting, hkey, Option.bind_some, hq, find?_append,
    find?_eq_none.mpr hl₁, Option.none_or, find?_cons, he]

theorem filter_cancel (hb : Booked P h) (e : Entry Ticket) (k : String) :
    h.accepted.filter (fun f => queueKey f.rule = k ∧ f ∉ h.cancelled ++ [e])
      = (h.kept k).erase e := by
  rw [kept, (hb.accepted.filter _).erase_eq_filter, filter_filter]
  refine filter_congr fun f _ => ?_
  rw [Bool.eq_iff_iff]
  simp only [mem_append, mem_singleton, not_or, Bool.and_eq_true, decide_eq_true_eq, bne_iff_ne]
  tauto

theorem Booked.cancel (hb : Booked P h) (uid : String) : Booked P (h.call (.cancel uid)) := by
  rcases hkey : h.maker.byUID uid with _ | key
  · have hsame : h.call (.cancel uid) = h := by
      show ({ h with maker := _, cancelled := _ } : History R E) = h
      rw [cancel_of_none hkey, waiting, hkey, Option.bind_none, Option.toList_none,
        append_nil]
    rwa [hsame]
  · obtain ⟨l₁, e, l₂, hq, hleave, hwait⟩ := hb.split_waiting hkey
    have hmem : e ∈ h.maker.queues key := by rw [hq]; simp
    obtain ⟨hacc, hnot⟩ := hb.queued_mem hmem
    have hcall : h.call (.cancel uid) = { h with
        maker := ⟨update h.maker.queues key (l₁ ++ l₂), h.maker.byUID.erase uid⟩
        cancelled := h.cancelled ++ [e] } := by
      show ({ h with maker := _, cancelled := _ } : History R E) = _
      rw [cancel_of_some hkey, hleave, hwait, Option.toList_some]
    have hindexed := hb.indexed.cancel uid
    rw [cancel_of_some hkey, hleave] at hindexed
    rw [hcall]
    have hsub : List.Sublist (l₁ ++ l₂) (h.maker.queues key) := by
      rw [hq]
      exact List.Sublist.append_left (sublist_cons_self e l₂) l₁
    refine
      { indexed := hindexed, queued := ?_, short := ?_, numbered := hb.numbered,
        accepted := hb.accepted, cancelled := ?_, once_accepted := ?_, seated := hb.seated,
        blocks := ?_, told := hb.told }
    · exact (forall_update_iff h.maker.queues fun k l =>
        ∀ e ∈ l, queueKey e.rule = k ∧ e.rule.players = P k).mpr
        ⟨fun f hf => hb.queued key f (hsub.subset hf), fun k _ => hb.queued k⟩
    · refine (forall_update_iff h.maker.queues fun k l => (l.length : ℤ) < P k).mpr
        ⟨?_, fun k _ => hb.short k⟩
      have := hb.short key
      have := hsub.length_le
      omega
    · show (h.cancelled ++ [e]).Nodup
      rw [← concat_eq_append]
      exact hb.cancelled.concat hnot
    · intro f hf
      rcases mem_append.mp hf with hf | hf
      · exact hb.once_accepted f hf
      · rwa [mem_singleton.mp hf]
    · intro k
      refine Eq.trans ?_ (filter_cancel hb e k).symm
      show (h.tablesOf k).flatten ++ update h.maker.queues key (l₁ ++ l₂) k = _
      have hnodup : (h.kept k).Nodup := hb.accepted.filter _
      by_cases hk : k = key
      · subst hk
        rw [← hb.blocks k, hq] at hnodup ⊢
        rw [← append_assoc] at hnodup
        have hout : e ∉ (h.tablesOf k).flatten ++ l₁ :=
          fun hmem => disjoint_of_nodup_append hnodup hmem (mem_cons_self ..)
        rw [update_self, ← append_assoc, ← append_assoc, erase_append_right _ hout, erase_cons_head]
      · have hout : e ∉ h.kept k := by
          intro hkept
          have := (of_decide_eq_true (mem_filter.mp hkept).2).1
          exact hk (this.symm.trans (hb.queued key e hmem).1)
        rw [update_of_ne hk, erase_of_not_mem hout, hb.blocks k]

/-! ### A sequence of calls -/

theorem Booked.call (hb : Booked P h) {c : Call R E}
    (hc : ∀ r ∈ c.rule, r.players = P (queueKey r)) : Booked P (h.call c) := by
  rcases c with ⟨uid, rule, seq, rooms⟩ | uid
  · have hplayers : rule.players = P (queueKey rule) := hc rule rfl
    have hfit : h.maker.Fits rule := by
      rw [Maker.Fits, hplayers]
      exact hb.short _
    simp only [History.call]
    split
    · exact hb
    next m henq =>
      have hm := hb.indexed.enqueue hfit henq
      obtain ⟨hlen, -, rfl⟩ | ⟨-, ht, -⟩ := enqueue_of_fits hfit henq
      · exact hb.wait rfl hplayers hm rfl hlen
      · cases ht
    next m matched henq =>
      have hm := hb.indexed.enqueue hfit henq
      obtain ⟨-, ht, -⟩ | ⟨hlen, ht, rfl⟩ := enqueue_of_fits hfit henq
      · cases ht
      · cases ht
        exact hb.fill rfl hplayers rooms hm rfl hlen
  · exact hb.cancel uid

theorem Booked.run (hb : Booked P h) {calls : List (Call R E)}
    (hcalls : ∀ c ∈ calls, ∀ r ∈ c.rule, r.players = P (queueKey r)) : Booked P (h.run calls) := by
  induction calls generalizing h with
  | nil => exact hb
  | cons c calls ih =>
    exact ih (hb.call (hcalls c (mem_cons_self ..))) fun c' hc' => hcalls c' (mem_cons_of_mem _ hc')

end History

theorem SamePlayers.exists_players {calls : List (Call R E)} (h : SamePlayers calls) :
    ∃ P : String → ℤ, (∀ k, 1 ≤ P k) ∧ ∀ c ∈ calls, ∀ r ∈ c.rule, r.players = P (queueKey r) := by
  classical
  have key : ∀ k, ∃ p : ℤ, 1 ≤ p ∧ ∀ c ∈ calls, ∀ r ∈ c.rule, queueKey r = k → r.players = p := by
    intro k
    by_cases hk : ∃ c ∈ calls, ∃ r ∈ c.rule, queueKey r = k
    · obtain ⟨c, hc, r, hr, rfl⟩ := hk
      exact ⟨r.players, (h c hc r hr).1, (h c hc r hr).2⟩
    · exact ⟨1, by decide, fun c hc r hr hrk => absurd ⟨c, hc, r, hr, hrk⟩ hk⟩
  choose P hpos hP using key
  exact ⟨P, hpos, fun c hc r hr => hP (queueKey r) c hc r hr rfl⟩

namespace History

variable {P : String → ℤ} {h : History R E}

theorem Booked.count_tables (hb : Booked P h) (e : Entry Ticket) :
    h.tables.flatten.count e = (h.tablesOf (queueKey e.rule)).flatten.count e := by
  have hseated := hb.seated
  rw [tablesOf]
  generalize h.tables = tables at hseated ⊢
  induction tables with
  | nil => rfl
  | cons T tables ih =>
    have hrest := ih fun T' hT' => hseated T' (mem_cons_of_mem _ hT')
    obtain ⟨k, -, hT⟩ := hseated T (mem_cons_self ..)
    rw [flatten_cons, count_append, hrest, filter_cons]
    by_cases hall : (T.all fun f => queueKey f.rule = queueKey e.rule) = true
    · rw [if_pos hall, flatten_cons, count_append]
    · rw [if_neg hall]
      have hout : e ∉ T := by
        intro he
        refine hall (all_eq_true.mpr fun f hf => decide_eq_true ?_)
        rw [(hT f hf).1, (hT e he).1]
      rw [count_eq_zero_of_not_mem hout, Nat.zero_add]

theorem Booked.count_eq_one (hb : Booked P h) {e : Entry Ticket} (he : e ∈ h.accepted) :
    (h.maker.queues (queueKey e.rule)).count e + h.cancelled.count e + h.tables.flatten.count e
      = 1 := by
  have hsum : (h.tablesOf (queueKey e.rule)).flatten.count e
      + (h.maker.queues (queueKey e.rule)).count e = (h.kept (queueKey e.rule)).count e := by
    rw [← hb.blocks, count_append]
  rw [hb.count_tables]
  by_cases hc : e ∈ h.cancelled
  · have hkept : (h.kept (queueKey e.rule)).count e = 0 :=
      count_eq_zero_of_not_mem fun hmem =>
        (of_decide_eq_true (mem_filter.mp hmem).2).2 hc
    have hone := count_eq_one_of_mem hb.cancelled hc
    omega
  · have hkept : (h.kept (queueKey e.rule)).count e = 1 :=
      count_eq_one_of_mem (hb.accepted.filter _) (mem_filter.mpr ⟨he, decide_eq_true ⟨rfl, hc⟩⟩)
    have hzero := count_eq_zero_of_not_mem hc
    omega

/-- **What becomes of a request**, if those of one queue ask for the same number of players: it is
waiting, cancelled or at exactly one table; a table has as many members as asked for; the tables of
a queue are consecutive blocks of the requests not cancelled; and the result callback was called
once for each member, with its number. -/
theorem requests_accounted (calls : List (Call R E)) (hsame : SamePlayers calls) :
    (after calls).accepted.Nodup ∧
    (∀ e ∈ (after calls).accepted,
      ((after calls).maker.queues (queueKey e.rule)).count e + (after calls).cancelled.count e
        + (after calls).tables.flatten.count e = 1 ∧
      ∀ k, k ≠ queueKey e.rule → e ∉ (after calls).maker.queues k) ∧
    (∀ T ∈ (after calls).tables, ∀ e ∈ T, (T.length : ℤ) = e.rule.players) ∧
    (∀ k, ((after calls).tablesOf k).flatten ++ (after calls).maker.queues k
      = (after calls).kept k) ∧
    (after calls).results.map (fun r => (r.uid, r.seq))
      = (after calls).tables.flatten.map fun e => (e.uid, e.seq) := by
  obtain ⟨P, hpos, hP⟩ := hsame.exists_players
  have hb : Booked P (after calls) := (booked_init hpos).run hP
  refine ⟨hb.accepted, fun e he => ⟨hb.count_eq_one he, ?_⟩, ?_, hb.blocks, hb.told⟩
  · intro k hk hmem
    exact hk (hb.queued k e hmem).1.symm
  · intro T hT e he
    obtain ⟨k, hlen, hall⟩ := hb.seated T hT
    rw [hlen, (hall e he).2]

def snakeRule : Rule := ⟨"snake", "ranked", 2, 0, 0⟩

/-- Every join succeeds, and all rooms have one name. -/
def sampleRooms : Rooms String Unit := ⟨fun _ => .ok "room", fun _ _ => none⟩

/-- Alice asks and cancels, and asks again; Bob and Carol ask. -/
def sampleCalls : List (Call String Unit) :=
  [.enqueue "alice" snakeRule 1 sampleRooms, .cancel "alice",
    .enqueue "bob" snakeRule 1 sampleRooms, .enqueue "alice" snakeRule 2 sampleRooms,
    .enqueue "carol" snakeRule 5 sampleRooms]

theorem requests_accounted_sample : SamePlayers sampleCalls ∧ (after sampleCalls).tables
        = [[⟨"bob", ⟨1, 1⟩, snakeRule⟩, ⟨"alice", ⟨2, 2⟩, snakeRule⟩]] ∧
      ((after sampleCalls).tablesOf "snake|ranked").flatten
          ++ (after sampleCalls).maker.queues "snake|ranked"
        = (after sampleCalls).kept "snake|ranked" := by
  have hsame : SamePlayers sampleCalls := by decide +kernel
  exact ⟨hsame, by decide +kernel, (requests_accounted sampleCalls hsame).2.2.2.1 "snake|ranked"⟩

end History

end RanGame.Match
