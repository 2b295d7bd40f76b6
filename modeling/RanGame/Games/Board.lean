import RanGame.Games.Snake
import Mathlib.Data.List.Chain
import Mathlib.Data.List.Nodup

/-!
# Snakes on the board

`resolveCollisions` goes over the snakes twice and marks those that die; what it reads is not
changed by that, so it comes to one rule for all snakes at once.

A request is compared with the direction asked for last, not with the way the snake has moved. So
one request cannot turn a snake back on itself, but two before the next tick can. And food is looked
for in 225 pseudo-random cells, which are not all cells.
-/

namespace RanGame.Games

open Function Machine

namespace SnakeGame

open List

/-! ### Collisions -/

/-- Each cell has the entries for it, in order, and every entry has a cell. -/
def Grouped (es : List (Uid × Point)) (cells : List (Point × List Uid)) : Prop :=
  (∀ c ∈ cells, c.2 = (es.filter (·.2 = c.1)).map Prod.fst) ∧ ∀ e ∈ es, ∃ c ∈ cells, c.1 = e.2

theorem Grouped.addHead {es cells} (h : Grouped es cells) (e : Uid × Point) :
    Grouped (es ++ [e]) (addHead cells e) := by
  rw [SnakeGame.addHead]
  split
  next hany =>
    refine ⟨fun c hc => ?_, fun e' he' => ?_⟩
    · obtain ⟨c, hmem, rfl⟩ := mem_map.mp hc
      have hold := h.1 c hmem
      by_cases hp : c.1 = e.2
      · simp [hp, filter_append, hp ▸ hold]
      · simp [hp, Ne.symm hp, filter_append, ← hold]
    · have hold : ∃ c ∈ cells, c.1 = e'.2 := by
        rcases mem_append.mp he' with he' | he'
        · exact h.2 e' he'
        · obtain rfl := mem_singleton.mp he'
          simpa using hany
      obtain ⟨c, hc, hp⟩ := hold
      refine ⟨_, mem_map_of_mem hc, ?_⟩
      split <;> exact hp
  next hnone =>
    simp only [any_eq_true, decide_eq_true_eq, not_exists, not_and] at hnone
    refine ⟨fun c hc => ?_, fun e' he' => ?_⟩
    · rcases mem_append.mp hc with hc | hc
      · simp [filter_append, Ne.symm (hnone c hc), ← h.1 c hc]
      · obtain rfl := mem_singleton.mp hc
        have hnew : es.filter (·.2 = e.2) = [] := by
          refine filter_eq_nil_iff.mpr fun e' he' hp => ?_
          obtain ⟨c, hc, hc'⟩ := h.2 e' he'
          exact hnone c hc (hc'.trans (of_decide_eq_true hp))
        simp [filter_append, hnew]
    · rcases mem_append.mp he' with he' | he'
      · obtain ⟨c, hc, hp⟩ := h.2 e' he'
        exact ⟨c, mem_append_left _ hc, hp⟩
      · obtain rfl := mem_singleton.mp he'
        exact ⟨_, mem_append_right _ mem_cons_self, rfl⟩

theorem Grouped.foldl {es done cells} (h : Grouped done cells) :
    Grouped (done ++ es) (es.foldl SnakeGame.addHead cells) := by
  induction es generalizing done cells with
  | nil => simpa using h
  | cons e es ih => simpa using ih (h.addHead e)

section Collisions

variable {l : Logic} {s : Snake}

theorem one_lt_length_iff {uids : List Uid} (hnodup : uids.Nodup) {uid : Uid} (h : uid ∈ uids) :
    1 < uids.length ↔ ∃ u ∈ uids, u ≠ uid := by
  rw [← Nat.sub_pos_iff_lt, ← length_erase_of_mem h, length_pos_iff_exists_mem]
  simp only [hnodup.mem_erase_iff, and_comm]

/-- A snake dies of its head if another one has its head in the same cell. -/
theorem mem_headOn (rt : Runtime) (hnodup : l.order.Nodup) (hs : s ∈ l.snakes) :
    s.uid ∈ headOn rt l ↔ s.alive = true ∧
      ∃ t ∈ l.snakes, t.alive = true ∧ t.uid ≠ s.uid ∧ t.head = s.head := by
  set heads := (l.snakes.filter Snake.alive).map fun s => (s.uid, s.head) with hheads
  set cells := (rt.heads heads).foldl addHead []
  have hnone : Grouped [] [] := ⟨nofun, nofun⟩
  have hgroup : Grouped (rt.heads heads) cells := hnone.foldl
  -- who has their head in the cell of an entry
  have hmem : ∀ c ∈ cells, ∀ u, u ∈ c.2 ↔
      ∃ t ∈ l.snakes, t.alive = true ∧ t.head = c.1 ∧ t.uid = u := by
    intro c hc u
    rw [hgroup.1 c hc]
    simp only [mem_map, mem_filter, (rt.heads_perm heads).mem_iff]
    simp [hheads, and_assoc]
  have hlen : ∀ c ∈ cells, ∀ u ∈ c.2, 1 < c.2.length ↔ ∃ u' ∈ c.2, u' ≠ u := by
    refine fun c hc u => one_lt_length_iff ?_
    have hfst : (heads.map Prod.fst).Nodup := by
      rw [hheads, map_map]
      exact hnodup.sublist (filter_sublist.map Snake.uid)
    rw [hgroup.1 c hc]
    exact (((rt.heads_perm heads).map Prod.fst).nodup_iff.mpr hfst).sublist
      (filter_sublist.map Prod.fst)
  have hon : s.uid ∈ headOn rt l ↔ ∃ c ∈ cells, s.uid ∈ c.2 ∧ 1 < c.2.length := by
    simp only [headOn, mem_flatMap, (rt.cells_perm _).mem_iff]
    refine exists_congr fun c => and_congr_right fun _ => ?_
    split <;> simp_all
  rw [hon]
  constructor
  · rintro ⟨c, hc, hu, hlong⟩
    obtain ⟨t, ht, halive, hhead, huid⟩ := (hmem c hc _).mp hu
    obtain rfl : t = s := inj_on_of_nodup_map hnodup ht hs huid
    obtain ⟨u, hu', hne⟩ := (hlen c hc _ hu).mp hlong
    obtain ⟨t', ht', halive', hhead', rfl⟩ := (hmem c hc u).mp hu'
    exact ⟨halive, t', ht', halive', hne, hhead'.trans hhead.symm⟩
  · rintro ⟨halive, t, ht, halive', hne, hhead⟩
    obtain ⟨c, hc, hcell⟩ := hgroup.2 (s.uid, s.head) ((rt.heads_perm heads).mem_iff.mpr
      (mem_map_of_mem (mem_filter.mpr ⟨hs, halive⟩)))
    have hu : s.uid ∈ c.2 := (hmem c hc _).mpr ⟨s, hs, halive, hcell.symm, rfl⟩
    refine ⟨c, hc, hu, (hlen c hc _ hu).mpr ⟨t.uid, ?_, hne⟩⟩
    exact (hmem c hc _).mpr ⟨t, ht, halive', hhead.trans hcell.symm, rfl⟩

/-- The rule for all snakes: the head is on the grid, in no body behind its head, and in no cell of
another living head. -/
def Survives (l : Logic) (s : Snake) : Prop :=
  s.alive = true ∧ s.head.outside = false ∧
    (∀ t ∈ l.snakes, t.alive = true → t.uid ≠ s.uid → t.head ≠ s.head) ∧
    ∀ t ∈ l.snakes, s.head ∉ t.tail

instance : Decidable (Survives l s) := inferInstanceAs (Decidable (_ ∧ _))

/-- **The two passes compute the rule.** -/
theorem resolveCollisions_eq (rt : Runtime) (hnodup : l.order.Nodup) : resolveCollisions rt l =
      { l with snakes := l.snakes.map fun s => { s with alive := decide (Survives l s) } } := by
  have hoccupy : ∀ (f : Snake → Snake) (p : Point), (∀ s, (f s).tail = s.tail) →
      occupy { l with snakes := l.snakes.map f } p = occupy l p := by
    intro f p hf
    simp [occupy, hf, comp_def]
  rw [resolveCollisions]
  simp only [map_map]
  congr 1
  refine map_congr_left fun s hs => ?_
  rw [comp_apply, hoccupy _ _ fun s => by split <;> rfl]
  have hon := mem_headOn rt hnodup hs
  by_cases hdead : s.uid ∈ headOn rt l
  · obtain ⟨halive, t, ht, halive', hne, hhead⟩ := hon.mp hdead
    have hnot : ¬ Survives l s := fun h => h.2.2.1 t ht halive' hne hhead
    simp [hdead, hnot, Snake.die]
  · have hsurvives : Survives l s ↔
        s.alive = true ∧ (s.head.outside || occupy l s.head) = false := by
      simp only [hon, not_and, not_exists] at hdead
      simp only [Survives, occupy, Bool.or_eq_false_iff, any_eq_false, decide_eq_true_eq]
      exact ⟨fun h => ⟨h.1, h.2.1, h.2.2.2⟩, fun h => ⟨h.1, h.2.1, hdead h.1, h.2.2⟩⟩
    simp only [if_neg hdead, hsurvives]
    generalize (s.head.outside || occupy l s.head) = hit
    obtain ⟨uid, head, tail, dir, alive, score⟩ := s
    cases alive <;> cases hit <;> rfl

/-- **A snake is alive after the collisions exactly if the rule says so.** -/
theorem alive_resolveCollisions (rt : Runtime) (hnodup : l.order.Nodup) (uid : Uid) :
    (resolveCollisions rt l).snake uid =
      (l.snake uid).map fun s => { s with alive := decide (Survives l s) } := by
  rw [resolveCollisions_eq rt hnodup]
  simp only [Logic.snake, find?_map]
  rfl

/-- Two snakes have run into each other, and a third one into the body of the first. -/
def crash : Logic :=
  ⟨3, [⟨"a", ⟨3, 7⟩, [⟨2, 7⟩, ⟨1, 7⟩], .right, true, 0⟩,
    ⟨"b", ⟨3, 7⟩, [⟨4, 7⟩, ⟨5, 7⟩], .left, true, 0⟩,
    ⟨"c", ⟨2, 7⟩, [⟨2, 6⟩, ⟨2, 5⟩], .down, true, 0⟩], ⟨0, 0⟩, true, false, 9, 0, none⟩

theorem alive_resolveCollisions_crash : (resolveCollisions .plain crash).snake "c" =
      some ⟨"c", ⟨2, 7⟩, [⟨2, 6⟩, ⟨2, 5⟩], .down, false, 0⟩ := by
  rw [alive_resolveCollisions .plain (by decide) "c"]
  decide

end Collisions

/-! ### Food -/

/-- The cells that `relocateFood` looks at, one after the other. -/
def Logic.probes (l : Logic) (i : ℕ) : Point :=
  probe (next^[i + 1] (next l.seed + BitVec.ofNat 64 l.tick))

theorem probe_outside (seed : BitVec 64) : (probe seed).outside = false := by
  have hrange : ∀ a : ℤ, 0 ≤ (a.tmod 15 + 15).tmod 15 ∧ (a.tmod 15 + 15).tmod 15 < 15 := by
    intro a
    have hlow : -15 < a.tmod 15 := Int.lt_tmod_of_pos a (by decide)
    exact ⟨Int.tmod_nonneg _ (by omega), Int.tmod_lt_of_pos _ (by decide)⟩
  have hx := hrange (seed.sshiftRight 16).toInt
  have hy := hrange (seed.sshiftRight 8).toInt
  refine decide_eq_false ?_
  simp only [probe, gridW, gridH]
  omega

theorem search_of_free {occupied : Point → Bool} {n i : ℕ} {seed : BitVec 64} (hi : i < n)
    (hfree : occupied (probe (next^[i + 1] seed)) = false) :
    ∃ p, (search occupied n seed).2 = some p ∧ p.outside = false ∧ occupied p = false := by
  induction n generalizing i seed with
  | zero => omega
  | succ n ih =>
    rw [iterate_succ_apply] at hfree
    rw [search]
    split <;> rename_i hocc
    · cases i with
      | zero => cases hocc.symm.trans hfree
      | succ i => exact ih (Nat.lt_of_succ_lt_succ hi) hfree
    · exact ⟨_, rfl, probe_outside _, Bool.eq_false_of_not_eq_true hocc⟩

/-- A snake along the rows of the grid has taken all cells but the last one. -/
def filling (seed : BitVec 64) : Logic :=
  ⟨1, [⟨"a", ⟨13, 14⟩, ((List.range 223).map fun i : ℕ =>
    ⟨if i / 15 % 2 = 0 then i % 15 else 14 - i % 15, i / 15⟩).reverse, .right, true, 221⟩],
    ⟨13, 14⟩, true, false, 400, seed, none⟩

/-! ### Moving -/

/-- The head has come from the cell behind it, in the direction that was asked for last. -/
def Snake.Straight (s : Snake) : Prop := ∀ p ∈ s.tail.head?, s.head = p.next s.dir

def Snake.Moves (s s' : Snake) : Prop := s' = s.slide ∨ s' = s.grow

/-- The snakes of certain players have moved, if they are alive. -/
def Moved (uids : List Uid) (l l' : Logic) : Prop :=
  ∃ f, l'.snakes = l.snakes.map f ∧ ∀ s ∈ l.snakes,
    if s.uid ∈ uids ∧ s.alive = true then s.Moves (f s) else f s = s

section Moving

variable {l l' : Logic} {s s' : Snake} {uid : Uid}

theorem Snake.Moves.eq (h : s.Moves s') : s'.uid = s.uid ∧ s'.alive = s.alive ∧ s'.dir = s.dir ∧
    s'.head = s.head.next s.dir ∧ s'.tail <+: s.body ∧
    s'.body.length + s.score = s.body.length + s'.score := by
  rcases h with rfl | rfl
  · refine ⟨rfl, rfl, rfl, rfl, dropLast_prefix _, ?_⟩
    simp [Snake.slide, Snake.body]
  · refine ⟨rfl, rfl, rfl, rfl, prefix_rfl, ?_⟩
    simp [Snake.grow, Snake.body]
    omega

theorem Snake.Moves.straight (h : s.Moves s') : s'.Straight := by
  obtain ⟨-, -, hdir, hhead, ⟨rest, hrest⟩, -⟩ := h.eq
  intro p hp
  obtain rfl : p = s.head := by
    cases htail : s'.tail <;> simp_all [Snake.body]
  rw [hhead, hdir]

theorem moved_modify {f : Snake → Snake} (hf : ∀ s : Snake, s.Moves (f s)) (hnodup : l.order.Nodup)
    (hs : s ∈ l.snakes) (halive : s.alive = true) : Moved [s.uid] l (l.modify s.uid f) := by
  refine ⟨_, rfl, fun t ht => ?_⟩
  by_cases hu : t.uid = s.uid
  · obtain rfl := inj_on_of_nodup_map hnodup ht hs hu
    simp [halive, hf]
  · simp [hu]

theorem moved_advance (hnodup : l.order.Nodup) (uid : Uid) : Moved [uid] l (advance l uid) := by
  rw [advance]
  split
  next hnone =>
    refine ⟨id, (map_id _).symm, fun t ht => ?_⟩
    have hne : t.uid ≠ uid := by simpa using find?_eq_none.mp hnone t ht
    simp [hne]
  next s hfind =>
    have hs := mem_of_find?_eq_some hfind
    obtain rfl : s.uid = uid := by simpa using find?_some hfind
    split
    next hdead =>
      refine ⟨id, (map_id _).symm, fun t ht => ?_⟩
      rw [if_neg, id_eq]
      rintro ⟨hu, halive⟩
      obtain rfl := inj_on_of_nodup_map hnodup ht hs (mem_singleton.mp hu)
      simp [halive] at hdead
    next halive =>
      rw [Bool.not_eq_true', Bool.not_eq_false] at halive
      split
      · exact moved_modify (fun _ => .inr rfl) hnodup hs halive
      · exact moved_modify (fun _ => .inl rfl) hnodup hs halive

theorem moved_foldl (hnodup : l.order.Nodup) {uids : List Uid} (huids : uids.Nodup) :
    Moved uids l (uids.foldl advance l) := by
  induction uids generalizing l with
  | nil => exact ⟨id, (map_id _).symm, fun _ _ => by simp⟩
  | cons uid uids ih =>
    obtain ⟨f, hf, hmoves⟩ := moved_advance hnodup uid
    have hsame : ∀ s ∈ l.snakes, (f s).uid = s.uid := by
      intro s hs
      have := hmoves s hs
      split at this
      · exact this.eq.1
      · rw [this]
    have horder : (advance l uid).order = l.order := by
      rw [Logic.order, hf, map_map]
      exact map_congr_left hsame
    obtain ⟨hnew, huids⟩ := nodup_cons.mp huids
    obtain ⟨g, hg, hmoves'⟩ := ih (l := advance l uid) (horder ▸ hnodup) huids
    refine ⟨g ∘ f, ?_, fun s hs => ?_⟩
    · rw [foldl_cons, hg, hf, map_map]
    · have h := hmoves s hs
      have h' := hmoves' (f s) (hf ▸ mem_map_of_mem hs)
      rw [hsame s hs] at h'
      by_cases hu : s.uid = uid
      · rw [if_neg fun hc => hnew (hu ▸ hc.1)] at h'
        simpa [hu, h'] using h
      · obtain hid : f s = s := by simpa [hu] using h
        simpa [hu, hid] using h'

theorem moved_tick (hnodup : l.order.Nodup) (rt : Runtime) : ∃ f : Snake → Snake,
    (resolveCollisions rt (l.order.foldl advance l)).snakes = l.snakes.map f ∧
    ∀ s ∈ l.snakes, (f s).uid = s.uid ∧ ((f s).alive = true → s.Moves (f s) ∧
      Survives (l.order.foldl advance l) (f s) ∧ f s ∈ (l.order.foldl advance l).snakes) := by
  obtain ⟨f, hf, hmoves⟩ := moved_foldl hnodup hnodup
  have hmoved : ∀ s ∈ l.snakes, (f s).uid = s.uid ∧ ((f s).alive = true → s.Moves (f s)) := by
    intro s hs
    have h := hmoves s hs
    split at h
    · exact ⟨h.eq.1, fun _ => h⟩
    next hdead =>
      rw [h]
      exact ⟨rfl, fun halive => absurd ⟨mem_map_of_mem hs, halive⟩ hdead⟩
  have horder : (l.order.foldl advance l).order = l.order := by
    rw [Logic.order, hf, map_map]
    exact map_congr_left fun s hs => (hmoved s hs).1
  rw [resolveCollisions_eq rt (by rwa [horder]), hf, map_map]
  refine ⟨_, rfl, fun s hs => ⟨(hmoved s hs).1, fun halive => ?_⟩⟩
  have hs' := of_decide_eq_true halive
  have hsame : { f s with alive := decide (Survives (l.order.foldl advance l) (f s)) } = f s := by
    simp only [hs', decide_true, ← hs'.1]
  rw [comp_apply, hsame]
  exact ⟨(hmoved s hs).2 hs'.1, hs', mem_map_of_mem hs⟩

end Moving

/-! ### A game of two -/

def Point.Adjacent (p q : Point) : Prop := (p.x - q.x).natAbs + (p.y - q.y).natAbs = 1

/-- A snake as it is in a game that goes on. -/
structure Snake.Sound (s : Snake) : Prop where
  alive : s.alive = true
  length : s.body.length = 3 + s.score
  chain : s.body.IsChain Point.Adjacent
  inside : ∀ p ∈ s.body, p.outside = false
  nodup : s.body.Nodup

/-- Two snakes of different players that have no cell in common. -/
def Snake.Apart (s t : Snake) : Prop := s.uid ≠ t.uid ∧ s.body.Disjoint t.body

/-- The board of a game of two that goes on. -/
structure Placed (snakes : List Snake) : Prop where
  two : snakes.length = 2
  sound : ∀ s ∈ snakes, s.Sound
  apart : snakes.Pairwise Snake.Apart

section Placed

variable {l : Logic} {s s' t t' : Snake}

theorem Snake.Sound.moves (h : s.Sound) (hm : s.Moves s') (hs : Survives l s')
    (hmem : s' ∈ l.snakes) : s'.Sound := by
  obtain ⟨-, halive, -, -, hpre, hlen⟩ := hm.eq
  refine ⟨halive.trans h.alive, ?_, ?_, ?_, ?_⟩
  · have := h.length
    omega
  · obtain ⟨rest, hrest⟩ := hpre
    refine (hrest ▸ h.chain : (s'.tail ++ rest).IsChain _).left_of_append.cons fun p hp => ?_
    rw [hm.straight p hp]
    cases s'.dir <;> simp only [Point.next, Point.Adjacent] <;> omega
  · exact forall_mem_cons.mpr ⟨hs.2.1, fun p hp => h.inside p (hpre.subset hp)⟩
  · exact nodup_cons.mpr ⟨hs.2.2.2 _ hmem, h.nodup.sublist hpre.sublist⟩

theorem Snake.Apart.moves (h : s.Apart t) (hm : s.Moves s') (hm' : t.Moves t')
    (hs : Survives l s') (ht : Survives l t') (hs' : s' ∈ l.snakes) (ht' : t' ∈ l.snakes) :
    s'.Apart t' := by
  obtain ⟨huid, -, -, -, hpre, -⟩ := hm.eq
  obtain ⟨huid', -, -, -, hpre', -⟩ := hm'.eq
  have hne : s'.uid ≠ t'.uid := huid ▸ huid' ▸ h.1
  have htails : s'.tail.Disjoint t'.tail := fun p hp hp' => h.2 (hpre.subset hp) (hpre'.subset hp')
  refine ⟨hne, ?_⟩
  simp only [Snake.body, disjoint_cons_left, disjoint_cons_right, mem_cons, not_or]
  exact ⟨⟨hs.2.2.1 t' ht' ht.1 hne.symm, ht.2.2.2 s' hs'⟩, hs.2.2.2 t' ht', htails⟩

theorem Placed.turn {snakes : List Snake} (h : Placed snakes) {f : Snake → Snake}
    (hf : ∀ s, ∃ d, f s = { s with dir := d }) : Placed (snakes.map f) := by
  refine ⟨(length_map f).trans h.two, forall_mem_map.mpr fun s hs => ?_, ?_⟩
  · obtain ⟨d, hd⟩ := hf s
    rw [hd]
    exact { h.sound s hs with }
  · refine pairwise_map.mpr (h.apart.imp fun {s t} hst => ?_)
    obtain ⟨d, hd⟩ := hf s
    obtain ⟨d', hd'⟩ := hf t
    rw [hd, hd']
    exact hst

theorem Placed.tick (h : Placed l.snakes) (rt : Runtime)
    (halive : 1 < (resolveCollisions rt (l.order.foldl advance l)).aliveSnakes) :
    Placed (resolveCollisions rt (l.order.foldl advance l)).snakes := by
  have hnodup : l.order.Nodup := pairwise_map.mpr (h.apart.imp And.left)
  obtain ⟨f, hf, hmoves⟩ := moved_tick hnodup rt
  rw [Logic.aliveSnakes, hf] at halive
  rw [hf]
  have hlen : (l.snakes.map f).length = 2 := (length_map f).trans h.two
  -- of two snakes both are alive
  have hall : ∀ s ∈ l.snakes, (f s).alive = true := by
    refine forall_mem_map.mp (countP_eq_length.mp (Nat.le_antisymm countP_le_length ?_))
    omega
  refine ⟨hlen, forall_mem_map.mpr fun s hs => ?_, ?_⟩
  · obtain ⟨hm, hsurvives, hmem⟩ := (hmoves s hs).2 (hall s hs)
    exact (h.sound s hs).moves hm hsurvives hmem
  · refine pairwise_map.mpr (h.apart.imp_of_mem fun {s t} hs ht hst => ?_)
    obtain ⟨hm, hsurvives, hmem⟩ := (hmoves s hs).2 (hall s hs)
    obtain ⟨hm', hsurvives', hmem'⟩ := (hmoves t ht).2 (hall t ht)
    exact hst.moves hm hm' hsurvives hsurvives' hmem hmem'

def plays : Act Runtime Request → Bool
  | .message _ _ | .tick _ => true
  | _ => false

/-- What a request does: nothing, or it turns a snake that is not to turn back. -/
theorem logic_onMessage (uid : Uid) (req : Request) (s : Room) :
    onMessage uid req s = s ∨ ∃ t d, s.logic.snake uid = some t ∧ d ≠ t.dir.opposite ∧
      onMessage uid req s = s.setLogic (s.logic.modify uid fun t => { t with dir := d }) := by
  unfold onMessage
  split
  next t ht =>
    split
    · exact .inl rfl
    split
    · exact .inl rfl
    split
    · exact .inl rfl
    · exact .inr ⟨t, _, ht, ‹_›, rfl⟩
  · exact .inl rfl

theorem finished_finish (s : Room) (winner : Uid) : (finish s winner).logic.finished = true := by
  rw [finish, Room.logic_close]
  rfl

/-- The board is in order, unless the game is over. -/
def InOrder (s : Room) : Prop := s.logic.finished = false → Placed s.logic.snakes

theorem InOrder.step {s s' : Room} (h : InOrder s) {a : Act Runtime Request} (ha : plays a = true)
    (hstep : (game 2).step s a = some s') : InOrder s' := by
  cases a with
  | message uid req =>
    cases hstep
    split
    · change InOrder (onMessage uid req s)
      rcases logic_onMessage uid req s with heq | ⟨t, d, -, -, heq⟩
      · rwa [heq]
      · rw [heq]
        refine fun hfin => (h hfin).turn fun t => ?_
        split
        · exact ⟨d, rfl⟩
        · exact ⟨t.dir, rfl⟩
    · exact h
  | tick rt =>
    cases hstep
    change InOrder (onTick rt s)
    rw [onTick]
    dsimp only
    split
    · exact h
    next hrun =>
      simp only [Bool.or_eq_true, not_or, Bool.not_eq_true] at hrun
      split
      · intro hfin
        cases (finished_finish _ _).symm.trans hfin
      next hmany =>
        exact fun _ => (h hrun.2).tick (l := { s.logic with tick := s.logic.tick + 1 }) rt
          (not_le.mp hmany)
  | _ => cases ha

/-- **The board of a game of two is in order** as long as it goes on: both snakes are alive, on the
grid, as long as their scores say and in one piece, and no cell is taken twice. -/
theorem placed_of_run (seed : BitVec 64) {a b : Uid} (hab : a ≠ b)
    {acts : List (Act Runtime Request)} (hacts : ∀ x ∈ acts, plays x = true) {s : Room}
    (hrun : run (game 2).step (newGame 2 seed) (.join a :: .join b :: acts) = some s)
    (hfin : s.logic.finished = false) : Placed s.logic.snakes := by
  obtain ⟨s₁, h₁, hrun⟩ := run_cons_eq_some.mp hrun
  obtain ⟨s₂, h₂, hrun⟩ := run_cons_eq_some.mp hrun
  have hsnakes : s₂.logic.snakes = [newSnake a 0, newSnake b 1] := by
    cases h₁
    cases h₂
    simp [Game.join, game, newGame, newRoom, onJoin, Room.setLogic, Room.emit, hab.symm,
      relocateFood]
  have hplaced : Placed s₂.logic.snakes := by
    rw [hsnakes]
    refine ⟨rfl, forall_mem_cons.mpr ⟨⟨rfl, rfl, ?_, ?_, ?_⟩, forall_mem_singleton.mpr
      ⟨rfl, rfl, ?_, ?_, ?_⟩⟩, pairwise_pair.mpr ⟨hab, ?_⟩⟩
    all_goals simp [newSnake, Snake.body, Point.Adjacent, Point.outside, gridW, gridH]
  exact invariant_of_run (G := fun _ x => plays x = true) (I := InOrder)
    (fun _ _ _ h hx hstep => h.step hx hstep) (fun _ => hplaced)
    (along_of_forall_mem hacts) hrun hfin

def turnOnce : List (Act Runtime Request) := [.message "a" (.move 1), .tick .plain, .tick .plain]

theorem placed_of_run_turnOnce : ∃ s, run (game 2).step (newGame 2 0)
    (.join "a" :: .join "b" :: turnOnce) = some s ∧ Placed s.logic.snakes := by
  obtain ⟨s, hrun, hfin⟩ := exists_of_run (game 2).step (newGame 2 0)
    (.join "a" :: .join "b" :: turnOnce) (fun s : Room => s.logic.finished = false)
    (by decide +kernel)
  exact ⟨s, hrun, placed_of_run 0 (by decide) (by simp [turnOnce, plays]) hrun hfin⟩

end Placed

/-! ### Turning back -/

/-- Will the snake move on to the cell behind its head? -/
def Snake.TurnsBack (s : Snake) : Prop := s.tail.head? = some (s.head.next s.dir)

/-- Living snakes do not turn back, and are straight while a request is still to come. -/
def Ahead (todo : List Uid) (l : Logic) : Prop :=
  l.order.Nodup ∧ ∀ t ∈ l.snakes, t.alive = true → t.Straight ∨ t.uid ∉ todo ∧ ¬ t.TurnsBack

section Ahead

variable {s s' s'' : Room} {todo : List Uid} {uid : Uid} {maxPlayers : ℕ}

theorem Point.next_next_ne (p : Point) {d d' : Dir} (h : d ≠ d'.opposite) :
    (p.next d).next d' ≠ p := by
  obtain ⟨x, y⟩ := p
  cases d <;> cases d' <;> simp [Point.next] <;> first | omega | exact absurd rfl h

theorem Ahead.of_cons {l : Logic} (h : Ahead (uid :: todo) l) : Ahead todo l :=
  ⟨h.1, fun t ht halive => (h.2 t ht halive).imp_right <| And.imp_left (mt (mem_cons_of_mem _))⟩

theorem Ahead.message (h : Ahead (uid :: todo) s.logic) (hnew : uid ∉ todo) (req : Request) :
    Ahead todo (onMessage uid req s).logic := by
  rcases logic_onMessage uid req s with heq | ⟨r, d, hr, hd, heq⟩
  · rw [heq]
    exact h.of_cons
  · rw [heq]
    refine ⟨?_, forall_mem_map.mpr fun t ht => ?_⟩
    · have huids : (s.logic.modify uid fun t => { t with dir := d }).order = s.logic.order := by
        rw [Logic.order, Logic.modify, map_map]
        exact map_congr_left fun t _ => by dsimp only [comp_apply]; split <;> rfl
      exact huids ▸ h.1
    · split
      next hu =>
        intro halive
        have hru : r.uid = uid := by simpa using find?_some hr
        obtain rfl := inj_on_of_nodup_map h.1 ht (mem_of_find?_eq_some hr) (hu.trans hru.symm)
        have hstraight := (h.2 t ht halive).resolve_right fun hback => hback.1 (hu ▸ mem_cons_self)
        exact .inr ⟨hu ▸ hnew, fun hback => Point.next_next_ne _ hd (hstraight _ hback).symm⟩
      · exact h.of_cons.2 t ht

theorem ahead_tick (hnodup : s.logic.order.Nodup) (hstarted : s.logic.started = true)
    (hfin : s.logic.finished = false) (rt : Runtime) (todo : List Uid) :
    Ahead todo (onTick rt s).logic := by
  obtain ⟨f, hf, hmoves⟩ := moved_tick (l := { s.logic with tick := s.logic.tick + 1 }) hnodup rt
  have hsnakes : (onTick rt s).logic.snakes = s.logic.snakes.map f := by
    rw [onTick]
    dsimp only
    rw [if_neg (by simp [hstarted, hfin])]
    split
    · rw [finish, Room.logic_close]
      exact hf
    · exact hf
  constructor
  · rw [Logic.order, hsnakes, map_map]
    exact (map_congr_left fun t ht => (hmoves t ht).1) ▸ hnodup
  · rw [hsnakes]
    exact forall_mem_map.mpr fun t ht halive => .inl ((hmoves t ht).2 halive).1.straight

theorem Ahead.run {reqs : List (Uid × Request)} (h : Ahead (reqs.map Prod.fst) s.logic)
    (hreqs : (reqs.map Prod.fst).Nodup) (hrun : run (game maxPlayers).step s
      (reqs.map fun r => .message r.1 r.2) = some s') : Ahead [] s'.logic := by
  induction reqs generalizing s with
  | nil => exact Option.some.inj hrun ▸ h
  | cons r reqs ih =>
    obtain ⟨s₁, hstep, hrun⟩ := run_cons_eq_some.mp hrun
    obtain ⟨hnew, hreqs⟩ := nodup_cons.mp hreqs
    refine ih ?_ hreqs hrun
    cases hstep
    split
    · exact h.message hnew r.2
    · exact h.of_cons

/-- Two players are there, and the snakes have moved. -/
def firstTick : List (Act Runtime Request) := [.join "a", .join "b", .tick .plain]

end Ahead

end SnakeGame

end RanGame.Games
